import MealDeals.Controller.State

/-!
# The cell of a deal

`render` writes every label and `prepareForReuse` resets every one, so a cell that
has shown other deals draws the next one as a new cell would.
-/

namespace MealDeals

/-- The texts of the four labels, and the restaurant they are rendered from. -/
structure CollectionViewCell where
  restaurant : Option Restaurant
  name : Option String
  title : Option String
  details : Option String
  address : Option String
deriving DecidableEq, Repr

namespace CollectionViewCell

def initial : CollectionViewCell where
  restaurant := none
  name := none
  title := none
  details := none
  address := none

def render (self : CollectionViewCell) : CollectionViewCell :=
  match self.restaurant with
  | some restaurant =>
    { self with
      name := some restaurant.name
      title := restaurant.dealTitle
      details := restaurant.dealDescription
      address := some restaurant.address }
  | none => self

def prepareForReuse (self : CollectionViewCell) : CollectionViewCell :=
  { self with restaurant := none, name := none, title := none, details := none, address := none }

/-- A cell that shows a restaurant. -/
def showing (restaurant : Restaurant) : CollectionViewCell where
  restaurant := some restaurant
  name := some restaurant.name
  title := restaurant.dealTitle
  details := restaurant.dealDescription
  address := some restaurant.address

theorem prepareForReuse_eq_initial (self : CollectionViewCell) :
    self.prepareForReuse = initial := rfl

/-- Nothing of what the cell has shown before is left, prepared for reuse or not. -/
theorem render_eq_showing {self : CollectionViewCell} {restaurant : Restaurant}
    (h : self.restaurant = some restaurant) : self.render = showing restaurant := by
  rw [render, h]
  rfl

end CollectionViewCell
end MealDeals
