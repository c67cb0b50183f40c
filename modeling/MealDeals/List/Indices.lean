import MealDeals.Firebase.Stream

/-!
# Indices into the list

`updateRestaurantLocation` and `cellForItemAt` index `restaurants` by a page or a
row that comes from the collection view, whose item count is a copy taken when
it last loaded its data.  Every handler that changes the list reloads the
collection view on the same path, so between handlers the copy is the length of
the list, and what is below the one is below the other.
-/

namespace MealDeals

open Library

namespace MainViewController

/-- The collection view has loaded nothing yet, or the list as it is. -/
def ListLoaded (self : MainViewController) : Prop :=
  self.loadedCount = none ∨ self.loadedCount = some self.restaurants.length

/-- Rows and pages that UIKit hands out are below the count it loaded last. -/
def RowsLoaded (self : MainViewController) (event : Event) : Prop :=
  ∀ i ∈ event.index, i < self.loadedCount.getD 0

instance (self : MainViewController) (event : Event) : Decidable (self.RowsLoaded event) :=
  inferInstanceAs (Decidable (∀ _ ∈ _, _))

/-- The events that reload are those whose handlers do. -/
theorem loadedCount_step {self self' : MainViewController} {event : Event}
    (h : Effect self event self') :
    self'.loadedCount =
      if event.reloads then some self'.restaurants.length else self.loadedCount := by
  cases h with
  | added dataSnapshot restaurant hr =>
    rw [childAdded_of_ok hr, Event.reloads, hr]
    simp [Except.isOk, Except.toBool]
  | changed dataSnapshot restaurant hr =>
    rw [childChanged_of_ok hr, Event.reloads, hr]
    simp [Except.isOk, Except.toBool]
  | removed dataSnapshot =>
    cases hl : self.listed dataSnapshot with
    | none => rw [childRemoved_of_not_listed hl]; rfl
    | some restaurant => rw [childRemoved_of_listed hl]; rfl
  | started job => rfl
  | geocoded job reply => rw [annotationGeocoded_eq]; rfl
  | pressed => rw [chevronButtonPressed_eq]; rfl
  | quiet event self' hq same => rw [same.restaurants, same.loadedCount]

/-- What does not reload leaves the list alone. -/
theorem restaurants_of_not_reloads {self self' : MainViewController} {event : Event}
    (h : Effect self event self') (hevent : event.reloads = false) :
    self'.restaurants = self.restaurants := by
  cases h with
  | added dataSnapshot restaurant hr | changed dataSnapshot restaurant hr =>
    rw [Event.reloads, hr] at hevent
    cases hevent
  | removed dataSnapshot => cases hevent
  | started job => rfl
  | geocoded job reply => rw [annotationGeocoded_eq]
  | pressed => rw [chevronButtonPressed_eq]
  | quiet event self' hq same => exact same.restaurants

theorem listLoaded_step {self self' : MainViewController} {event : Event}
    (h : Effect self event self') (hself : self.ListLoaded) : self'.ListLoaded := by
  have hcount := loadedCount_step h
  cases hreloads : event.reloads with
  | true =>
    rw [hreloads] at hcount
    exact .inr hcount
  | false =>
    rw [hreloads] at hcount
    unfold ListLoaded
    rw [hcount, restaurants_of_not_reloads h hreloads]
    exact hself

theorem index_lt {self : MainViewController} {event : Event} (hself : self.ListLoaded)
    (hrows : self.RowsLoaded event) : ∀ i ∈ event.index, i < self.restaurants.length := by
  intro i hi
  have hlt := hrows i hi
  rcases hself with hnone | hloaded
  · rw [hnone] at hlt; exact absurd hlt (Nat.not_lt_zero i)
  · rw [hloaded] at hlt; exact hlt

/-- The only trap is an index out of bounds. -/
theorem updateRestaurantLocation_isSome {self : MainViewController} {page : Option Nat}
    (h : ∀ i ∈ page, i < self.restaurants.length) :
    (self.updateRestaurantLocation page).isSome := by
  cases page with
  | none => rfl
  | some page =>
    have hlt : page < self.restaurants.length := h page rfl
    simp [updateRestaurantLocation, List.getElem?_eq_getElem hlt]

/-- The cell of a row shows its deal, whatever the cell was used for before. -/
theorem cellForItemAt_eq (self : MainViewController) (cell : CollectionViewCell) (row : Nat) :
    self.cellForItemAt cell row = self.restaurants[row]?.map CollectionViewCell.showing := by
  unfold cellForItemAt
  cases self.restaurants[row]? with
  | none => rfl
  | some restaurant => exact congrArg some (CollectionViewCell.render_eq_showing rfl)

theorem step_isSome {self : MainViewController} {event : Event}
    (h : ∀ i ∈ event.index, i < self.restaurants.length) : (self.step event).isSome := by
  cases event with
  | chevronAnimationCompleted page => exact updateRestaurantLocation_isSome h
  | scrollViewDidEndDecelerating page => exact updateRestaurantLocation_isSome h
  | scrollViewDidEndScrollingAnimation page => exact updateRestaurantLocation_isSome h
  | cellForItemAt cell row =>
    have hlt : row < self.restaurants.length := h row rfl
    rw [step, cellForItemAt_eq, List.getElem?_eq_getElem hlt]
    rfl
  | _ => rfl

end MainViewController

/-! ## Runs -/

/-- What UIKit and the run-time promise: closures run once, and rows and pages
are below the count that was loaded last. -/
def Session.Rows (self : Session) (event : Event) : Prop :=
  self.Pending event ∧ self.app.RowsLoaded event

instance (self : Session) (event : Event) : Decidable (self.Rows event) :=
  inferInstanceAs (Decidable (_ ∧ _))

theorem listLoaded_step_session (s : Session) (e : Event) (t : Session) (_ : s.Rows e)
    (hstep : Session.machine.step s e = some t) (hs : s.app.ListLoaded) : t.app.ListLoaded :=
  MainViewController.listLoaded_step (Session.step_cases hstep).1 hs

theorem listLoaded_reached {es : List Event} (h : Session.machine.Legal Session.Rows es) :
    ∀ s ∈ Session.machine.reached es, s.app.ListLoaded :=
  Machine.invariant (I := fun s : Session => s.app.ListLoaded) (.inl rfl)
    listLoaded_step_session h

theorem step_isSome_of_rows {s : Session} {event : Event} (hrows : s.Rows event)
    (hs : s.app.ListLoaded) : (s.step event).isSome := by
  rw [Session.step, Option.isSome_map]
  exact MainViewController.step_isSome (MainViewController.index_lt hs hrows.2)

/-- Whatever the events and their order, in every state reached an event that
UIKit may deliver reads `restaurants` within its bounds, and no run traps. -/
theorem indices_in_bounds (es : List Event) (h : Session.machine.Legal Session.Rows es) :
    (Session.machine.exec es).isSome ∧
      ∀ s ∈ Session.machine.reached es, ∀ event, s.Rows event →
        (∀ i ∈ event.index, i < s.app.restaurants.length) ∧ (s.step event).isSome := by
  constructor
  · exact Machine.execFrom_isSome (I := fun s : Session => s.app.ListLoaded)
      listLoaded_step_session (fun _ _ => step_isSome_of_rows) (.inl rfl) h
  · intro s hs event hrows
    have hloaded := listLoaded_reached h s hs
    exact ⟨MainViewController.index_lt hloaded hrows.2, step_isSome_of_rows hrows hloaded⟩

/-- Two deals, of which the second is scrolled to and the first removed; the list
keeps the removed one. -/
theorem indices_in_bounds_after_removal :
    let es : List Event := [.childAdded (.deal "a" "1" "King St" "Wings"),
      .childAdded (.deal "b" "2" "Queen St" "Nachos"), .cellForItemAt .initial 1,
      .scrollViewDidEndDecelerating (some 1), .childRemoved (.deal "a" "1" "King St" "Wings"),
      .cellForItemAt .initial 0]
    (Session.machine.exec es).isSome ∧
      ∀ s ∈ Session.machine.reached es, ∀ event, s.Rows event →
        (∀ i ∈ event.index, i < s.app.restaurants.length) ∧ (s.step event).isSome :=
  indices_in_bounds _ (by decide)

end MealDeals
