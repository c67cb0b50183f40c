import MealDeals.Controller.Events
import MealDeals.Library.Machine
import Mathlib.Data.Finset.Basic

/-!
# Streams of database events

`Database` is what an observer of the stream alone can say: which children are
live, what their versions were, and which ids have been removed.  The controller
does not read it.  The theorems about the controller are stated against it.

They ask more or less of a stream.  `ValidKeys` is the life cycle of each child key.
`ValidIds` adds that ids are constant per child and differ between live children.
`ValidVersions` adds that every version has a string `id` and that `childRemoved`
shows the last value.
-/

namespace MealDeals

open Library

/-- A live child: the string `id` of its versions since it was added, its last
value, and the restaurant of its last well-formed version. -/
structure Child where
  id : Option String
  value : SnapshotValue
  wellFormed : Option Restaurant
deriving DecidableEq

structure Database where
  -- by child key
  live : Dictionary String Child
  -- ids of well-formed children removed, until a version with the id is accepted
  removed : Finset String
  -- by id, the most recent well-formed version
  latest : Dictionary String Restaurant
  -- the ids of all children removed so far
  everRemoved : Finset String
deriving DecidableEq

namespace Database

def initial : Database where
  live := ∅
  removed := ∅
  latest := ∅
  everRemoved := ∅

def accept (database : Database) (version : Option Restaurant) : Database :=
  match version with
  | none => database
  | some restaurant =>
    { database with
      removed := database.removed.erase restaurant.id
      latest := database.latest.insert restaurant.id restaurant }

def observe (database : Database) : Event → Database
  | .childAdded dataSnapshot =>
    let version := (restaurantOf dataSnapshot).toOption
    { database.accept version with
      live := database.live.insert dataSnapshot.key
        { id := dataSnapshot.value.id, value := dataSnapshot.value, wellFormed := version } }
  | .childChanged dataSnapshot =>
    let version := (restaurantOf dataSnapshot).toOption
    let old := database.live.lookup dataSnapshot.key
    { database.accept version with
      live := database.live.insert dataSnapshot.key
        { id := dataSnapshot.value.id <|> old.bind Child.id
          value := dataSnapshot.value
          wellFormed := version <|> old.bind Child.wellFormed } }
  | .childRemoved dataSnapshot =>
    { database with
      live := database.live.erase dataSnapshot.key
      removed :=
        match (restaurantOf dataSnapshot).toOption with
        | some restaurant => insert restaurant.id database.removed
        | none => database.removed
      everRemoved :=
        match dataSnapshot.value.id with
        | some id => insert id database.everRemoved
        | none => database.everRemoved }
  | _ => database

theorem observe_of_accepted (database : Database) {event : Event} {restaurant : Restaurant}
    (h : event.accepted = some restaurant) :
    ∃ live, database.observe event = { database.accept (some restaurant) with live := live } := by
  cases event with
  | childAdded dataSnapshot =>
    have hr : (restaurantOf dataSnapshot).toOption = some restaurant := h
    exact ⟨_, by rw [observe, hr]⟩
  | childChanged dataSnapshot =>
    have hr : (restaurantOf dataSnapshot).toOption = some restaurant := h
    exact ⟨_, by rw [observe, hr]⟩
  | _ => cases h

theorem latest_of_not_accepted (database : Database) {event : Event}
    (h : event.accepted = none) : (database.observe event).latest = database.latest := by
  cases event with
  | childAdded dataSnapshot =>
    have hr : (restaurantOf dataSnapshot).toOption = none := h
    rw [observe, hr, accept]
  | childChanged dataSnapshot =>
    have hr : (restaurantOf dataSnapshot).toOption = none := h
    rw [observe, hr, accept]
  | _ => rfl

theorem everRemoved_accept (database : Database) (version : Option Restaurant) :
    (database.accept version).everRemoved = database.everRemoved := by
  cases version <;> rfl

/-- An id that has been removed once stays among those. -/
theorem everRemoved_subset (database : Database) (event : Event) :
    database.everRemoved ⊆ (database.observe event).everRemoved := by
  intro id hid
  cases event with
  | childAdded dataSnapshot | childChanged dataSnapshot =>
    show id ∈ (database.accept _).everRemoved
    rw [everRemoved_accept]
    exact hid
  | childRemoved dataSnapshot =>
    cases hr : dataSnapshot.value.id with
    | none => simpa [observe, hr] using hid
    | some removed => simpa [observe, hr] using .inr hid
  | _ => exact hid

/-- The restaurants that the database window holds: one for each live child with
a well-formed version since it was added. -/
def restaurants (database : Database) : Multiset Restaurant :=
  Dictionary.values (Dictionary.compactMapValues Child.wellFormed database.live)

/-- `childAdded` comes for a key that is not live, the other two for one that
is. -/
def ValidKey (database : Database) : Event → Prop
  | .childAdded dataSnapshot => database.live.lookup dataSnapshot.key = none
  | .childChanged dataSnapshot => (database.live.lookup dataSnapshot.key).isSome
  | .childRemoved dataSnapshot => (database.live.lookup dataSnapshot.key).isSome
  | _ => True

/-- The id of a version, where it has one, is the id of the child under its key
and of no other live child. -/
def IdAgrees (database : Database) (dataSnapshot : DataSnapshot) : Prop :=
  ∀ entry ∈ database.live.entries, ∀ id ∈ dataSnapshot.value.id,
    if entry.1 = dataSnapshot.key then
      entry.2.id = none ∨ entry.2.id = some id
    else
      entry.2.id ≠ some id

def ValidId (database : Database) : Event → Prop
  | .childAdded dataSnapshot => database.IdAgrees dataSnapshot
  | .childChanged dataSnapshot => database.IdAgrees dataSnapshot
  | .childRemoved dataSnapshot => database.IdAgrees dataSnapshot
  | _ => True

/-- The snapshot of a removal holds the last value of the child. -/
def IsLastValue (database : Database) (dataSnapshot : DataSnapshot) : Prop :=
  ∀ child ∈ database.live.lookup dataSnapshot.key, child.value = dataSnapshot.value

/-- Every version has a string under `id`. -/
def ValidVersion (database : Database) : Event → Prop
  | .childAdded dataSnapshot => dataSnapshot.value.id.isSome
  | .childChanged dataSnapshot => dataSnapshot.value.id.isSome
  | .childRemoved dataSnapshot =>
    dataSnapshot.value.id.isSome ∧ database.IsLastValue dataSnapshot
  | _ => True

instance (database : Database) (event : Event) : Decidable (database.ValidKey event) := by
  apply @Event.casesOn _ event <;> intros <;> dsimp only [ValidKey] <;> infer_instance

instance (database : Database) (dataSnapshot : DataSnapshot) :
    Decidable (database.IdAgrees dataSnapshot) :=
  inferInstanceAs (Decidable (∀ _ ∈ _, ∀ _ ∈ _, _))

instance (database : Database) (event : Event) : Decidable (database.ValidId event) := by
  apply @Event.casesOn _ event <;> intros <;> dsimp only [ValidId] <;> infer_instance

instance (database : Database) (dataSnapshot : DataSnapshot) :
    Decidable (database.IsLastValue dataSnapshot) :=
  inferInstanceAs (Decidable (∀ _ ∈ _, _))

instance (database : Database) (event : Event) : Decidable (database.ValidVersion event) := by
  apply @Event.casesOn _ event <;> intros <;> dsimp only [ValidVersion] <;> infer_instance

end Database

/-! ## Sessions -/

/-- The controller beside the stream it has received. -/
structure Session where
  app : MainViewController
  database : Database
deriving DecidableEq

namespace Session

def step (self : Session) (event : Event) : Option Session :=
  (self.app.step event).map fun app => ⟨app, self.database.observe event⟩

def machine : Machine Session Event where
  init := ⟨MainViewController.initial.viewDidLoad, Database.initial⟩
  step := step

/-- Every event but a closure that is not waiting to run. -/
def Pending (self : Session) (event : Event) : Prop := self.app.Pending event

def ValidKeys (self : Session) (event : Event) : Prop :=
  self.Pending event ∧ self.database.ValidKey event

def ValidIds (self : Session) (event : Event) : Prop :=
  self.ValidKeys event ∧ self.database.ValidId event

def ValidVersions (self : Session) (event : Event) : Prop :=
  self.ValidIds event ∧ self.database.ValidVersion event

instance (self : Session) (event : Event) : Decidable (self.Pending event) :=
  inferInstanceAs (Decidable (self.app.Pending event))

instance (self : Session) (event : Event) : Decidable (self.ValidKeys event) :=
  inferInstanceAs (Decidable (self.Pending event ∧ self.database.ValidKey event))

instance (self : Session) (event : Event) : Decidable (self.ValidIds event) :=
  inferInstanceAs (Decidable (self.ValidKeys event ∧ self.database.ValidId event))

instance (self : Session) (event : Event) : Decidable (self.ValidVersions event) :=
  inferInstanceAs (Decidable (self.ValidIds event ∧ self.database.ValidVersion event))

/-- A step of a session is an effect of the controller and an observation. -/
theorem step_cases {self self' : Session} {event : Event} (h : self.step event = some self') :
    MainViewController.Effect self.app event self'.app ∧
      self'.database = self.database.observe event := by
  obtain ⟨app, happ, rfl⟩ := Option.map_eq_some_iff.mp h
  exact ⟨MainViewController.step_effect happ, rfl⟩

end Session
end MealDeals
