import MealDeals.Library.Dictionary

/-!
# Snapshots of database children

The observers read a snapshot in two ways.  `childAdded` and `childChanged` cast
the whole value to a dictionary of strings, which fails when one field is not a
string.  `childRemoved` iterates over the child snapshots and casts the value of
the one under `id` by itself, so it does not depend on the other fields.
-/

namespace MealDeals

open Library

/-- What the database holds under one field: a string, an `NSNumber` (booleans
included), or a dictionary or array, into which no observer looks. -/
inductive FieldValue where
  | string (s : String)
  | number (n : Int)
  | subtree
deriving DecidableEq, Repr

def FieldValue.asString : FieldValue → Option String
  | .string s => some s
  | .number _ => none
  | .subtree => none

/-- The value of the snapshot of one child of `restaurants`. -/
inductive SnapshotValue where
  | leaf (value : FieldValue)
  | dictionary (fields : Dictionary String FieldValue)
deriving DecidableEq

structure DataSnapshot where
  key : String
  value : SnapshotValue
deriving DecidableEq

/-- The snapshot of a child with the given fields. -/
def DataSnapshot.ofFields (key : String) (fields : List (String × FieldValue)) : DataSnapshot where
  key := key
  value := .dictionary (fields.map fun field => ⟨field.1, field.2⟩).toAList

/-- A child with the three fields that the app requires and a title. -/
def DataSnapshot.deal (key id address title : String) : DataSnapshot :=
  .ofFields key [("id", .string id), ("address", .string address), ("name", .string key),
    ("deal_title", .string title)]

/-- A child with an id and nothing else. -/
def DataSnapshot.stub (key id : String) : DataSnapshot := .ofFields key [("id", .string id)]

namespace SnapshotValue

/-- `value as? Dictionary<String, String>`: defined when every field is a
string. -/
def asDictionary : SnapshotValue → Option (Dictionary String String)
  | .leaf _ => none
  | .dictionary fields =>
    if fields.entries.all fun field => field.2.asString.isSome then
      some (Dictionary.compactMapValues FieldValue.asString fields)
    else
      none

/-- The key and value of every child snapshot. -/
def children : SnapshotValue → List (Σ _ : String, FieldValue)
  | .leaf _ => []
  | .dictionary fields => fields.entries

/-- The field `id`, when it is a string. -/
def id : SnapshotValue → Option String
  | .leaf _ => none
  | .dictionary fields => (fields.lookup "id").bind FieldValue.asString

theorem lookup_asDictionary {value : SnapshotValue} {restaurantDict : Dictionary String String}
    (h : value.asDictionary = some restaurantDict) :
    restaurantDict.lookup "id" = value.id := by
  cases value with
  | leaf value => simp [asDictionary] at h
  | dictionary fields =>
    simp only [asDictionary, Option.ite_none_right_eq_some, Option.some.injEq] at h
    rw [← h.2, Dictionary.lookup_compactMapValues]
    rfl

/-- Scanning the children for a string under `id` finds the field `id`, and at
most once. -/
theorem filterMap_children {β : Type} (f : String → Option β) (value : SnapshotValue) :
    (value.children.filterMap fun child =>
      if child.1 = "id" then child.2.asString.bind f else none) = (value.id.bind f).toList := by
  cases value with
  | leaf value => rfl
  | dictionary fields =>
    rw [children, Dictionary.filterMap_entries fun v : FieldValue => v.asString.bind f]
    simp only [id, Option.bind_assoc]

end SnapshotValue
end MealDeals
