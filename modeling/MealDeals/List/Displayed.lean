import MealDeals.Firebase.Stream

/-!
# The list and the database window

The list refines the window when it holds one restaurant for each live child that
has had a well-formed version since it was added, that of the last such version,
and nothing else.  `childAdded` and `childChanged` keep the refinement, whichever
of the versions are malformed.  The filter of `childRemoved` keeps the removed
restaurant and drops the others, so the refinement survives a removal exactly when
the removed child is not listed.  `list_refines_window_iff` is that statement over
whole streams.
-/

namespace MealDeals

open Library

namespace Session

def ListRefinesWindow (self : Session) : Prop :=
  (self.app.restaurants : Multiset Restaurant) = self.database.restaurants

instance (self : Session) : Decidable self.ListRefinesWindow :=
  inferInstanceAs (Decidable (_ = _))

/-- No `childRemoved` names a restaurant of the list. -/
def RemovesUnlisted (self : Session) : Event → Prop
  | .childRemoved dataSnapshot =>
    ∀ r ∈ self.app.restaurants, dataSnapshot.value.id ≠ some r.id
  | _ => True

end Session

/-! ## The window of a valid stream -/

/-- Every live child has an id of its own, and its restaurant has that id. -/
structure IdsDistinct (live : Dictionary String Child) : Prop where
  hasId : ∀ key child, live.lookup key = some child → child.id.isSome
  ownId : ∀ key child r, live.lookup key = some child → child.wellFormed = some r →
    child.id = some r.id
  distinct : ∀ key key' child child', live.lookup key = some child →
    live.lookup key' = some child' → child.id = child'.id → key = key'

namespace IdsDistinct

theorem empty : IdsDistinct ∅ where
  hasId _ _ h := by cases h
  ownId _ _ _ h := by cases h
  distinct _ _ _ _ h := by cases h

theorem erase {live : Dictionary String Child} (h : IdsDistinct live) (key : String) :
    IdsDistinct (live.erase key) := by
  have hlookup : ∀ key' child, (live.erase key).lookup key' = some child →
      live.lookup key' = some child := by
    intro key' child hchild
    by_cases hkey : key' = key
    · rw [hkey, AList.lookup_erase] at hchild
      cases hchild
    · rwa [AList.lookup_erase_ne hkey] at hchild
  exact {
    hasId := fun k c hc => h.hasId k c (hlookup k c hc)
    ownId := fun k c r hc => h.ownId k c r (hlookup k c hc)
    distinct := fun k k' c c' hc hc' =>
      h.distinct k k' c c' (hlookup k c hc) (hlookup k' c' hc') }

theorem insert {live : Dictionary String Child} (h : IdsDistinct live) {key id : String}
    {child : Child} (hid : child.id = some id)
    (hown : ∀ r, child.wellFormed = some r → r.id = id)
    (hothers : ∀ key' child', key' ≠ key → live.lookup key' = some child' →
      child'.id ≠ some id) :
    IdsDistinct (live.insert key child) := by
  have hlookup : ∀ key' child', (live.insert key child).lookup key' = some child' →
      (key' = key ∧ child' = child) ∨ (key' ≠ key ∧ live.lookup key' = some child') := by
    intro key' child' hchild
    by_cases hkey : key' = key
    · rw [hkey, AList.lookup_insert] at hchild
      exact .inl ⟨hkey, (Option.some.inj hchild).symm⟩
    · rw [AList.lookup_insert_ne hkey] at hchild
      exact .inr ⟨hkey, hchild⟩
  refine ⟨fun k c hc => ?_, fun k c r hc hr => ?_, fun k k' c c' hc hc' heq => ?_⟩
  · rcases hlookup k c hc with ⟨-, rfl⟩ | ⟨-, hold⟩
    · rw [hid]; rfl
    · exact h.hasId k c hold
  · rcases hlookup k c hc with ⟨-, rfl⟩ | ⟨-, hold⟩
    · rw [hid, hown r hr]
    · exact h.ownId k c r hold hr
  · rcases hlookup k c hc with ⟨rfl, rfl⟩ | ⟨hk, hold⟩ <;>
      rcases hlookup k' c' hc' with ⟨rfl, rfl⟩ | ⟨hk', hold'⟩
    · rfl
    · exact absurd (heq.symm.trans hid) (hothers k' c' hk' hold')
    · exact absurd (heq.trans hid) (hothers k c hk hold)
    · exact h.distinct k k' c c' hold hold' heq

/-- The restaurants of the other children have other ids. -/
theorem ne_of_mem_erase {live : Dictionary String Child} (h : IdsDistinct live) {key id : String}
    (hothers : ∀ key' child', key' ≠ key → live.lookup key' = some child' →
      child'.id ≠ some id) :
    ∀ r ∈ Dictionary.values (Dictionary.compactMapValues Child.wellFormed (live.erase key)),
      r.id ≠ id := by
  intro r hr
  obtain ⟨key', hkey'⟩ := Dictionary.mem_values.mp hr
  rw [Dictionary.lookup_compactMapValues] at hkey'
  obtain ⟨child, hchild, hwell⟩ := Option.bind_eq_some_iff.mp hkey'
  by_cases hne : key' = key
  · rw [hne, AList.lookup_erase] at hchild
    cases hchild
  · rw [AList.lookup_erase_ne hne] at hchild
    intro hid
    exact hothers key' child hne hchild (by rw [h.ownId key' child r hchild hwell, hid])

end IdsDistinct

namespace Database

/-- What `IdAgrees` says of the child under the key and of the others. -/
theorem idAgrees_iff {database : Database} {dataSnapshot : DataSnapshot} {id : String}
    (hid : dataSnapshot.value.id = some id) (h : database.IdAgrees dataSnapshot) :
    (∀ child, database.live.lookup dataSnapshot.key = some child →
        child.id = none ∨ child.id = some id) ∧
      ∀ key child, key ≠ dataSnapshot.key → database.live.lookup key = some child →
        child.id ≠ some id := by
  constructor
  · intro child hchild
    have hentry := h ⟨dataSnapshot.key, child⟩ (AList.mem_lookup_iff.mp hchild) id hid
    rwa [if_pos rfl] at hentry
  · intro key child hkey hchild
    have hentry := h ⟨key, child⟩ (AList.mem_lookup_iff.mp hchild) id hid
    rwa [if_neg hkey] at hentry

theorem restaurants_of_childAdded {database : Database} {dataSnapshot : DataSnapshot}
    (hfresh : database.live.lookup dataSnapshot.key = none) :
    (database.observe (.childAdded dataSnapshot)).restaurants =
      ((restaurantOf dataSnapshot).toOption.toList : Multiset Restaurant) +
        database.restaurants := by
  show Dictionary.values (Dictionary.compactMapValues Child.wellFormed
    (database.live.insert dataSnapshot.key _)) = _
  rw [Dictionary.values_compactMapValues_insert, Dictionary.erase_of_lookup_none hfresh]
  rfl

theorem restaurants_of_childChanged {database : Database} {dataSnapshot : DataSnapshot} :
    (database.observe (.childChanged dataSnapshot)).restaurants =
      (((restaurantOf dataSnapshot).toOption <|>
          (database.live.lookup dataSnapshot.key).bind Child.wellFormed).toList :
        Multiset Restaurant) +
        Dictionary.values (Dictionary.compactMapValues Child.wellFormed
          (database.live.erase dataSnapshot.key)) := by
  show Dictionary.values (Dictionary.compactMapValues Child.wellFormed
    (database.live.insert dataSnapshot.key _)) = _
  rw [Dictionary.values_compactMapValues_insert]

theorem restaurants_eq_add (database : Database) (key : String) :
    database.restaurants =
      (((database.live.lookup key).bind Child.wellFormed).toList : Multiset Restaurant) +
        Dictionary.values (Dictionary.compactMapValues Child.wellFormed
          (database.live.erase key)) :=
  Dictionary.values_compactMapValues _ _ _

theorem idsDistinct_observe {database : Database} {event : Event}
    (h : IdsDistinct database.live) (hid : database.ValidId event)
    (hversion : database.ValidVersion event) : IdsDistinct (database.observe event).live := by
  cases event with
  | childAdded dataSnapshot =>
    obtain ⟨id, hsome⟩ := Option.isSome_iff_exists.mp hversion
    refine h.insert hsome (fun r hr => ?_) (idAgrees_iff hsome hid).2
    have hok : restaurantOf dataSnapshot = .ok r := by
      cases hres : restaurantOf dataSnapshot <;> simp_all [Except.toOption]
    exact Option.some.inj ((id_of_restaurantOf hok).symm.trans hsome)
  | childChanged dataSnapshot =>
    obtain ⟨id, hsome⟩ := Option.isSome_iff_exists.mp hversion
    obtain ⟨hown, hothers⟩ := idAgrees_iff hsome hid
    have hchild : (dataSnapshot.value.id <|>
        (database.live.lookup dataSnapshot.key).bind Child.id) = some id := by
      simp [hsome]
    refine h.insert hchild (fun r hr => ?_) hothers
    cases hres : restaurantOf dataSnapshot with
    | ok restaurant =>
      have hrr : restaurant = r := by simpa [hres, Except.toOption] using hr
      rw [← hrr]
      exact Option.some.inj ((id_of_restaurantOf hres).symm.trans hsome)
    | error line =>
      have hold : (database.live.lookup dataSnapshot.key).bind Child.wellFormed = some r := by
        simpa [hres, Except.toOption] using hr
      obtain ⟨child, hchild, hwell⟩ := Option.bind_eq_some_iff.mp hold
      have hcid := h.ownId _ child r hchild hwell
      rcases hown child hchild with hnone | hsame
      · rw [hcid] at hnone; cases hnone
      · exact Option.some.inj (hcid.symm.trans hsame)
  | childRemoved dataSnapshot => exact h.erase _
  | _ => exact h

end Database

/-! ## Steps -/

namespace Session

open MainViewController

theorem listRefinesWindow_added {s t : Session} {dataSnapshot : DataSnapshot}
    (happ : t.app = s.app.childAdded dataSnapshot)
    (hdatabase : t.database = s.database.observe (.childAdded dataSnapshot))
    (hfresh : s.database.live.lookup dataSnapshot.key = none) (hs : s.ListRefinesWindow) :
    t.ListRefinesWindow := by
  unfold ListRefinesWindow at hs ⊢
  rw [hdatabase, Database.restaurants_of_childAdded hfresh, happ, ← hs]
  cases hr : restaurantOf dataSnapshot with
  | error line => rw [childAdded_of_error hr]; simp [print, Except.toOption]
  | ok restaurant =>
    rw [childAdded_of_ok hr]
    simp only [Except.toOption, Option.toList_some, ← Multiset.coe_add]
    exact Multiset.add_comm _ _

/-- A well-formed change: the filter takes out the old version of the child and
nothing else, because the other children have other ids. -/
theorem listRefinesWindow_changed {s t : Session} {dataSnapshot : DataSnapshot}
    (happ : t.app = s.app.childChanged dataSnapshot)
    (hdatabase : t.database = s.database.observe (.childChanged dataSnapshot))
    (hids : IdsDistinct s.database.live) (hagrees : s.database.IdAgrees dataSnapshot)
    (hs : s.ListRefinesWindow) : t.ListRefinesWindow := by
  unfold ListRefinesWindow at hs ⊢
  rw [s.database.restaurants_eq_add dataSnapshot.key] at hs
  rw [hdatabase, Database.restaurants_of_childChanged, happ]
  cases hr : restaurantOf dataSnapshot with
  | error line =>
    rw [childChanged_of_error hr]
    simpa [print, Except.toOption] using hs
  | ok restaurant =>
    obtain ⟨hown, hothers⟩ := Database.idAgrees_iff (id_of_restaurantOf hr) hagrees
    have hrest := hids.ne_of_mem_erase hothers
    have hold : ∀ r ∈ ((s.database.live.lookup dataSnapshot.key).bind Child.wellFormed).toList,
        r.id = restaurant.id := by
      intro r hmem
      obtain ⟨child, hchild, hwell⟩ := Option.bind_eq_some_iff.mp (Option.mem_toList.mp hmem)
      have hcid := hids.ownId _ child r hchild hwell
      rcases hown child hchild with hnone | hsame
      · rw [hcid] at hnone; cases hnone
      · exact Option.some.inj (hcid.symm.trans hsame)
    have hfilter : ((s.app.restaurants.filter fun r => r.id != restaurant.id : List Restaurant) :
        Multiset Restaurant) =
          Dictionary.values (Dictionary.compactMapValues Child.wellFormed
            (s.database.live.erase dataSnapshot.key)) := by
      have hbne : (s.app.restaurants.filter fun r => r.id != restaurant.id) =
          s.app.restaurants.filter fun r => decide (r.id ≠ restaurant.id) :=
        List.filter_congr fun r _ => by rw [Bool.eq_iff_iff]; simp
      rw [hbne, ← Multiset.filter_coe, hs, Multiset.filter_add, Multiset.filter_eq_nil.mpr,
        Multiset.filter_eq_self.mpr hrest, Multiset.zero_add]
      intro r hmem hne
      exact hne (hold r hmem)
    rw [childChanged_of_ok hr]
    show ((_ ++ [restaurant] : List Restaurant) : Multiset Restaurant) = _
    rw [← Multiset.coe_add, hfilter]
    exact Multiset.add_comm _ _

/-- A removal.  If the child was listed, its restaurant stays in the list and is
not in the window any more. -/
theorem listRefinesWindow_removed {s t : Session} {dataSnapshot : DataSnapshot}
    (happ : t.app = s.app.childRemoved dataSnapshot)
    (hdatabase : t.database = s.database.observe (.childRemoved dataSnapshot))
    (hids : IdsDistinct s.database.live) (hagrees : s.database.IdAgrees dataSnapshot)
    (hsome : dataSnapshot.value.id.isSome) (hs : s.ListRefinesWindow) :
    t.ListRefinesWindow ↔ s.RemovesUnlisted (.childRemoved dataSnapshot) := by
  obtain ⟨id, hid⟩ := Option.isSome_iff_exists.mp hsome
  obtain ⟨hown, hothers⟩ := Database.idAgrees_iff hid hagrees
  have hrest := hids.ne_of_mem_erase hothers
  have hwindow : t.database.restaurants =
      Dictionary.values (Dictionary.compactMapValues Child.wellFormed
        (s.database.live.erase dataSnapshot.key)) := by
    rw [hdatabase]
    rfl
  unfold ListRefinesWindow at hs ⊢
  rw [hwindow, happ]
  rw [s.database.restaurants_eq_add dataSnapshot.key] at hs
  cases hl : s.app.listed dataSnapshot with
  | some restaurant =>
    obtain ⟨hrid, hmem⟩ := listed_eq_some hl
    refine iff_of_false (fun heq => ?_) (fun hun => hun restaurant hmem hrid)
    rw [childRemoved_of_listed hl] at heq
    have hkept : restaurant ∈ ((s.app.restaurants.filter fun r => r.id == restaurant.id :
        List Restaurant) : Multiset Restaurant) := by
      simp [hmem]
    have hin := heq ▸ hkept
    exact hrest restaurant hin (Option.some.inj (hrid.symm.trans hid))
  | none =>
    have hun := listed_eq_none hl hid
    refine iff_of_true ?_ fun r hr heq => hun r hr (Option.some.inj (heq.symm.trans hid))
    rw [childRemoved_of_not_listed hl]
    have hnone : ((s.database.live.lookup dataSnapshot.key).bind Child.wellFormed).toList = [] := by
      refine List.eq_nil_iff_forall_not_mem.mpr fun r hmem => ?_
      obtain ⟨child, hchild, hwell⟩ := Option.bind_eq_some_iff.mp (Option.mem_toList.mp hmem)
      have hcid := hids.ownId _ child r hchild hwell
      have hin : r ∈ s.app.restaurants := by
        rw [← Multiset.mem_coe, hs, Multiset.mem_add]
        exact .inl hmem
      rcases hown child hchild with hnone | hsame
      · rw [hcid] at hnone; cases hnone
      · exact hun r hin (Option.some.inj (hcid.symm.trans hsame))
    rw [hnone] at hs
    simpa using hs

theorem listRefinesWindow_step {s t : Session} {event : Event}
    (hstep : s.step event = some t) (hvalid : s.ValidVersions event)
    (hids : IdsDistinct s.database.live) (hs : s.ListRefinesWindow) :
    t.ListRefinesWindow ↔ s.RemovesUnlisted event := by
  obtain ⟨⟨⟨-, hkey⟩, hid⟩, hversion⟩ := hvalid
  obtain ⟨app, happ, rfl⟩ := Option.map_eq_some_iff.mp hstep
  cases event with
  | childAdded dataSnapshot =>
    exact iff_of_true (listRefinesWindow_added (Option.some.inj happ).symm rfl hkey hs) trivial
  | childChanged dataSnapshot =>
    exact iff_of_true (listRefinesWindow_changed (Option.some.inj happ).symm rfl hids hid hs)
      trivial
  | childRemoved dataSnapshot =>
    exact listRefinesWindow_removed (Option.some.inj happ).symm rfl hids hid hversion.1 hs
  | _ =>
    refine iff_of_true ?_ trivial
    have hsame : app.restaurants = s.app.restaurants := restaurants_of_not_database rfl happ
    unfold ListRefinesWindow at hs ⊢
    rw [hsame]
    exact hs

end Session

/-! ## Runs -/

/-- In every run with a valid stream, whatever else happens between its events,
the list refines the window after every step if and only if no `childRemoved`
names a restaurant of the list. -/
theorem list_refines_window_iff (es : List Event)
    (h : Session.machine.Legal Session.ValidVersions es) :
    (∀ s ∈ Session.machine.reached es, s.ListRefinesWindow) ↔
      ∀ x ∈ Session.machine.run es, x.source.RemovesUnlisted x.event := by
  refine Machine.forall_reached_iff (I := fun s : Session => IdsDistinct s.database.live)
    (P := Session.ListRefinesWindow) (C := Session.RemovesUnlisted)
    IdsDistinct.empty (by decide) ?_ ?_ h
  · intro s e t henv hstep hids
    rw [(Session.step_cases hstep).2]
    exact Database.idsDistinct_observe hids henv.1.2 henv.2
  · intro s e t henv hstep hids hs
    exact Session.listRefinesWindow_step hstep henv hids hs

/-- Two deals, one of them changed, and a child that is removed before it gets an
address. -/
theorem list_refines_window_iff_unlisted_removal :
    let es : List Event := [.childAdded (.deal "a" "1" "King St" "Wings"),
      .childAdded (.deal "b" "2" "Queen St" "Nachos"), .childAdded (.stub "c" "3"),
      .childChanged (.deal "a" "1" "King St" "Ribs"), .childRemoved (.stub "c" "3")]
    (∀ s ∈ Session.machine.reached es, s.ListRefinesWindow) ↔
      ∀ x ∈ Session.machine.run es, x.source.RemovesUnlisted x.event :=
  list_refines_window_iff _ (by decide)

/-- Two deals are added and the first removed: the list keeps the first and loses
the second. -/
theorem removal_keeps_removed :
    ∃ es, Session.machine.Legal Session.ValidVersions es ∧
      ¬∀ s ∈ Session.machine.reached es, s.ListRefinesWindow :=
  ⟨[.childAdded (.deal "a" "1" "King St" "Wings"),
    .childAdded (.deal "b" "2" "Queen St" "Nachos"),
    .childRemoved (.deal "a" "1" "King St" "Wings")], by decide, by decide⟩

end MealDeals
