import MealDeals.Firebase.Stream

/-!
# The order of the list

`childAdded` and `childChanged` append the version they accept, and everything else
only takes entries out.  So the list is made of accepted versions in the order in
which they were accepted, each of them at most once for every time it was.

A removal never empties the list, because its filter keeps the restaurant that it
removes.  The list is therefore empty exactly until a first version is accepted, and
the chevron, which is hidden only over an empty list, stays on screen from the first
well-formed `childAdded` on.
-/

namespace MealDeals

open Library MainViewController

namespace MainViewController

/-- A step appends the version it accepts and otherwise only drops entries. -/
theorem restaurants_step {self self' : MainViewController} {event : Event}
    (h : Effect self event self') :
    self'.restaurants.Sublist (self.restaurants ++ event.accepted.toList) ∧
      (self'.restaurants = [] ↔ self.restaurants = [] ∧ event.accepted = none) := by
  cases h with
  | added dataSnapshot restaurant hr =>
    rw [childAdded_of_ok hr, Event.accepted_childAdded hr]
    exact ⟨List.Sublist.refl _, by simp⟩
  | changed dataSnapshot restaurant hr =>
    rw [childChanged_of_ok hr, Event.accepted_childChanged hr]
    exact ⟨List.filter_sublist.append_right _, by simp⟩
  | removed dataSnapshot =>
    show _ ∧ (_ ↔ _ ∧ (none : Option Restaurant) = none)
    cases hl : self.listed dataSnapshot with
    | none =>
      rw [childRemoved_of_not_listed hl]
      exact ⟨List.sublist_append_left _ _, by simp⟩
    | some restaurant =>
      rw [childRemoved_of_listed hl]
      have hmem := (listed_eq_some hl).2
      refine ⟨List.filter_sublist.trans (List.sublist_append_left _ _), iff_of_false ?_ ?_⟩
      · exact List.ne_nil_of_mem (List.mem_filter.mpr ⟨hmem, by simp⟩)
      · rintro ⟨hempty, -⟩
        rw [hempty] at hmem
        cases hmem
  | started job => exact ⟨List.sublist_append_left _ _, by simp [annotationStarted, Event.accepted]⟩
  | geocoded job reply =>
    rw [annotationGeocoded_eq]
    exact ⟨List.sublist_append_left _ _, by simp [Event.accepted]⟩
  | pressed =>
    rw [chevronButtonPressed_eq]
    exact ⟨List.sublist_append_left _ _, by simp [Event.accepted]⟩
  | quiet event self' hq same =>
    rw [same.restaurants, Event.accepted_of_quiet hq]
    exact ⟨List.sublist_append_left _ _, by simp⟩

/-- A removal hides the chevron only over an empty list. -/
theorem isHidden_step {self self' : MainViewController} {event : Event}
    (h : Effect self event self') (hlist : self.restaurants ≠ [])
    (hself : self.chevronButton.isHidden = false) : self'.chevronButton.isHidden = false := by
  cases h with
  | added dataSnapshot restaurant hr => rw [childAdded_of_ok hr]
  | changed dataSnapshot restaurant hr => rw [childChanged_of_ok hr]; exact hself
  | removed dataSnapshot =>
    cases hl : self.listed dataSnapshot with
    | none =>
      rw [childRemoved_of_not_listed hl]
      show (self.chevronButton.isHidden || self.restaurants.isEmpty) = false
      rw [hself, Bool.false_or, List.isEmpty_eq_false_iff]
      exact hlist
    | some restaurant => rw [childRemoved_of_listed hl]; exact hself
  | started job => exact hself
  | geocoded job reply => rw [annotationGeocoded_eq]; exact hself
  | pressed => rw [chevronButtonPressed_eq]; exact hself
  | quiet event self' hq same => rw [same.isHidden]; exact hself

end MainViewController

/-! ## Runs -/

/-- In every run the list is a sublist of the versions accepted so far, in the order
of acceptance, and it is empty exactly while none has been accepted. -/
theorem list_ordered_by_acceptance (es : List Event) (t : Session)
    (h : Session.machine.exec es = some t) :
    t.app.restaurants.Sublist (es.filterMap Event.accepted) ∧
      (t.app.restaurants = [] ↔ es.filterMap Event.accepted = []) := by
  rw [List.filterMap_eq_flatMap_toList, List.flatMap_eq_foldl]
  refine Machine.foldl_of_execFrom (M := Session.machine)
    (R := fun (s : Session) accepted => s.app.restaurants.Sublist accepted ∧
      (s.app.restaurants = [] ↔ accepted = [])) ?_
    ⟨List.Sublist.refl _, Iff.rfl⟩ (Machine.legalFrom_true _ es) h
  intro s event u accepted _ hstep hs
  obtain ⟨hsub, hnil⟩ := MainViewController.restaurants_step (Session.step_cases hstep).1
  refine ⟨hsub.trans (hs.1.append_right _), ?_⟩
  rw [hnil, hs.2, List.append_eq_nil_iff, Option.toList_eq_nil_iff]

/-- Two deals are added, the first changes, and the second goes. -/
theorem list_ordered_by_acceptance_change :
    let es : List Event := [.childAdded (.deal "a" "1" "King St" "Wings"),
      .childAdded (.deal "b" "2" "Queen St" "Nachos"),
      .childChanged (.deal "a" "1" "King St" "Ribs"),
      .childRemoved (.deal "b" "2" "Queen St" "Nachos")]
    let t := (Session.machine.exec es).get (by decide)
    t.app.restaurants.Sublist (es.filterMap Event.accepted) ∧
      (t.app.restaurants = [] ↔ es.filterMap Event.accepted = []) :=
  list_ordered_by_acceptance _ _ (Option.some_get _).symm

/-- From the first well-formed `childAdded` on, there are deals and the button that
opens them, whatever comes after it. -/
theorem chevron_stays (before after : List Event) (dataSnapshot : DataSnapshot)
    (restaurant : Restaurant) (t : Session) (hr : restaurantOf dataSnapshot = .ok restaurant)
    (h : Session.machine.exec (before ++ .childAdded dataSnapshot :: after) = some t) :
    t.app.restaurants ≠ [] ∧ t.app.chevronButton.isHidden = false := by
  rw [Machine.exec, Machine.execFrom_append] at h
  obtain ⟨s, -, h⟩ := Option.bind_eq_some_iff.mp h
  obtain ⟨u, hu, h⟩ := Machine.execFrom_cons_eq_some h
  have hadded : u.app.restaurants ≠ [] ∧ u.app.chevronButton.isHidden = false := by
    rw [← Option.some.inj hu]
    show (s.app.childAdded dataSnapshot).restaurants ≠ [] ∧
      (s.app.childAdded dataSnapshot).chevronButton.isHidden = false
    rw [childAdded_of_ok hr]
    exact ⟨by simp, rfl⟩
  refine Machine.invariant_of_execFrom
    (I := fun s : Session => s.app.restaurants ≠ [] ∧ s.app.chevronButton.isHidden = false)
    ?_ hadded (Machine.legalFrom_true u after) h
  intro s event s' _ hstep hs
  have heffect := (Session.step_cases hstep).1
  exact ⟨fun hnil => hs.1 ((restaurants_step heffect).2.mp hnil).1,
    isHidden_step heffect hs.1 hs.2⟩

/-- The only deal is added, shown and removed. -/
theorem chevron_stays_removed :
    let after : List Event := [.chevronButtonPressed,
      .childRemoved (.deal "a" "1" "King St" "Wings")]
    let t := (Session.machine.exec
      ([] ++ .childAdded (.deal "a" "1" "King St" "Wings") :: after)).get (by decide)
    t.app.restaurants ≠ [] ∧ t.app.chevronButton.isHidden = false :=
  chevron_stays [] _ _ (.deal "a" "1" "King St" "Wings") _ rfl (Option.some_get _).symm

end MealDeals
