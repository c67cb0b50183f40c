import MealDeals.Map.Pins

/-!
# Removed deals

`childRemoved` removes the pin that the dictionary holds for the id, if the list
has a restaurant with that id.  Three things leave or bring back a pin of a
removed deal: a pin that had lost its dictionary entry, a restaurant that an
earlier removal had dropped from the list, and a job that was outstanding at the
removal and completes after it.  `removed_stays_removed_iff` says that there is
no fourth.
-/

namespace MealDeals

open Library

namespace Session

/-- No removed deal has a pin or an entry. -/
def RemovedStayRemoved (self : Session) : Prop :=
  ∀ id ∈ self.database.removed,
    (∀ pin ∈ self.app.mapView.annotations, pin.id ≠ id) ∧
      self.app.annotations.lookup id = none

instance (self : Session) : Decidable self.RemovedStayRemoved :=
  inferInstanceAs (Decidable (∀ _ ∈ _, _ ∧ _))

/-- The handler can take every pin of the id off the map: there is none, or the
id is listed and there is none besides the one in the dictionary. -/
def Removable (self : MainViewController) (id : String) : Prop :=
  (∀ pin ∈ self.mapView.annotations, pin.id ≠ id) ∨
    (∃ r ∈ self.restaurants, r.id = id) ∧
      ∀ pin ∈ self.mapView.annotations - ((self.annotations.lookup id).toList : Multiset _),
        pin.id ≠ id

/-- Well-formed children are removed while they are removable, and no geocode
completes with a coordinate for a removed id. -/
def RemovesFinally (self : Session) : Event → Prop
  | .childRemoved dataSnapshot =>
    ∀ restaurant, restaurantOf dataSnapshot = .ok restaurant →
      Removable self.app restaurant.id
  | .annotationGeocoded job reply =>
    reply.coordinate.isSome → job.id ∉ self.database.removed
  | _ => True

end Session

namespace Database

/-- Only the removal of a child adds to the removed ids. -/
theorem removed_subset (database : Database) {event : Event}
    (h : ∀ dataSnapshot, event ≠ .childRemoved dataSnapshot) :
    (database.observe event).removed ⊆ database.removed := by
  cases hacc : event.accepted with
  | some restaurant =>
    obtain ⟨live, hobserve⟩ := database.observe_of_accepted hacc
    rw [hobserve]
    exact Finset.erase_subset _ _
  | none =>
    cases event with
    | childAdded dataSnapshot | childChanged dataSnapshot =>
      have hr : (restaurantOf dataSnapshot).toOption = none := hacc
      rw [observe, hr]
      exact Finset.Subset.refl _
    | childRemoved dataSnapshot => exact absurd rfl (h dataSnapshot)
    | _ => exact Finset.Subset.refl _

end Database

/-! ## Steps -/

namespace MainViewController

theorem lookup_removeAnnotationOf_eq_none {self : MainViewController} {id id' : String}
    (h : self.annotations.lookup id' = none) :
    (self.removeAnnotationOf id).annotations.lookup id' = none := by
  rw [lookup_removeAnnotationOf, h, ite_self]

theorem mem_of_mem_removeAnnotationOf {self : MainViewController} {id : String}
    {pin : MKPointAnnotation} (h : pin ∈ (self.removeAnnotationOf id).mapView.annotations) :
    pin ∈ self.mapView.annotations := by
  rw [pins_removeAnnotationOf] at h
  exact Multiset.mem_of_le (Multiset.sub_le_self _ _) h

end MainViewController

namespace Session

open MainViewController

/-- Fewer removed ids, pins and entries keep the property. -/
theorem removedStayRemoved_mono {s t : Session} (hs : s.RemovedStayRemoved)
    (hremoved : t.database.removed ⊆ s.database.removed)
    (hpins : ∀ pin ∈ t.app.mapView.annotations, pin ∈ s.app.mapView.annotations)
    (hann : ∀ id, s.app.annotations.lookup id = none → t.app.annotations.lookup id = none) :
    t.RemovedStayRemoved := by
  intro id hid
  obtain ⟨hpin, hnone⟩ := hs id (hremoved hid)
  exact ⟨fun pin hmem => hpin pin (hpins pin hmem), hann id hnone⟩

/-- The removal of a child: what is left of its own id decides, since the other
removed ids keep having nothing. -/
theorem removedStayRemoved_childRemoved {s t : Session} {dataSnapshot : DataSnapshot}
    (hs : s.RemovedStayRemoved)
    (hdatabase : t.database = s.database.observe (.childRemoved dataSnapshot))
    (hpins : ∀ pin ∈ t.app.mapView.annotations, pin ∈ s.app.mapView.annotations)
    (hann : ∀ id, s.app.annotations.lookup id = none → t.app.annotations.lookup id = none)
    (hown : ∀ restaurant, restaurantOf dataSnapshot = .ok restaurant →
      (((∀ pin ∈ t.app.mapView.annotations, pin.id ≠ restaurant.id) ∧
          t.app.annotations.lookup restaurant.id = none) ↔
        Removable s.app restaurant.id)) :
    t.RemovedStayRemoved ↔ s.RemovesFinally (.childRemoved dataSnapshot) := by
  cases hr : restaurantOf dataSnapshot with
  | error line =>
    have hremoved : t.database.removed = s.database.removed := by
      simp [hdatabase, Database.observe, hr, Except.toOption]
    refine iff_of_true ?_ fun restaurant hok => ?_
    · exact removedStayRemoved_mono hs (hremoved ▸ Finset.Subset.refl _) hpins hann
    · rw [hr] at hok
      cases hok
  | ok restaurant =>
    have hremoved : t.database.removed = insert restaurant.id s.database.removed := by
      simp [hdatabase, Database.observe, hr, Except.toOption]
    have hown := hown restaurant hr
    constructor
    · intro ht restaurant' hok
      rw [hr] at hok
      rw [← Except.ok.inj hok]
      exact hown.mp (ht restaurant.id (hremoved ▸ Finset.mem_insert_self _ _))
    · intro hguard id hid
      rw [hremoved, Finset.mem_insert] at hid
      rcases hid with rfl | hid
      · exact hown.mpr (hguard restaurant hr)
      · obtain ⟨hpin, hnone⟩ := hs id hid
        exact ⟨fun pin hmem => hpin pin (hpins pin hmem), hann id hnone⟩

theorem removable_of_listed {self : MainViewController} {dataSnapshot : DataSnapshot}
    {listed restaurant : Restaurant} (hl : self.listed dataSnapshot = some listed)
    (hr : restaurantOf dataSnapshot = .ok restaurant) :
    ((∀ pin ∈ (self.removeAnnotationOf listed.id).mapView.annotations, pin.id ≠ restaurant.id) ∧
        (self.removeAnnotationOf listed.id).annotations.lookup restaurant.id = none) ↔
      Removable self restaurant.id := by
  obtain ⟨hid, hmem⟩ := listed_eq_some hl
  have heq : listed.id = restaurant.id :=
    Option.some.inj (hid.symm.trans (id_of_restaurantOf hr))
  rw [heq, pins_removeAnnotationOf]
  have hnone : (self.removeAnnotationOf restaurant.id).annotations.lookup restaurant.id = none :=
    AList.lookup_erase _ _
  constructor
  · rintro ⟨hpins, -⟩
    exact .inr ⟨⟨listed, hmem, heq⟩, hpins⟩
  · rintro (hpins | ⟨-, hpins⟩)
    · exact ⟨fun pin hpin => hpins pin (Multiset.mem_of_le (Multiset.sub_le_self _ _) hpin), hnone⟩
    · exact ⟨hpins, hnone⟩

theorem removable_of_not_listed {self : MainViewController} {dataSnapshot : DataSnapshot}
    {restaurant : Restaurant} (hentered : self.Entered)
    (hl : self.listed dataSnapshot = none) (hr : restaurantOf dataSnapshot = .ok restaurant) :
    ((∀ pin ∈ self.mapView.annotations, pin.id ≠ restaurant.id) ∧
        self.annotations.lookup restaurant.id = none) ↔
      Removable self restaurant.id := by
  constructor
  · rintro ⟨hpins, -⟩
    exact .inl hpins
  · rintro (hpins | ⟨⟨r, hmem, heq⟩, -⟩)
    · refine ⟨hpins, ?_⟩
      cases hlook : self.annotations.lookup restaurant.id with
      | none => rfl
      | some pin =>
        obtain ⟨hmem, hpid⟩ := hentered restaurant.id pin hlook
        exact absurd hpid (hpins pin hmem)
    · exact absurd heq (listed_eq_none hl (id_of_restaurantOf hr) r hmem)

theorem removedStayRemoved_removed {s t : Session} {dataSnapshot : DataSnapshot}
    (happ : t.app = s.app.childRemoved dataSnapshot)
    (hdatabase : t.database = s.database.observe (.childRemoved dataSnapshot))
    (hentered : s.app.Entered) (hs : s.RemovedStayRemoved) :
    t.RemovedStayRemoved ↔ s.RemovesFinally (.childRemoved dataSnapshot) := by
  cases hl : s.app.listed dataSnapshot with
  | none =>
    rw [childRemoved_of_not_listed hl] at happ
    refine removedStayRemoved_childRemoved hs hdatabase ?_ ?_ ?_ <;> rw [happ]
    · exact fun pin hpin => hpin
    · exact fun id hid => hid
    · exact fun restaurant hr => removable_of_not_listed hentered hl hr
  | some listed =>
    rw [childRemoved_of_listed hl] at happ
    refine removedStayRemoved_childRemoved hs hdatabase ?_ ?_ ?_ <;> rw [happ]
    · exact fun pin hpin => mem_of_mem_removeAnnotationOf hpin
    · exact fun id hid => lookup_removeAnnotationOf_eq_none hid
    · exact fun restaurant hr => removable_of_listed hl hr

/-- A new pin is a pin of a removed id exactly when its own id is one. -/
theorem removedStayRemoved_added {s t : Session} {job : AnnotationJob} {reply : GeocodeReply}
    {coordinate : CLLocationCoordinate2D} (hfound : reply.coordinate = some coordinate)
    (hremoved : t.database.removed = s.database.removed)
    (hpins : t.app.mapView.annotations = job.pin coordinate ::ₘ s.app.mapView.annotations)
    (hann : t.app.annotations = s.app.annotations.insert job.id (job.pin coordinate))
    (hs : s.RemovedStayRemoved) :
    t.RemovedStayRemoved ↔ s.RemovesFinally (.annotationGeocoded job reply) := by
  constructor
  · intro ht _ hmem
    obtain ⟨hnopin, -⟩ := ht job.id (hremoved ▸ hmem)
    exact hnopin (job.pin coordinate) (hpins ▸ Multiset.mem_cons_self _ _) rfl
  · intro hguard id hid
    rw [hremoved] at hid
    have hne : job.id ≠ id := by
      intro heq
      exact hguard (by rw [hfound]; rfl) (heq ▸ hid)
    obtain ⟨hnopin, hnone⟩ := hs id hid
    rw [hpins, hann]
    refine ⟨fun pin hpin => ?_, ?_⟩
    · rcases Multiset.mem_cons.mp hpin with rfl | hpin
      · exact hne
      · exact hnopin pin hpin
    · rw [AList.lookup_insert_ne (Ne.symm hne)]
      exact hnone

theorem removesFinally_of_not_found {s : Session} {event : Event}
    (hremoval : ∀ dataSnapshot, event ≠ .childRemoved dataSnapshot)
    (hfound : event.found = none) : s.RemovesFinally event := by
  cases event with
  | childRemoved dataSnapshot => exact absurd rfl (hremoval dataSnapshot)
  | annotationGeocoded job reply =>
    intro hsome
    have hnone : reply.coordinate = none := hfound
    rw [hnone] at hsome
    cases hsome
  | _ => trivial

theorem removedStayRemoved_step {s t : Session} {event : Event}
    (hstep : machine.step s event = some t) (hentered : s.app.Entered)
    (hs : s.RemovedStayRemoved) :
    t.RemovedStayRemoved ↔ s.RemovesFinally event := by
  obtain ⟨app, happ, rfl⟩ := Option.map_eq_some_iff.mp hstep
  by_cases hremoval : ∀ dataSnapshot, event ≠ .childRemoved dataSnapshot
  · have hremoved := s.database.removed_subset hremoval
    cases pinEffect_of_effect (step_effect happ) with
    | removed event app id hfound hpins hann =>
      refine iff_of_true (removedStayRemoved_mono hs hremoved ?_ ?_)
        (removesFinally_of_not_found hremoval hfound)
      · rw [hpins]; exact fun pin hpin => mem_of_mem_removeAnnotationOf hpin
      · rw [hann]; exact fun id hid => lookup_removeAnnotationOf_eq_none hid
    | added job reply app coordinate hfound hpins hann =>
      exact removedStayRemoved_added hfound rfl hpins hann hs
    | none event app hfound hpins hann =>
      refine iff_of_true (removedStayRemoved_mono hs hremoved ?_ ?_)
        (removesFinally_of_not_found hremoval hfound)
      · rw [hpins]; exact fun pin hpin => hpin
      · rw [hann]; exact fun id hid => hid
  · obtain ⟨dataSnapshot, hevent⟩ := not_forall.mp hremoval
    rw [not_not.mp hevent] at happ ⊢
    exact removedStayRemoved_removed (Option.some.inj happ).symm rfl hentered hs

end Session

/-! ## Runs -/

/-- In every run, whatever the stream and the order of starts and completions,
removed deals have no pin and no entry after every step, until a version with
their id is accepted, if and only if every well-formed child is removed while it
is removable and no geocode completes with a coordinate for a removed id. -/
theorem removed_stays_removed_iff (es : List Event) :
    (∀ s ∈ Session.machine.reached es, s.RemovedStayRemoved) ↔
      ∀ x ∈ Session.machine.run es, x.source.RemovesFinally x.event := by
  refine Machine.forall_reached_iff (I := fun s : Session => s.app.Entered)
    (P := Session.RemovedStayRemoved) (C := Session.RemovesFinally) ?_ (by decide) ?_ ?_
    (Machine.legalFrom_true _ es)
  · intro id pin hpin
    cases hpin
  · intro s e t _ hstep hs
    exact MainViewController.entered_step (Session.step_cases hstep).1 hs
  · intro s e t _ hstep hentered hs
    exact Session.removedStayRemoved_step hstep hentered hs

/-- A deal is removed before its timer fires, and its geocode completes after
that. -/
theorem removed_deal_comes_back :
    ∃ es, Session.machine.Legal Session.ValidVersions es ∧
      ¬∀ s ∈ Session.machine.reached es, s.RemovedStayRemoved :=
  let job : AnnotationJob := ⟨0, .deal "a" "1" "King St" "Wings", 0, 500⟩
  ⟨[.childAdded (.deal "a" "1" "King St" "Wings"), .childRemoved (.deal "a" "1" "King St" "Wings"),
    .elapse 500, .annotationStarted job,
    .annotationGeocoded job ⟨some [⟨some ⟨43, -80⟩⟩], none⟩], by decide, by decide⟩

end MealDeals
