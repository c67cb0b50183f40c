import MealDeals.Geocoder.Counter
import MealDeals.Map.Pins

/-!
# Where pins come from, and pins that stay

Every pin on the map was put there by the geocode of one job, which has completed,
and no job puts two.  So the map never shows more pins than geocodes found a
coordinate, and each shows a version that the app accepted.  The dictionary holds
some of them: an entry is always on the map, under the id of its restaurant.

The converse fails where a second geocode for an id overwrites the entry of the
first.  The first pin is then an orphan.  The app takes pins off the map by their
entries, a job that has completed never completes again, and so an orphan stays:
`orphans_stay` says that nothing the app does later takes it off the map or brings
its entry back.
-/

namespace MealDeals

open Library

/-- The pins that an event puts on the map. -/
def Event.pins : Event → List MKPointAnnotation
  | .annotationGeocoded job reply => reply.coordinate.toList.map job.pin
  | _ => []

theorem Event.createdBy_pins_sublist (event : Event) :
    (event.pins.map MKPointAnnotation.createdBy).Sublist event.completed := by
  cases event with
  | annotationGeocoded job reply =>
    rw [pins, completed, List.map_map]
    cases reply.coordinate with
    | none => exact List.nil_sublist _
    | some coordinate => exact List.Sublist.refl _
  | _ => exact List.Sublist.refl _

namespace MainViewController

/-- The jobs that are outstanding or have a pin on the map. -/
def jobs (self : MainViewController) : Multiset AnnotationJob :=
  (self.outstanding : Multiset AnnotationJob) +
    self.mapView.annotations.map MKPointAnnotation.createdBy

/-- The jobs are told apart by their numbers, and the next number is new. -/
structure JobsDistinct (app : MainViewController) : Prop where
  nodup : (app.jobs.map AnnotationJob.number).Nodup
  fresh : ∀ job ∈ app.jobs, job.number < app.jobsScheduled

/-- A pin without an entry. -/
def Orphaned (self : MainViewController) (pin : MKPointAnnotation) : Prop :=
  pin ∈ self.mapView.annotations ∧ self.annotations.lookup pin.id ≠ some pin

/-! ## Steps -/

theorem pins_step {self self' : MainViewController} {event : Event}
    (h : Effect self event self') :
    self'.mapView.annotations ≤ self.mapView.annotations + (event.pins : Multiset _) := by
  cases pinEffect_of_effect h with
  | removed event self' id hfound hpins hann =>
    rw [hpins, pins_removeAnnotationOf]
    exact (Multiset.sub_le_self _ _).trans (Multiset.le_add_right _ _)
  | added job reply self' coordinate hfound hpins hann =>
    rw [hpins, Event.pins, hfound, Multiset.add_comm]
    exact le_refl _
  | none event self' hfound hpins hann =>
    rw [hpins]
    exact Multiset.le_add_right _ _

/-- A job leaves the outstanding ones when its pin, if there is one, comes onto the
map, so a step adds the jobs that it schedules and no other. -/
theorem jobs_step {self self' : MainViewController} {event : Event}
    (h : Effect self event self') (hpending : self.Pending event) :
    self'.jobs ≤ self.jobs + (self.scheduledBy event : Multiset _) := by
  have hconserved : (self'.outstanding + event.completed : Multiset AnnotationJob) =
      self.outstanding + self.scheduledBy event := by
    rw [Multiset.coe_add, Multiset.coe_add, Multiset.coe_eq_coe]
    exact (outstanding_conserved h hpending).symm
  have hcreated : (self'.mapView.annotations.map MKPointAnnotation.createdBy) ≤
      self.mapView.annotations.map MKPointAnnotation.createdBy +
        (event.completed : Multiset AnnotationJob) := by
    refine (Multiset.map_le_map (pins_step h)).trans ?_
    rw [Multiset.map_add, Multiset.map_coe]
    exact Multiset.add_le_add_left (Multiset.coe_le.mpr event.createdBy_pins_sublist.subperm)
  calc self'.jobs
      ≤ self'.outstanding + (self.mapView.annotations.map MKPointAnnotation.createdBy +
          (event.completed : Multiset AnnotationJob)) := Multiset.add_le_add_left hcreated
    _ = self'.outstanding + event.completed +
          self.mapView.annotations.map MKPointAnnotation.createdBy := by
        rw [add_comm (self.mapView.annotations.map _), add_assoc]
    _ = self.jobs + (self.scheduledBy event : Multiset _) := by
        rw [hconserved, jobs, add_right_comm]

theorem jobsScheduled_step {self self' : MainViewController} {event : Event}
    (h : Effect self event self') :
    self'.jobsScheduled = self.jobsScheduled + (self.scheduledBy event).length := by
  cases h with
  | added dataSnapshot restaurant hr =>
    rw [childAdded_of_ok hr, scheduledBy, Event.accepted_childAdded hr]
    rfl
  | changed dataSnapshot restaurant hr =>
    rw [childChanged_of_ok hr, scheduledBy, Event.accepted_childChanged hr]
    rfl
  | removed dataSnapshot =>
    obtain ⟨_, _, _, _, _, _, hframe⟩ := self.childRemoved_frame dataSnapshot
    rw [hframe]
    rfl
  | started job => rfl
  | geocoded job reply => rw [annotationGeocoded_eq]; rfl
  | pressed => rw [chevronButtonPressed_eq]; rfl
  | quiet event self' hq same =>
    rw [same.jobsScheduled, scheduledBy, Event.accepted_of_quiet hq]
    rfl

theorem number_scheduledBy {self : MainViewController} {event : Event} :
    ∀ job ∈ self.scheduledBy event, job.number = self.jobsScheduled := by
  intro job hjob
  obtain ⟨restaurant, -, rfl⟩ := List.mem_map.mp hjob
  rfl

theorem nodup_scheduledBy (self : MainViewController) (event : Event) :
    ((self.scheduledBy event).map AnnotationJob.number).Nodup := by
  rw [scheduledBy]
  cases event.accepted with
  | none => exact List.nodup_nil
  | some restaurant => exact List.nodup_singleton _

theorem jobsDistinct_step {self self' : MainViewController} {event : Event}
    (h : Effect self event self') (hpending : self.Pending event) (hself : self.JobsDistinct) :
    self'.JobsDistinct := by
  have hjobs := jobs_step h hpending
  have hnext := jobsScheduled_step h
  constructor
  · refine Multiset.nodup_of_le (Multiset.map_le_map hjobs) ?_
    rw [Multiset.map_add, Multiset.nodup_add]
    refine ⟨hself.nodup, by simpa using self.nodup_scheduledBy event, ?_⟩
    rw [Multiset.disjoint_left]
    intro number hold hnew
    obtain ⟨old, hmem, rfl⟩ := Multiset.mem_map.mp hold
    obtain ⟨new, hsched, heq⟩ := Multiset.mem_map.mp hnew
    have := hself.fresh old hmem
    have := number_scheduledBy new (Multiset.mem_coe.mp hsched)
    omega
  · intro job hjob
    rcases Multiset.mem_add.mp (Multiset.mem_of_le hjobs hjob) with hold | hnew
    · have := hself.fresh job hold
      omega
    · have hsched := Multiset.mem_coe.mp hnew
      have := number_scheduledBy job hsched
      have := List.length_pos_of_mem hsched
      omega

/-- A job in flight has no pin yet. -/
theorem JobsDistinct.createdBy_ne {self : MainViewController} (hself : self.JobsDistinct)
    {job : AnnotationJob} (hjob : job ∈ self.outstanding) {pin : MKPointAnnotation}
    (hpin : pin ∈ self.mapView.annotations) : pin.createdBy ≠ job := by
  intro heq
  have hnodup : self.jobs.Nodup := hself.nodup.of_map
  refine Multiset.disjoint_left.mp (Multiset.nodup_add.mp hnodup).2.2
    (Multiset.mem_coe.mpr hjob) ?_
  rw [← heq]
  exact Multiset.mem_map_of_mem _ hpin

/-- The pin that a removal takes off the map has an entry, and the entry that a
completion writes is the pin of another job. -/
theorem orphaned_step {self self' : MainViewController} {event : Event}
    {pin : MKPointAnnotation} (h : Effect self event self') (hpending : self.Pending event)
    (hentered : self.Entered) (hdistinct : self.JobsDistinct) (hpin : self.Orphaned pin) :
    self'.Orphaned pin := by
  obtain ⟨hmem, hlookup⟩ := hpin
  unfold Orphaned
  cases pinEffect_of_effect h with
  | removed event self' id hfound hpins hann =>
    rw [hpins, hann, pins_removeAnnotationOf, lookup_removeAnnotationOf]
    constructor
    · cases hl : self.annotations.lookup id with
      | none => simpa using hmem
      | some entry =>
        have hne : pin ≠ entry := by
          rintro rfl
          rw [(hentered id pin hl).2] at hlookup
          exact hlookup hl
        simpa [Multiset.sub_singleton] using (Multiset.mem_erase_of_ne hne).mpr hmem
    · split
      · exact Option.some_ne_none pin |>.symm
      · exact hlookup
  | added job reply self' coordinate hfound hpins hann =>
    have hne : pin ≠ job.pin coordinate := by
      rintro rfl
      exact hdistinct.createdBy_ne (List.mem_append_right _ hpending) hmem rfl
    rw [hpins, hann]
    refine ⟨Multiset.mem_cons_of_mem hmem, ?_⟩
    by_cases hid : pin.id = job.id
    · rw [hid, AList.lookup_insert]
      exact fun heq => hne (Option.some.inj heq).symm
    · rw [AList.lookup_insert_ne hid]
      exact hlookup
  | none event self' hfound hpins hann =>
    rw [hpins, hann]
    exact ⟨hmem, hlookup⟩

end MainViewController

/-! ## Runs -/

/-- Along a run the jobs that are outstanding or have a pin are among those that
were so before and those that the run schedules. -/
theorem jobs_le {s t : Session} {es : List Event}
    (h : Session.machine.LegalFrom Session.Pending s es)
    (hexec : Session.machine.execFrom s es = some t) :
    t.app.jobs ≤ s.app.jobs + (scheduled (Session.machine.stepsFrom s es) : Multiset _) := by
  induction es generalizing s with
  | nil =>
    rw [Option.some.inj hexec]
    exact Multiset.le_add_right _ _
  | cons event es ih =>
    obtain ⟨u, hu, hexec⟩ := Machine.execFrom_cons_eq_some hexec
    rw [Machine.legalFrom_cons hu] at h
    have hstep := MainViewController.jobs_step (Session.step_cases hu).1 h.1
    rw [Machine.stepsFrom_cons hu, scheduled, List.flatMap_cons, ← Multiset.coe_add, ← add_assoc]
    exact (ih h.2 hexec).trans (Multiset.add_le_add_right hstep)

theorem pins_le {s t : Session} {es : List Event}
    (hexec : Session.machine.execFrom s es = some t) :
    t.app.mapView.annotations ≤
      s.app.mapView.annotations + (es.flatMap Event.pins : Multiset _) := by
  induction es generalizing s with
  | nil =>
    rw [Option.some.inj hexec]
    exact Multiset.le_add_right _ _
  | cons event es ih =>
    obtain ⟨u, hu, hexec⟩ := Machine.execFrom_cons_eq_some hexec
    have hstep := MainViewController.pins_step (Session.step_cases hu).1
    rw [List.flatMap_cons, ← Multiset.coe_add, ← add_assoc]
    exact (ih hexec).trans (Multiset.add_le_add_right hstep)

/-- A run schedules one job for each version that it accepts. -/
theorem restaurants_scheduled {s t : Session} {es : List Event}
    (hexec : Session.machine.execFrom s es = some t) :
    (scheduled (Session.machine.stepsFrom s es)).map AnnotationJob.restaurant =
      es.filterMap Event.accepted := by
  induction es generalizing s with
  | nil => rfl
  | cons event es ih =>
    obtain ⟨u, hu, hexec⟩ := Machine.execFrom_cons_eq_some hexec
    have hrest := ih hexec
    rw [Machine.stepsFrom_cons hu, scheduled, List.flatMap_cons, List.map_append,
      List.filterMap_cons]
    simp only [scheduled] at hrest
    rw [hrest, MainViewController.scheduledBy]
    cases event.accepted <;> rfl

/-- What the events of a run say of the pins at its end. -/
structure PinsAccounted (es : List Event) (app : MainViewController) : Prop where
  onePerJob : (app.mapView.annotations.map MKPointAnnotation.createdBy).Nodup
  geocoded : app.mapView.annotations ≤ (es.flatMap Event.pins : Multiset _)
  accepted : ∀ pin ∈ app.mapView.annotations,
    pin.createdBy.restaurant ∈ es.filterMap Event.accepted
  bounded : app.mapView.annotations.card + app.outstanding.length ≤
    (es.filterMap Event.accepted).length
  entered : app.Entered

theorem entered_init : Session.machine.init.app.Entered :=
  fun id pin hpin => by cases hpin

theorem jobsDistinct_init : Session.machine.init.app.JobsDistinct :=
  ⟨List.nodup_nil, fun job hjob => by cases hjob⟩

/-- In every run each pin on the map is the pin of a completed geocode, no two are
of one job, each shows a version that was accepted, pins and outstanding jobs
together are no more than the versions, and each entry of the dictionary is on the
map under its id. -/
theorem pins_from_geocodes (es : List Event) (t : Session)
    (h : Session.machine.Legal Session.Pending es) (hexec : Session.machine.exec es = some t) :
    PinsAccounted es t.app := by
  have hdistinct : t.app.JobsDistinct :=
    Machine.invariant_of_execFrom (I := fun s : Session => s.app.JobsDistinct)
      (fun s e t henv hstep => MainViewController.jobsDistinct_step (Session.step_cases hstep).1
        henv) jobsDistinct_init h hexec
  have hentered : t.app.Entered :=
    Machine.invariant_of_execFrom (I := fun s : Session => s.app.Entered)
      (fun s e t _ hstep => MainViewController.entered_step (Session.step_cases hstep).1)
      entered_init h hexec
  have hjobs : t.app.jobs ≤ (scheduled (Session.machine.run es) : Multiset _) := by
    refine (jobs_le h hexec).trans ?_
    exact (zero_add _).le
  have hversions : (t.app.jobs.map AnnotationJob.restaurant) ≤
      (es.filterMap Event.accepted : Multiset _) := by
    rw [← restaurants_scheduled hexec, ← Multiset.map_coe]
    exact Multiset.map_le_map hjobs
  refine ⟨?_, ?_, fun pin hpin => ?_, ?_, hentered⟩
  · exact (Multiset.nodup_add.mp hdistinct.nodup.of_map).2.1
  · refine (pins_le hexec).trans ?_
    exact (zero_add _).le
  · have hjob : pin.createdBy ∈ t.app.jobs :=
      Multiset.mem_add.mpr (.inr (Multiset.mem_map_of_mem _ hpin))
    exact Multiset.mem_coe.mp (Multiset.mem_of_le hversions (Multiset.mem_map_of_mem _ hjob))
  · have hcard := Multiset.card_le_card hversions
    rw [Multiset.card_map, MainViewController.jobs, Multiset.card_add, Multiset.card_map,
      Multiset.coe_card, Multiset.coe_card] at hcard
    omega

/-- A deal is added and changes, and the geocode of its first version completes
while that of the second waits. -/
theorem pins_from_geocodes_change :
    let es : List Event := [.childAdded (.deal "a" "1" "King St" "Wings"),
      .childChanged (.deal "a" "1" "King St" "Nachos"), .elapse 500,
      .annotationStarted ⟨0, .deal "a" "1" "King St" "Wings", 0, 500⟩,
      .annotationGeocoded ⟨0, .deal "a" "1" "King St" "Wings", 0, 500⟩
        ⟨some [⟨some ⟨43, -80⟩⟩], none⟩]
    PinsAccounted es ((Session.machine.exec es).get (by decide)).app :=
  pins_from_geocodes _ _ (by decide) (Option.some_get _).symm

/-- In every run a pin that is on the map and not the entry under its id stays so to
the end, whatever is removed, changed or geocoded after it. -/
theorem orphans_stay (before after : List Event) (s t : Session) (pin : MKPointAnnotation)
    (h : Session.machine.Legal Session.Pending (before ++ after))
    (hbefore : Session.machine.exec before = some s)
    (hafter : Session.machine.execFrom s after = some t) (hpin : s.app.Orphaned pin) :
    t.app.Orphaned pin := by
  obtain ⟨hstart, hrest⟩ := Machine.legalFrom_append h hbefore
  have hstep : ∀ (s : Session) e t, s.Pending e → Session.machine.step s e = some t →
      s.app.Entered ∧ s.app.JobsDistinct → t.app.Entered ∧ t.app.JobsDistinct := by
    intro s e t henv hstep hs
    have heffect := (Session.step_cases hstep).1
    exact ⟨MainViewController.entered_step heffect hs.1,
      MainViewController.jobsDistinct_step heffect henv hs.2⟩
  have hs : s.app.Entered ∧ s.app.JobsDistinct :=
    Machine.invariant_of_execFrom (I := fun s : Session => s.app.Entered ∧ s.app.JobsDistinct)
      hstep ⟨entered_init, jobsDistinct_init⟩ hstart hbefore
  refine (Machine.invariant_of_execFrom
    (I := fun s : Session => (s.app.Entered ∧ s.app.JobsDistinct) ∧ s.app.Orphaned pin)
    ?_ ⟨hs, hpin⟩ hrest hafter).2
  intro s e t henv ht hI
  exact ⟨hstep s e t henv ht hI.1, MainViewController.orphaned_step (Session.step_cases ht).1
    henv hI.1.1 hI.1.2 hI.2⟩

/-- The geocodes of two versions of a deal complete, and the deal is removed and added
again. -/
theorem orphans_stay_removed :
    let first : AnnotationJob := ⟨0, .deal "a" "1" "King St" "Wings", 0, 500⟩
    let second : AnnotationJob := ⟨1, .deal "a" "1" "King St" "Nachos", 0, 1000⟩
    let found : GeocodeReply := ⟨some [⟨some ⟨43, -80⟩⟩], none⟩
    let before : List Event := [.childAdded (.deal "a" "1" "King St" "Wings"),
      .childChanged (.deal "a" "1" "King St" "Nachos"), .annotationStarted first,
      .annotationStarted second, .annotationGeocoded first found,
      .annotationGeocoded second found]
    let after : List Event := [.childRemoved (.deal "a" "1" "King St" "Nachos"),
      .childAdded (.deal "a" "1" "King St" "Nachos")]
    let s := (Session.machine.exec before).get (by decide)
    ((Session.machine.execFrom s after).get (by decide)).app.Orphaned (first.pin ⟨43, -80⟩) :=
  orphans_stay _ _ _ _ _ (by decide) (Option.some_get _).symm (Option.some_get _).symm
    ⟨by decide, by decide⟩

end MealDeals
