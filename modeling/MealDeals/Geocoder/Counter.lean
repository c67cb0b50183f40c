import MealDeals.Firebase.Stream

/-!
# The geocode counter

`addAnnotationFor` adds one to `geocoderCounter` when it schedules a job, and the
completion handler of the job takes one off on each of its branches.  Nothing
else writes the counter; the geocodes of `updateRestaurantLocation` share the
geocoder and leave it alone.  So it is one more than the number of jobs that
wait for their timer or for their geocode.
-/

namespace MealDeals

open Library

namespace MainViewController

/-- The annotation jobs scheduled whose completion handler has not run. -/
def outstanding (self : MainViewController) : List AnnotationJob := self.waiting ++ self.inFlight

/-- The job that an event schedules. -/
def scheduledBy (self : MainViewController) (event : Event) : List AnnotationJob :=
  event.accepted.toList.map self.annotationJob

structure CounterExact (app : MainViewController) : Prop where
  counter : app.geocoderCounter = 1 + (app.outstanding.length : Int)
  delays : ∀ job ∈ app.outstanding, 500 ≤ job.delay

theorem CounterExact.one_le {self : MainViewController} (h : self.CounterExact) :
    1 ≤ self.geocoderCounter := by
  have := h.counter
  omega

theorem CounterExact.next_delay {self : MainViewController} (h : self.CounterExact)
    (restaurant : Restaurant) : 500 ≤ (self.annotationJob restaurant).delay := by
  have := h.one_le
  show 500 ≤ 500 * self.geocoderCounter
  omega

/-! ## Steps -/

theorem now_step {self self' : MainViewController} {event : Event}
    (h : Effect self event self') : self'.now = self.now + event.elapsed := by
  cases h with
  | added dataSnapshot restaurant hr => rw [childAdded_of_ok hr]; rfl
  | changed dataSnapshot restaurant hr => rw [childChanged_of_ok hr]; rfl
  | removed dataSnapshot =>
    obtain ⟨_, _, _, _, _, _, hframe⟩ := self.childRemoved_frame dataSnapshot
    rw [hframe]
    rfl
  | started job => rfl
  | geocoded job reply => rw [annotationGeocoded_eq]; rfl
  | pressed => rw [chevronButtonPressed_eq]; rfl
  | quiet event self' hq same => exact same.now

/-- What an event does to the annotation jobs and their counter. -/
inductive JobEffect (self : MainViewController) : Event → MainViewController → Prop where
  | scheduled (event : Event) (self' : MainViewController) (restaurant : Restaurant)
      (hacc : event.accepted = some restaurant) (hcompleted : event.completed = [])
      (hcounter : self'.geocoderCounter = self.geocoderCounter + 1)
      (hwaiting : self'.waiting = self.waiting ++ [self.annotationJob restaurant])
      (hinFlight : self'.inFlight = self.inFlight) : JobEffect self event self'
  | started (job : AnnotationJob) (self' : MainViewController)
      (hcounter : self'.geocoderCounter = self.geocoderCounter)
      (hwaiting : self'.waiting = self.waiting.erase job)
      (hinFlight : self'.inFlight = self.inFlight ++ [job]) :
      JobEffect self (.annotationStarted job) self'
  | completed (job : AnnotationJob) (reply : GeocodeReply) (self' : MainViewController)
      (hcounter : self'.geocoderCounter = self.geocoderCounter - 1)
      (hwaiting : self'.waiting = self.waiting)
      (hinFlight : self'.inFlight = self.inFlight.erase job) :
      JobEffect self (.annotationGeocoded job reply) self'
  | none (event : Event) (self' : MainViewController)
      (hacc : event.accepted = none) (hcompleted : event.completed = [])
      (hcounter : self'.geocoderCounter = self.geocoderCounter)
      (hwaiting : self'.waiting = self.waiting)
      (hinFlight : self'.inFlight = self.inFlight) : JobEffect self event self'

theorem jobEffect_of_effect {self self' : MainViewController} {event : Event}
    (h : Effect self event self') : JobEffect self event self' := by
  cases h with
  | added dataSnapshot restaurant hr =>
    rw [childAdded_of_ok hr]
    exact .scheduled _ _ restaurant (Event.accepted_childAdded hr) rfl rfl rfl rfl
  | changed dataSnapshot restaurant hr =>
    rw [childChanged_of_ok hr]
    exact .scheduled _ _ restaurant (Event.accepted_childChanged hr) rfl rfl rfl rfl
  | removed dataSnapshot =>
    obtain ⟨_, _, _, _, _, _, hframe⟩ := self.childRemoved_frame dataSnapshot
    rw [hframe]
    exact .none _ _ rfl rfl rfl rfl rfl
  | started job => exact .started job _ rfl rfl rfl
  | geocoded job reply =>
    rw [annotationGeocoded_eq]
    exact .completed job reply _ rfl rfl rfl
  | pressed =>
    rw [chevronButtonPressed_eq]
    exact .none _ _ rfl rfl rfl rfl rfl
  | quiet event self' hq same =>
    exact .none _ _ (Event.accepted_of_quiet hq) (Event.completed_of_quiet hq)
      same.geocoderCounter same.waiting same.inFlight

/-- A job that waits after a step waited before it or has just been scheduled. -/
theorem waiting_step {self self' : MainViewController} {event : Event}
    (h : Effect self event self') :
    ∀ job ∈ self'.waiting, job ∈ self.waiting ∨ job ∈ self.scheduledBy event := by
  intro job hjob
  cases jobEffect_of_effect h with
  | scheduled event self' restaurant hacc hcompleted hcounter hwaiting hinFlight =>
    rw [hwaiting] at hjob
    rw [scheduledBy, hacc]
    exact List.mem_append.mp hjob
  | started started self' hcounter hwaiting hinFlight =>
    rw [hwaiting] at hjob
    exact .inl (List.mem_of_mem_erase hjob)
  | completed completed reply self' hcounter hwaiting hinFlight =>
    rw [hwaiting] at hjob
    exact .inl hjob
  | none event self' hacc hcompleted hcounter hwaiting hinFlight =>
    rw [hwaiting] at hjob
    exact .inl hjob

/-- No job is lost or doubled by a step. -/
theorem outstanding_conserved {self self' : MainViewController} {event : Event}
    (h : Effect self event self') (hpending : self.Pending event) :
    (self.outstanding ++ self.scheduledBy event).Perm (self'.outstanding ++ event.completed) := by
  cases jobEffect_of_effect h with
  | scheduled event self' restaurant hacc hcompleted hcounter hwaiting hinFlight =>
    simp only [outstanding, scheduledBy, hacc, hcompleted, hwaiting, hinFlight,
      Option.toList_some, List.map_cons, List.map_nil, List.append_nil, List.append_assoc]
    exact List.Perm.append_left _ List.perm_append_comm
  | started job self' hcounter hwaiting hinFlight =>
    have hmem : job ∈ self.waiting := hpending
    have htake : (self.waiting ++ self.inFlight).Perm
        (job :: (self.waiting.erase job ++ self.inFlight)) :=
      (List.perm_cons_erase hmem).append_right _
    simp only [outstanding, scheduledBy, Event.accepted, Event.completed, hwaiting, hinFlight,
      Option.toList_none, List.map_nil, List.append_nil]
    refine htake.trans ?_
    rw [← List.append_assoc]
    exact (List.perm_append_singleton _ _).symm
  | completed job reply self' hcounter hwaiting hinFlight =>
    have hmem : job ∈ self.inFlight := hpending
    simp only [outstanding, scheduledBy, Event.accepted, Event.completed, hwaiting, hinFlight,
      Option.toList_none, List.map_nil, List.append_nil, List.append_assoc]
    apply List.Perm.append_left
    exact (List.perm_cons_erase hmem).trans (List.perm_append_singleton _ _).symm
  | none event self' hacc hcompleted hcounter hwaiting hinFlight =>
    simp only [outstanding, scheduledBy, hacc, hcompleted, hwaiting, hinFlight,
      Option.toList_none, List.map_nil]
    exact List.Perm.refl _

/-- A step adds a unit for the job it schedules and takes one off for the job it
completes. -/
theorem geocoderCounter_step {self self' : MainViewController} {event : Event}
    (h : Effect self event self') :
    self'.geocoderCounter =
      self.geocoderCounter + ((self.scheduledBy event).length : Int) -
        (event.completed.length : Int) := by
  cases jobEffect_of_effect h with
  | scheduled event self' restaurant hacc hcompleted hcounter hwaiting hinFlight =>
    simp [hcounter, scheduledBy, hacc, hcompleted]
  | started job self' hcounter hwaiting hinFlight =>
    simp [hcounter, scheduledBy, Event.accepted, Event.completed]
  | completed job reply self' hcounter hwaiting hinFlight =>
    simp [hcounter, scheduledBy, Event.accepted, Event.completed]
  | none event self' hacc hcompleted hcounter hwaiting hinFlight =>
    simp [hcounter, scheduledBy, hacc, hcompleted]

theorem delay_scheduledBy {self : MainViewController} {event : Event} (h : self.CounterExact) :
    ∀ job ∈ self.scheduledBy event, 500 ≤ job.delay := by
  intro job hjob
  obtain ⟨restaurant, -, rfl⟩ := List.mem_map.mp hjob
  exact h.next_delay restaurant

/-- The counter follows the jobs: both sides of the conservation have the same
length, and the same jobs. -/
theorem counterExact_step {self self' : MainViewController} {event : Event}
    (h : Effect self event self') (hpending : self.Pending event) (hself : self.CounterExact) :
    self'.CounterExact := by
  have hconserved := outstanding_conserved h hpending
  have hlength := hconserved.length_eq
  have hcounter := geocoderCounter_step h
  have hold := hself.counter
  rw [List.length_append, List.length_append] at hlength
  refine ⟨by omega, fun job hjob => ?_⟩
  have hmem := hconserved.mem_iff.mpr (List.mem_append_left _ hjob)
  rcases List.mem_append.mp hmem with hjob | hjob
  · exact hself.delays job hjob
  · exact delay_scheduledBy hself job hjob

end MainViewController

/-! ## Runs -/

/-- The jobs that the steps of a run schedule, in the order of the calls. -/
def scheduled (run : List (Step Session Event)) : List AnnotationJob :=
  run.flatMap fun x => x.source.app.scheduledBy x.event

/-- The jobs that the steps of a run complete, in the order of completion. -/
def completed (run : List (Step Session Event)) : List AnnotationJob :=
  run.flatMap fun x => x.event.completed

/-- Along a run, every job that was outstanding or has been scheduled is
outstanding or has been completed, once. -/
theorem jobs_conserved {s t : Session} {es : List Event}
    (h : Session.machine.LegalFrom Session.Pending s es)
    (hexec : Session.machine.execFrom s es = some t) :
    (s.app.outstanding ++ scheduled (Session.machine.stepsFrom s es)).Perm
      (t.app.outstanding ++ completed (Session.machine.stepsFrom s es)) := by
  induction es generalizing s with
  | nil =>
    rw [Option.some.inj hexec]
    exact List.Perm.refl _
  | cons event es ih =>
    obtain ⟨u, hu, hexec⟩ := Machine.execFrom_cons_eq_some hexec
    rw [Machine.legalFrom_cons hu] at h
    rw [Machine.stepsFrom_cons hu]
    have hstep := MainViewController.outstanding_conserved (Session.step_cases hu).1 h.1
    have hrest := ih h.2 hexec
    simp only [scheduled, completed, List.flatMap_cons] at hrest ⊢
    rw [← List.append_assoc]
    refine (hstep.append_right _).trans ?_
    rw [List.append_assoc]
    refine (List.perm_append_comm_assoc _ _ _).trans ?_
    refine (hrest.append_left _).trans ?_
    exact List.perm_append_comm_assoc _ _ _

/-- A job waits only after some call in the run scheduled it. -/
theorem waiting_scheduled (es : List Event) (s : Session) :
    ∀ x ∈ Session.machine.stepsFrom s es, ∀ job ∈ x.source.app.waiting,
      job ∈ s.app.waiting ∨ job ∈ scheduled (Session.machine.stepsFrom s es) := by
  induction es generalizing s with
  | nil => intro x hx; cases hx
  | cons event es ih =>
    intro x hx job hjob
    cases ht : Session.machine.step s event with
    | none => rw [Machine.stepsFrom_trap ht] at hx; cases hx
    | some t =>
      rw [Machine.stepsFrom_cons ht] at hx ⊢
      simp only [scheduled, List.flatMap_cons, List.mem_append]
      rcases List.mem_cons.mp hx with rfl | hx
      · exact .inl hjob
      · rcases ih t x hx job hjob with hwait | hsched
        · rcases MainViewController.waiting_step (Session.step_cases ht).1 job hwait with
            hold | hnew
          · exact .inl hold
          · exact .inr (.inl hnew)
        · exact .inr (.inr hsched)

theorem counterExact_reached {es : List Event} (h : Session.machine.Legal Session.Pending es) :
    ∀ s ∈ Session.machine.reached es, s.app.CounterExact := by
  refine Machine.invariant (I := fun s : Session => s.app.CounterExact) ?_ ?_ h
  · exact ⟨rfl, fun job hjob => by cases hjob⟩
  · intro s e t henv hstep hs
    exact MainViewController.counterExact_step (Session.step_cases hstep).1 henv hs

/-- In every run the counter is one more than the number of outstanding jobs, that
is of the jobs scheduled less those completed; so it is at least one, every delay
is at least 500 ms, and it is back at one when no job is outstanding. -/
theorem geocoderCounter_counts_outstanding (es : List Event)
    (h : Session.machine.Legal Session.Pending es) :
    (∀ s ∈ Session.machine.reached es,
      s.app.geocoderCounter = 1 + (s.app.outstanding.length : Int) ∧
        1 ≤ s.app.geocoderCounter ∧
        (∀ job ∈ s.app.outstanding, 500 ≤ job.delay) ∧
        (∀ restaurant, 500 ≤ (s.app.annotationJob restaurant).delay) ∧
        (s.app.outstanding = [] → s.app.geocoderCounter = 1)) ∧
      ∀ s, Session.machine.exec es = some s →
        (scheduled (Session.machine.run es)).Perm
          (s.app.outstanding ++ completed (Session.machine.run es)) := by
  refine ⟨fun s hs => ?_, fun s hs => jobs_conserved h hs⟩
  have hexact := counterExact_reached h s hs
  refine ⟨hexact.counter, hexact.one_le, hexact.delays, hexact.next_delay, fun hidle => ?_⟩
  rw [hexact.counter, hidle]
  rfl

/-- Two deals are added, of which one is found and one is not, and the panel is opened
meanwhile. -/
theorem geocoderCounter_counts_two_jobs :
    let first : AnnotationJob := ⟨0, .deal "a" "1" "King St" "Wings", 0, 500⟩
    let second : AnnotationJob := ⟨1, .deal "b" "2" "Queen St" "Nachos", 0, 1000⟩
    let es : List Event := [.childAdded (.deal "a" "1" "King St" "Wings"),
      .childAdded (.deal "b" "2" "Queen St" "Nachos"), .elapse 500, .annotationStarted first,
      .chevronButtonPressed, .annotationGeocoded first ⟨some [⟨some ⟨43, -80⟩⟩], none⟩,
      .elapse 500, .chevronAnimationCompleted (some 0), .annotationStarted second,
      .annotationGeocoded second ⟨none, some "offline"⟩]
    (∀ s ∈ Session.machine.reached es,
      s.app.geocoderCounter = 1 + (s.app.outstanding.length : Int) ∧
        1 ≤ s.app.geocoderCounter ∧
        (∀ job ∈ s.app.outstanding, 500 ≤ job.delay) ∧
        (∀ restaurant, 500 ≤ (s.app.annotationJob restaurant).delay) ∧
        (s.app.outstanding = [] → s.app.geocoderCounter = 1)) ∧
      ∀ s, Session.machine.exec es = some s →
        (scheduled (Session.machine.run es)).Perm
          (s.app.outstanding ++ completed (Session.machine.run es)) :=
  geocoderCounter_counts_outstanding _ (by decide)

end MealDeals
