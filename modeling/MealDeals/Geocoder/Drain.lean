import MealDeals.Geocoder.Line
import MealDeals.Geocoder.Rate

/-!
# Draining

An annotation job takes two steps, its start and its completion, and no event takes
one away or adds one.  So the steps that a run takes and those that its jobs still
need are twice the jobs it was given, and from every state that the app can reach
the jobs can run out, the counter at its first value.
-/

namespace MealDeals

open Library

namespace MainViewController

/-- The starts and completions that the outstanding jobs still need. -/
def work (self : MainViewController) : Nat := 2 * self.waiting.length + self.inFlight.length

theorem work_step {self self' : MainViewController} {event : Event}
    (h : Effect self event self') (hpending : self.Pending event) :
    event.started.length + event.completed.length + self'.work =
      self.work + 2 * (self.scheduledBy event).length := by
  have hwaiting := (waiting_conserved h hpending).length_eq
  have houtstanding := (outstanding_conserved h hpending).length_eq
  simp only [outstanding, List.length_append] at hwaiting houtstanding
  simp only [work]
  omega

end MainViewController

/-! ## Runs -/

theorem work_of_execFrom {s t : Session} {es : List Event}
    (h : Session.machine.LegalFrom Session.Pending s es)
    (hexec : Session.machine.execFrom s es = some t) :
    (started (Session.machine.stepsFrom s es)).length +
        (completed (Session.machine.stepsFrom s es)).length + t.app.work =
      s.app.work + 2 * (scheduled (Session.machine.stepsFrom s es)).length := by
  induction es generalizing s with
  | nil =>
    rw [Option.some.inj hexec]
    exact Nat.zero_add _
  | cons event es ih =>
    obtain ⟨u, hu, hexec⟩ := Machine.execFrom_cons_eq_some hexec
    rw [Machine.legalFrom_cons hu] at h
    have hone := MainViewController.work_step (Session.step_cases hu).1 h.1
    have hrest := ih h.2 hexec
    rw [Machine.stepsFrom_cons hu]
    simp only [started, completed, scheduled, List.flatMap_cons, List.length_append] at hrest ⊢
    omega

/-- Nothing is scheduled while the stream is silent. -/
theorem scheduled_of_silent {es : List Event} (hsilent : ∀ e ∈ es, e.isDatabase = false)
    (s : Session) : scheduled (Session.machine.stepsFrom s es) = [] := by
  induction es generalizing s with
  | nil => rfl
  | cons event es ih =>
    cases ht : Session.machine.step s event with
    | none => rw [Machine.stepsFrom_trap ht]; rfl
    | some t =>
      have hnone : event.accepted = none := by
        have hevent := hsilent event List.mem_cons_self
        cases event with
        | childAdded | childChanged => cases hevent
        | _ => rfl
      rw [Machine.stepsFrom_cons ht, scheduled, List.flatMap_cons,
        MainViewController.scheduledBy, hnone]
      exact ih (fun e he => hsilent e (List.mem_cons_of_mem event he)) t

/-- After any run in which each job starts on time, once the stream is silent, every
start and every completion is one of the steps that the outstanding jobs still
needed; and at every point the app can go on, with geocodes that succeed in order,
until no job is outstanding, the counter is back at one, and the database is as it
was. -/
theorem geocodes_drain (geo : String → CLLocationCoordinate2D) (before after : List Event)
    (s t : Session)
    (h : Session.machine.Legal (fun s e => s.Pending e ∧ s.app.OnTime e) (before ++ after))
    (hsilent : ∀ e ∈ after, e.isDatabase = false)
    (hbefore : Session.machine.exec before = some s)
    (hafter : Session.machine.execFrom s after = some t) :
    (started (Session.machine.stepsFrom s after)).length +
          (completed (Session.machine.stepsFrom s after)).length + t.app.work = s.app.work ∧
      ∃ u, Relation.ReflTransGen (Session.machine.Moves (Session.Offline geo)) t u ∧
        u.app.outstanding = [] ∧ u.app.geocoderCounter = 1 ∧ u.database = t.database := by
  have hexec : Session.machine.exec (before ++ after) = some t := by
    rw [Machine.exec, Machine.execFrom_append]
    exact Option.bind_eq_some_iff.mpr ⟨s, hbefore, hafter⟩
  have htimely : t.app.Timely :=
    Machine.invariant_of_execFrom (I := fun s : Session => s.app.Timely)
      (fun s e t henv hstep => MainViewController.timely_step (Session.step_cases hstep).1
        henv.1 henv.2) Session.timely_initial h hexec
  constructor
  · have hpending : Session.machine.LegalFrom Session.Pending s after :=
      (Machine.legalFrom_append h hbefore).2.mono fun _ _ henv => henv.1
    rw [work_of_execFrom hpending hafter, scheduled_of_silent hsilent]
    rfl
  · obtain ⟨line, hpath, hdrained⟩ := Delayed.exists_drains (D := pinWrites geo) t.app.delayLine
    obtain ⟨u, hmoves, hline, hdatabase⟩ := Session.exists_moves_of_drains htimely hpath
    have hu : u.app.Timely :=
      Machine.Moves.invariant (I := fun s : Session => s.app.Timely)
        (fun _ _ _ henv hstep => Session.timely_step henv.1 hstep) htimely hmoves
    rw [← hline] at hdrained
    have hidle : u.app.outstanding = [] := List.append_eq_nil_iff.mpr hdrained
    refine ⟨u, hmoves, hidle, ?_, hdatabase⟩
    rw [hu.counter.counter, hidle]
    rfl

/-- Two deals are added, the stream falls silent, and the first job completes. -/
theorem geocodes_drain_two_jobs :
    let first : AnnotationJob := ⟨0, .deal "a" "1" "King St" "Wings", 0, 500⟩
    let before : List Event := [.childAdded (.deal "a" "1" "King St" "Wings"),
      .childAdded (.deal "b" "2" "Queen St" "Nachos")]
    let after : List Event := [.elapse 500, .annotationStarted first,
      .annotationGeocoded first ⟨none, some "offline"⟩]
    let s := (Session.machine.exec before).get (by decide)
    let t := (Session.machine.execFrom s after).get (by decide)
    (started (Session.machine.stepsFrom s after)).length +
          (completed (Session.machine.stepsFrom s after)).length + t.app.work = s.app.work ∧
      ∃ u, Relation.ReflTransGen (Session.machine.Moves (Session.Offline fun _ => ⟨43, -80⟩)) t u ∧
        u.app.outstanding = [] ∧ u.app.geocoderCounter = 1 ∧ u.database = t.database :=
  geocodes_drain _ _ _ _ _ (by decide) (by decide) (Option.some_get _).symm
    (Option.some_get _).symm

end MealDeals
