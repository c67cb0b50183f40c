import MealDeals.Geocoder.Counter
import Mathlib.Algebra.Order.Group.Unbundled.Int

/-!
# The throttle

A call of `addAnnotationFor` starts its geocode 500 ms later for every unit of
the counter.  While nothing completes, each call starts 500 ms after the one
before it or later.  A completion takes 500 ms off the delay of every later
call, and nothing relates that to the starts still to come, so two requests can
start together.

`throttle_spaced_iff` gives the exact condition in terms of the calls alone: when
each call came, and how many calls and completions came before it.
-/

namespace MealDeals

open Library

namespace MainViewController

/-- A job starts its geocode exactly when its delay is over: time does not pass
the start of a waiting job. -/
def OnTime (self : MainViewController) : Event → Prop
  | .annotationStarted job => (self.now : Int) = job.startTime
  | .elapse milliseconds => ∀ job ∈ self.waiting, (self.now + milliseconds : Int) ≤ job.startTime
  | _ => True

instance (self : MainViewController) (event : Event) : Decidable (self.OnTime event) := by
  apply @Event.casesOn _ event <;> intros <;> dsimp only [OnTime] <;> infer_instance

end MainViewController

/-- A call of `addAnnotationFor`: its time, and how many calls and completions came
before it. -/
structure Call where
  time : Nat
  made : Nat
  completed : Nat
deriving DecidableEq, Repr

namespace Call

/-- The calls among some events, from a time and from counts of earlier calls and
completions. -/
def ofEvents (time made completed : Nat) : List Event → List Call
  | [] => []
  | event :: rest =>
    event.accepted.toList.map (fun _ => ⟨time, made, completed⟩) ++
      ofEvents (time + event.elapsed) (made + event.accepted.toList.length)
        (completed + event.completed.length) rest

/-- Between two calls, the time that passed and 500 ms for every call made from
the first on differ from 500 ms for every completion by at least 500 ms. -/
def Spaced (first second : Call) : Prop :=
  let elapsed : Int := second.time - first.time
  let calls : Int := second.made - first.made
  let completions : Int := second.completed - first.completed
  500 * completions + 500 ≤ elapsed + 500 * calls ∨
    elapsed + 500 * calls + 500 ≤ 500 * completions

def startTime (call : Call) : Int := call.time + 500 * (1 + call.made - call.completed)

theorem spaced_iff (first second : Call) :
    Spaced first second ↔ 500 ≤ |second.startTime - first.startTime| := by
  rw [le_abs]
  simp only [Spaced, startTime]
  omega

/-- Two calls are spaced when fewer completions than calls lie between them. -/
theorem Spaced.of_few_completions {first second : Call} (htime : first.time ≤ second.time)
    (hfew : second.completed + first.made < first.completed + second.made) :
    Spaced first second := by
  left
  omega

/-- While nothing completes, time and the number of calls only grow. -/
theorem ofEvents_of_no_completion {es : List Event} (h : ∀ event ∈ es, event.completed = [])
    (time made completed : Nat) :
    ∀ call ∈ ofEvents time made completed es,
      time ≤ call.time ∧ made ≤ call.made ∧ call.completed = completed := by
  induction es generalizing time made completed with
  | nil =>
    intro call hcall
    cases hcall
  | cons event es ih =>
    intro call hcall
    rcases List.mem_append.mp hcall with hnow | hlater
    · obtain ⟨restaurant, -, rfl⟩ := List.mem_map.mp hnow
      exact ⟨Nat.le_refl _, Nat.le_refl _, rfl⟩
    · have hnone : event.completed.length = 0 := by
        rw [h event List.mem_cons_self]
        rfl
      obtain ⟨htime, hmade, hcompleted⟩ :=
        ih (fun e he => h e (List.mem_cons_of_mem event he)) _ _ _ call hlater
      exact ⟨by omega, by omega, by omega⟩

theorem pairwise_spaced_of_no_completion {es : List Event}
    (h : ∀ event ∈ es, event.completed = []) (time made completed : Nat) :
    (ofEvents time made completed es).Pairwise Spaced := by
  induction es generalizing time made completed with
  | nil => exact .nil
  | cons event es ih =>
    have hrest : ∀ e ∈ es, e.completed = [] := fun e he => h e (List.mem_cons_of_mem event he)
    have hnone : event.completed.length = 0 := by
      rw [h event List.mem_cons_self]
      rfl
    refine List.pairwise_append.mpr ⟨?_, ih hrest _ _ _, fun first hfirst second hsecond => ?_⟩
    · cases event.accepted <;> simp
    · obtain ⟨restaurant, hacc, rfl⟩ := List.mem_map.mp hfirst
      obtain ⟨htime, hmade, hcompleted⟩ :=
        ofEvents_of_no_completion hrest _ _ _ second hsecond
      have hone : 0 < event.accepted.toList.length := List.length_pos_of_mem hacc
      apply Spaced.of_few_completions
      · show time ≤ second.time
        omega
      · show second.completed + made < completed + second.made
        omega

end Call

/-- The events that a run executes. -/
def executed (run : List (Step Session Event)) : List Event := run.map Step.event

/-- The start of each scheduled job, from the calls alone. -/
theorem startTimes_eq (es : List Event) (s : Session) (made completed : Nat)
    (hcounter : s.app.geocoderCounter = 1 + (made : Int) - completed) :
    (scheduled (Session.machine.stepsFrom s es)).map AnnotationJob.startTime =
      (Call.ofEvents s.app.now made completed
        (executed (Session.machine.stepsFrom s es))).map Call.startTime := by
  induction es generalizing s made completed with
  | nil => rfl
  | cons event es ih =>
    cases ht : Session.machine.step s event with
    | none => rw [Machine.stepsFrom_trap ht]; rfl
    | some t =>
      have heffect := (Session.step_cases ht).1
      have hnow := MainViewController.now_step heffect
      have hcount : t.app.geocoderCounter =
          1 + ((made + event.accepted.toList.length : Nat) : Int) -
            ((completed + event.completed.length : Nat) : Int) := by
        have hstep := MainViewController.geocoderCounter_step heffect
        rw [MainViewController.scheduledBy, List.length_map] at hstep
        omega
      have hrest := ih t _ _ hcount
      rw [hnow] at hrest
      have hone : (s.app.scheduledBy event).map AnnotationJob.startTime =
          (event.accepted.toList.map fun _ => (⟨s.app.now, made, completed⟩ : Call)).map
            Call.startTime := by
        rw [MainViewController.scheduledBy, List.map_map, List.map_map]
        refine List.map_congr_left fun restaurant _ => ?_
        show (s.app.now : Int) + 500 * s.app.geocoderCounter =
          s.app.now + 500 * (1 + made - completed)
        rw [hcounter]
      rw [Machine.stepsFrom_cons ht]
      simp only [scheduled, executed, List.flatMap_cons, List.map_cons, Call.ofEvents,
        List.map_append] at hrest hone ⊢
      rw [hone, hrest]

/-- The requests of a run start at least 500 ms apart, pair by pair, if and only
if the calls are spaced. -/
theorem startTimes_spaced_iff (es : List Event) :
    (scheduled (Session.machine.run es)).Pairwise
        (fun first second => 500 ≤ |second.startTime - first.startTime|) ↔
      (Call.ofEvents 0 0 0 (executed (Session.machine.run es))).Pairwise Call.Spaced := by
  have heq := startTimes_eq es Session.machine.init 0 0 rfl
  have hspaced : Call.Spaced =
      fun first second : Call => 500 ≤ |second.startTime - first.startTime| := by
    funext first second
    exact propext (Call.spaced_iff first second)
  rw [hspaced, ← List.pairwise_map (f := AnnotationJob.startTime)
      (R := fun first second : Int => 500 ≤ |second - first|),
    ← List.pairwise_map (f := Call.startTime)
      (R := fun first second : Int => 500 ≤ |second - first|)]
  exact iff_of_eq (congrArg _ heq)

/-- A burst is spaced: while no geocode completes, the requests start at least
500 ms apart, whenever the calls come. -/
theorem spaced_of_no_completion (es : List Event)
    (h : ∀ x ∈ Session.machine.run es, x.event.completed = []) :
    (scheduled (Session.machine.run es)).Pairwise
      (fun first second => 500 ≤ |second.startTime - first.startTime|) := by
  rw [startTimes_spaced_iff]
  apply Call.pairwise_spaced_of_no_completion
  intro event hevent
  obtain ⟨x, hx, rfl⟩ := List.mem_map.mp hevent
  exact h x hx

/-- In every run in which each job starts on time, the requests start at their
jobs' start times, and these are at least 500 ms apart, pair by pair, if and only
if the calls are spaced. -/
theorem throttle_spaced_iff (es : List Event)
    (h : Session.machine.Legal (fun s e => s.Pending e ∧ s.app.OnTime e) es) :
    (∀ x ∈ Session.machine.run es, ∀ job, x.event = .annotationStarted job →
        job ∈ scheduled (Session.machine.run es) ∧ (x.source.app.now : Int) = job.startTime) ∧
      ((scheduled (Session.machine.run es)).Pairwise
          (fun first second => 500 ≤ |second.startTime - first.startTime|) ↔
        (Call.ofEvents 0 0 0 (executed (Session.machine.run es))).Pairwise Call.Spaced) := by
  refine ⟨fun x hx job hjob => ?_, startTimes_spaced_iff es⟩
  obtain ⟨hpending, htime⟩ := (Machine.LegalFrom.of_mem h x hx).1
  rw [hjob] at hpending htime
  refine ⟨?_, htime⟩
  rcases waiting_scheduled es Session.machine.init x hx job hpending with hinit | hsched
  · cases hinit
  · exact hsched

/-- Two deals added together and one added when the first pin is on the map. -/
theorem throttle_spaced_iff_burst :
    let first : AnnotationJob := ⟨0, .deal "a" "1" "King St" "Wings", 0, 500⟩
    let es : List Event := [.childAdded (.deal "a" "1" "King St" "Wings"),
      .childAdded (.deal "b" "2" "Queen St" "Nachos"), .elapse 500, .annotationStarted first,
      .annotationGeocoded first ⟨some [⟨some ⟨43, -80⟩⟩], none⟩,
      .childAdded (.deal "c" "3" "Main St" "Tacos")]
    (∀ x ∈ Session.machine.run es, ∀ job, x.event = .annotationStarted job →
        job ∈ scheduled (Session.machine.run es) ∧ (x.source.app.now : Int) = job.startTime) ∧
      ((scheduled (Session.machine.run es)).Pairwise
          (fun first second => 500 ≤ |second.startTime - first.startTime|) ↔
        (Call.ofEvents 0 0 0 (executed (Session.machine.run es))).Pairwise Call.Spaced) :=
  throttle_spaced_iff _ (by decide)

/-- The second call comes while the first geocode is in flight, the third just
after it completed: both wait for two units, and their requests start 2 ms
apart. -/
theorem requests_start_together :
    ∃ es, Session.machine.Legal (fun s e => s.ValidVersions e ∧ s.app.OnTime e) es ∧
      ¬(scheduled (Session.machine.run es)).Pairwise
        (fun first second => 500 ≤ |second.startTime - first.startTime|) :=
  let first : AnnotationJob := ⟨0, .deal "a" "1" "King St" "Wings", 0, 500⟩
  let second : AnnotationJob := ⟨1, .deal "b" "2" "Queen St" "Nachos", 600, 1000⟩
  let third : AnnotationJob := ⟨2, .deal "c" "3" "Main St" "Tacos", 602, 1000⟩
  ⟨[.childAdded (.deal "a" "1" "King St" "Wings"), .elapse 500, .annotationStarted first,
    .elapse 100, .childAdded (.deal "b" "2" "Queen St" "Nachos"), .elapse 1,
    .annotationGeocoded first ⟨some [⟨some ⟨43, -80⟩⟩], none⟩, .elapse 1,
    .childAdded (.deal "c" "3" "Main St" "Tacos"), .elapse 998, .annotationStarted second,
    .elapse 2, .annotationStarted third], by decide, by decide⟩

end MealDeals
