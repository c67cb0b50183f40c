import MealDeals.Geocoder.Throttle
import Mathlib.Order.Interval.Finset.Nat

/-!
# The rate of the requests

`throttle_spaced_iff` says when two requests can start together.  How many can do so
is bounded all the same.  A later call waits for no fewer calls than an earlier one,
and each completion between the two moves it half a second towards the earlier, so
the calls that start in one window of half seconds are no more than the half
seconds and the completions together.
-/

namespace MealDeals

open Library

/-- The jobs whose geocode an event starts. -/
def Event.started : Event → List AnnotationJob
  | .annotationStarted job => [job]
  | _ => []

theorem Event.started_of_quiet {event : Event} (h : event.touchesDeals = false) :
    event.started = [] := by
  cases event with
  | annotationStarted job => cases h
  | _ => rfl

/-! ## Calls in a window -/

namespace Call

/-- No time, call or completion between two calls is undone. -/
structure Before (first second : Call) : Prop where
  time : first.time ≤ second.time
  made : first.made < second.made
  completed : first.completed ≤ second.completed

theorem ofEvents_bounds (es : List Event) (time made completed : Nat) :
    ∀ call ∈ ofEvents time made completed es,
      time ≤ call.time ∧ made ≤ call.made ∧ completed ≤ call.completed ∧
        call.completed ≤ completed + (es.flatMap Event.completed).length := by
  induction es generalizing time made completed with
  | nil =>
    intro call hcall
    cases hcall
  | cons event es ih =>
    intro call hcall
    rw [List.flatMap_cons, List.length_append]
    rcases List.mem_append.mp hcall with hnow | hlater
    · obtain ⟨restaurant, -, rfl⟩ := List.mem_map.mp hnow
      exact ⟨Nat.le_refl _, Nat.le_refl _, Nat.le_refl _, Nat.le_add_right _ _⟩
    · obtain ⟨htime, hmade, hleast, hmost⟩ := ih _ _ _ call hlater
      exact ⟨by omega, by omega, by omega, by omega⟩

theorem pairwise_before (es : List Event) (time made completed : Nat) :
    (ofEvents time made completed es).Pairwise Before := by
  induction es generalizing time made completed with
  | nil => exact .nil
  | cons event es ih =>
    refine List.pairwise_append.mpr ⟨?_, ih _ _ _, fun first hfirst second hsecond => ?_⟩
    · cases event.accepted <;> simp
    · obtain ⟨restaurant, hacc, rfl⟩ := List.mem_map.mp hfirst
      obtain ⟨htime, hmade, hleast, -⟩ := ofEvents_bounds es _ _ _ second hsecond
      have hone : 0 < event.accepted.toList.length := List.length_pos_of_mem hacc
      constructor
      · show time ≤ second.time
        omega
      · show made < second.made
        omega
      · show completed ≤ second.completed
        omega

/-- Calls that start in a window of `n` half seconds, with `most` completions or
fewer before each.  Their counts of calls differ, and all lie in one interval of
`n + most` numbers from that of the first. -/
theorem length_le_of_window {calls : List Call} (start : Int) {n most : Nat}
    (hbefore : calls.Pairwise Before) (hmost : ∀ call ∈ calls, call.completed ≤ most)
    (hwindow : ∀ call ∈ calls, start ≤ call.startTime ∧ call.startTime < start + 500 * n) :
    calls.length ≤ n + most := by
  cases calls with
  | nil => exact Nat.zero_le _
  | cons first rest =>
    have hlater := (List.pairwise_cons.mp hbefore).1
    have hfirst := hwindow first List.mem_cons_self
    have hnodup : ((first :: rest).map Call.made).Nodup :=
      List.pairwise_map.mpr (hbefore.imp fun hcalls => Nat.ne_of_lt hcalls.made)
    have hrange : ((first :: rest).map Call.made).toFinset ⊆
        Finset.Ico first.made (first.made + (n + most)) := by
      intro made hmade
      obtain ⟨call, hcall, rfl⟩ := List.mem_map.mp (List.mem_toFinset.mp hmade)
      rw [Finset.mem_Ico]
      have hstart := hwindow call hcall
      have hcompleted := hmost call hcall
      simp only [startTime] at hfirst hstart
      rcases List.mem_cons.mp hcall with rfl | hcall
      · omega
      · have hcalls := hlater call hcall
        have := hcalls.time
        have := hcalls.made
        omega
    have hcard := Finset.card_le_card hrange
    rw [List.toFinset_card_of_nodup hnodup, List.length_map, Nat.card_Ico] at hcard
    omega

end Call

/-! ## Requests in a window -/

namespace MainViewController

/-- A job that starts has waited, and no other job stops waiting. -/
theorem waiting_conserved {self self' : MainViewController} {event : Event}
    (h : Effect self event self') (hpending : self.Pending event) :
    (self.waiting ++ self.scheduledBy event).Perm (event.started ++ self'.waiting) := by
  cases h with
  | added dataSnapshot restaurant hr =>
    rw [childAdded_of_ok hr, scheduledBy, Event.accepted_childAdded hr]
    exact List.Perm.refl _
  | changed dataSnapshot restaurant hr =>
    rw [childChanged_of_ok hr, scheduledBy, Event.accepted_childChanged hr]
    exact List.Perm.refl _
  | removed dataSnapshot =>
    obtain ⟨_, _, _, _, _, _, hframe⟩ := self.childRemoved_frame dataSnapshot
    rw [hframe]
    exact List.Perm.of_eq (List.append_nil _)
  | started job =>
    refine (List.Perm.of_eq (List.append_nil _)).trans ?_
    exact List.perm_cons_erase hpending
  | geocoded job reply =>
    rw [annotationGeocoded_eq]
    exact List.Perm.of_eq (List.append_nil _)
  | pressed =>
    rw [chevronButtonPressed_eq]
    exact List.Perm.of_eq (List.append_nil _)
  | quiet event self' hq same =>
    rw [same.waiting, scheduledBy, Event.accepted_of_quiet hq, Event.started_of_quiet hq]
    exact List.Perm.of_eq (List.append_nil _)

end MainViewController

/-- The jobs that a run starts. -/
def started (run : List (Step Session Event)) : List AnnotationJob :=
  run.flatMap fun x => x.event.started

/-- When the annotation geocodes of a run are requested. -/
def requestTimes (run : List (Step Session Event)) : List Nat :=
  run.flatMap fun x => x.event.started.map fun _ => x.source.app.now

/-- A run starts no job twice, and none that was not scheduled. -/
theorem started_subperm {es : List Event} (h : Session.machine.Legal Session.Pending es) :
    (started (Session.machine.run es)).Subperm (scheduled (Session.machine.run es)) :=
  Machine.bag_of_legalFrom (fun s : Session => s.app.waiting) _ _
    (fun _ hpending hstep => MainViewController.waiting_conserved (Session.step_cases hstep).1
      hpending) h

theorem requestTimes_eq {run : List (Step Session Event)}
    (h : ∀ x ∈ run, x.source.app.OnTime x.event) :
    (requestTimes run).map Nat.cast = (started run).map AnnotationJob.startTime := by
  induction run with
  | nil => rfl
  | cons x run ih =>
    have hrest := ih fun y hy => h y (List.mem_cons_of_mem x hy)
    have htime := h x List.mem_cons_self
    simp only [requestTimes, started, List.flatMap_cons, List.map_append] at hrest ⊢
    rw [hrest]
    congr 1
    cases hevent : x.event with
    | annotationStarted job =>
      rw [hevent] at htime
      exact congrArg (fun time : Int => [time]) htime
    | _ => rfl

/-- The scheduled jobs whose geocode is to start in a window. -/
theorem scheduled_in_window_le (es : List Event) (start : Int) (n : Nat) :
    ((scheduled (Session.machine.run es)).map AnnotationJob.startTime).countP
        (fun time => start ≤ time ∧ time < start + 500 * n) ≤
      n + (completed (Session.machine.run es)).length := by
  have hcompleted : (completed (Session.machine.run es)).length =
      ((executed (Session.machine.run es)).flatMap Event.completed).length := by
    rw [completed, executed, List.flatMap_map]
  have heq := startTimes_eq es Session.machine.init 0 0 rfl
  rw [Machine.run, heq, List.countP_map, List.countP_eq_length_filter]
  refine Call.length_le_of_window start (.filter _ (Call.pairwise_before _ _ _ _))
    (fun call hcall => ?_) (fun call hcall => ?_)
  · have hmost := (Call.ofEvents_bounds _ _ _ _ call (List.mem_of_mem_filter hcall)).2.2.2
    rw [Nat.zero_add] at hmost
    exact hmost.trans (Nat.le_of_eq hcompleted.symm)
  · simpa using (List.mem_filter.mp hcall).2

/-- In every run in which each job starts on time, the requests of any window of `n`
half seconds are no more than `n` and the geocodes completed in the run together;
while nothing completes, there is one for each half second at most. -/
theorem requests_in_window_le (es : List Event) (start n : Nat)
    (h : Session.machine.Legal (fun s e => s.Pending e ∧ s.app.OnTime e) es) :
    (requestTimes (Session.machine.run es)).countP
        (fun time => start ≤ time ∧ time < start + 500 * n) ≤
      n + (completed (Session.machine.run es)).length := by
  have htimes : (requestTimes (Session.machine.run es)).map (Nat.cast : Nat → Int) =
      (started (Session.machine.run es)).map AnnotationJob.startTime :=
    requestTimes_eq fun x hx => (Machine.LegalFrom.of_mem h x hx).1.2
  have hcast : (requestTimes (Session.machine.run es)).countP
        (fun time => start ≤ time ∧ time < start + 500 * n) =
      ((requestTimes (Session.machine.run es)).map (Nat.cast : Nat → Int)).countP
        (fun time => (start : Int) ≤ time ∧ time < start + 500 * n) := by
    rw [List.countP_map]
    refine List.countP_congr fun time _ => ?_
    simp only [Function.comp_apply, decide_eq_true_eq]
    omega
  rw [hcast, htimes]
  refine le_trans ?_ (scheduled_in_window_le es start n)
  rw [List.countP_map, List.countP_map]
  exact (started_subperm (h.mono fun s e henv => henv.1)).countP_le _

/-- The run of `requests_start_together`: two requests 2 ms apart, after one
completion. -/
theorem requests_in_window_le_together :
    let first : AnnotationJob := ⟨0, .deal "a" "1" "King St" "Wings", 0, 500⟩
    let second : AnnotationJob := ⟨1, .deal "b" "2" "Queen St" "Nachos", 600, 1000⟩
    let third : AnnotationJob := ⟨2, .deal "c" "3" "Main St" "Tacos", 602, 1000⟩
    let es : List Event := [.childAdded (.deal "a" "1" "King St" "Wings"), .elapse 500,
      .annotationStarted first, .elapse 100, .childAdded (.deal "b" "2" "Queen St" "Nachos"),
      .elapse 1, .annotationGeocoded first ⟨some [⟨some ⟨43, -80⟩⟩], none⟩, .elapse 1,
      .childAdded (.deal "c" "3" "Main St" "Tacos"), .elapse 998, .annotationStarted second,
      .elapse 2, .annotationStarted third]
    (requestTimes (Session.machine.run es)).countP
        (fun time => 1600 ≤ time ∧ time < 1600 + 500 * 1) ≤
      1 + (completed (Session.machine.run es)).length :=
  requests_in_window_le _ 1600 1 (by decide)

end MealDeals
