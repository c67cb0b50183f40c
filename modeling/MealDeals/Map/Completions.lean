import MealDeals.Firebase.Stream
import Mathlib.Data.List.Perm.Basic
import Mathlib.Data.Multiset.AddSub

/-!
# Completions in any order

The geocoder answers in an order of its own.  The completions of jobs for different ids
write different entries, and what they do to the pins, the counter and the jobs in
flight is the same in every order.  So the order of the answers shows in the order of
the console lines only: `completions_in_any_order`.
-/

namespace MealDeals

open Library

/-- The completions of some jobs, each with its reply. -/
def completions (reply : AnnotationJob → GeocodeReply) (jobs : List AnnotationJob) : List Event :=
  jobs.map fun job => .annotationGeocoded job (reply job)

/-- The lines that the completion of a job prints. -/
def AnnotationJob.lines (reply : AnnotationJob → GeocodeReply) (job : AnnotationJob) :
    List ConsoleLine :=
  (reply job).error.toList.map ConsoleLine.error ++
    (reply job).coordinate.elim [.didntFindAnything job.restaurant] fun _ => []

/-- The pin that the completion of a job puts on the map. -/
def AnnotationJob.found (reply : AnnotationJob → GeocodeReply) (job : AnnotationJob) :
    Option MKPointAnnotation :=
  (reply job).coordinate.map job.pin

namespace MainViewController

/-- The controllers are the same but for the order of the dictionary and of the
console. -/
structure SameUpToOrder (app other : MainViewController) : Prop where
  frame : other = { app with annotations := other.annotations, console := other.console }
  lookup : ∀ id, other.annotations.lookup id = app.annotations.lookup id
  console : other.console.Perm app.console

/-- What the completions of some jobs make of the controller, in whatever order. -/
structure Completes (reply : AnnotationJob → GeocodeReply) (jobs : List AnnotationJob)
    (app after : MainViewController) : Prop where
  frame : after = { app with
    inFlight := app.inFlight.diff jobs
    geocoderCounter := app.geocoderCounter - jobs.length
    mapView := { app.mapView with
      annotations := app.mapView.annotations + (jobs.filterMap (AnnotationJob.found reply) :) }
    annotations := after.annotations
    console := app.console ++ jobs.flatMap (AnnotationJob.lines reply) }
  written : ∀ job ∈ jobs, ∀ pin, job.found reply = some pin →
    after.annotations.lookup job.id = some pin
  kept : ∀ id, (∀ job ∈ jobs, job.id = id → job.found reply = none) →
    after.annotations.lookup id = app.annotations.lookup id

variable {reply : AnnotationJob → GeocodeReply}

theorem completes_nil (self : MainViewController) : Completes reply [] self self where
  frame := by simp
  written _ h := by cases h
  kept _ _ := rfl

theorem annotations_annotationGeocoded (self : MainViewController) (job : AnnotationJob) :
    (self.annotationGeocoded job (reply job)).annotations =
      (job.found reply).elim self.annotations (self.annotations.insert job.id) := by
  rw [annotationGeocoded_eq, AnnotationJob.found]
  cases (reply job).coordinate <;> rfl

theorem lookup_annotationGeocoded_of_ne {self : MainViewController} {job : AnnotationJob}
    {id : String} (h : job.id = id → job.found reply = none) :
    (self.annotationGeocoded job (reply job)).annotations.lookup id =
      self.annotations.lookup id := by
  rw [annotations_annotationGeocoded]
  cases hfound : job.found reply with
  | none => rfl
  | some pin =>
    refine AList.lookup_insert_ne fun heq => ?_
    rw [h heq.symm] at hfound
    cases hfound

/-- The jobs after the first write under other ids, and so leave its entry alone. -/
theorem completes_cons {self after : MainViewController} {job : AnnotationJob}
    {jobs : List AnnotationJob} (hids : ((job :: jobs).map AnnotationJob.id).Nodup)
    (h : Completes reply jobs (self.annotationGeocoded job (reply job)) after) :
    Completes reply (job :: jobs) self after := by
  rw [List.map_cons, List.nodup_cons] at hids
  have hother : ∀ later ∈ jobs, later.id = job.id → later.found reply = none :=
    fun later hlater heq => absurd (List.mem_map.mpr ⟨later, hlater, heq⟩) hids.1
  refine ⟨?_, fun written hwritten pin hpin => ?_, fun id hid => ?_⟩
  · have hcount : self.geocoderCounter - 1 - (jobs.length : Int) =
        self.geocoderCounter - ((job :: jobs).length : Int) := by
      rw [List.length_cons]
      omega
    rw [h.frame, annotationGeocoded_eq, ← hcount, List.diff_cons, List.flatMap_cons,
      ← List.append_assoc]
    cases hc : (reply job).coordinate with
    | none =>
      have hnone : job.found reply = none := by rw [AnnotationJob.found, hc]; rfl
      rw [List.filterMap_cons_none hnone]
      simp only [AnnotationJob.lines, hc, Option.elim_none, List.append_assoc]
    | some coordinate =>
      have hsome : job.found reply = some (job.pin coordinate) := by
        rw [AnnotationJob.found, hc]; rfl
      rw [List.filterMap_cons_some hsome, ← Multiset.cons_coe, Multiset.add_cons]
      simp only [AnnotationJob.lines, hc, Option.elim_some, List.append_assoc,
        MKMapView.addAnnotation, Multiset.cons_add]
  · rcases List.mem_cons.mp hwritten with rfl | hlater
    · rw [h.kept written.id hother, annotations_annotationGeocoded, hpin]
      exact AList.lookup_insert _
    · exact h.written written hlater pin hpin
  · rw [h.kept id fun later hlater => hid later (List.mem_cons_of_mem job hlater)]
    exact lookup_annotationGeocoded_of_ne (hid job List.mem_cons_self)

/-- Nothing that the completions do tells their order but the lines they print. -/
theorem Completes.sameUpToOrder {self after after' : MainViewController}
    {jobs jobs' : List AnnotationJob} (hperm : jobs.Perm jobs')
    (h : Completes reply jobs self after) (h' : Completes reply jobs' self after') :
    after.SameUpToOrder after' := by
  refine ⟨?_, fun id => ?_, ?_⟩
  · rw [h.frame, h'.frame]
    simp only [hperm.diff_left, hperm.length_eq,
      Multiset.coe_eq_coe.mpr (hperm.filterMap (AnnotationJob.found reply))]
  · by_cases hwritten : ∃ job ∈ jobs, job.id = id ∧ (job.found reply).isSome
    · obtain ⟨job, hjob, rfl, hsome⟩ := hwritten
      obtain ⟨pin, hpin⟩ := Option.isSome_iff_exists.mp hsome
      rw [h.written job hjob pin hpin, h'.written job (hperm.mem_iff.mp hjob) pin hpin]
    · have hnone : ∀ job ∈ jobs, job.id = id → job.found reply = none := by
        intro job hjob hid
        by_contra hsome
        exact hwritten ⟨job, hjob, hid, Option.isSome_iff_ne_none.mpr hsome⟩
      rw [h.kept id hnone, h'.kept id fun job hjob => hnone job (hperm.mem_iff.mpr hjob)]
  · rw [h.frame, h'.frame]
    exact (hperm.symm.flatMap_right _).append_left _

end MainViewController

/-! ## Runs -/

theorem legal_completions_iff {reply : AnnotationJob → GeocodeReply} {jobs : List AnnotationJob}
    (hnodup : jobs.Nodup) (s : Session) :
    Session.machine.LegalFrom Session.Pending s (completions reply jobs) ↔
      ∀ job ∈ jobs, job ∈ s.app.inFlight := by
  induction jobs generalizing s with
  | nil => exact iff_of_true trivial fun job hjob => by cases hjob
  | cons job jobs ih =>
    obtain ⟨hnew, hnodup⟩ := List.nodup_cons.mp hnodup
    have hstep : Session.machine.step s (.annotationGeocoded job (reply job)) =
        some ⟨s.app.annotationGeocoded job (reply job), s.database⟩ := rfl
    rw [completions, List.map_cons, Machine.legalFrom_cons hstep, List.forall_mem_cons]
    refine and_congr_right fun _ => (ih hnodup _).trans (forall₂_congr fun later hlater => ?_)
    show later ∈ (s.app.annotationGeocoded job (reply job)).inFlight ↔ _
    rw [MainViewController.annotationGeocoded_eq]
    exact List.mem_erase_of_ne fun heq => hnew (heq ▸ hlater)

theorem exists_exec_completions (reply : AnnotationJob → GeocodeReply)
    {jobs : List AnnotationJob} (hids : (jobs.map AnnotationJob.id).Nodup) (s : Session) :
    ∃ t, Session.machine.execFrom s (completions reply jobs) = some t ∧
      MainViewController.Completes reply jobs s.app t.app ∧ t.database = s.database := by
  induction jobs generalizing s with
  | nil => exact ⟨s, rfl, MainViewController.completes_nil s.app, rfl⟩
  | cons job jobs ih =>
    have hstep : Session.machine.step s (.annotationGeocoded job (reply job)) =
        some ⟨s.app.annotationGeocoded job (reply job), s.database⟩ := rfl
    obtain ⟨t, hexec, hcompletes, hdatabase⟩ := ih (List.nodup_cons.mp hids).2
      ⟨s.app.annotationGeocoded job (reply job), s.database⟩
    refine ⟨t, ?_, MainViewController.completes_cons hids hcompletes, hdatabase⟩
    rw [completions, List.map_cons, Machine.execFrom_cons hstep]
    exact hexec

/-- From any state, jobs for different ids that complete one after the other may do so
in any order, each with the reply it gets: the two runs end in the same state but for
the order of the console lines and of the dictionary. -/
theorem completions_in_any_order (reply : AnnotationJob → GeocodeReply)
    (jobs jobs' : List AnnotationJob) (s t : Session) (hperm : jobs.Perm jobs')
    (hids : (jobs.map AnnotationJob.id).Nodup)
    (h : Session.machine.LegalFrom Session.Pending s (completions reply jobs))
    (hexec : Session.machine.execFrom s (completions reply jobs) = some t) :
    Session.machine.LegalFrom Session.Pending s (completions reply jobs') ∧
      ∃ t', Session.machine.execFrom s (completions reply jobs') = some t' ∧
        t.app.SameUpToOrder t'.app ∧ t'.database = t.database := by
  have hids' : (jobs'.map AnnotationJob.id).Nodup := (hperm.map _).nodup_iff.mp hids
  constructor
  · rw [legal_completions_iff (hids.of_map _)] at h
    rw [legal_completions_iff (hids'.of_map _)]
    exact fun job hjob => h job (hperm.mem_iff.mpr hjob)
  · obtain ⟨t₀, hexec₀, hcompletes, hdatabase⟩ := exists_exec_completions reply hids s
    obtain ⟨t', hexec', hcompletes', hdatabase'⟩ := exists_exec_completions reply hids' s
    obtain rfl : t₀ = t := Option.some.inj (hexec₀.symm.trans hexec)
    exact ⟨t', hexec', hcompletes.sameUpToOrder hperm hcompletes', hdatabase'.trans hdatabase.symm⟩

/-- Two deals are in flight, of which the second one is not found. -/
theorem completions_in_any_order_two_deals :
    let first : AnnotationJob := ⟨0, .deal "a" "1" "King St" "Wings", 0, 500⟩
    let second : AnnotationJob := ⟨1, .deal "b" "2" "Queen St" "Nachos", 0, 1000⟩
    let reply : AnnotationJob → GeocodeReply := fun job =>
      if job.id = "1" then ⟨some [⟨some ⟨43, -80⟩⟩], none⟩ else ⟨none, some "offline"⟩
    let s := (Session.machine.exec [.childAdded (.deal "a" "1" "King St" "Wings"),
      .childAdded (.deal "b" "2" "Queen St" "Nachos"), .annotationStarted first,
      .annotationStarted second]).get (by decide)
    let t := (Session.machine.execFrom s (completions reply [first, second])).get (by decide)
    Session.machine.LegalFrom Session.Pending s (completions reply [second, first]) ∧
      ∃ t', Session.machine.execFrom s (completions reply [second, first]) = some t' ∧
        t.app.SameUpToOrder t'.app ∧ t'.database = t.database :=
  completions_in_any_order _ _ _ _ _ (.swap _ _ _) (by decide) (by decide)
    (Option.some_get _).symm

end MealDeals
