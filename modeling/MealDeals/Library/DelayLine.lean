import Mathlib.Data.Finset.Max
import Mathlib.Logic.Function.Basic
import Mathlib.Logic.Relation
import Mathlib.Order.Basic

/-!
# Writes that take effect late

Jobs write values into a store under their keys.  A job first waits for its
deadline; jobs start in the order of their deadlines, in any order where these
are equal, and are written in the order in which they started.

`Outcome line k o` says from the jobs and the store alone what the store can hold
under `k` once the line has drained: the value of a waiting job of `k` with the
latest deadline, or if none waits the last one in flight, or else what the store
holds already.  `outcome_iff_drains` is the exactness of that: the outcomes are
what the drained lines hold.  So a property of every drained line needs an
invariant about outcomes only, and `Put.outcome_iff` says when a new job is the
only outcome of its key.
-/

namespace Library

/-- Jobs before and after their deadline, and the store they write into. -/
structure DelayLine (J K V : Type) where
  waiting : List J
  inFlight : List J
  store : K → Option V

/-- What a job writes, where, and when it starts. -/
structure Delayed (J K V T : Type) where
  key : J → K
  value : J → V
  deadline : J → T

namespace DelayLine

variable {J K V : Type}

def start [DecidableEq J] (line : DelayLine J K V) (j : J) : DelayLine J K V :=
  { line with waiting := line.waiting.erase j, inFlight := line.inFlight ++ [j] }

def Drained (line : DelayLine J K V) : Prop := line.waiting = [] ∧ line.inFlight = []

/-- The number of steps until the line has drained. -/
def size (line : DelayLine J K V) : Nat := 2 * line.waiting.length + line.inFlight.length

end DelayLine

namespace Delayed

open DelayLine

variable {J K V T : Type} (D : Delayed J K V T)

def complete [DecidableEq J] [DecidableEq K] (line : DelayLine J K V) (j : J) : DelayLine J K V :=
  { line with
    inFlight := line.inFlight.erase j
    store := Function.update line.store (D.key j) (some (D.value j)) }

/-- A waiting job with the earliest deadline starts, or the first job in flight is
written. -/
inductive Step [DecidableEq J] [DecidableEq K] [LE T] :
    DelayLine J K V → DelayLine J K V → Prop where
  | start (line : DelayLine J K V) (j : J) (hj : j ∈ line.waiting)
      (hmin : ∀ i ∈ line.waiting, D.deadline j ≤ D.deadline i) : Step line (line.start j)
  | complete (line : DelayLine J K V) (j : J) (rest : List J) (h : line.inFlight = j :: rest) :
      Step line (D.complete line j)

/-- What the store holds under `k` when the jobs in flight have been written. -/
def settled [DecidableEq K] (line : DelayLine J K V) (k : K) : Option V :=
  match (line.inFlight.filter fun j => D.key j = k).getLast? with
  | some j => some (D.value j)
  | none => line.store k

/-- `j` is a waiting job of `k`, and none of them has a later deadline. -/
structure LastWaiting [LE T] (line : DelayLine J K V) (k : K) (j : J) : Prop where
  mem : j ∈ line.waiting
  key : D.key j = k
  max : ∀ i ∈ line.waiting, D.key i = k → D.deadline i ≤ D.deadline j

inductive Outcome [DecidableEq K] [LE T] (line : DelayLine J K V) (k : K) :
    Option V → Prop where
  | waiting (j : J) (h : D.LastWaiting line k j) : Outcome line k (some (D.value j))
  | settled (h : ∀ i ∈ line.waiting, D.key i ≠ k) : Outcome line k (D.settled line k)

/-- `line'` is `line` with `j` waiting, and the store changed under its key at
most. -/
structure Put (line : DelayLine J K V) (j : J) (line' : DelayLine J K V) : Prop where
  waiting : line'.waiting = line.waiting ++ [j]
  inFlight : line'.inFlight = line.inFlight
  store : ∀ k, k ≠ D.key j → line'.store k = line.store k

variable {D}

/-! ## What the jobs in flight leave -/

section Settled

variable [DecidableEq K]

theorem settled_of_drained {line : DelayLine J K V} (h : line.inFlight = []) (k : K) :
    D.settled line k = line.store k := by
  simp [settled, h]

theorem settled_congr {line line' : DelayLine J K V} {k : K}
    (hinFlight : line'.inFlight = line.inFlight) (hstore : line'.store k = line.store k) :
    D.settled line' k = D.settled line k := by
  unfold settled
  rw [hinFlight, hstore]

variable [DecidableEq J]

theorem settled_start (line : DelayLine J K V) (j : J) (k : K) :
    D.settled (line.start j) k =
      if D.key j = k then some (D.value j) else D.settled line k := by
  by_cases hk : D.key j = k
  · simp [settled, DelayLine.start, List.filter_append, hk]
  · simp [settled, DelayLine.start, List.filter_append, hk]

/-- Writing the first job in flight does not change what the line settles to. -/
theorem settled_complete {line : DelayLine J K V} {j : J} {rest : List J}
    (h : line.inFlight = j :: rest) (k : K) :
    D.settled (D.complete line j) k = D.settled line k := by
  unfold settled complete
  simp only [h, List.erase_cons_head]
  by_cases hk : D.key j = k
  · rw [List.filter_cons_of_pos (by simpa using hk), List.getLast?_cons, ← hk]
    cases (rest.filter fun i => D.key i = D.key j).getLast? with
    | none => simp
    | some i => simp
  · rw [List.filter_cons_of_neg (by simpa using hk), Function.update_of_ne (Ne.symm hk)]

end Settled

section Outcomes

variable [DecidableEq K] [LinearOrder T]

/-! ## New jobs -/

/-- The outcomes under a key depend on its waiting jobs and on what the jobs in
flight leave under it. -/
theorem Outcome.congr {line line' : DelayLine J K V} {k : K} {o : Option V}
    (hwaiting : ∀ i, D.key i = k → (i ∈ line'.waiting ↔ i ∈ line.waiting))
    (hsettled : D.settled line' k = D.settled line k) (ho : D.Outcome line k o) :
    D.Outcome line' k o := by
  cases ho with
  | waiting i hi =>
    exact .waiting i ⟨(hwaiting i hi.key).mpr hi.mem, hi.key,
      fun i' hi' hk => hi.max i' ((hwaiting i' hk).mp hi') hk⟩
  | settled hnone =>
    rw [← hsettled]
    exact .settled fun i hi hik => hnone i ((hwaiting i hik).mp hi) hik

theorem outcome_congr {line line' : DelayLine J K V} {k : K} {o : Option V}
    (hwaiting : ∀ i, D.key i = k → (i ∈ line'.waiting ↔ i ∈ line.waiting))
    (hsettled : D.settled line' k = D.settled line k) :
    D.Outcome line' k o ↔ D.Outcome line k o :=
  ⟨fun ho => ho.congr (fun i hik => (hwaiting i hik).symm) hsettled.symm,
    fun ho => ho.congr hwaiting hsettled⟩

theorem Put.outcome_iff_of_ne {line line' : DelayLine J K V} {j : J} (h : D.Put line j line')
    {k : K} (hk : k ≠ D.key j) {o : Option V} : D.Outcome line' k o ↔ D.Outcome line k o := by
  refine outcome_congr (fun i hik => ?_) (settled_congr h.inFlight (h.store k hk))
  have hij : i ≠ j := fun heq => hk (by rw [← hik, heq])
  rw [h.waiting, List.mem_append, List.mem_singleton, or_iff_left hij]

/-- A new job is the only outcome of its key exactly when no last waiting job of
the key that writes something else starts at the same time or later. -/
theorem Put.outcome_iff {line line' : DelayLine J K V} {j : J} (h : D.Put line j line') :
    (∀ o, D.Outcome line' (D.key j) o → o = some (D.value j)) ↔
      ∀ i, D.LastWaiting line (D.key j) i → D.deadline j ≤ D.deadline i →
        D.value i = D.value j := by
  have hmem : ∀ i, i ∈ line'.waiting ↔ i ∈ line.waiting ∨ i = j := by
    intro i
    rw [h.waiting, List.mem_append, List.mem_singleton]
  constructor
  · intro hall i hi hle
    have hlast : D.LastWaiting line' (D.key j) i := by
      refine ⟨(hmem i).mpr (.inl hi.mem), hi.key, fun i' hi' hk => ?_⟩
      rcases (hmem i').mp hi' with hold | rfl
      · exact hi.max i' hold hk
      · exact hle
    exact Option.some.inj (hall _ (.waiting i hlast))
  · intro hall o ho
    cases ho with
    | settled hnone => exact absurd rfl (hnone j ((hmem j).mpr (.inr rfl)))
    | waiting i hi =>
      rcases (hmem i).mp hi.mem with hold | rfl
      · have hlast : D.LastWaiting line (D.key j) i :=
          ⟨hold, hi.key, fun i' hi' => hi.max i' ((hmem i').mpr (.inl hi'))⟩
        rw [hall i hlast (hi.max j ((hmem j).mpr (.inr rfl)) rfl)]
      · rfl

/-! ## Draining -/

theorem Outcome.of_drained {line : DelayLine J K V} {k : K} {o : Option V} (h : line.Drained)
    (ho : D.Outcome line k o) : o = line.store k := by
  cases ho with
  | waiting j hj =>
    have hmem := hj.mem
    rw [h.1] at hmem
    cases hmem
  | settled _ => exact settled_of_drained h.2 k

theorem outcome_of_drained {line : DelayLine J K V} (h : line.Drained) (k : K) :
    D.Outcome line k (line.store k) := by
  rw [← settled_of_drained (D := D) h.2 k]
  refine .settled fun i hi => ?_
  rw [h.1] at hi
  cases hi

variable [DecidableEq J]

theorem size_lt_of_step {line line' : DelayLine J K V} (h : D.Step line line') :
    line'.size < line.size := by
  cases h with
  | start j hj hmin =>
    have hlen := List.length_erase_of_mem hj
    have hpos := List.length_pos_of_mem hj
    simp only [size, DelayLine.start, List.length_append, List.length_singleton]
    omega
  | complete j rest h =>
    simp only [size, complete, h, List.erase_cons_head, List.length_cons]
    omega

theorem outcome_complete_iff {line : DelayLine J K V} {j : J} {rest : List J}
    (h : line.inFlight = j :: rest) {k : K} {o : Option V} :
    D.Outcome (D.complete line j) k o ↔ D.Outcome line k o :=
  outcome_congr (fun _ _ => Iff.rfl) (settled_complete h k)

/-- A step adds no outcome. -/
theorem Outcome.of_step {line line' : DelayLine J K V} {k : K} {o : Option V}
    (h : D.Step line line') (ho : D.Outcome line' k o) : D.Outcome line k o := by
  cases h with
  | complete j rest h => exact (outcome_complete_iff h).mp ho
  | start j hj hmin =>
    have hsplit : ∀ i ∈ line.waiting, i = j ∨ i ∈ line.waiting.erase j := by
      intro i hi
      by_cases hij : i = j
      · exact .inl hij
      · exact .inr ((List.mem_erase_of_ne hij).mpr hi)
    cases ho with
    | waiting w hw =>
      have hmem : w ∈ line.waiting := List.mem_of_mem_erase hw.mem
      refine .waiting w ⟨hmem, hw.key, fun i hi hik => ?_⟩
      rcases hsplit i hi with rfl | hrest
      · exact hmin w hmem
      · exact hw.max i hrest hik
    | settled hnone =>
      have honly : ∀ i ∈ line.waiting, D.key i = k → i = j := by
        intro i hi hik
        rcases hsplit i hi with heq | hrest
        · exact heq
        · exact absurd hik (hnone i hrest)
      rw [settled_start]
      by_cases hk : D.key j = k
      · rw [if_pos hk]
        exact .waiting j ⟨hj, hk, fun i hi hik => by rw [honly i hi hik]⟩
      · rw [if_neg hk]
        refine .settled fun i hi hik => hk ?_
        rw [← honly i hi hik]
        exact hik

omit [DecidableEq K] in
theorem exists_earliest {l : List J} (h : l ≠ []) :
    ∃ j ∈ l, ∀ i ∈ l, D.deadline j ≤ D.deadline i := by
  have hne : l.toFinset.Nonempty := by simpa using h
  obtain ⟨j, hj, hmin⟩ := Finset.exists_min_image l.toFinset D.deadline hne
  exact ⟨j, List.mem_toFinset.mp hj, fun i hi => hmin i (List.mem_toFinset.mpr hi)⟩

/-- Every outcome of a line that has not drained is an outcome after some step.
The last waiting job of the key is started only when no other job can be. -/
theorem Outcome.exists_step {line : DelayLine J K V} {k : K} {o : Option V}
    (ho : D.Outcome line k o) (h : ¬line.Drained) :
    ∃ line', D.Step line line' ∧ D.Outcome line' k o := by
  cases hflight : line.inFlight with
  | cons j rest =>
    exact ⟨_, .complete line j rest hflight, (outcome_complete_iff hflight).mpr ho⟩
  | nil =>
    have hwaiting : line.waiting ≠ [] := fun hnil => h ⟨hnil, hflight⟩
    cases ho with
    | settled hnone =>
      obtain ⟨j, hj, hmin⟩ := exists_earliest (D := D) hwaiting
      refine ⟨_, .start line j hj hmin, ?_⟩
      have hsettled := settled_start (D := D) line j k
      rw [if_neg (hnone j hj)] at hsettled
      rw [← hsettled]
      exact .settled fun i hi => hnone i (List.mem_of_mem_erase hi)
    | waiting w hw =>
      by_cases hother : ∃ i ∈ line.waiting.erase w, D.deadline i ≤ D.deadline w
      · obtain ⟨i, hi, hiw⟩ := hother
        obtain ⟨j, hj, hmin⟩ := exists_earliest (D := D) (List.ne_nil_of_mem hi)
        have hjw : D.deadline j ≤ D.deadline w := (hmin i hi).trans hiw
        have hkeep : w ∈ line.waiting.erase j := by
          by_cases hne : w = j
          · rw [← hne] at hj ⊢
            exact hj
          · exact (List.mem_erase_of_ne hne).mpr hw.mem
        refine ⟨_, .start line j (List.mem_of_mem_erase hj) fun i' hi' => ?_, .waiting w ⟨hkeep,
          hw.key, fun i' hi' => hw.max i' (List.mem_of_mem_erase hi')⟩⟩
        by_cases hiw' : i' = w
        · rw [hiw']; exact hjw
        · exact hmin i' ((List.mem_erase_of_ne hiw').mpr hi')
      · have hlater : ∀ i ∈ line.waiting.erase w, D.deadline w < D.deadline i := by
          intro i hi
          by_contra hle
          exact hother ⟨i, hi, not_lt.mp hle⟩
        refine ⟨_, .start line w hw.mem fun i hi => ?_, ?_⟩
        · by_cases hiw : i = w
          · rw [hiw]
          · exact (hlater i ((List.mem_erase_of_ne hiw).mpr hi)).le
        · have hsettled := settled_start (D := D) line w k
          rw [if_pos hw.key] at hsettled
          rw [← hsettled]
          refine .settled fun i hi hik => ?_
          exact absurd (hw.max i (List.mem_of_mem_erase hi) hik) (not_le.mpr (hlater i hi))

/-- The outcomes of a line are what it holds when it has drained. -/
theorem outcome_iff_drains {line : DelayLine J K V} {k : K} {o : Option V} :
    D.Outcome line k o ↔
      ∃ line', Relation.ReflTransGen D.Step line line' ∧ line'.Drained ∧ line'.store k = o := by
  constructor
  · intro ho
    induction hn : line.size using Nat.strong_induction_on generalizing line with
    | _ n ih =>
      by_cases hdrained : line.Drained
      · exact ⟨line, .refl, hdrained, (ho.of_drained hdrained).symm⟩
      · obtain ⟨next, hstep, hnext⟩ := ho.exists_step hdrained
        obtain ⟨line', hpath, hend⟩ := ih next.size (hn ▸ size_lt_of_step hstep) hnext rfl
        exact ⟨line', .head hstep hpath, hend⟩
  · rintro ⟨line', hpath, hdrained, rfl⟩
    induction hpath using Relation.ReflTransGen.head_induction_on with
    | refl => exact outcome_of_drained hdrained k
    | head hstep _ ih => exact ih.of_step hstep

theorem exists_step_of_not_drained {line : DelayLine J K V}
    (h : ¬line.Drained) : ∃ line', D.Step line line' := by
  cases hflight : line.inFlight with
  | cons j rest => exact ⟨_, .complete line j rest hflight⟩
  | nil =>
    obtain ⟨j, hj, hmin⟩ := exists_earliest (D := D) fun hnil => h ⟨hnil, hflight⟩
    exact ⟨_, .start line j hj hmin⟩

/-- Every line can drain. -/
theorem exists_drains (line : DelayLine J K V) :
    ∃ line', Relation.ReflTransGen D.Step line line' ∧ line'.Drained := by
  induction hn : line.size using Nat.strong_induction_on generalizing line with
  | _ n ih =>
    by_cases hdrained : line.Drained
    · exact ⟨line, .refl, hdrained⟩
    · obtain ⟨next, hstep⟩ := exists_step_of_not_drained (D := D) hdrained
      obtain ⟨line', hpath, hend⟩ := ih next.size (hn ▸ size_lt_of_step hstep) next rfl
      exact ⟨line', .head hstep hpath, hend⟩

end Outcomes

end Delayed
end Library
