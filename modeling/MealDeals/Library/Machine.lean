import Mathlib.Logic.Basic
import Mathlib.Data.List.Perm.Subperm
import Mathlib.Logic.Relation

/-!
# Runs of deterministic machines

A `Machine` has an initial state and a step that either produces the next state
or traps.  A run is the list of steps that a list of events executes, each step
with its source and its target, so a property of "every state reached" and a
condition on "every step taken" are bounded quantifiers over one list.

An environment is a predicate on a state and the event offered to it.  `Legal`
asks it of every event of a run, the one that traps included.

Two rules carry the developments built on this file.  `invariant` is induction
over runs.  `forall_reached_iff` is the exact form for a property that some
steps break: when each step from a good state is good if and only if a guard
holds before it, the states of a run are all good if and only if the guard holds
before every step of the run.
-/

namespace Library

/-- An initial state and a step; a step from which there is no next state is a
trap. -/
structure Machine (σ ε : Type) where
  init : σ
  step : σ → ε → Option σ

/-- One executed step. -/
structure Step (σ ε : Type) where
  source : σ
  event : ε
  target : σ

namespace Machine

variable {σ ε : Type} (M : Machine σ ε)

/-- The steps that the events execute from `s`, up to a trap. -/
def stepsFrom : σ → List ε → List (Step σ ε)
  | _, [] => []
  | s, e :: es =>
    match M.step s e with
    | none => []
    | some t => ⟨s, e, t⟩ :: stepsFrom t es

/-- The state in which the events leave the machine, when none of them traps. -/
def execFrom : σ → List ε → Option σ
  | s, [] => some s
  | s, e :: es => (M.step s e).bind fun t => execFrom t es

/-- The environment may offer each event in the state that receives it. -/
def LegalFrom (env : σ → ε → Prop) : σ → List ε → Prop
  | _, [] => True
  | s, e :: es =>
    env s e ∧
      match M.step s e with
      | none => True
      | some t => LegalFrom env t es

instance decidableLegalFrom (env : σ → ε → Prop) [∀ s e, Decidable (env s e)] :
    ∀ (s : σ) (es : List ε), Decidable (M.LegalFrom env s es)
  | _, [] => .isTrue trivial
  | s, e :: es =>
    match h : M.step s e with
    | none => decidable_of_iff (env s e) (by simp [LegalFrom, h])
    | some t =>
      haveI := decidableLegalFrom env t es
      decidable_of_iff (env s e ∧ M.LegalFrom env t es) (by simp [LegalFrom, h])

def run (es : List ε) : List (Step σ ε) := M.stepsFrom M.init es

def exec (es : List ε) : Option σ := M.execFrom M.init es

/-- The initial state and the target of every step. -/
def reached (es : List ε) : List σ := M.init :: (M.run es).map Step.target

def Legal (env : σ → ε → Prop) (es : List ε) : Prop := M.LegalFrom env M.init es

instance (env : σ → ε → Prop) [∀ s e, Decidable (env s e)] (es : List ε) :
    Decidable (M.Legal env es) :=
  M.decidableLegalFrom env M.init es

variable {M}

@[simp] theorem stepsFrom_nil (s : σ) : M.stepsFrom s [] = [] := rfl

@[simp] theorem execFrom_nil (s : σ) : M.execFrom s [] = some s := rfl

theorem stepsFrom_cons {s t : σ} {e : ε} (h : M.step s e = some t) (es : List ε) :
    M.stepsFrom s (e :: es) = ⟨s, e, t⟩ :: M.stepsFrom t es := by
  simp only [stepsFrom, h]

theorem stepsFrom_trap {s : σ} {e : ε} (h : M.step s e = none) (es : List ε) :
    M.stepsFrom s (e :: es) = [] := by
  simp only [stepsFrom, h]

theorem execFrom_cons {s t : σ} {e : ε} (h : M.step s e = some t) (es : List ε) :
    M.execFrom s (e :: es) = M.execFrom t es := by
  simp only [execFrom, h, Option.bind_some]

theorem execFrom_cons_eq_some {s t : σ} {e : ε} {es : List ε}
    (h : M.execFrom s (e :: es) = some t) :
    ∃ u, M.step s e = some u ∧ M.execFrom u es = some t :=
  Option.bind_eq_some_iff.mp h

theorem legalFrom_cons {env : σ → ε → Prop} {s t : σ} {e : ε} (h : M.step s e = some t)
    (es : List ε) :
    M.LegalFrom env s (e :: es) ↔ env s e ∧ M.LegalFrom env t es := by
  simp only [LegalFrom, h]

/-- Every executed step is a step of the machine that the environment allows. -/
theorem LegalFrom.of_mem {env : σ → ε → Prop} {s : σ} {es : List ε}
    (h : M.LegalFrom env s es) :
    ∀ x ∈ M.stepsFrom s es, env x.source x.event ∧ M.step x.source x.event = some x.target := by
  induction es generalizing s with
  | nil => intro x hx; simp at hx
  | cons e es ih =>
    intro x hx
    cases hs : M.step s e with
    | none => simp [stepsFrom_trap hs] at hx
    | some t =>
      rw [legalFrom_cons hs] at h
      rw [stepsFrom_cons hs, List.mem_cons] at hx
      rcases hx with rfl | hx
      · exact ⟨h.1, hs⟩
      · exact ih h.2 x hx

theorem LegalFrom.mono {env env' : σ → ε → Prop} (himp : ∀ s e, env s e → env' s e) {s : σ}
    {es : List ε} (h : M.LegalFrom env s es) : M.LegalFrom env' s es := by
  induction es generalizing s with
  | nil => trivial
  | cons e es ih =>
    cases hs : M.step s e with
    | none =>
      simp only [LegalFrom, hs] at h ⊢
      exact ⟨himp s e h.1, trivial⟩
    | some t =>
      rw [legalFrom_cons hs] at h ⊢
      exact ⟨himp s e h.1, ih h.2⟩

/-- The environment that allows everything. -/
theorem legalFrom_true (s : σ) (es : List ε) : M.LegalFrom (fun _ _ => True) s es := by
  induction es generalizing s with
  | nil => trivial
  | cons e es ih =>
    cases hs : M.step s e with
    | none =>
      simp only [LegalFrom, hs]
      exact ⟨trivial, trivial⟩
    | some t =>
      rw [legalFrom_cons hs]
      exact ⟨trivial, ih t⟩

/-! ## Rules -/

/-- Induction over a run: an invariant of the start, preserved by every step the
environment allows, holds before and after every executed step. -/
theorem invariantFrom {env : σ → ε → Prop} {I : σ → Prop}
    (hstep : ∀ s e t, env s e → M.step s e = some t → I s → I t)
    {s : σ} {es : List ε} (hs : I s) (h : M.LegalFrom env s es) :
    ∀ x ∈ M.stepsFrom s es, I x.source ∧ I x.target := by
  induction es generalizing s with
  | nil => intro x hx; simp at hx
  | cons e es ih =>
    intro x hx
    cases ht : M.step s e with
    | none => simp [stepsFrom_trap ht] at hx
    | some t =>
      rw [legalFrom_cons ht] at h
      have hI : I t := hstep s e t h.1 ht hs
      rw [stepsFrom_cons ht, List.mem_cons] at hx
      rcases hx with rfl | hx
      · exact ⟨hs, hI⟩
      · exact ih hI h.2 x hx

theorem invariant {env : σ → ε → Prop} {I : σ → Prop} (hinit : I M.init)
    (hstep : ∀ s e t, env s e → M.step s e = some t → I s → I t)
    {es : List ε} (h : M.Legal env es) : ∀ s ∈ M.reached es, I s := by
  intro s hs
  rcases List.mem_cons.mp hs with rfl | hs
  · exact hinit
  · obtain ⟨x, hx, rfl⟩ := List.mem_map.mp hs
    exact (invariantFrom hstep hinit h x hx).2

/-- What every step keeps holds before every executed step, whatever the environment. -/
theorem invariant_run {I : σ → Prop} (hinit : I M.init)
    (hstep : ∀ s e t, M.step s e = some t → I s → I t) (es : List ε) :
    ∀ x ∈ M.run es, M.step x.source x.event = some x.target ∧ I x.source := by
  intro x hx
  have hlegal := M.legalFrom_true M.init es
  refine ⟨(hlegal.of_mem x hx).2, ?_⟩
  exact (invariantFrom (fun s e t _ => hstep s e t) hinit hlegal x hx).1

/-- Events that the environment offers do not trap, if none traps in a state with
the invariant. -/
theorem execFrom_isSome {env : σ → ε → Prop} {I : σ → Prop}
    (hstep : ∀ s e t, env s e → M.step s e = some t → I s → I t)
    (hprogress : ∀ s e, env s e → I s → (M.step s e).isSome)
    {s : σ} {es : List ε} (hs : I s) (h : M.LegalFrom env s es) : (M.execFrom s es).isSome := by
  induction es generalizing s with
  | nil => rfl
  | cons e es ih =>
    obtain ⟨t, ht⟩ := Option.isSome_iff_exists.mp (hprogress s e h.1 hs)
    rw [legalFrom_cons ht] at h
    rw [execFrom_cons ht]
    exact ih (hstep s e t h.1 ht hs) h.2

/-- Simulation by a function of the events: when each step keeps a relation to the
values of `next`, so does a run to the fold of its events. -/
theorem foldl_of_execFrom {α : Type} {env : σ → ε → Prop} {R : σ → α → Prop}
    {next : α → ε → α}
    (hstep : ∀ s e t a, env s e → M.step s e = some t → R s a → R t (next a e))
    {s t : σ} {es : List ε} {a : α} (hs : R s a) (h : M.LegalFrom env s es)
    (hexec : M.execFrom s es = some t) : R t (es.foldl next a) := by
  induction es generalizing s a with
  | nil =>
    rw [← Option.some.inj hexec]
    exact hs
  | cons e es ih =>
    obtain ⟨u, hu, hexec⟩ := execFrom_cons_eq_some hexec
    rw [legalFrom_cons hu] at h
    exact ih (hstep s e u a h.1 hu hs) h.2 hexec

theorem execFrom_append (s : σ) (es es' : List ε) :
    M.execFrom s (es ++ es') = (M.execFrom s es).bind fun t => M.execFrom t es' := by
  induction es generalizing s with
  | nil => rfl
  | cons e es ih =>
    cases hs : M.step s e with
    | none => simp only [List.cons_append, execFrom, hs, Option.bind_none]
    | some t => rw [List.cons_append, execFrom_cons hs, execFrom_cons hs, ih]

theorem legalFrom_append {env : σ → ε → Prop} {s t : σ} {es es' : List ε}
    (h : M.LegalFrom env s (es ++ es')) (hexec : M.execFrom s es = some t) :
    M.LegalFrom env s es ∧ M.LegalFrom env t es' := by
  induction es generalizing s with
  | nil =>
    rw [← Option.some.inj hexec]
    exact ⟨trivial, h⟩
  | cons e es ih =>
    obtain ⟨u, hu, hexec⟩ := execFrom_cons_eq_some hexec
    rw [List.cons_append, legalFrom_cons hu] at h
    rw [legalFrom_cons hu]
    obtain ⟨hes, hes'⟩ := ih h.2 hexec
    exact ⟨⟨h.1, hes⟩, hes'⟩

theorem invariant_of_execFrom {env : σ → ε → Prop} {I : σ → Prop}
    (hstep : ∀ s e t, env s e → M.step s e = some t → I s → I t)
    {s t : σ} {es : List ε} (hs : I s) (h : M.LegalFrom env s es)
    (hexec : M.execFrom s es = some t) : I t := by
  induction es generalizing s with
  | nil =>
    rw [← Option.some.inj hexec]
    exact hs
  | cons e es ih =>
    obtain ⟨u, hu, hexec⟩ := execFrom_cons_eq_some hexec
    rw [legalFrom_cons hu] at h
    exact ih (hstep s e u h.1 hu hs) h.2 hexec

/-- A queue along a run: when each step takes what it takes off the front and puts
what it puts at the end, so does the run. -/
theorem queue_of_execFrom {α : Type} {env : σ → ε → Prop} (queue : σ → List α)
    (put taken : Step σ ε → List α)
    (hstep : ∀ x : Step σ ε, env x.source x.event → M.step x.source x.event = some x.target →
      queue x.source ++ put x = taken x ++ queue x.target)
    {s t : σ} {es : List ε} (h : M.LegalFrom env s es) (hexec : M.execFrom s es = some t) :
    queue s ++ (M.stepsFrom s es).flatMap put = (M.stepsFrom s es).flatMap taken ++ queue t := by
  induction es generalizing s with
  | nil =>
    rw [Option.some.inj hexec]
    exact List.append_nil _
  | cons e es ih =>
    obtain ⟨u, hu, hexec⟩ := execFrom_cons_eq_some hexec
    rw [legalFrom_cons hu] at h
    rw [stepsFrom_cons hu, List.flatMap_cons, List.flatMap_cons, ← List.append_assoc,
      hstep ⟨s, e, u⟩ h.1 hu, List.append_assoc, ih h.2 hexec, List.append_assoc]

/-- A bag along a run: when what a step takes out was in the bag or is put in by the
step, a run takes out no more than was in the bag and is put in. -/
theorem bag_of_legalFrom {α : Type} {env : σ → ε → Prop} (bag : σ → List α)
    (put taken : Step σ ε → List α)
    (hstep : ∀ x : Step σ ε, env x.source x.event → M.step x.source x.event = some x.target →
      (bag x.source ++ put x).Perm (taken x ++ bag x.target))
    {s : σ} {es : List ε} (h : M.LegalFrom env s es) :
    ((M.stepsFrom s es).flatMap taken).Subperm (bag s ++ (M.stepsFrom s es).flatMap put) := by
  induction es generalizing s with
  | nil => exact List.nil_subperm
  | cons e es ih =>
    cases ht : M.step s e with
    | none =>
      rw [stepsFrom_trap ht]
      exact List.nil_subperm
    | some t =>
      rw [legalFrom_cons ht] at h
      rw [stepsFrom_cons ht, List.flatMap_cons, List.flatMap_cons]
      have hone := (hstep ⟨s, e, t⟩ h.1 ht).append_right ((M.stepsFrom t es).flatMap put)
      rw [List.append_assoc, List.append_assoc] at hone
      exact ((List.subperm_append_left _).mpr (ih h.2)).trans hone.symm.subperm

/-- A property that a step from a good state keeps if and only if its guard held
is kept all along a run if and only if every guard held.  `I` is an invariant
that the step lemma may use whether or not the property survives. -/
theorem forall_steps_iff {env : σ → ε → Prop} {I P : σ → Prop} {C : σ → ε → Prop}
    (hinv : ∀ s e t, env s e → M.step s e = some t → I s → I t)
    (hiff : ∀ s e t, env s e → M.step s e = some t → I s → P s → (P t ↔ C s e))
    {s : σ} {es : List ε} (hI : I s) (hP : P s) (h : M.LegalFrom env s es) :
    (∀ x ∈ M.stepsFrom s es, P x.target) ↔ ∀ x ∈ M.stepsFrom s es, C x.source x.event := by
  induction es generalizing s with
  | nil => simp
  | cons e es ih =>
    cases ht : M.step s e with
    | none => simp [stepsFrom_trap ht]
    | some t =>
      rw [legalFrom_cons ht] at h
      have hone : P t ↔ C s e := hiff s e t h.1 ht hI hP
      have hrest := fun hPt : P t => ih (hinv s e t h.1 ht hI) hPt h.2
      rw [stepsFrom_cons ht, List.forall_mem_cons, List.forall_mem_cons]
      constructor
      · rintro ⟨hPt, htail⟩
        exact ⟨hone.mp hPt, (hrest hPt).mp htail⟩
      · rintro ⟨hC, htail⟩
        exact ⟨hone.mpr hC, (hrest (hone.mpr hC)).mpr htail⟩

theorem forall_reached_iff {env : σ → ε → Prop} {I P : σ → Prop} {C : σ → ε → Prop}
    (hI : I M.init) (hP : P M.init)
    (hinv : ∀ s e t, env s e → M.step s e = some t → I s → I t)
    (hiff : ∀ s e t, env s e → M.step s e = some t → I s → P s → (P t ↔ C s e))
    {es : List ε} (h : M.Legal env es) :
    (∀ s ∈ M.reached es, P s) ↔ ∀ x ∈ M.run es, C x.source x.event := by
  rw [reached, List.forall_mem_cons, List.forall_mem_map]
  constructor
  · rintro ⟨-, htail⟩
    exact (forall_steps_iff hinv hiff hI hP h).mp htail
  · intro hC
    exact ⟨hP, (forall_steps_iff hinv hiff hI hP h).mpr hC⟩

/-- The rule without an environment or an invariant. -/
theorem forall_reached_iff_of_step {P : σ → Prop} {C : σ → ε → Prop} (hP : P M.init)
    (hiff : ∀ s e t, M.step s e = some t → P s → (P t ↔ C s e)) (es : List ε) :
    (∀ s ∈ M.reached es, P s) ↔ ∀ x ∈ M.run es, C x.source x.event :=
  forall_reached_iff (I := fun _ => True) trivial hP (fun _ _ _ _ _ _ => trivial)
    (fun s e t _ h _ => hiff s e t h) (legalFrom_true M.init es)

/-! ## Unwinding

A view is a part of the state.  When some events do not change what it shows, and
the others change it in a way that depends on it alone, what it shows at the end
of a run depends on the others alone. -/

/-- Leaving out the events that do not touch a view leaves a run that the
environment allows and that ends with the same view. -/
theorem execFrom_filter {κ : Type} {env : σ → ε → Prop} (view : σ → κ) (keep : ε → Bool)
    (hdrop : ∀ s e t, keep e = false → M.step s e = some t → view t = view s)
    (henv : ∀ s u e, keep e = true → view s = view u → env s e → env u e)
    (hkeep : ∀ s u e t, keep e = true → view s = view u → M.step s e = some t →
      ∃ v, M.step u e = some v ∧ view t = view v)
    {s t u : σ} {es : List ε} (hview : view s = view u) (h : M.LegalFrom env s es)
    (hexec : M.execFrom s es = some t) :
    M.LegalFrom env u (es.filter keep) ∧
      ∃ v, M.execFrom u (es.filter keep) = some v ∧ view t = view v := by
  induction es generalizing s u with
  | nil =>
    refine ⟨trivial, u, rfl, ?_⟩
    rw [← Option.some.inj hexec]
    exact hview
  | cons e es ih =>
    obtain ⟨s', hs', hexec⟩ := execFrom_cons_eq_some hexec
    rw [legalFrom_cons hs'] at h
    cases hk : keep e with
    | false =>
      rw [List.filter_cons_of_neg (by rw [hk]; exact Bool.false_ne_true)]
      exact ih ((hdrop s e s' hk hs').trans hview) h.2 hexec
    | true =>
      obtain ⟨u', hu', hview'⟩ := hkeep s u e s' hk hview hs'
      rw [List.filter_cons_of_pos hk, legalFrom_cons hu', execFrom_cons hu']
      obtain ⟨hlegal, hend⟩ := ih hview' h.2 hexec
      exact ⟨⟨henv s u e hk hview h.1, hlegal⟩, hend⟩

/-- A run of events that do not touch a view. -/
theorem view_eq_of_filter_eq_nil {κ : Type} {view : σ → κ} {keep : ε → Bool}
    (hdrop : ∀ s e t, keep e = false → M.step s e = some t → view t = view s)
    {u v : σ} {es : List ε} (hes : es.filter keep = []) (hexec : M.execFrom u es = some v) :
    view v = view u := by
  induction es generalizing u with
  | nil => rw [Option.some.inj hexec]
  | cons e es ih =>
    obtain ⟨w, hw, hexec⟩ := execFrom_cons_eq_some hexec
    cases hk : keep e with
    | false =>
      rw [List.filter_cons_of_neg (by rw [hk]; exact Bool.false_ne_true)] at hes
      exact (ih hes hexec).trans (hdrop u e w hk hw)
    | true =>
      rw [List.filter_cons_of_pos hk] at hes
      cases hes

/-- A run up to the first event that may touch a view, and over it. -/
theorem exists_kept_of_filter_eq_cons {κ : Type} {view : σ → κ} {keep : ε → Bool}
    (hdrop : ∀ s e t, keep e = false → M.step s e = some t → view t = view s)
    {u v : σ} {e : ε} {es rest : List ε} (hes : es.filter keep = e :: rest)
    (hexec : M.execFrom u es = some v) :
    ∃ w w' es', view w = view u ∧ M.step w e = some w' ∧ es'.filter keep = rest ∧
      M.execFrom w' es' = some v := by
  induction es generalizing u with
  | nil => cases hes
  | cons d es ih =>
    obtain ⟨w, hw, hexec⟩ := execFrom_cons_eq_some hexec
    cases hk : keep d with
    | false =>
      rw [List.filter_cons_of_neg (by rw [hk]; exact Bool.false_ne_true)] at hes
      obtain ⟨x, x', es', hview, hrest⟩ := ih hes hexec
      exact ⟨x, x', es', hview.trans (hdrop u d w hk hw), hrest⟩
    | true =>
      rw [List.filter_cons_of_pos hk] at hes
      obtain ⟨rfl, hrest⟩ := List.cons.inj hes
      exact ⟨u, w, es, rfl, hw, hrest, hexec⟩

/-- Two runs with the same events but for those that do not touch a view end with
the same view, if neither traps. -/
theorem view_eq_of_filter_eq {κ : Type} (view : σ → κ) (keep : ε → Bool)
    (hdrop : ∀ s e t, keep e = false → M.step s e = some t → view t = view s)
    (hkeep : ∀ s u e t v, keep e = true → view s = view u → M.step s e = some t →
      M.step u e = some v → view t = view v)
    {s t u v : σ} {es es' : List ε} (hview : view s = view u)
    (hsame : es.filter keep = es'.filter keep) (h : M.execFrom s es = some t)
    (h' : M.execFrom u es' = some v) : view t = view v := by
  induction es generalizing s u es' with
  | nil =>
    rw [← Option.some.inj h, hview]
    exact (view_eq_of_filter_eq_nil hdrop hsame.symm h').symm
  | cons e es ih =>
    obtain ⟨s', hs', h⟩ := execFrom_cons_eq_some h
    cases hk : keep e with
    | false =>
      rw [List.filter_cons_of_neg (by rw [hk]; exact Bool.false_ne_true)] at hsame
      exact ih ((hdrop s e s' hk hs').trans hview) hsame h h'
    | true =>
      rw [List.filter_cons_of_pos hk] at hsame
      obtain ⟨w, w', rest, hw, hw', hrest, hexec⟩ :=
        exists_kept_of_filter_eq_cons hdrop hsame.symm h'
      exact ih (hkeep s w e s' w' hk (hview.trans hw.symm) hs' hw') hrest.symm h hexec

/-! ## Simulation -/

/-- When each step is a step of another machine on a view of the state, one that its
environment allows, or leaves the view as it is, a run is a run of the other machine
on the view. -/
theorem simulates_of_execFrom {τ δ : Type} {N : Machine τ δ} {env : σ → ε → Prop}
    {env' : τ → δ → Prop} {I : σ → Prop} (view : σ → τ) (heard : Step σ ε → Option δ)
    (hinv : ∀ s e t, env s e → M.step s e = some t → I s → I t)
    (hstep : ∀ x : Step σ ε, env x.source x.event → M.step x.source x.event = some x.target →
      I x.source → (heard x).elim (view x.target = view x.source) fun d =>
        env' (view x.source) d ∧ N.step (view x.source) d = some (view x.target))
    {s t : σ} {es : List ε} (hs : I s) (h : M.LegalFrom env s es)
    (hexec : M.execFrom s es = some t) :
    N.LegalFrom env' (view s) ((M.stepsFrom s es).filterMap heard) ∧
      N.execFrom (view s) ((M.stepsFrom s es).filterMap heard) = some (view t) := by
  induction es generalizing s with
  | nil =>
    rw [Option.some.inj hexec]
    exact ⟨trivial, rfl⟩
  | cons e es ih =>
    obtain ⟨u, hu, hexec⟩ := execFrom_cons_eq_some hexec
    rw [legalFrom_cons hu] at h
    obtain ⟨hlegal, hend⟩ := ih (hinv s e u h.1 hu hs) h.2 hexec
    have hone := hstep ⟨s, e, u⟩ h.1 hu hs
    rw [stepsFrom_cons hu]
    cases hd : heard ⟨s, e, u⟩ with
    | none =>
      rw [hd] at hone
      have hsame : view u = view s := hone
      rw [List.filterMap_cons_none hd, ← hsame]
      exact ⟨hlegal, hend⟩
    | some d =>
      rw [hd] at hone
      obtain ⟨henv, hmatched⟩ := hone
      rw [List.filterMap_cons_some hd, legalFrom_cons hmatched, execFrom_cons hmatched]
      exact ⟨⟨henv, hlegal⟩, hend⟩

/-! ## Continuations -/

variable (M) in
/-- Some event that the environment allows leads from `s` to `t`. -/
def Moves (env : σ → ε → Prop) (s t : σ) : Prop := ∃ e, env s e ∧ M.step s e = some t

theorem Moves.invariant {env : σ → ε → Prop} {I : σ → Prop}
    (hstep : ∀ s e t, env s e → M.step s e = some t → I s → I t) {s t : σ} (hs : I s)
    (h : Relation.ReflTransGen (M.Moves env) s t) : I t := by
  induction h with
  | refl => exact hs
  | tail _ hmove ih =>
    obtain ⟨e, henv, he⟩ := hmove
    exact hstep _ e _ henv he ih

end Machine
end Library
