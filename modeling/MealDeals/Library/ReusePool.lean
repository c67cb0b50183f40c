import MealDeals.Library.Machine
import Mathlib.Data.List.Induction

/-!
# Pools of reusable objects

An object displays one content after another.  When a content goes, its object
joins a queue; the next content is given a queued object, prepared for reuse, or a
new one.  Which of the two, and which object of the queue, is not known.

`exec_traced` says where an object that is on display comes from: it is a new one
that has displayed some of the earlier contents, in their order.  Every such
history occurs (`exists_exec`), so a property of an object and its content holds of
all that every run displays if and only if it holds after every history:
`forall_shown_iff`.
-/

namespace Library

/-- How objects display contents. -/
structure Reusable (A V : Type) where
  new : V
  display : V → A → V
  prepareForReuse : V → V

/-- The objects on display with their contents, and those that wait for another. -/
structure ReusePool (A V : Type) where
  shown : List (A × V)
  queue : List V

inductive ReuseEvent (A : Type) where
  -- a content comes, and the object at the index of the queue, or a new one, displays it
  | display (content : A) (index : Option Nat)
  -- the content at the index goes
  | recycle (index : Nat)

def ReuseEvent.content {A : Type} : ReuseEvent A → List A
  | .display content _ => [content]
  | .recycle _ => []

namespace Reusable

variable {A V : Type} (R : Reusable A V)

/-- A new object after it has displayed some contents and been prepared for reuse
after each. -/
def used (history : List A) : V :=
  history.foldl (fun object content => R.prepareForReuse (R.display object content)) R.new

/-- The object for the next content, and the queue without it. -/
def dequeue (queue : List V) : Option Nat → Option (V × List V)
  | none => some (R.new, queue)
  | some index =>
    queue[index]?.map fun object => (R.prepareForReuse object, queue.eraseIdx index)

def machine : Machine (ReusePool A V) (ReuseEvent A) where
  init := ⟨[], []⟩
  step pool
    | .display content index =>
      (R.dequeue pool.queue index).map fun taken =>
        ⟨pool.shown ++ [(content, R.display taken.1 content)], taken.2⟩
    | .recycle index =>
      pool.shown[index]?.map fun gone => ⟨pool.shown.eraseIdx index, pool.queue ++ [gone.2]⟩

/-- The object displays the content after some of the contents that came before it. -/
def Traced (contents : List A) (content : A) (object : V) : Prop :=
  ∃ history, (history ++ [content]).Sublist contents ∧
    object = R.display (R.used history) content

/-- Every object has displayed some of the contents. -/
structure PoolTraced (contents : List A) (pool : ReusePool A V) : Prop where
  shown : ∀ x ∈ pool.shown, R.Traced contents x.1 x.2
  queue : ∀ object ∈ pool.queue, ∃ content, R.Traced contents content object

variable {R}

theorem used_append_singleton (history : List A) (content : A) :
    R.used (history ++ [content]) = R.prepareForReuse (R.display (R.used history) content) := by
  simp only [used, List.foldl_append, List.foldl_cons, List.foldl_nil]

theorem Traced.append {contents : List A} {content : A} {object : V}
    (h : R.Traced contents content object) (more : List A) :
    R.Traced (contents ++ more) content object := by
  obtain ⟨history, hsub, hobject⟩ := h
  exact ⟨history, hsub.trans (List.sublist_append_left _ _), hobject⟩

/-- An object that is taken for the next content has displayed some of the earlier
ones. -/
theorem used_of_dequeue {contents : List A} {pool : ReusePool A V} {index : Option Nat}
    {taken : V × List V} (hpool : R.PoolTraced contents pool)
    (h : R.dequeue pool.queue index = some taken) :
    (∃ history, history.Sublist contents ∧ taken.1 = R.used history) ∧
      ∀ object ∈ taken.2, object ∈ pool.queue := by
  cases index with
  | none =>
    rw [← Option.some.inj h]
    exact ⟨⟨[], List.nil_sublist _, rfl⟩, fun _ hobject => hobject⟩
  | some index =>
    obtain ⟨object, hobject, rfl⟩ := Option.map_eq_some_iff.mp h
    obtain ⟨content, history, hsub, rfl⟩ :=
      hpool.queue object (List.mem_of_getElem? hobject)
    exact ⟨⟨history ++ [content], hsub, (used_append_singleton history content).symm⟩,
      fun _ hmem => List.mem_of_mem_eraseIdx hmem⟩

theorem traced_step {contents : List A} {pool pool' : ReusePool A V} {event : ReuseEvent A}
    (hstep : R.machine.step pool event = some pool') (hpool : R.PoolTraced contents pool) :
    R.PoolTraced (contents ++ event.content) pool' := by
  cases event with
  | display content index =>
    obtain ⟨taken, htaken, rfl⟩ := Option.map_eq_some_iff.mp hstep
    obtain ⟨⟨history, hsub, hused⟩, hqueue⟩ := used_of_dequeue hpool htaken
    constructor
    · intro x hx
      rcases List.mem_append.mp hx with hold | hnew
      · exact (hpool.shown x hold).append _
      · rw [List.mem_singleton.mp hnew]
        exact ⟨history, hsub.append_right _, by rw [hused]⟩
    · intro object hobject
      obtain ⟨earlier, htraced⟩ := hpool.queue object (hqueue object hobject)
      exact ⟨earlier, htraced.append _⟩
  | recycle index =>
    obtain ⟨gone, hgone, rfl⟩ := Option.map_eq_some_iff.mp hstep
    constructor
    · intro x hx
      exact (hpool.shown x (List.mem_of_mem_eraseIdx hx)).append _
    · intro object hobject
      rcases List.mem_append.mp hobject with hold | hnew
      · obtain ⟨earlier, htraced⟩ := hpool.queue object hold
        exact ⟨earlier, htraced.append _⟩
      · rw [List.mem_singleton.mp hnew]
        exact ⟨gone.1, (hpool.shown gone (List.mem_of_getElem? hgone)).append _⟩

/-! ## Runs -/

theorem poolTraced_init : R.PoolTraced [] R.machine.init where
  shown _ h := by cases h
  queue _ h := by cases h

theorem exec_traced {es : List (ReuseEvent A)} {pool : ReusePool A V}
    (h : R.machine.exec es = some pool) :
    R.PoolTraced (es.flatMap ReuseEvent.content) pool := by
  rw [List.flatMap_eq_foldl]
  refine Machine.foldl_of_execFrom (M := R.machine)
    (R := fun pool contents => R.PoolTraced contents pool) ?_ ?_
    (Machine.legalFrom_true _ es) h
  · intro pool event pool' contents _ hstep hpool
    exact traced_step hstep hpool
  · exact poolTraced_init

/-- One object displays all contents of a history, and then the content. -/
theorem exists_exec (history : List A) (content : A) :
    ∃ es, R.machine.exec es = some ⟨[(content, R.display (R.used history) content)], []⟩ := by
  induction history using List.reverseRecOn generalizing content with
  | nil => exact ⟨[.display content none], rfl⟩
  | append_singleton history last ih =>
    obtain ⟨es, hes⟩ := ih last
    refine ⟨es ++ [.recycle 0, .display content (some 0)], ?_⟩
    rw [Machine.exec] at hes ⊢
    rw [Machine.execFrom_append, hes, used_append_singleton]
    rfl

/-- What holds of an object and its content after every history holds of all that
every run displays, and of nothing less. -/
theorem forall_shown_iff {P : A → V → Prop} :
    (∀ es pool, R.machine.exec es = some pool → ∀ x ∈ pool.shown, P x.1 x.2) ↔
      ∀ history content, P content (R.display (R.used history) content) := by
  constructor
  · intro hall history content
    obtain ⟨es, hes⟩ := R.exists_exec history content
    exact hall es _ hes _ List.mem_cons_self
  · intro hall es pool h x hx
    obtain ⟨history, -, hobject⟩ := (exec_traced h).shown x hx
    rw [hobject]
    exact hall history x.1

end Reusable
end Library
