import Mathlib.Algebra.Field.Rat

/-!
# The view of a pin

A pin's view is taken from a pool of views that showed other pins before.
`prepareForReuse` resets the title and the text of the label, but not the bounds
of the label, while `render` sizes the label from its current bounds and skips a
missing title.  `reuse_invisible_iff` says which histories of a view show in the
next pin.

Numbers are of any type with the operations that `mapView(_:viewFor:)` uses, and
`sizeToFit` is a parameter: it sets the bounds of a label to some function of its
text and its current bounds.
-/

namespace MealDeals

structure CGPoint (F : Type) where
  x : F
  y : F
deriving DecidableEq, Repr

structure CGRect (F : Type) where
  x : F
  y : F
  width : F
  height : F
deriving DecidableEq, Repr

structure UILabel (F : Type) where
  text : Option String
  bounds : CGRect F
deriving DecidableEq, Repr

/-- What `mapView(_:viewFor:)` distinguishes of an annotation. -/
inductive MKAnnotation where
  | userLocation
  | point (title : Option String)
deriving DecidableEq, Repr

structure DealAnnotationView (F : Type) where
  label : UILabel F
  dealTitle : Option String
  centerOffset : CGPoint F
deriving DecidableEq, Repr

abbrev SizeToFit (F : Type) := Option String → CGRect F → CGRect F

variable {F : Type}

def CGRect.zero [Zero F] : CGRect F := ⟨0, 0, 0, 0⟩

namespace DealAnnotationView

def initial [Zero F] : DealAnnotationView F where
  label := { text := none, bounds := CGRect.zero }
  dealTitle := none
  centerOffset := ⟨0, 0⟩

/-- The text that `render` puts on the label. -/
def labelText (title : String) : Option String := some (title ++ "\n📍")

def render (sizeToFit : SizeToFit F) (self : DealAnnotationView F) : DealAnnotationView F :=
  match self.dealTitle with
  | some title =>
    { self with
      label := {
        text := labelText title
        bounds := sizeToFit (labelText title) self.label.bounds } }
  | none => self

def prepareForReuse (self : DealAnnotationView F) : DealAnnotationView F :=
  { self with dealTitle := none, label := { self.label with text := none } }

section Placement

variable [Neg F] [Div F] [OfNat F 2]

/-- What `mapView(_:viewFor:)` does to the view it has taken. -/
def showTitle (sizeToFit : SizeToFit F) (self : DealAnnotationView F) (title : Option String) :
    DealAnnotationView F :=
  let self := { self with dealTitle := title }
  let self := self.render sizeToFit
  { self with
    centerOffset := ⟨-self.label.bounds.width / 2, -self.label.bounds.height⟩ }

variable [Zero F]

/-- `mapView(_:viewFor:)`, given the view that was dequeued, if any. -/
def viewFor (sizeToFit : SizeToFit F) (dequeued : Option (DealAnnotationView F)) :
    MKAnnotation → Option (DealAnnotationView F)
  | .userLocation => none
  | .point title =>
    let annotationView :=
      match dequeued with
      | some dequeue => dequeue
      | none => initial
    some (annotationView.showTitle sizeToFit title)

/-- A view after showing pins with the given titles and being prepared for reuse
after each. -/
def reused (sizeToFit : SizeToFit F) (history : List (Option String)) : DealAnnotationView F :=
  history.foldl (fun view title => (view.showTitle sizeToFit title).prepareForReuse) initial

end Placement

/-- What is drawn of a view, and where. -/
def drawn (self : DealAnnotationView F) : Option String × CGRect F × CGPoint F :=
  (self.label.text, self.label.bounds, self.centerOffset)

/-- The reused view draws the next annotation as a new one does. -/
def ReuseInvisible [Neg F] [Div F] [OfNat F 2] [Zero F] (sizeToFit : SizeToFit F)
    (history : List (Option String)) (next : MKAnnotation) : Prop :=
  (viewFor sizeToFit (some (reused sizeToFit history)) next).map drawn =
    (viewFor sizeToFit none next).map drawn

/-! ## What is left of earlier pins -/

/-- The bounds of the label after a title. -/
def boundsAfter (sizeToFit : SizeToFit F) (bounds : CGRect F) : Option String → CGRect F
  | some title => sizeToFit (labelText title) bounds
  | none => bounds

/-- The bounds that earlier titles leave. -/
def leftover [Zero F] (sizeToFit : SizeToFit F) (history : List (Option String)) : CGRect F :=
  history.foldl (boundsAfter sizeToFit) CGRect.zero

/-- Sizing the label of the next pin from the leftover bounds gives what sizing it
from the empty rectangle gives. -/
def LeavesNoTrace [Zero F] (sizeToFit : SizeToFit F) (history : List (Option String)) :
    MKAnnotation → Prop
  | .userLocation => True
  | .point title =>
    boundsAfter sizeToFit (leftover sizeToFit history) title =
      boundsAfter sizeToFit CGRect.zero title

theorem leftover_of_untitled [Zero F] (sizeToFit : SizeToFit F) {history : List (Option String)}
    (h : ∀ title ∈ history, title = none) : leftover sizeToFit history = CGRect.zero := by
  unfold leftover
  induction history with
  | nil => rfl
  | cons title history ih =>
    rw [h title List.mem_cons_self, List.foldl_cons]
    exact ih fun title' ht => h title' (List.mem_cons_of_mem _ ht)

section Drawing

variable [Neg F] [Div F] [OfNat F 2]

theorem label_foldl (sizeToFit : SizeToFit F) (history : List (Option String))
    (view : DealAnnotationView F) (h : view.label.text = none) :
    (history.foldl (fun view title => (view.showTitle sizeToFit title).prepareForReuse)
        view).label =
      ⟨none, history.foldl (boundsAfter sizeToFit) view.label.bounds⟩ := by
  induction history generalizing view with
  | nil =>
    rw [List.foldl_nil, List.foldl_nil, ← h]
  | cons title history ih =>
    rw [List.foldl_cons, List.foldl_cons, ih _ rfl]
    cases title <;> rfl

/-- A view draws a title from the bounds of its label and nothing else. -/
theorem drawn_showTitle (sizeToFit : SizeToFit F) (view : DealAnnotationView F)
    (h : view.label.text = none) (title : Option String) :
    (view.showTitle sizeToFit title).drawn =
      (title.bind labelText, boundsAfter sizeToFit view.label.bounds title,
        ⟨-(boundsAfter sizeToFit view.label.bounds title).width / 2,
          -(boundsAfter sizeToFit view.label.bounds title).height⟩) := by
  cases title with
  | none => simp [showTitle, render, drawn, boundsAfter, h]
  | some title => simp [showTitle, render, drawn, boundsAfter]

variable [Zero F]

theorem reused_label (sizeToFit : SizeToFit F) (history : List (Option String)) :
    (reused sizeToFit history).label = ⟨none, leftover sizeToFit history⟩ :=
  label_foldl sizeToFit history initial rfl

/-- The reuse of a view is invisible exactly when the earlier titles leave no
trace. -/
theorem reuseInvisible_iff (sizeToFit : SizeToFit F) (history : List (Option String))
    (next : MKAnnotation) :
    ReuseInvisible sizeToFit history next ↔ LeavesNoTrace sizeToFit history next := by
  cases next with
  | userLocation => exact iff_of_true rfl trivial
  | point title =>
    have hreused := drawn_showTitle sizeToFit (reused sizeToFit history)
      (by rw [reused_label]) title
    have hinitial := drawn_showTitle sizeToFit (initial : DealAnnotationView F) rfl title
    rw [reused_label] at hreused
    have hgoal : ReuseInvisible sizeToFit history (.point title) ↔
        ((reused sizeToFit history).showTitle sizeToFit title).drawn =
          ((initial : DealAnnotationView F).showTitle sizeToFit title).drawn := by
      simp [ReuseInvisible, viewFor]
    rw [hgoal, hreused, hinitial]
    constructor
    · intro heq
      exact (Prod.mk.inj (Prod.mk.inj heq).2).1
    · intro heq
      have hbounds : boundsAfter sizeToFit (leftover sizeToFit history) title =
          boundsAfter sizeToFit (initial : DealAnnotationView F).label.bounds title := heq
      simp only [hbounds]

end Drawing

/-! ## A sizing that shows every trace -/

section SizeOnce

variable [Zero F] [One F] [DecidableEq F]

/-- An empty label gets one size and every other label another. -/
def sizeOnce : SizeToFit F := fun _ bounds =>
  if bounds = CGRect.zero then ⟨0, 0, 1, 0⟩ else ⟨0, 0, 1, 1⟩

variable [NeZero (1 : F)]

theorem sizeOnce_ne_zero (text : Option String) (bounds : CGRect F) :
    sizeOnce text bounds ≠ CGRect.zero := by
  unfold sizeOnce CGRect.zero
  split <;> simp

theorem foldl_sizeOnce_ne_zero {bounds : CGRect F} (h : bounds ≠ CGRect.zero)
    (history : List (Option String)) :
    history.foldl (boundsAfter sizeOnce) bounds ≠ CGRect.zero := by
  induction history generalizing bounds with
  | nil => exact h
  | cons title history ih =>
    rw [List.foldl_cons]
    refine ih ?_
    cases title with
    | none => exact h
    | some title => exact sizeOnce_ne_zero (labelText title) _

theorem leftover_sizeOnce_ne_zero {history : List (Option String)} {title : String}
    (h : some title ∈ history) : leftover (F := F) sizeOnce history ≠ CGRect.zero := by
  obtain ⟨before, after, rfl⟩ := List.append_of_mem h
  unfold leftover
  rw [List.foldl_append, List.foldl_cons]
  exact foldl_sizeOnce_ne_zero (sizeOnce_ne_zero (labelText title) _) after

end SizeOnce

end DealAnnotationView

open DealAnnotationView

/-- For a given `sizeToFit`, the next annotation is drawn by a reused view as by a
new one if and only if the earlier titles leave no trace in the size of its
label.  Whatever `sizeToFit` is, that is sure of a pin if and only if no earlier
pin had a title. -/
theorem reuse_invisible_iff [Neg F] [Div F] [OfNat F 2] [Zero F] [One F] [DecidableEq F]
    [NeZero (1 : F)] (history : List (Option String)) (next : MKAnnotation) :
    (∀ sizeToFit : SizeToFit F,
        ReuseInvisible sizeToFit history next ↔ LeavesNoTrace sizeToFit history next) ∧
      ((∀ sizeToFit : SizeToFit F, ReuseInvisible sizeToFit history next) ↔
        next = .userLocation ∨ ∀ earlier ∈ history, earlier = none) := by
  refine ⟨fun sizeToFit => reuseInvisible_iff sizeToFit history next, fun hall => ?_,
    fun hnext sizeToFit => ?_⟩
  · cases next with
    | userLocation => exact .inl rfl
    | point title =>
      right
      intro earlier hmem
      by_contra hsome
      obtain ⟨t, rfl⟩ := Option.ne_none_iff_exists'.mp hsome
      have hleft := leftover_sizeOnce_ne_zero (F := F) hmem
      have htrace := (reuseInvisible_iff sizeOnce history (.point title)).mp (hall sizeOnce)
      cases title with
      | none => exact hleft htrace
      | some title => simp [LeavesNoTrace, boundsAfter, sizeOnce, hleft] at htrace
  · rw [reuseInvisible_iff]
    rcases hnext with rfl | hnone
    · trivial
    · cases next with
      | userLocation => trivial
      | point title =>
        show boundsAfter sizeToFit (leftover sizeToFit history) title = _
        rw [leftover_of_untitled sizeToFit hnone]

/-- A pin with a title, in a view that showed a pin with another title before. -/
theorem reuse_invisible_iff_titled :
    (∀ sizeToFit : SizeToFit Rat,
        ReuseInvisible sizeToFit [some "Wings"] (.point (some "Nachos")) ↔
          LeavesNoTrace sizeToFit [some "Wings"] (.point (some "Nachos"))) ∧
      ((∀ sizeToFit : SizeToFit Rat,
          ReuseInvisible sizeToFit [some "Wings"] (.point (some "Nachos"))) ↔
        MKAnnotation.point (some "Nachos") = .userLocation ∨
          ∀ earlier ∈ [some "Wings"], earlier = none) :=
  reuse_invisible_iff [some "Wings"] (.point (some "Nachos"))

/-- A view that showed `Wings` is reused for a pin without a title: its label is
empty and keeps the size of `Wings`, and the pin is drawn off its place. -/
theorem untitled_pin_displaced :
    ¬∀ (sizeToFit : SizeToFit Rat) (history : List (Option String)) (next : MKAnnotation),
      ReuseInvisible sizeToFit history next := by
  intro h
  have hall := h (fun _ _ => ⟨0, 0, 60, 40⟩) [some "Wings"] (.point none)
  revert hall
  unfold ReuseInvisible
  decide

end MealDeals
