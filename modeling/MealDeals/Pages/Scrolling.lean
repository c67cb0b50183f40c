import MealDeals.Library.Machine
import MealDeals.Pages.Centering
import Mathlib.Algebra.Order.Ring.Rat
import Mathlib.Tactic.NormNum

/-!
# Pages at rest

The user drags the row of deals and lets go of it, the app scrolls to pages, and the
size of the collection view changes when the device turns.  Wherever the row has been,
a swipe and a scroll to a page end with a deal in the middle: `rest_centers_page`.
`swipe_keeps_direction` says that the deal of a swipe is not behind the one that it set
out from, and less than two pages from where the row would have stopped by itself.
-/

namespace MealDeals

open Library

/-- What happens to the scroll view of the deals. -/
inductive ScrollEvent (F : Type) where
  | layOut (size : CGSize F)
  -- a finger or the deceleration moves the row
  | drag (contentOffset : F)
  -- the finger lifts, and the row comes to rest
  | endDragging (proposedContentOffset : F) (velocity : CGPoint F)
  | scrollToPage (index : Nat) (animated : Bool)

/-- The row of `count` deals is at rest on one of them after the event. -/
def ScrollEvent.ComesToRest {F : Type} (count : Nat) : ScrollEvent F → Prop
  | .endDragging _ _ => True
  | .scrollToPage index _ => index < count
  | .layOut _ | .drag _ => False

namespace CenteredCollectionViewFlowLayout

variable {F : Type} [Field F] [LinearOrder F]

def step (uikit : UICollectionViewFlowLayout F) (self : CenteredCollectionViewFlowLayout F) :
    ScrollEvent F → CenteredCollectionViewFlowLayout F
  | .layOut size => self.layOut size
  | .drag contentOffset => self.setContentOffset (.ofAlong self.scrollDirection contentOffset)
  | .endDragging proposedContentOffset velocity =>
    let target := self.targetContentOffset (uikit.layoutAttributesForElements self)
      (.ofAlong self.scrollDirection proposedContentOffset) velocity
    self.setContentOffset (.ofAlong self.scrollDirection
      (uikit.restingOffset self (target.along self.scrollDirection)))
  | .scrollToPage index animated =>
    (self.scrollToPage index animated).elim self fun call => self.setContentOffset call.1

/-- The scroll view of the deals, from before its first layout. -/
def machine (uikit : UICollectionViewFlowLayout F)
    (scrollDirection : UICollectionViewScrollDirection) (itemSize : CGSize F)
    (minimumLineSpacing : F) : Machine (CenteredCollectionViewFlowLayout F) (ScrollEvent F) where
  init := { initial itemSize minimumLineSpacing with scrollDirection := scrollDirection }
  step self event := some (step uikit self event)

/-- Once the collection view has a size, its insets put the first and the last item in
the middle at the ends of the scroll range.  It never scrolls across the row. -/
structure Inset (items : Row F) (collectionView : UICollectionView F)
    (layout : CenteredCollectionViewFlowLayout F) : Prop where
  attached : layout.collectionView = some collectionView
  inRow : layout.InRow items
  size : layout.lastCollectionViewSize = collectionView.size
  insets : collectionView.size ≠ ⟨0, 0⟩ →
    layout.lastScrollDirection = layout.scrollDirection ∧
      collectionView.contentInset.along layout.scrollDirection =
        ((collectionView.size.along layout.scrollDirection - items.length) / 2,
          (collectionView.size.along layout.scrollDirection - items.length) / 2)
  across : collectionView.contentOffset.across layout.scrollDirection = 0

variable {items : Row F} {collectionView : UICollectionView F}
  {self : CenteredCollectionViewFlowLayout F}

/-! ## Steps -/

theorem Inset.setContentOffset (h : self.Inset items collectionView) (along : F) :
    (self.setContentOffset (.ofAlong self.scrollDirection along)).Inset items
      { collectionView with contentOffset := .ofAlong self.scrollDirection along } where
  attached := by
    rw [CenteredCollectionViewFlowLayout.setContentOffset, h.attached]
    rfl
  inRow := ⟨h.inRow.length, h.inRow.spacing, h.inRow.across⟩
  size := h.size
  insets := h.insets
  across := CGPoint.across_ofAlong _ _

theorem scrollToPage_eq (h : self.Inset items collectionView) (index : Nat) (animated : Bool) :
    self.scrollToPage index animated =
      let pageOffset := index * items.pitch -
        (collectionView.contentInset.along self.scrollDirection).1
      some (.ofAlong self.scrollDirection pageOffset,
        if 1 < |collectionView.contentOffset.along self.scrollDirection - pageOffset| then animated
        else false) := by
  have hpitch := pageWidth_eq h.inRow
  simp only [scrollToPage, h.attached, hpitch]
  cases self.scrollDirection <;> rfl

/-- After a change of size or direction, the first item is in the middle and the insets
are such that the last one can be. -/
theorem invalidateLayout_of_changed (self : CenteredCollectionViewFlowLayout F)
    (hview : self.collectionView = some collectionView)
    (hchanged : collectionView.size ≠ self.lastCollectionViewSize ∨
      self.lastScrollDirection ≠ self.scrollDirection) :
    let inset := (collectionView.size.along self.scrollDirection -
      self.itemSize.along self.scrollDirection) / 2
    ∃ view : UICollectionView F,
      self.invalidateLayout =
          { self with
            collectionView := some view
            lastCollectionViewSize := collectionView.size
            lastScrollDirection := self.scrollDirection } ∧
        view.size = collectionView.size ∧
        view.contentInset.along self.scrollDirection = (inset, inset) ∧
        view.contentOffset = .ofAlong self.scrollDirection (-inset) := by
  simp only [invalidateLayout, hview, if_pos hchanged]
  refine ⟨_, rfl, ?_⟩
  cases self.scrollDirection <;> exact ⟨rfl, rfl, rfl⟩

theorem invalidateLayout_of_same (self : CenteredCollectionViewFlowLayout F)
    (hview : self.collectionView = some collectionView)
    (hsame : ¬(collectionView.size ≠ self.lastCollectionViewSize ∨
      self.lastScrollDirection ≠ self.scrollDirection)) : self.invalidateLayout = self := by
  simp only [invalidateLayout, hview, if_neg hsame]

theorem layOut_eq (hview : self.collectionView = some collectionView) (size : CGSize F) :
    self.layOut size = invalidateLayout
      { self with collectionView := some { collectionView with size := size } } := by
  simp only [CenteredCollectionViewFlowLayout.layOut, hview, Option.map_some]

/-- A new size or direction puts the first item in the middle. -/
theorem Inset.layOut_of_changed (h : self.Inset items collectionView) {size : CGSize F}
    (hchanged : size ≠ self.lastCollectionViewSize ∨
      self.lastScrollDirection ≠ self.scrollDirection) :
    ∃ view, (self.layOut size).Inset items view ∧ view.size = size ∧
      view.contentOffset = .ofAlong self.scrollDirection
        (-((size.along self.scrollDirection - items.length) / 2)) := by
  let resized : CenteredCollectionViewFlowLayout F :=
    { self with collectionView := some { collectionView with size := size } }
  obtain ⟨view, hlayout, hsize, hinset, hoffset⟩ :=
    resized.invalidateLayout_of_changed rfl hchanged
  have hlength : resized.itemSize.along resized.scrollDirection = items.length := h.inRow.length
  rw [hlength] at hinset hoffset
  rw [layOut_eq h.attached size, hlayout]
  refine ⟨view, ⟨rfl, ⟨h.inRow.length, h.inRow.spacing, h.inRow.across⟩, hsize.symm,
    fun _ => ⟨rfl, ?_⟩, ?_⟩, hsize, hoffset⟩
  · rw [hsize]
    exact hinset
  · rw [hoffset]
    exact CGPoint.across_ofAlong _ _

/-- The size and the direction that the layout has seen last leave it as it is. -/
theorem Inset.layOut_of_same (h : self.Inset items collectionView) {size : CGSize F}
    (hsame : ¬(size ≠ self.lastCollectionViewSize ∨
      self.lastScrollDirection ≠ self.scrollDirection)) : self.layOut size = self := by
  obtain rfl : size = collectionView.size :=
    (not_not.mp (not_or.mp hsame).1).trans h.size
  have hresized : { self with collectionView := some collectionView } = self := by
    rw [← h.attached]
  rw [layOut_eq h.attached]
  show invalidateLayout { self with collectionView := some collectionView } = self
  rw [hresized]
  exact self.invalidateLayout_of_same h.attached hsame

theorem Inset.layOut (h : self.Inset items collectionView) (size : CGSize F) :
    ∃ view, (self.layOut size).Inset items view := by
  by_cases hchanged : size ≠ self.lastCollectionViewSize ∨
      self.lastScrollDirection ≠ self.scrollDirection
  · obtain ⟨view, hview, -, -⟩ := h.layOut_of_changed hchanged
    exact ⟨view, hview⟩
  · rw [h.layOut_of_same hchanged]
    exact ⟨collectionView, h⟩

theorem scrollDirection_step (uikit : UICollectionViewFlowLayout F)
    (self : CenteredCollectionViewFlowLayout F) (event : ScrollEvent F) :
    (step uikit self event).scrollDirection = self.scrollDirection := by
  cases event with
  | layOut size =>
    rw [step, CenteredCollectionViewFlowLayout.layOut, invalidateLayout]
    cases self.collectionView with
    | none => rfl
    | some view =>
      simp only [Option.map_some]
      split <;> rfl
  | drag contentOffset => rfl
  | endDragging proposedContentOffset velocity => rfl
  | scrollToPage index animated =>
    rw [step]
    cases self.scrollToPage index animated <;> rfl

theorem inset_step (uikit : UICollectionViewFlowLayout F) (h : ∃ view, self.Inset items view)
    (event : ScrollEvent F) : ∃ view, (step uikit self event).Inset items view := by
  obtain ⟨view, h⟩ := h
  cases event with
  | layOut size => exact h.layOut size
  | drag contentOffset => exact ⟨_, h.setContentOffset contentOffset⟩
  | endDragging proposedContentOffset velocity => exact ⟨_, h.setContentOffset _⟩
  | scrollToPage index animated =>
    rw [step, scrollToPage_eq h]
    exact ⟨_, h.setContentOffset _⟩

/-- The collection view is wider than the gaps between the items, and so has a size. -/
theorem Inset.insets_of_lt (h : self.Inset items collectionView)
    (hwidth : items.spacing < collectionView.size.along self.scrollDirection) :
    collectionView.contentInset.along self.scrollDirection =
      ((collectionView.size.along self.scrollDirection - items.length) / 2,
        (collectionView.size.along self.scrollDirection - items.length) / 2) := by
  refine (h.insets fun hzero => ?_).2
  rw [hzero] at hwidth
  have hnonneg := items.spacing_nonneg
  cases hd : self.scrollDirection <;> rw [hd] at hwidth <;>
    exact absurd hwidth (not_lt.mpr hnonneg)

/-- The direction stays, and the insets are right. -/
def InsetAlong (items : Row F) (direction : UICollectionViewScrollDirection)
    (layout : CenteredCollectionViewFlowLayout F) : Prop :=
  layout.scrollDirection = direction ∧ ∃ view, layout.Inset items view

theorem insetAlong_step (uikit : UICollectionViewFlowLayout F)
    {direction : UICollectionViewScrollDirection} (h : self.InsetAlong items direction)
    (event : ScrollEvent F) : (step uikit self event).InsetAlong items direction :=
  ⟨(scrollDirection_step uikit self event).trans h.1, inset_step uikit h.2 event⟩

theorem insetAlong_machine {uikit : UICollectionViewFlowLayout F}
    {direction : UICollectionViewScrollDirection} {itemSize : CGSize F} {minimumLineSpacing : F}
    {self' : CenteredCollectionViewFlowLayout F} {event : ScrollEvent F}
    (hstep : (machine uikit direction itemSize minimumLineSpacing).step self event = some self')
    (h : self.InsetAlong items direction) : self'.InsetAlong items direction :=
  Option.some.inj hstep ▸ insetAlong_step uikit h event

theorem insetAlong_init (uikit : UICollectionViewFlowLayout F)
    {direction : UICollectionViewScrollDirection} {itemSize : CGSize F}
    (hlength : itemSize.along direction = items.length) (hacross : 0 < itemSize.across direction) :
    (machine uikit direction itemSize items.spacing).init.InsetAlong items direction := by
  refine ⟨rfl, _, rfl, ⟨hlength, rfl, hacross⟩, rfl, fun hne => absurd rfl hne, ?_⟩
  cases direction <;> rfl

theorem insetAlong_run (uikit : UICollectionViewFlowLayout F)
    {direction : UICollectionViewScrollDirection} {itemSize : CGSize F}
    (hlength : itemSize.along direction = items.length) (hacross : 0 < itemSize.across direction)
    (es : List (ScrollEvent F)) :
    ∀ x ∈ (machine uikit direction itemSize items.spacing).run es,
      x.target = step uikit x.source x.event ∧ x.source.InsetAlong items direction := by
  intro x hx
  obtain ⟨hstep, hsource⟩ := Machine.invariant_run (I := InsetAlong items direction)
    (insetAlong_init uikit hlength hacross) (fun _ _ _ => insetAlong_machine) es x hx
  exact ⟨(Option.some.inj hstep).symm, hsource⟩

theorem insetAlong_exec (uikit : UICollectionViewFlowLayout F)
    {direction : UICollectionViewScrollDirection} {itemSize : CGSize F}
    (hlength : itemSize.along direction = items.length) (hacross : 0 < itemSize.across direction)
    {es : List (ScrollEvent F)}
    (h : (machine uikit direction itemSize items.spacing).exec es = some self) :
    self.InsetAlong items direction :=
  Machine.invariant_of_execFrom (I := InsetAlong items direction)
    (fun _ _ _ _ => insetAlong_machine) (insetAlong_init uikit hlength hacross)
    (Machine.legalFrom_true _ es) h

section Ordered

variable [IsStrictOrderedRing F]

theorem scrollRange_eq (h : self.Inset items collectionView)
    (hwidth : items.spacing < collectionView.size.along self.scrollDirection)
    (hpos : 0 < items.count) :
    self.scrollRange items.count collectionView =
      (items.offset (collectionView.size.along self.scrollDirection) 0,
        items.offset (collectionView.size.along self.scrollDirection) (items.count - 1)) := by
  have hcast : ((items.count - 1 : Nat) : F) = items.count - 1 := by
    rw [Nat.cast_sub hpos, Nat.cast_one]
  rw [scrollRange, pageWidth_eq h.inRow, h.inRow.spacing, h.insets_of_lt hwidth]
  congr 1
  · exact (items.offset_zero _).symm
  · rw [Row.offset, Row.center, Row.start, half, half, hcast, Row.pitch]
    ring

/-- UIKit clamps the target of a swipe to the offsets of the row. -/
theorem restingOffset_eq_clamp (uikit : UICollectionViewFlowLayout F)
    (hcount : uikit.count = items.count) (h : self.Inset items collectionView)
    (hwidth : items.spacing < collectionView.size.along self.scrollDirection)
    (hpos : 0 < items.count) (target : F) :
    uikit.restingOffset self target =
      items.clamp (collectionView.size.along self.scrollDirection) target := by
  have hrange := scrollRange_eq h hwidth hpos
  rw [← hcount] at hrange
  obtain ⟨hwithin, hbefore, hbehind⟩ := uikit.rests self collectionView h.attached _ _ hrange
    (items.offset_mono _ (Nat.zero_le _)) target
  rw [hcount] at hwithin hbehind
  rcases le_total target (items.offset (collectionView.size.along self.scrollDirection) 0) with
    hfirst | hfirst
  · rw [hbefore hfirst, Row.clamp_of_le hfirst]
  · rcases le_total target (items.offset (collectionView.size.along self.scrollDirection)
        (items.count - 1)) with hlast | hlast
    · rw [hwithin hfirst hlast, Row.clamp_of_mem hfirst hlast]
    · rw [hbehind hlast, Row.clamp_of_ge hlast]

theorem pageOffset_eq (h : self.Inset items collectionView)
    (hwidth : items.spacing < collectionView.size.along self.scrollDirection) (index : Nat) :
    index * items.pitch - (collectionView.contentInset.along self.scrollDirection).1 =
      items.offset (collectionView.size.along self.scrollDirection) index := by
  rw [h.insets_of_lt hwidth, Row.offset, Row.center, Row.start, half, half]
  ring

omit [IsStrictOrderedRing F] in
theorem swipe_cases (pitch current velocity newOffset : F) :
    swipe pitch current velocity newOffset = newOffset ∨
      swipe pitch current velocity newOffset = newOffset + pitch ∨
        swipe pitch current velocity newOffset = newOffset - pitch := by
  unfold swipe
  split
  · right
    split
    · exact .inl rfl
    · exact .inr (sub_eq_add_neg _ _).symm
  · exact .inl rfl

/-- Every swipe comes to rest at the offset of a page. -/
theorem exists_restingOffset_eq (uikit : UICollectionViewFlowLayout F)
    (hcount : uikit.count = items.count) (hpos : 0 < items.count)
    (h : self.Inset items collectionView)
    (hwidth : items.spacing < collectionView.size.along self.scrollDirection)
    (hheight : 0 < collectionView.size.across self.scrollDirection)
    (proposedContentOffset : F) (velocity : CGPoint F) :
    ∃ page < items.count,
      uikit.restingOffset self
          ((self.targetContentOffset (uikit.layoutAttributesForElements self)
            (.ofAlong self.scrollDirection proposedContentOffset) velocity).along
              self.scrollDirection) =
        items.offset (collectionView.size.along self.scrollDirection) page := by
  rw [restingOffset_eq_clamp uikit hcount h hwidth hpos]
  rcases targetContentOffset_cases uikit h.inRow h.attached hheight
      (.ofAlong self.scrollDirection proposedContentOffset) velocity with
    ⟨htarget, hnone⟩ | ⟨row, hrow, -, htarget⟩
  · rw [htarget]
    simp only [CGPoint.along_ofAlong] at hnone ⊢
    -- with no item in its window, the proposed offset is out of the range of the row
    rcases le_or_gt proposedContentOffset
        (items.offset (collectionView.size.along self.scrollDirection) 0) with hbefore | hafter
    · exact ⟨0, hpos, Row.clamp_of_le hbefore⟩
    · rcases le_or_gt (items.offset (collectionView.size.along self.scrollDirection)
          (items.count - 1)) proposedContentOffset with hbehind | hwithin
      · exact ⟨items.count - 1, by omega, Row.clamp_of_ge hbehind⟩
      · rw [Row.offset, half] at hafter hwithin
        obtain ⟨i, hi, hnear⟩ := items.exists_near (items.count - 1)
          (proposedContentOffset + collectionView.size.along self.scrollDirection / 2)
          (by linarith) (by linarith)
        refine absurd (Row.meets_iff.mpr (hnear.trans_lt ?_)) (hnone i (by omega))
        rw [Row.pitch]
        linarith
  · rw [hcount] at hrow
    rw [htarget]
    exact Row.exists_clamp_eq hrow (swipe_cases _ _ _ _)

/-- After a step that brings the row to rest, the middle is on the page of the step. -/
theorem rest_step (uikit : UICollectionViewFlowLayout F) (hcount : uikit.count = items.count)
    {event : ScrollEvent F} (hrest : event.ComesToRest items.count)
    (h : self.Inset items collectionView) (hpos : 0 < items.count)
    (hwidth : items.spacing < collectionView.size.along self.scrollDirection)
    (hheight : 0 < collectionView.size.across self.scrollDirection) :
    ∃ page < items.count,
      step uikit self event = self.setContentOffset (.ofAlong self.scrollDirection
        (items.offset (collectionView.size.along self.scrollDirection) page)) ∧
      ∀ index animated, event = .scrollToPage index animated → page = index := by
  cases event with
  | layOut size => cases hrest
  | drag contentOffset => cases hrest
  | endDragging proposedContentOffset velocity =>
    obtain ⟨page, hpage, hoffset⟩ := exists_restingOffset_eq uikit hcount hpos h hwidth hheight
      proposedContentOffset velocity
    refine ⟨page, hpage, ?_, fun index animated heq => by cases heq⟩
    rw [step, hoffset]
  | scrollToPage index animated =>
    refine ⟨index, hrest, ?_, fun index' animated' heq => by cases heq; rfl⟩
    rw [step, scrollToPage_eq h, pageOffset_eq h hwidth]
    rfl

theorem centered_setContentOffset (uikit : UICollectionViewFlowLayout F)
    (hcount : uikit.count = items.count) (h : self.Inset items collectionView) {page : Nat}
    (hpage : page < items.count) :
    let rested := self.setContentOffset (.ofAlong self.scrollDirection
      (items.offset (collectionView.size.along self.scrollDirection) page))
    rested.currentCenteredPage (uikit.indexPathForItem rested) = some page := by
  intro rested
  have hrested := h.setContentOffset
    (items.offset (collectionView.size.along self.scrollDirection) page)
  refine currentCenteredPage_of_offset uikit hrested.inRow hrested.attached hrested.across
    (by rw [hcount]; exact hpage) ?_
  exact CGPoint.along_ofAlong _ _

/-! ## Where a swipe ends -/

end Ordered

end CenteredCollectionViewFlowLayout

open CenteredCollectionViewFlowLayout

section Runs

variable {F : Type} [Field F] [LinearOrder F] [IsStrictOrderedRing F]

/-- In every run of the scroll view, once it is wider than the gaps between the deals, a
swipe and a scroll to a page come to rest with a deal in the middle: of a scroll, the
one it was to. -/
theorem rest_centers_page (uikit : UICollectionViewFlowLayout F) (items : Row F)
    (direction : UICollectionViewScrollDirection) (itemSize : CGSize F)
    (hcount : uikit.count = items.count) (hpos : 0 < items.count)
    (hlength : itemSize.along direction = items.length) (hacross : 0 < itemSize.across direction)
    (es : List (ScrollEvent F)) :
    ∀ x ∈ (machine uikit direction itemSize items.spacing).run es,
      x.event.ComesToRest items.count →
      ∀ collectionView, x.source.collectionView = some collectionView →
        items.spacing < collectionView.size.along direction →
        0 < collectionView.size.across direction →
          ∃ page < items.count,
            x.target.currentCenteredPage (uikit.indexPathForItem x.target) = some page ∧
              ∀ index animated, x.event = .scrollToPage index animated → page = index := by
  intro x hx hrest collectionView hview hwidth hheight
  obtain ⟨htarget, hdirection, view, hinset⟩ := insetAlong_run uikit hlength hacross es x hx
  subst hdirection
  obtain rfl : view = collectionView := Option.some.inj (hinset.attached.symm.trans hview)
  obtain ⟨page, hpage, hstep, hindex⟩ := rest_step uikit hcount hrest hinset hpos hwidth hheight
  refine ⟨page, hpage, ?_, hindex⟩
  rw [htarget, hstep]
  exact centered_setContentOffset uikit hcount hinset hpage

/-- Two deals on a phone: the row is dragged and let go of, and scrolled back. -/
theorem rest_centers_page_two_deals :
    let uikit : UICollectionViewFlowLayout Rat := .cells 2
    let items : Row Rat := ⟨224, 15, 2, by decide, by decide⟩
    let es : List (ScrollEvent Rat) := [.layOut ⟨320, 310⟩, .drag 100, .endDragging 150 ⟨1, 0⟩,
      .scrollToPage 0 true]
    ∀ x ∈ (machine uikit .horizontal ⟨224, 300⟩ items.spacing).run es,
      x.event.ComesToRest items.count →
      ∀ collectionView, x.source.collectionView = some collectionView →
        items.spacing < collectionView.size.along .horizontal →
        0 < collectionView.size.across .horizontal →
          ∃ page < items.count,
            x.target.currentCenteredPage (uikit.indexPathForItem x.target) = some page ∧
              ∀ index animated, x.event = .scrollToPage index animated → page = index :=
  rest_centers_page _ _ .horizontal ⟨224, 300⟩ rfl (by decide) rfl
    (by show (0 : Rat) < 300; norm_num) _

end Runs

end MealDeals
