import MealDeals.Library.Row
import MealDeals.Pages.FlowLayout
import Mathlib.Data.List.MinMax

/-!
# What the layout computes

The deals stand in one row in the scroll direction, whichever that is.  Each method
of the layout is stated here along that direction, in terms of the row: which deal
the middle of the collection view is on, which deal is nearest to a proposed offset,
and where a swipe ends.
-/

namespace MealDeals

open Library

section Axes

variable {F : Type}

def CGPoint.along : UICollectionViewScrollDirection → CGPoint F → F
  | .horizontal, point => point.x
  | .vertical, point => point.y

def CGPoint.across : UICollectionViewScrollDirection → CGPoint F → F
  | .horizontal, point => point.y
  | .vertical, point => point.x

def CGPoint.ofAlong [Zero F] : UICollectionViewScrollDirection → F → CGPoint F
  | .horizontal, along => ⟨along, 0⟩
  | .vertical, along => ⟨0, along⟩

def CGSize.along : UICollectionViewScrollDirection → CGSize F → F
  | .horizontal, size => size.width
  | .vertical, size => size.height

def CGSize.across : UICollectionViewScrollDirection → CGSize F → F
  | .horizontal, size => size.height
  | .vertical, size => size.width

/-- The insets before and behind the row. -/
def UIEdgeInsets.along : UICollectionViewScrollDirection → UIEdgeInsets F → F × F
  | .horizontal, insets => (insets.left, insets.right)
  | .vertical, insets => (insets.top, insets.bottom)

variable [Zero F]

@[simp] theorem CGPoint.along_ofAlong (direction : UICollectionViewScrollDirection) (along : F) :
    (CGPoint.ofAlong direction along).along direction = along := by
  cases direction <;> rfl

@[simp] theorem CGPoint.across_ofAlong (direction : UICollectionViewScrollDirection) (along : F) :
    (CGPoint.ofAlong direction along).across direction = 0 := by
  cases direction <;> rfl

end Axes

variable {F : Type} [Field F] [LinearOrder F]

def CGRect.contains (rect : CGRect F) (point : CGPoint F) : Prop :=
  (rect.x ≤ point.x ∧ point.x < rect.x + rect.width) ∧
    (rect.y ≤ point.y ∧ point.y < rect.y + rect.height)

def CGRect.intersects (rect other : CGRect F) : Prop :=
  (rect.x < other.x + other.width ∧ other.x < rect.x + rect.width) ∧
    (rect.y < other.y + other.height ∧ other.y < rect.y + rect.height)

instance (rect : CGRect F) (point : CGPoint F) : Decidable (rect.contains point) :=
  inferInstanceAs (Decidable (_ ∧ _))

instance (rect other : CGRect F) : Decidable (rect.intersects other) :=
  inferInstanceAs (Decidable (_ ∧ _))

def CGRect.mid (rect : CGRect F) : CGPoint F :=
  ⟨rect.x + half rect.width, rect.y + half rect.height⟩

namespace CenteredCollectionViewFlowLayout

/-- The frame of an item, when the items stand in one row in the scroll direction, in
the middle of the collection view. -/
def frame (self : CenteredCollectionViewFlowLayout F) (size : CGSize F) (row : Nat) : CGRect F :=
  match self.scrollDirection with
  | .horizontal =>
    ⟨row * self.pageWidth, half (size.height - self.itemSize.height), self.itemSize.width,
      self.itemSize.height⟩
  | .vertical =>
    ⟨half (size.width - self.itemSize.width), row * self.pageWidth, self.itemSize.width,
      self.itemSize.height⟩

/-- The first and the last offset of the row between the insets of the collection view. -/
def scrollRange (self : CenteredCollectionViewFlowLayout F) (count : Nat)
    (collectionView : UICollectionView F) : F × F :=
  let contentLength := count * self.pageWidth - self.minimumLineSpacing
  let insets := collectionView.contentInset.along self.scrollDirection
  (-insets.1, contentLength - collectionView.size.along self.scrollDirection + insets.2)

end CenteredCollectionViewFlowLayout

/-- What `UICollectionViewFlowLayout` and the collection view say of `count` items in
one row.  The elements in a rectangle include the cells whose frames intersect it,
and there may be others besides.  A row that is to stop beyond its range stops at the
end of it. -/
structure UICollectionViewFlowLayout (F : Type) [Field F] [LinearOrder F] where
  count : Nat
  layoutAttributesForElements :
    CenteredCollectionViewFlowLayout F → LayoutAttributesForElements F
  indexPathForItem : CenteredCollectionViewFlowLayout F → IndexPathForItem F
  item_some : ∀ layout collectionView, layout.collectionView = some collectionView →
    ∀ point row, indexPathForItem layout point = some row →
      row < count ∧ (layout.frame collectionView.size row).contains point
  item_none : ∀ layout collectionView, layout.collectionView = some collectionView →
    ∀ point, indexPathForItem layout point = none →
      ∀ row < count, ¬(layout.frame collectionView.size row).contains point
  elements : ∀ layout collectionView, layout.collectionView = some collectionView →
    ∀ rect, ∃ attributes, layoutAttributesForElements layout rect = some attributes ∧
      (∀ a ∈ attributes, a.representedElementCategory = .cell →
        a.row < count ∧ a.center = (layout.frame collectionView.size a.row).mid) ∧
      ∀ row < count, (layout.frame collectionView.size row).intersects rect →
        ∃ a ∈ attributes, a.representedElementCategory = .cell ∧ a.row = row
  -- where the row comes to rest when it is to stop at an offset
  restingOffset : CenteredCollectionViewFlowLayout F → F → F
  rests : ∀ layout collectionView, layout.collectionView = some collectionView →
    ∀ first last, layout.scrollRange count collectionView = (first, last) → first ≤ last →
      ∀ target, (first ≤ target → target ≤ last → restingOffset layout target = target) ∧
        (target ≤ first → restingOffset layout target = first) ∧
        (last ≤ target → restingOffset layout target = last)

/-- The row of items as it is, without anything besides. -/
def UICollectionViewFlowLayout.cells (count : Nat) : UICollectionViewFlowLayout F where
  count := count
  layoutAttributesForElements layout rect :=
    layout.collectionView.map fun collectionView =>
      ((List.range count).filter fun row =>
        (layout.frame collectionView.size row).intersects rect).map fun row =>
          ⟨.cell, row, (layout.frame collectionView.size row).mid⟩
  indexPathForItem layout point :=
    layout.collectionView.bind fun collectionView =>
      (List.range count).find? fun row => (layout.frame collectionView.size row).contains point
  item_some layout collectionView h point row hrow := by
    rw [h, Option.bind_some] at hrow
    exact ⟨List.mem_range.mp (List.mem_of_find?_eq_some hrow), by simpa using List.find?_some hrow⟩
  item_none layout collectionView h point hnone row hrow := by
    rw [h, Option.bind_some, List.find?_eq_none] at hnone
    simpa using hnone row (List.mem_range.mpr hrow)
  elements layout collectionView h rect := by
    refine ⟨_, by rw [h]; rfl, fun a ha _ => ?_, fun row hrow hmeets => ?_⟩
    · obtain ⟨row, hrow, rfl⟩ := List.mem_map.mp ha
      exact ⟨List.mem_range.mp (List.mem_of_mem_filter hrow), rfl⟩
    · refine ⟨_, List.mem_map.mpr ⟨row, List.mem_filter.mpr ⟨List.mem_range.mpr hrow, ?_⟩, rfl⟩,
        rfl, rfl⟩
      exact decide_eq_true hmeets
  restingOffset layout target :=
    layout.collectionView.elim target fun collectionView =>
      max (layout.scrollRange count collectionView).1
        (min (layout.scrollRange count collectionView).2 target)
  rests layout collectionView h first last hrange hle target := by
    rw [h, Option.elim_some, hrange]
    refine ⟨fun hfirst hlast => ?_, fun hbefore => ?_, fun hbehind => ?_⟩
    · rw [min_eq_right hlast, max_eq_right hfirst]
    · exact max_eq_left ((min_le_right _ _).trans hbefore)
    · rw [min_eq_left hbehind]
      exact max_eq_right hle

namespace CenteredCollectionViewFlowLayout

/-- The items of the layout are those of the row. -/
structure InRow (items : Row F) (layout : CenteredCollectionViewFlowLayout F) : Prop where
  length : layout.itemSize.along layout.scrollDirection = items.length
  spacing : layout.minimumLineSpacing = items.spacing
  across : 0 < layout.itemSize.across layout.scrollDirection

variable {items : Row F} {self : CenteredCollectionViewFlowLayout F}

theorem pageWidth_eq (h : self.InRow items) : self.pageWidth = items.pitch := by
  rw [Row.pitch, ← h.length, ← h.spacing, pageWidth]
  cases self.scrollDirection <;> rfl

theorem frame_contains (h : self.InRow items) {size : CGSize F} {row : Nat} {point : CGPoint F} :
    (self.frame size row).contains point ↔
      items.Covers row (point.along self.scrollDirection) ∧
        (size.across self.scrollDirection - self.itemSize.across self.scrollDirection) / 2 ≤
            point.across self.scrollDirection ∧
          point.across self.scrollDirection <
            (size.across self.scrollDirection - self.itemSize.across self.scrollDirection) / 2 +
              self.itemSize.across self.scrollDirection := by
  have hpitch := pageWidth_eq h
  rw [Row.Covers, Row.start, ← hpitch, ← h.length]
  cases hd : self.scrollDirection with
  | horizontal => simp only [frame, hd, CGRect.contains]; rfl
  | vertical => simp only [frame, hd, CGRect.contains]; exact and_comm

theorem frame_mid (h : self.InRow items) (size : CGSize F) (row : Nat) :
    (self.frame size row).mid.along self.scrollDirection = items.center row := by
  have hpitch := pageWidth_eq h
  rw [Row.center, Row.start, ← hpitch, ← h.length]
  cases hd : self.scrollDirection <;> simp only [frame, hd] <;> rfl

/-- The nearest cell, the first one of several. -/
theorem attributesForRect_eq (self : CenteredCollectionViewFlowLayout F)
    (collectionView : UICollectionView F)
    (layoutAttributes : List (UICollectionViewLayoutAttributes F))
    (proposedContentOffset : CGPoint F) :
    self.attributesForRect collectionView layoutAttributes proposedContentOffset =
      (layoutAttributes.filter fun a => a.representedElementCategory = .cell).argmin fun a =>
        |a.center.along self.scrollDirection -
          (proposedContentOffset.along self.scrollDirection +
            collectionView.size.along self.scrollDirection / 2)| := by
  rw [attributesForRect, List.argmin, List.foldl_filter]
  congr 1
  funext candidate attributes
  by_cases hcell : attributes.representedElementCategory = .cell
  · simp only [hcell, if_true, decide_true]
    cases candidate with
    | none => rfl
    | some candidate => cases self.scrollDirection <;> rfl
  · simp only [hcell, if_false, decide_false, Bool.false_eq_true]

/-- Where a swipe ends when the nearest page is at `newOffset`. -/
def swipe (pitch current velocity newOffset : F) : F :=
  if (velocity < 0 ∧ 0 < newOffset - current) ∨ (0 < velocity ∧ newOffset - current < 0) then
    newOffset + (if 0 < velocity then pitch else -pitch)
  else
    newOffset

theorem targetContentOffset_of_some (h : self.InRow items) {collectionView : UICollectionView F}
    (hview : self.collectionView = some collectionView)
    {layoutAttributesForElements : LayoutAttributesForElements F}
    {proposedContentOffset velocity : CGPoint F}
    {layoutAttributes : List (UICollectionViewLayoutAttributes F)}
    {candidate : UICollectionViewLayoutAttributes F}
    (helements : layoutAttributesForElements
      (self.determineProposedRect collectionView proposedContentOffset) = some layoutAttributes)
    (hcandidate : self.attributesForRect collectionView layoutAttributes proposedContentOffset =
      some candidate) :
    (self.targetContentOffset layoutAttributesForElements proposedContentOffset velocity).along
        self.scrollDirection =
      swipe items.pitch (collectionView.contentOffset.along self.scrollDirection)
        (velocity.along self.scrollDirection)
        (candidate.center.along self.scrollDirection -
          half (collectionView.size.along self.scrollDirection)) := by
  rw [← pageWidth_eq h, swipe]
  simp only [targetContentOffset, hview, helements, Option.bind_some, hcandidate]
  cases hd : self.scrollDirection with
  | horizontal =>
    simp only [pageWidth, hd, CGPoint.along, CGSize.along]
    split <;> rfl
  | vertical =>
    simp only [pageWidth, hd, CGPoint.along, CGSize.along]
    split <;> rfl

theorem targetContentOffset_of_none {collectionView : UICollectionView F}
    (hview : self.collectionView = some collectionView)
    {layoutAttributesForElements : LayoutAttributesForElements F}
    {proposedContentOffset velocity : CGPoint F}
    {layoutAttributes : List (UICollectionViewLayoutAttributes F)}
    (helements : layoutAttributesForElements
      (self.determineProposedRect collectionView proposedContentOffset) = some layoutAttributes)
    (hcandidate : self.attributesForRect collectionView layoutAttributes proposedContentOffset =
      none) :
    self.targetContentOffset layoutAttributesForElements proposedContentOffset velocity =
      proposedContentOffset := by
  simp only [targetContentOffset, hview, helements, Option.bind_some, hcandidate]

section Ordered

variable [IsStrictOrderedRing F]

/-- The proposed rectangle is a window on the row. -/
theorem frame_intersects_proposedRect (h : self.InRow items)
    {collectionView : UICollectionView F}
    (hsize : 0 < collectionView.size.across self.scrollDirection) {row : Nat}
    {proposedContentOffset : CGPoint F} :
    (self.frame collectionView.size row).intersects
        (self.determineProposedRect collectionView proposedContentOffset) ↔
      items.Meets row (proposedContentOffset.along self.scrollDirection)
        (proposedContentOffset.along self.scrollDirection +
          collectionView.size.along self.scrollDirection) := by
  have hpitch := pageWidth_eq h
  have hacross := h.across
  rw [Row.Meets, Row.start, ← hpitch, ← h.length]
  cases hd : self.scrollDirection with
  | horizontal =>
    simp only [frame, determineProposedRect, half, hd, CGRect.intersects, CGPoint.along,
      CGSize.along, CGSize.across, zero_add] at hsize hacross ⊢
    refine and_iff_left ⟨?_, ?_⟩ <;> linarith
  | vertical =>
    simp only [frame, determineProposedRect, half, hd, CGRect.intersects, CGPoint.along,
      CGSize.along, CGSize.across, zero_add] at hsize hacross ⊢
    refine and_iff_right ⟨?_, ?_⟩ <;> linarith

/-- The point that `currentCenteredPage` looks at covers the page it returns, which is
the only page there. -/
theorem currentCenteredPage_iff (uikit : UICollectionViewFlowLayout F) (h : self.InRow items)
    {collectionView : UICollectionView F} (hview : self.collectionView = some collectionView)
    (hacross : collectionView.contentOffset.across self.scrollDirection = 0) {page : Nat} :
    self.currentCenteredPage (uikit.indexPathForItem self) = some page ↔
      page < uikit.count ∧
        items.Covers page (collectionView.contentOffset.along self.scrollDirection +
          collectionView.size.along self.scrollDirection / 2) := by
  have hpos := h.across
  let point : CGPoint F := ⟨collectionView.contentOffset.x + half collectionView.size.width,
    collectionView.contentOffset.y + half collectionView.size.height⟩
  have halong : point.along self.scrollDirection =
      collectionView.contentOffset.along self.scrollDirection +
        collectionView.size.along self.scrollDirection / 2 := by
    cases self.scrollDirection <;> rfl
  have hmiddle : point.across self.scrollDirection =
      collectionView.size.across self.scrollDirection / 2 := by
    rw [← zero_add (collectionView.size.across self.scrollDirection / 2), ← hacross]
    cases self.scrollDirection <;> rfl
  have hcontains : ∀ row, (self.frame collectionView.size row).contains point ↔
      items.Covers row (collectionView.contentOffset.along self.scrollDirection +
        collectionView.size.along self.scrollDirection / 2) := by
    intro row
    rw [frame_contains h, halong, hmiddle]
    refine and_iff_left ⟨?_, ?_⟩ <;> linarith
  have hpage : self.currentCenteredPage (uikit.indexPathForItem self) =
      uikit.indexPathForItem self point := by
    rw [currentCenteredPage, hview]
  rw [hpage]
  constructor
  · intro hitem
    obtain ⟨hlt, hin⟩ := uikit.item_some self collectionView hview point page hitem
    exact ⟨hlt, (hcontains page).mp hin⟩
  · rintro ⟨hlt, hcovers⟩
    cases hitem : uikit.indexPathForItem self point with
    | none =>
      exact absurd ((hcontains page).mpr hcovers)
        (uikit.item_none self collectionView hview point hitem page hlt)
    | some row =>
      obtain ⟨-, hin⟩ := uikit.item_some self collectionView hview point row hitem
      rw [Row.Covers.unique ((hcontains row).mp hin) hcovers]

/-- With an item in the middle, its page is the centered one. -/
theorem currentCenteredPage_of_offset (uikit : UICollectionViewFlowLayout F)
    (h : self.InRow items) {collectionView : UICollectionView F}
    (hview : self.collectionView = some collectionView)
    (hacross : collectionView.contentOffset.across self.scrollDirection = 0) {page : Nat}
    (hpage : page < uikit.count)
    (hoffset : collectionView.contentOffset.along self.scrollDirection =
      items.offset (collectionView.size.along self.scrollDirection) page) :
    self.currentCenteredPage (uikit.indexPathForItem self) = some page := by
  rw [currentCenteredPage_iff uikit h hview hacross, hoffset, Row.offset_add_half]
  exact ⟨hpage, items.covers_center page⟩

/-- Where a swipe ends: at the proposed offset when no item is in the window there, and
else by the item that is nearest among those in the window. -/
theorem targetContentOffset_cases (uikit : UICollectionViewFlowLayout F)
    (h : self.InRow items) {collectionView : UICollectionView F}
    (hview : self.collectionView = some collectionView)
    (hsize : 0 < collectionView.size.across self.scrollDirection)
    (proposedContentOffset velocity : CGPoint F) :
    let width := collectionView.size.along self.scrollDirection
    let middle := proposedContentOffset.along self.scrollDirection + width / 2
    let target := self.targetContentOffset (uikit.layoutAttributesForElements self)
      proposedContentOffset velocity
    (target = proposedContentOffset ∧
        ∀ row < uikit.count, ¬items.Meets row (middle - width / 2) (middle + width / 2)) ∨
      ∃ row < uikit.count,
        (∀ other < uikit.count, items.Meets other (middle - width / 2) (middle + width / 2) →
          |items.center row - middle| ≤ |items.center other - middle|) ∧
        target.along self.scrollDirection =
          swipe items.pitch (collectionView.contentOffset.along self.scrollDirection)
            (velocity.along self.scrollDirection) (items.offset width row) := by
  intro width middle target
  have hwindow : ∀ row, items.Meets row (middle - width / 2) (middle + width / 2) ↔
      (self.frame collectionView.size row).intersects
        (self.determineProposedRect collectionView proposedContentOffset) := by
    intro row
    rw [frame_intersects_proposedRect h hsize, add_sub_cancel_right, add_assoc, add_halves]
  obtain ⟨attributes, helements, hcells, hmem⟩ := uikit.elements self collectionView hview
    (self.determineProposedRect collectionView proposedContentOffset)
  have hnearest := self.attributesForRect_eq collectionView attributes proposedContentOffset
  cases hcandidate : self.attributesForRect collectionView attributes proposedContentOffset with
  | none =>
    left
    refine ⟨targetContentOffset_of_none hview helements hcandidate, fun row hrow hmeets => ?_⟩
    obtain ⟨a, ha, hcell, -⟩ := hmem row hrow ((hwindow row).mp hmeets)
    rw [hcandidate, eq_comm, List.argmin_eq_none, List.filter_eq_nil_iff] at hnearest
    exact hnearest a ha (decide_eq_true hcell)
  | some candidate =>
    right
    rw [hcandidate, eq_comm] at hnearest
    obtain ⟨hcandidateMem, hcandidateCell⟩ := List.mem_filter.mp (List.argmin_mem hnearest)
    obtain ⟨hrow, hcenter⟩ := hcells candidate hcandidateMem (of_decide_eq_true hcandidateCell)
    have hmid : candidate.center.along self.scrollDirection = items.center candidate.row := by
      rw [hcenter, frame_mid h]
    refine ⟨candidate.row, hrow, fun other hother hmeets => ?_, ?_⟩
    · obtain ⟨a, ha, hcell, rfl⟩ := hmem other hother ((hwindow other).mp hmeets)
      have hle := List.le_of_mem_argmin
        (List.mem_filter.mpr ⟨ha, decide_eq_true hcell⟩) hnearest
      rw [hmid, (hcells a ha hcell).2, frame_mid h] at hle
      exact hle
    · rw [Row.offset, ← hmid]
      exact targetContentOffset_of_some h hview helements hcandidate

end Ordered

end CenteredCollectionViewFlowLayout

end MealDeals
