import MealDeals.Pages.Scrolling

/-!
# Pages and new sizes

The device turns, or the bounds change otherwise, and UIKit lays the collection view
out again.  A new size puts the row back to its first deal, wherever it was; the size
that it has already leaves it where it is, also in the middle of a drag.
-/

namespace MealDeals

open Library CenteredCollectionViewFlowLayout

namespace CenteredCollectionViewFlowLayout

variable {F : Type} [Field F] [LinearOrder F] [IsStrictOrderedRing F] {items : Row F}
  {collectionView : UICollectionView F} {self : CenteredCollectionViewFlowLayout F}

theorem centered_layOut (uikit : UICollectionViewFlowLayout F) (hcount : uikit.count = items.count)
    (hpos : 0 < items.count) (h : self.Inset items collectionView) {size : CGSize F}
    (hne : size ≠ collectionView.size) :
    (self.layOut size).currentCenteredPage (uikit.indexPathForItem (self.layOut size)) =
      some 0 := by
  obtain ⟨view, hview, hsize, hoffset⟩ := h.layOut_of_changed (.inl (h.size ▸ hne))
  have hdirection : (self.layOut size).scrollDirection = self.scrollDirection :=
    scrollDirection_step uikit self (.layOut size)
  refine currentCenteredPage_of_offset uikit hview.inRow hview.attached hview.across
    (by rw [hcount]; exact hpos) ?_
  rw [hdirection, hoffset, hsize, items.offset_zero]
  exact CGPoint.along_ofAlong _ _

end CenteredCollectionViewFlowLayout

/-! ## Runs -/

/-- In every run of the scroll view, a new size brings it to its first deal, and the
size that it has leaves it as it is. -/
theorem resize_centers_first_page {F : Type} [Field F] [LinearOrder F] [IsStrictOrderedRing F]
    (uikit : UICollectionViewFlowLayout F) (items : Row F)
    (direction : UICollectionViewScrollDirection) (itemSize : CGSize F)
    (hcount : uikit.count = items.count) (hpos : 0 < items.count)
    (hlength : itemSize.along direction = items.length) (hacross : 0 < itemSize.across direction)
    (es : List (ScrollEvent F)) :
    ∀ x ∈ (machine uikit direction itemSize items.spacing).run es,
      ∀ size, x.event = .layOut size →
      ∀ collectionView, x.source.collectionView = some collectionView →
        (size ≠ collectionView.size →
          x.target.currentCenteredPage (uikit.indexPathForItem x.target) = some 0) ∧
        (size = collectionView.size → size ≠ ⟨0, 0⟩ → x.target = x.source) := by
  intro x hx size hevent collectionView hview
  obtain ⟨htarget, hdirection, view, hinset⟩ := insetAlong_run uikit hlength hacross es x hx
  obtain rfl : view = collectionView := Option.some.inj (hinset.attached.symm.trans hview)
  rw [htarget, hevent, step]
  refine ⟨fun hne => centered_layOut uikit hcount hpos hinset hne, ?_⟩
  rintro rfl hsize
  refine hinset.layOut_of_same fun hchanged => ?_
  rcases hchanged with hne | hne
  · exact hne hinset.size.symm
  · exact hne (hinset.insets hsize).1

/-- Two deals on a phone that shows the second one and turns. -/
theorem resize_centers_first_page_turned :
    let uikit : UICollectionViewFlowLayout Rat := .cells 2
    let items : Row Rat := ⟨224, 15, 2, by decide, by decide⟩
    let es : List (ScrollEvent Rat) :=
      [.layOut ⟨320, 310⟩, .scrollToPage 1 true, .layOut ⟨320, 310⟩, .layOut ⟨568, 310⟩]
    ∀ x ∈ (machine uikit .horizontal ⟨224, 300⟩ items.spacing).run es,
      ∀ size, x.event = .layOut size →
      ∀ collectionView, x.source.collectionView = some collectionView →
        (size ≠ collectionView.size →
          x.target.currentCenteredPage (uikit.indexPathForItem x.target) = some 0) ∧
        (size = collectionView.size → size ≠ ⟨0, 0⟩ → x.target = x.source) :=
  resize_centers_first_page _ _ .horizontal ⟨224, 300⟩ rfl (by decide) rfl
    (by show (0 : Rat) < 300; norm_num) _

end MealDeals
