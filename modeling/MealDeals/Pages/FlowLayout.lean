import MealDeals.Library.Row
import MealDeals.Views.DealAnnotationView

/-!
# The layout of the collection view

`CenteredCollectionViewFlowLayout` snaps the scrolling of the deals to pages, scrolls
to a page, and says which page is in the middle.  A method that writes to the
collection view is a function to the layout with the new collection view.

`CGFloat` is an ordered field here: no result is rounded.  So the tests of the layout are
exact, and where two sides of a test are equal but for rounding the app may take the
other branch.  The theorems about pages do not depend on it: they say which item is in
the middle, with half an item to spare.

What the layout asks of UIKit is a parameter: the elements in a rectangle, and the item
at a point.
-/

namespace MealDeals

open Library

structure CGSize (F : Type) where
  width : F
  height : F
deriving DecidableEq, Repr

structure UIEdgeInsets (F : Type) where
  top : F
  left : F
  bottom : F
  right : F
deriving DecidableEq, Repr

inductive UICollectionViewScrollDirection where
  | horizontal
  | vertical
deriving DecidableEq, Repr

inductive UICollectionElementCategory where
  | cell
  | supplementaryView
  | decorationView
deriving DecidableEq, Repr

structure UICollectionViewLayoutAttributes (F : Type) where
  representedElementCategory : UICollectionElementCategory
  row : Nat
  center : CGPoint F
deriving DecidableEq, Repr

structure UICollectionView (F : Type) where
  -- of the bounds, whose origin is the content offset
  size : CGSize F
  contentOffset : CGPoint F
  contentInset : UIEdgeInsets F
deriving DecidableEq, Repr

structure CenteredCollectionViewFlowLayout (F : Type) where
  scrollDirection : UICollectionViewScrollDirection
  lastScrollDirection : UICollectionViewScrollDirection
  lastCollectionViewSize : CGSize F
  itemSize : CGSize F
  minimumLineSpacing : F
  collectionView : Option (UICollectionView F)
deriving DecidableEq, Repr

/-- `layoutAttributesForElements(in:)` -/
abbrev LayoutAttributesForElements (F : Type) :=
  CGRect F → Option (List (UICollectionViewLayoutAttributes F))

/-- `indexPathForItem(at:)` -/
abbrev IndexPathForItem (F : Type) := CGPoint F → Option Nat

namespace CenteredCollectionViewFlowLayout

variable {F : Type} [Field F] [LinearOrder F]

/-- `init`, of a layout that its collection view has been given, with the item size and
the spacing that `viewDidLoad` sets. -/
def initial (itemSize : CGSize F) (minimumLineSpacing : F) :
    CenteredCollectionViewFlowLayout F where
  scrollDirection := .horizontal
  lastScrollDirection := .horizontal
  lastCollectionViewSize := ⟨0, 0⟩
  itemSize := itemSize
  minimumLineSpacing := minimumLineSpacing
  collectionView := some { size := ⟨0, 0⟩, contentOffset := ⟨0, 0⟩, contentInset := ⟨0, 0, 0, 0⟩ }

def invalidateLayout (self : CenteredCollectionViewFlowLayout F) :
    CenteredCollectionViewFlowLayout F :=
  match self.collectionView with
  | none => self
  | some collectionView =>
    let currentCollectionViewSize := collectionView.size
    if currentCollectionViewSize ≠ self.lastCollectionViewSize ∨
        self.lastScrollDirection ≠ self.scrollDirection then
      let collectionView :=
        match self.scrollDirection with
        | .horizontal =>
          let inset := half (collectionView.size.width - self.itemSize.width)
          { collectionView with contentInset := ⟨0, inset, 0, inset⟩, contentOffset := ⟨-inset, 0⟩ }
        | .vertical =>
          let inset := half (collectionView.size.height - self.itemSize.height)
          { collectionView with contentInset := ⟨inset, 0, inset, 0⟩, contentOffset := ⟨0, -inset⟩ }
      { self with
        collectionView := some collectionView
        lastCollectionViewSize := currentCollectionViewSize
        lastScrollDirection := self.scrollDirection }
    else
      self

def determineProposedRect (self : CenteredCollectionViewFlowLayout F)
    (collectionView : UICollectionView F) (proposedContentOffset : CGPoint F) : CGRect F :=
  let size := collectionView.size
  match self.scrollDirection with
  | .horizontal => ⟨proposedContentOffset.x, 0, size.width, size.height⟩
  | .vertical => ⟨0, proposedContentOffset.y, size.width, size.height⟩

def attributesForRect (self : CenteredCollectionViewFlowLayout F)
    (collectionView : UICollectionView F)
    (layoutAttributes : List (UICollectionViewLayoutAttributes F))
    (proposedContentOffset : CGPoint F) : Option (UICollectionViewLayoutAttributes F) :=
  let proposedCenterOffset :=
    match self.scrollDirection with
    | .horizontal => proposedContentOffset.x + half collectionView.size.width
    | .vertical => proposedContentOffset.y + half collectionView.size.height
  layoutAttributes.foldl
    (fun candidateAttributes attributes =>
      if attributes.representedElementCategory = .cell then
        match candidateAttributes with
        | none => some attributes
        | some candidate =>
          match self.scrollDirection with
          | .horizontal =>
            if |attributes.center.x - proposedCenterOffset| <
                |candidate.center.x - proposedCenterOffset| then
              some attributes
            else
              some candidate
          | .vertical =>
            if |attributes.center.y - proposedCenterOffset| <
                |candidate.center.y - proposedCenterOffset| then
              some attributes
            else
              some candidate
      else
        candidateAttributes)
    none

def targetContentOffset (self : CenteredCollectionViewFlowLayout F)
    (layoutAttributesForElements : LayoutAttributesForElements F)
    (proposedContentOffset velocity : CGPoint F) : CGPoint F :=
  match self.collectionView with
  | none => proposedContentOffset
  | some collectionView =>
    let proposedRect := self.determineProposedRect collectionView proposedContentOffset
    let candidateAttributesForRect :=
      (layoutAttributesForElements proposedRect).bind fun layoutAttributes =>
        self.attributesForRect collectionView layoutAttributes proposedContentOffset
    match candidateAttributesForRect with
    | none => proposedContentOffset
    | some candidateAttributesForRect =>
      match self.scrollDirection with
      | .horizontal =>
        let newOffset := candidateAttributesForRect.center.x - half collectionView.size.width
        let offset := newOffset - collectionView.contentOffset.x
        if (velocity.x < 0 ∧ 0 < offset) ∨ (0 < velocity.x ∧ offset < 0) then
          let pageWidth := self.itemSize.width + self.minimumLineSpacing
          ⟨newOffset + (if 0 < velocity.x then pageWidth else -pageWidth),
            proposedContentOffset.y⟩
        else
          ⟨newOffset, proposedContentOffset.y⟩
      | .vertical =>
        let newOffset := candidateAttributesForRect.center.y - half collectionView.size.height
        let offset := newOffset - collectionView.contentOffset.y
        if (velocity.y < 0 ∧ 0 < offset) ∨ (0 < velocity.y ∧ offset < 0) then
          let pageHeight := self.itemSize.height + self.minimumLineSpacing
          ⟨proposedContentOffset.x,
            newOffset + (if 0 < velocity.y then pageHeight else -pageHeight)⟩
        else
          ⟨proposedContentOffset.x, newOffset⟩

def pageWidth (self : CenteredCollectionViewFlowLayout F) : F :=
  match self.scrollDirection with
  | .horizontal => self.itemSize.width + self.minimumLineSpacing
  | .vertical => self.itemSize.height + self.minimumLineSpacing

/-- The arguments with which `scrollToPage` calls `setContentOffset`. -/
def scrollToPage (self : CenteredCollectionViewFlowLayout F) (index : Nat) (animated : Bool) :
    Option (CGPoint F × Bool) :=
  match self.collectionView with
  | none => none
  | some collectionView =>
    match self.scrollDirection with
    | .horizontal =>
      let pageOffset := index * self.pageWidth - collectionView.contentInset.left
      let shouldAnimate :=
        if 1 < |collectionView.contentOffset.x - pageOffset| then animated else false
      some (⟨pageOffset, 0⟩, shouldAnimate)
    | .vertical =>
      let pageOffset := index * self.pageWidth - collectionView.contentInset.top
      let shouldAnimate :=
        if 1 < |collectionView.contentOffset.y - pageOffset| then animated else false
      some (⟨0, pageOffset⟩, shouldAnimate)

def currentCenteredPage (self : CenteredCollectionViewFlowLayout F)
    (indexPathForItem : IndexPathForItem F) : Option Nat :=
  match self.collectionView with
  | none => none
  | some collectionView =>
    let currentCenteredPoint : CGPoint F :=
      ⟨collectionView.contentOffset.x + half collectionView.size.width,
        collectionView.contentOffset.y + half collectionView.size.height⟩
    indexPathForItem currentCenteredPoint

/-- The collection view at a new offset. -/
def setContentOffset (self : CenteredCollectionViewFlowLayout F) (contentOffset : CGPoint F) :
    CenteredCollectionViewFlowLayout F :=
  { self with
    collectionView := self.collectionView.map fun collectionView =>
      { collectionView with contentOffset := contentOffset } }

/-- The bounds of the collection view get a new size, and UIKit invalidates the
layout. -/
def layOut (self : CenteredCollectionViewFlowLayout F) (size : CGSize F) :
    CenteredCollectionViewFlowLayout F :=
  let self : CenteredCollectionViewFlowLayout F := { self with
    collectionView := self.collectionView.map fun collectionView =>
      { collectionView with size := size } }
  self.invalidateLayout

end CenteredCollectionViewFlowLayout
end MealDeals
