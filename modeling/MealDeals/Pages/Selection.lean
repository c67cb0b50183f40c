import MealDeals.Firebase.Stream
import MealDeals.Pages.Scrolling
import Mathlib.Tactic.NormNum
import Mathlib.Tactic.Positivity

/-!
# Selecting a deal

A tap on a deal scrolls to it, and when the scrolling ends the map is asked for the
address of the deal in the middle.  UIKit reports that end only of an animated scroll,
and `scrollToPage` does not animate a scroll of one point or less.  The tap does
nothing when the deal is in the middle already, and every other deal is more than a
point away, so the request for a tapped deal never fails to come.
-/

namespace MealDeals

open Library CenteredCollectionViewFlowLayout

variable {F : Type} [Field F] [LinearOrder F]

/-- The size of the deals on a view of the width. -/
def dealSize (viewWidth : F) : CGSize F := ⟨viewWidth * (7 / 10), 300⟩

/-- The scroll view of the deals, as `viewDidLoad` sets it up on a view of the width. -/
def dealMachine (uikit : UICollectionViewFlowLayout F) (viewWidth : F) :
    Machine (CenteredCollectionViewFlowLayout F) (ScrollEvent F) :=
  machine uikit .horizontal (dealSize viewWidth) 15

variable [IsStrictOrderedRing F]

def dealRow (viewWidth : F) (hwidth : 0 < viewWidth) (count : Nat) : Row F where
  length := viewWidth * (7 / 10)
  spacing := 15
  count := count
  length_pos := by positivity
  spacing_nonneg := by positivity

/-- When a deal is in the middle, the scroll to any other is more than a point. -/
theorem one_lt_scroll {items : Row F} {scroll : CenteredCollectionViewFlowLayout F}
    {collectionView : UICollectionView F} (uikit : UICollectionViewFlowLayout F)
    (h : scroll.Inset items collectionView) {page row : Nat}
    (hpage : scroll.currentCenteredPage (uikit.indexPathForItem scroll) = some page)
    (hne : page ≠ row) (hspacing : 1 < items.spacing) :
    1 < |collectionView.contentOffset.along scroll.scrollDirection -
      items.offset (collectionView.size.along scroll.scrollDirection) row| := by
  have hcovers := ((currentCenteredPage_iff uikit h.inRow h.attached h.across).mp hpage).2
  have hfar := hcovers.far hne
  have hlength := items.length_pos
  rw [← items.offset_add_half (collectionView.size.along scroll.scrollDirection) row,
    add_sub_add_right_eq_sub, abs_sub_comm] at hfar
  linarith

/-- In every run of the scroll view and every state of the controller with the same
deals, a tap on a deal that is not in the middle, when another one is, animates the
scroll to it, ends with it in the middle, and asks for its address and no other. -/
theorem selection_requests_deal (uikit : UICollectionViewFlowLayout F) (viewWidth : F)
    (es : List (ScrollEvent F)) (scroll : CenteredCollectionViewFlowLayout F)
    (collectionView : UICollectionView F) (s : Session) (page row : Nat)
    (hwidth : 0 < viewWidth) (hscroll : (dealMachine uikit viewWidth).exec es = some scroll)
    (hview : scroll.collectionView = some collectionView)
    (hlaidOut : 15 < collectionView.size.width)
    (hcount : s.app.restaurants.length = uikit.count) (hrow : row < uikit.count)
    (hpage : scroll.currentCenteredPage (uikit.indexPathForItem scroll) = some page)
    (hne : page ≠ row) :
    ∃ contentOffset restaurant,
      scroll.scrollToPage row true = some (contentOffset, true) ∧
        s.app.restaurants[row]? = some restaurant ∧
        let rested := scroll.setContentOffset contentOffset
        rested.currentCenteredPage (uikit.indexPathForItem rested) = some row ∧
          Session.machine.execFrom s [.didSelectItemAt row (some page),
              .scrollViewDidEndScrollingAnimation
                (rested.currentCenteredPage (uikit.indexPathForItem rested))] =
            some { s with app := { s.app with
              scrolledToPage := some row
              locationRequests := s.app.locationRequests ++ [restaurant.address] } } := by
  let items := dealRow viewWidth hwidth uikit.count
  have hacross : 0 < (dealSize viewWidth).across .horizontal := by
    show (0 : F) < 300
    positivity
  have hinsetAlong : scroll.InsetAlong items .horizontal :=
    insetAlong_exec uikit rfl hacross hscroll
  obtain ⟨hdirection, view, hinset⟩ := hinsetAlong
  obtain rfl : view = collectionView := Option.some.inj (hinset.attached.symm.trans hview)
  have hwide : items.spacing < view.size.along scroll.scrollDirection := by
    rw [hdirection]
    exact hlaidOut
  have hfar := one_lt_scroll uikit hinset hpage hne (by show (1 : F) < 15; norm_num)
  have hscrolled := scrollToPage_eq hinset row true
  simp only [pageOffset_eq hinset hwide, if_pos hfar] at hscrolled
  have hitems : uikit.count = items.count := rfl
  have hcentered := centered_setContentOffset uikit hitems hinset hrow
  have hget := List.getElem?_eq_getElem (hcount.symm ▸ hrow)
  refine ⟨_, s.app.restaurants[row], hscrolled, hget, hcentered, ?_⟩
  rw [hcentered]
  have hselected : s.step (.didSelectItemAt row (some page)) =
      some { s with app := { s.app with scrolledToPage := some row } } := by
    show some { s with app := s.app.didSelectItemAt row (some page) } = _
    simp only [MainViewController.didSelectItemAt, if_pos hne]
  have hrequested : MainViewController.updateRestaurantLocation
      { s.app with scrolledToPage := some row } (some row) =
        some { s.app with
          scrolledToPage := some row
          locationRequests := s.app.locationRequests ++ [s.app.restaurants[row].address] } := by
    simp only [MainViewController.updateRestaurantLocation, hget]
  rw [Machine.execFrom_cons hselected]
  exact Machine.execFrom_cons (Option.map_eq_some_iff.mpr ⟨_, hrequested, rfl⟩) []

/-- The second of two deals is tapped while the first is in the middle. -/
theorem selection_requests_deal_second :
    let uikit : UICollectionViewFlowLayout Rat := .cells 2
    let scroll := ((dealMachine uikit 320).exec [.layOut ⟨320, 310⟩]).get rfl
    let s := (Session.machine.exec [.childAdded (.deal "a" "1" "King St" "Wings"),
      .childAdded (.deal "b" "2" "Queen St" "Nachos")]).get (by decide)
    ∃ contentOffset restaurant,
      scroll.scrollToPage 1 true = some (contentOffset, true) ∧
        s.app.restaurants[1]? = some restaurant ∧
        let rested := scroll.setContentOffset contentOffset
        rested.currentCenteredPage (uikit.indexPathForItem rested) = some 1 ∧
          Session.machine.execFrom s [.didSelectItemAt 1 (some 0),
              .scrollViewDidEndScrollingAnimation
                (rested.currentCenteredPage (uikit.indexPathForItem rested))] =
            some { s with app := { s.app with
              scrolledToPage := some 1
              locationRequests := s.app.locationRequests ++ [restaurant.address] } } :=
  selection_requests_deal _ 320 _ _ ⟨⟨320, 310⟩, ⟨-48, 0⟩, ⟨0, 48, 0, 48⟩⟩ _ 0 1
    (by norm_num) (Option.some_get _).symm (by decide +kernel) (by norm_num) rfl (by decide)
    (by decide +kernel) (by decide)

end MealDeals
