import MealDeals.List.Indices
import MealDeals.Map.Region
import MealDeals.Pages.Selection

/-!
# The controller over its layout

The controller takes the page in the middle from the layout, which looks it up among
the items that the collection view loaded last.  Here the two run together: the user
scrolls, the handlers of the controller are called, and each is given the page that
`currentCenteredPage` computes at that moment.

Every such run is a run of the controller alone that keeps what is asked of UIKit there
(`carousel_runs_controller`), so what is proved of those runs holds of the app.  In it,
the handlers that move the map ask for the address of the deal under the middle of the
collection view, and for none when the middle is between two deals
(`carousel_requests_centered_deal`).
-/

namespace MealDeals

open Library CenteredCollectionViewFlowLayout

namespace Event

/-- The event when the layout returns the page. -/
def withPage (page : Option Nat) : Event → Event
  | .chevronAnimationCompleted _ => .chevronAnimationCompleted page
  | .scrollViewDidEndDecelerating _ => .scrollViewDidEndDecelerating page
  | .scrollViewDidEndScrollingAnimation _ => .scrollViewDidEndScrollingAnimation page
  | .didSelectItemAt row _ => .didSelectItemAt row page
  | event => event

/-- The handlers that call `updateRestaurantLocation`. -/
def movesMap : Event → Bool
  | .chevronAnimationCompleted _ | .scrollViewDidEndDecelerating _
  | .scrollViewDidEndScrollingAnimation _ => true
  | _ => false

end Event

/-- The app and the layout of its collection view. -/
structure Carousel (F : Type) where
  session : Session
  layout : CenteredCollectionViewFlowLayout F

inductive CarouselEvent (F : Type) where
  | app (event : Event)
  | scroll (event : ScrollEvent F)

namespace Carousel

variable {F : Type} [Field F] [LinearOrder F]

/-- How many items the collection view has. -/
def loadedCount (self : Carousel F) : Nat := self.session.app.loadedCount.getD 0

variable (uikit : Nat → UICollectionViewFlowLayout F)

def centeredPage (self : Carousel F) : Option Nat :=
  self.layout.currentCenteredPage ((uikit self.loadedCount).indexPathForItem self.layout)

/-- The scroll that a tap on a deal starts is an event of its own. -/
def step (self : Carousel F) : CarouselEvent F → Option (Carousel F)
  | .app event =>
    (self.session.step (event.withPage (self.centeredPage uikit))).map fun session =>
      { self with session := session }
  | .scroll event =>
    some { self with
      layout := CenteredCollectionViewFlowLayout.step (uikit self.loadedCount) self.layout event }

/-- The app on a view of the width, from its start. -/
def machine (viewWidth : F) : Machine (Carousel F) (CarouselEvent F) where
  init := ⟨Session.machine.init, (dealMachine (uikit 0) viewWidth).init⟩
  step := step uikit

/-- What UIKit and the run-time promise.  Of the pages and the scrolling nothing is
asked. -/
def Allows (self : Carousel F) : CarouselEvent F → Prop
  | .app event => self.session.Rows (event.withPage none)
  | .scroll _ => True

instance (self : Carousel F) : (event : CarouselEvent F) → Decidable (self.Allows event)
  | .app event => inferInstanceAs (Decidable (self.session.Rows (event.withPage none)))
  | .scroll _ => .isTrue trivial

/-- The event that the controller sees of a step. -/
def heard (x : Step (Carousel F) (CarouselEvent F)) : Option Event :=
  match x.event with
  | .app event => some (event.withPage (x.source.centeredPage uikit))
  | .scroll _ => none

end Carousel

/-- The collection view has as many items as the list has deals. -/
def MainViewController.CountLoaded (self : MainViewController) : Prop :=
  self.loadedCount.getD 0 = self.restaurants.length

theorem MainViewController.CountLoaded.listLoaded {self : MainViewController}
    (h : self.CountLoaded) : self.ListLoaded := by
  unfold ListLoaded
  cases hcount : self.loadedCount with
  | none => exact .inl rfl
  | some count =>
    rw [CountLoaded, hcount] at h
    exact .inr (congrArg some h)

theorem MainViewController.countLoaded_step {self self' : MainViewController} {event : Event}
    (h : Effect self event self') (hself : self.CountLoaded) : self'.CountLoaded := by
  have hcount := loadedCount_step h
  cases hreloads : event.reloads with
  | true =>
    rw [CountLoaded, hcount, hreloads]
    rfl
  | false =>
    rw [CountLoaded, hcount, hreloads, restaurants_of_not_reloads h hreloads]
    exact hself

namespace Carousel

variable {F : Type} [Field F] [LinearOrder F] {uikit : Nat → UICollectionViewFlowLayout F}
  {self : Carousel F}

/-- The collection view has the items of the list, and the layout is set up for them. -/
structure Coherent (items : Row F) (carousel : Carousel F) : Prop where
  count : carousel.session.app.CountLoaded
  inset : carousel.layout.InsetAlong items .horizontal

theorem centeredPage_lt (hcount : ∀ n, (uikit n).count = n) {page : Nat}
    (h : self.centeredPage uikit = some page) : page < self.loadedCount := by
  rw [centeredPage, currentCenteredPage] at h
  cases hview : self.layout.collectionView with
  | none =>
    simp only [hview] at h
    cases h
  | some collectionView =>
    simp only [hview] at h
    have hlt := ((uikit self.loadedCount).item_some self.layout collectionView hview _ page h).1
    rw [hcount] at hlt
    exact hlt

/-- The page that the layout computes is one that UIKit may hand out. -/
theorem rows_withPage (hcount : ∀ n, (uikit n).count = n) {event : Event}
    (h : self.session.Rows (event.withPage none)) :
    self.session.Rows (event.withPage (self.centeredPage uikit)) := by
  have hpage : ∀ i ∈ self.centeredPage uikit, i < self.loadedCount :=
    fun i hi => centeredPage_lt hcount hi
  cases event with
  | chevronAnimationCompleted page => exact ⟨h.1, hpage⟩
  | scrollViewDidEndDecelerating page => exact ⟨h.1, hpage⟩
  | scrollViewDidEndScrollingAnimation page => exact ⟨h.1, hpage⟩
  | _ => exact h

theorem coherent_step {items : Row F} {self' : Carousel F} {event : CarouselEvent F}
    (hstep : self.step uikit event = some self') (h : self.Coherent items) :
    self'.Coherent items := by
  cases event with
  | app event =>
    obtain ⟨session, hsession, rfl⟩ := Option.map_eq_some_iff.mp hstep
    exact ⟨MainViewController.countLoaded_step (Session.step_cases hsession).1 h.count, h.inset⟩
  | scroll event =>
    rw [← Option.some.inj hstep]
    exact ⟨h.count, insetAlong_step (uikit self.loadedCount) h.inset event⟩

theorem step_isSome {items : Row F} (hcount : ∀ n, (uikit n).count = n)
    {event : CarouselEvent F} (hallows : self.Allows event) (h : self.Coherent items) :
    (self.step uikit event).isSome := by
  cases event with
  | app event =>
    rw [step, Option.isSome_map]
    exact step_isSome_of_rows (rows_withPage hcount hallows) h.count.listLoaded
  | scroll event => rfl

theorem coherent_init [IsStrictOrderedRing F] {viewWidth : F} (hwidth : 0 < viewWidth) :
    (machine uikit viewWidth).init.Coherent (dealRow viewWidth hwidth 0) := by
  have hacross : 0 < (dealSize viewWidth).across .horizontal := by
    show (0 : F) < 300
    positivity
  exact ⟨rfl, insetAlong_init (uikit 0) rfl hacross⟩

/-- When the middle is on a deal, that is the page, and when it is between two, there is
none. -/
theorem centeredPage_cases [IsStrictOrderedRing F] {items : Row F}
    (hcount : ∀ n, (uikit n).count = n) (h : self.Coherent items)
    {collectionView : UICollectionView F}
    (hview : self.layout.collectionView = some collectionView) :
    let middle := collectionView.contentOffset.x + collectionView.size.width / 2
    (∀ row < self.session.app.restaurants.length, items.Covers row middle →
        self.centeredPage uikit = some row) ∧
      ((∀ row < self.session.app.restaurants.length, ¬items.Covers row middle) →
        self.centeredPage uikit = none) := by
  intro middle
  obtain ⟨hdirection, view, hinset⟩ := h.inset
  obtain rfl : view = collectionView := Option.some.inj (hinset.attached.symm.trans hview)
  have hiff : ∀ row, self.centeredPage uikit = some row ↔
      row < self.session.app.restaurants.length ∧ items.Covers row middle := by
    intro row
    have hpage : self.centeredPage uikit = some row ↔ _ :=
      currentCenteredPage_iff (uikit self.loadedCount) hinset.inRow hview hinset.across
    rw [hdirection, hcount] at hpage
    rw [← h.count]
    exact hpage
  constructor
  · intro row hrow hcovers
    exact (hiff row).mpr ⟨hrow, hcovers⟩
  · intro hgap
    rw [Option.eq_none_iff_forall_ne_some]
    intro row hrow
    obtain ⟨hlt, hcovers⟩ := (hiff row).mp hrow
    exact hgap row hlt hcovers

theorem heard_step (hcount : ∀ n, (uikit n).count = n) {self' : Carousel F}
    {event : CarouselEvent F} (hallows : self.Allows event)
    (hstep : self.step uikit event = some self') :
    (heard uikit ⟨self, event, self'⟩).elim (self'.session = self.session) fun e =>
      self.session.Rows e ∧ self.session.step e = some self'.session := by
  cases event with
  | app event =>
    obtain ⟨session, hsession, rfl⟩ := Option.map_eq_some_iff.mp hstep
    exact ⟨rows_withPage hcount hallows, hsession⟩
  | scroll event =>
    rw [← Option.some.inj hstep]
    rfl

/-- What a handler asks the geocoder for, to move the map. -/
theorem locationRequests_app {self' : Carousel F} {event : Event}
    (hstep : self.step uikit (.app event) = some self') :
    self'.session.app.locationRequests =
      self.session.app.locationRequests.diff event.answered ++
        if event.movesMap then self.session.app.addressOn (self.centeredPage uikit) else [] := by
  obtain ⟨session, hsession, rfl⟩ := Option.map_eq_some_iff.mp hstep
  obtain ⟨app, happ, rfl⟩ := Option.map_eq_some_iff.mp hsession
  show app.locationRequests = _
  rw [MainViewController.locationRequests_step happ]
  cases event <;> rfl

end Carousel

/-! ## Runs -/

section Runs

variable {F : Type} [Field F] [LinearOrder F] [IsStrictOrderedRing F]

/-- In every run no handler traps, and what the controller sees of it is a run in which
every row and page is below the count loaded last. -/
theorem carousel_runs_controller (uikit : Nat → UICollectionViewFlowLayout F) (viewWidth : F)
    (es : List (CarouselEvent F)) (hcount : ∀ n, (uikit n).count = n) (hwidth : 0 < viewWidth)
    (h : (Carousel.machine uikit viewWidth).Legal Carousel.Allows es) :
    ∃ t, (Carousel.machine uikit viewWidth).exec es = some t ∧
      let events := ((Carousel.machine uikit viewWidth).run es).filterMap (Carousel.heard uikit)
      Session.machine.Legal Session.Rows events ∧
        Session.machine.exec events = some t.session := by
  have hinv : ∀ (s : Carousel F) e t, s.Allows e → (Carousel.machine uikit viewWidth).step s e =
      some t → s.Coherent (dealRow viewWidth hwidth 0) → t.Coherent (dealRow viewWidth hwidth 0) :=
    fun _ _ _ _ hstep => Carousel.coherent_step hstep
  have hinit : (Carousel.machine uikit viewWidth).init.Coherent (dealRow viewWidth hwidth 0) :=
    Carousel.coherent_init hwidth
  obtain ⟨t, hexec⟩ := Option.isSome_iff_exists.mp
    (Machine.execFrom_isSome hinv (fun _ _ => Carousel.step_isSome hcount) hinit h)
  refine ⟨t, hexec, ?_⟩
  exact Machine.simulates_of_execFrom (N := Session.machine) Carousel.session
    (Carousel.heard uikit) hinv (fun _ hallows hstep _ => Carousel.heard_step hcount hallows hstep)
    hinit h hexec

/-- Two deals come in, and the user swipes to the second one and opens the panel. -/
theorem carousel_runs_controller_two_deals :
    let uikit : Nat → UICollectionViewFlowLayout Rat := .cells
    let es : List (CarouselEvent Rat) := [.app (.childAdded (.deal "a" "1" "King St" "Wings")),
      .app (.childAdded (.deal "b" "2" "Queen St" "Nachos")), .scroll (.layOut ⟨320, 310⟩),
      .scroll (.drag 100), .scroll (.endDragging 150 ⟨1, 0⟩),
      .app (.scrollViewDidEndDecelerating none), .app .chevronButtonPressed,
      .app (.chevronAnimationCompleted none)]
    ∃ t, (Carousel.machine uikit 320).exec es = some t ∧
      let events := ((Carousel.machine uikit 320).run es).filterMap (Carousel.heard uikit)
      Session.machine.Legal Session.Rows events ∧
        Session.machine.exec events = some t.session :=
  carousel_runs_controller .cells 320 _ (fun _ => rfl) (by norm_num) (by decide +kernel)

/-- In every run, a handler that moves the map asks for the address of the deal under
the middle of the collection view, if there is one, and for no other; and nothing else
asks for an address. -/
theorem carousel_requests_centered_deal (uikit : Nat → UICollectionViewFlowLayout F)
    (viewWidth : F) (es : List (CarouselEvent F)) (hcount : ∀ n, (uikit n).count = n)
    (hwidth : 0 < viewWidth) :
    ∀ x ∈ (Carousel.machine uikit viewWidth).run es, ∀ event, x.event = .app event →
      (event.movesMap = false → x.target.session.app.locationRequests.Sublist
        x.source.session.app.locationRequests) ∧
      ∀ collectionView, x.source.layout.collectionView = some collectionView →
        event.movesMap = true →
        let middle := collectionView.contentOffset.x + collectionView.size.width / 2
        (∀ (row : Nat) (restaurant : Restaurant),
            x.source.session.app.restaurants[row]? = some restaurant →
            (dealRow viewWidth hwidth 0).Covers row middle →
              x.target.session.app.locationRequests =
                x.source.session.app.locationRequests ++ [restaurant.address]) ∧
          ((∀ row < x.source.session.app.restaurants.length,
              ¬(dealRow viewWidth hwidth 0).Covers row middle) →
            x.target.session.app.locationRequests = x.source.session.app.locationRequests) := by
  intro x hx event hevent
  obtain ⟨hstep, hcoherent⟩ := Machine.invariant_run (M := Carousel.machine uikit viewWidth)
    (I := Carousel.Coherent (dealRow viewWidth hwidth 0)) (Carousel.coherent_init hwidth)
    (fun _ _ _ => Carousel.coherent_step) es x hx
  rw [hevent] at hstep
  have hrequests := Carousel.locationRequests_app hstep
  refine ⟨fun hmoves => ?_, fun collectionView hview hmoves => ?_⟩
  · rw [hrequests, hmoves, if_neg Bool.false_ne_true, List.append_nil]
    exact List.diff_sublist _ _
  · have hanswered : event.answered = [] := by
      cases event <;> first | rfl | cases hmoves
    rw [hmoves, if_pos rfl, hanswered, List.diff_nil] at hrequests
    rw [hrequests]
    obtain ⟨hon, hgap⟩ := Carousel.centeredPage_cases hcount hcoherent hview
    refine ⟨fun row restaurant hget hcovers => ?_, fun hnone => ?_⟩
    · have hrow : row < x.source.session.app.restaurants.length :=
        (List.getElem?_eq_some_iff.mp hget).1
      rw [hon row hrow hcovers, MainViewController.addressOn, Option.bind_some, hget]
      rfl
    · rw [hgap hnone]
      exact List.append_nil _

/-- The same two deals, of which the second one is in the middle. -/
theorem carousel_requests_centered_deal_second :
    let uikit : Nat → UICollectionViewFlowLayout Rat := .cells
    let es : List (CarouselEvent Rat) := [.app (.childAdded (.deal "a" "1" "King St" "Wings")),
      .app (.childAdded (.deal "b" "2" "Queen St" "Nachos")), .scroll (.layOut ⟨320, 310⟩),
      .scroll (.scrollToPage 1 true), .app (.scrollViewDidEndScrollingAnimation none)]
    let items := dealRow (320 : Rat) (by decide) 0
    ∀ x ∈ (Carousel.machine uikit 320).run es, ∀ event, x.event = .app event →
      (event.movesMap = false → x.target.session.app.locationRequests.Sublist
        x.source.session.app.locationRequests) ∧
      ∀ collectionView, x.source.layout.collectionView = some collectionView →
        event.movesMap = true →
        let middle := collectionView.contentOffset.x + collectionView.size.width / 2
        (∀ (row : Nat) (restaurant : Restaurant),
            x.source.session.app.restaurants[row]? = some restaurant →
            items.Covers row middle →
              x.target.session.app.locationRequests =
                x.source.session.app.locationRequests ++ [restaurant.address]) ∧
          ((∀ row < x.source.session.app.restaurants.length, ¬items.Covers row middle) →
            x.target.session.app.locationRequests = x.source.session.app.locationRequests) :=
  carousel_requests_centered_deal .cells 320 _ (fun _ => rfl) (by decide)

end Runs

end MealDeals
