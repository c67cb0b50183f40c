import MealDeals.Controller.Events

/-!
# The interface

The controls on screen, and the region that the map was given last.  Taps, scrolling,
the user's position and the geocodes of pages change them, and MapKit the tracking mode
of the map; the stream and the annotation jobs do not.  `Interface.next` says what an
event makes of the interface, whatever the deals are, and `interface_step` that every
method of the controller does just that.
-/

namespace MealDeals

open Library

namespace Event

/-- Events that the user, UIKit and MapKit cause, and the geocodes of pages. -/
def isInterface : Event → Bool
  | .childAdded _ | .childChanged _ | .childRemoved _ | .annotationStarted _
  | .annotationGeocoded _ _ | .elapse _ => false
  | _ => true

theorem elapsed_of_isInterface {event : Event} (h : event.isInterface = true) :
    event.elapsed = 0 := by
  cases event <;> first | rfl | cases h

end Event

/-- What the buttons show, and what is behind them. -/
structure Buttons where
  isExpanded : Bool
  pointsDown : Bool
  constraint : Int
  isEnabled : Bool
  animations : Nat
  followLocation : Bool
  locationButton : LocationImage
  userTrackingMode : UserTrackingMode

/-- What is on screen of the controls, and the region that the map was given last. -/
structure Interface where
  buttons : Buttons
  givenRegion : Option LocationUpdate
  scrolledToPage : Option Nat

namespace Interface

def updateLocation (interface : Interface) (coordinate : CLLocationCoordinate2D) : Interface :=
  { interface with givenRegion := some ⟨coordinate, interface.buttons.isExpanded⟩ }

/-- What an event makes of the interface, whatever the deals are. -/
def next (interface : Interface) : Event → Interface
  | .locationGeocoded _ reply => reply.coordinate.elim interface interface.updateLocation
  | .didUpdateLocations coordinate =>
    if !interface.buttons.isExpanded && interface.buttons.followLocation then
      coordinate.elim interface interface.updateLocation
    else
      interface
  | .locationButtonPressed =>
    { interface with buttons := { interface.buttons with
        followLocation := !interface.buttons.followLocation
        locationButton := if interface.buttons.followLocation then .locationOff else .location
        userTrackingMode := if interface.buttons.followLocation then .none else .follow } }
  | .chevronButtonPressed =>
    { interface with buttons := { interface.buttons with
        isExpanded := !interface.buttons.isExpanded
        pointsDown := !interface.buttons.isExpanded
        constraint := if interface.buttons.isExpanded then 265 else -10
        isEnabled := false
        animations := interface.buttons.animations + 1 } }
  | .chevronAnimationCompleted _ =>
    { interface with buttons := { interface.buttons with
        isEnabled := true
        animations := interface.buttons.animations - 1 } }
  | .didSelectItemAt row page =>
    page.elim interface fun page =>
      if page ≠ row then { interface with scrolledToPage := some row } else interface
  | .userTrackingModeChanges mode =>
    { interface with buttons := { interface.buttons with userTrackingMode := mode } }
  | _ => interface

theorem buttons_next {event : Event} (hchevron : event ≠ .chevronButtonPressed)
    (hlocation : event ≠ .locationButtonPressed)
    (hanimation : ∀ page, event ≠ .chevronAnimationCompleted page)
    (hmode : ∀ mode, event ≠ .userTrackingModeChanges mode) (interface : Interface) :
    (interface.next event).buttons = interface.buttons := by
  cases event with
  | chevronButtonPressed => exact absurd rfl hchevron
  | locationButtonPressed => exact absurd rfl hlocation
  | chevronAnimationCompleted page => exact absurd rfl (hanimation page)
  | userTrackingModeChanges mode => exact absurd rfl (hmode mode)
  | locationGeocoded address reply => cases hc : reply.coordinate <;> simp only [next, hc] <;> rfl
  | didUpdateLocations coordinate =>
    simp only [next]
    split
    · cases coordinate <;> rfl
    · rfl
  | didSelectItemAt row page =>
    cases page with
    | none => rfl
    | some page =>
      simp only [next, Option.elim_some]
      split <;> rfl
  | _ => rfl

theorem next_of_not_isInterface {event : Event} (h : event.isInterface = false)
    (interface : Interface) : interface.next event = interface := by
  cases event <;> first | rfl | cases h

end Interface

namespace MainViewController

def buttons (self : MainViewController) : Buttons where
  isExpanded := self.isExpanded
  pointsDown := self.chevronButton.pointsDown
  constraint := self.collectionViewBottomConstraint
  isEnabled := self.chevronButton.isEnabled
  animations := self.panelAnimations
  followLocation := self.followLocation
  locationButton := self.locationButton
  userTrackingMode := self.mapView.userTrackingMode

def interface (self : MainViewController) : Interface where
  buttons := self.buttons
  givenRegion := self.mapView.givenRegion
  scrolledToPage := self.scrolledToPage

/-! ## Steps -/

theorem interface_removeAnnotationOf (self : MainViewController) (id : String) :
    (self.removeAnnotationOf id).interface = self.interface := by
  cases hl : self.annotations.lookup id <;>
    simp [interface, buttons, removeAnnotationOf, hl, MKMapView.removeAnnotation]

theorem interface_updateRestaurantLocation {self self' : MainViewController} {page : Option Nat}
    (h : self.updateRestaurantLocation page = some self') : self'.interface = self.interface := by
  cases page with
  | none => rw [← Option.some.inj h]
  | some page =>
    rw [updateRestaurantLocation] at h
    cases hpage : self.restaurants[page]? with
    | none =>
      simp only [hpage] at h
      cases h
    | some restaurant =>
      simp only [hpage] at h
      rw [← Option.some.inj h]
      rfl

theorem interface_step {self self' : MainViewController} {event : Event}
    (h : self.step event = some self') : self'.interface = self.interface.next event := by
  cases event with
  | childAdded dataSnapshot =>
    rw [← Option.some.inj h]
    cases hr : restaurantOf dataSnapshot with
    | ok restaurant => rw [childAdded_of_ok hr]; rfl
    | error line => rw [childAdded_of_error hr]; rfl
  | childChanged dataSnapshot =>
    rw [← Option.some.inj h]
    cases hr : restaurantOf dataSnapshot with
    | ok restaurant =>
      rw [childChanged_of_ok hr]
      exact interface_removeAnnotationOf self restaurant.id
    | error line => rw [childChanged_of_error hr]; rfl
  | childRemoved dataSnapshot =>
    rw [← Option.some.inj h]
    cases hl : self.listed dataSnapshot with
    | none => rw [childRemoved_of_not_listed hl]; rfl
    | some restaurant =>
      rw [childRemoved_of_listed hl]
      exact interface_removeAnnotationOf self restaurant.id
  | annotationStarted job => rw [← Option.some.inj h]; rfl
  | annotationGeocoded job reply =>
    rw [← Option.some.inj h, annotationGeocoded_eq]
    cases reply.coordinate <;> rfl
  | locationGeocoded address reply =>
    rw [← Option.some.inj h]
    cases hc : reply.coordinate <;>
      simp only [locationGeocoded, printError_eq, hc, Interface.next] <;> rfl
  | didUpdateLocations coordinate =>
    rw [← Option.some.inj h]
    cases coordinate with
    | none =>
      simp only [Interface.next, Option.elim_none, ite_self]
      rfl
    | some coordinate =>
      cases hguard : !self.isExpanded && self.followLocation <;>
        simp [didUpdateLocations, updateLocation, hguard, interface, buttons, Interface.next,
          Interface.updateLocation]
  | locationButtonPressed =>
    rw [← Option.some.inj h]
    cases hf : self.followLocation <;>
      simp [locationButtonPressed, hf, interface, buttons, Interface.next]
  | chevronButtonPressed => rw [← Option.some.inj h, chevronButtonPressed_eq]; rfl
  | chevronAnimationCompleted page => exact interface_updateRestaurantLocation h
  | scrollViewDidEndDecelerating page => exact interface_updateRestaurantLocation h
  | scrollViewDidEndScrollingAnimation page => exact interface_updateRestaurantLocation h
  | didSelectItemAt row page =>
    rw [← Option.some.inj h]
    cases page with
    | none => rfl
    | some page =>
      simp only [didSelectItemAt, Interface.next, Option.elim_some]
      split <;> rfl
  | cellForItemAt cell row =>
    obtain ⟨drawn, -, rfl⟩ := Option.map_eq_some_iff.mp h
    rfl
  | collectionViewLoads => rw [← Option.some.inj h]; rfl
  | userTrackingModeChanges mode => rw [← Option.some.inj h]; rfl
  | elapse milliseconds => rw [← Option.some.inj h]; rfl

end MainViewController
end MealDeals
