import MealDeals.Geocoder.Throttle
import MealDeals.Map.Pins
import MealDeals.Notifications.Sent
import MealDeals.Panel.Interface

/-!
# The two halves of the controller

The database observers and the annotation jobs keep the deals: the list, the pins
and their dictionary, the counter, the notifications, and whether the chevron is
on screen.  Taps, scrolling, the user's position and the geocodes of pages keep
the interface: the panel, the buttons, and the region that the map is given.  The two
share one state record and one main queue, and the interface reads the list to draw it
and to look up an address.

Neither half can disturb the other.  Leaving out the events of the interface
leaves a run with the same deals, and two runs with the same events of the
interface look the same, whatever the database sent in between.  A version that
fails the guards disturbs neither: it leaves its line on the console.
-/

namespace MealDeals

open Library

namespace Event

/-- A `childAdded` or `childChanged` whose snapshot fails the guards. -/
def isRejected : Event → Bool
  | .childAdded dataSnapshot | .childChanged dataSnapshot => !(restaurantOf dataSnapshot).isOk
  | _ => false

end Event

theorem Database.observe_of_isInterface (database : Database) {event : Event}
    (h : event.isInterface = true) : database.observe event = database := by
  cases event <;> first | rfl | cases h

@[ext] structure Deals where
  restaurants : List Restaurant
  annotations : Dictionary String MKPointAnnotation
  pins : Multiset MKPointAnnotation
  geocoderCounter : Int
  waiting : List AnnotationJob
  inFlight : List AnnotationJob
  jobsScheduled : Nat
  isHidden : Bool
  center : List UNNotificationRequest
  now : Nat

namespace MainViewController

def deals (self : MainViewController) : Deals where
  restaurants := self.restaurants
  annotations := self.annotations
  pins := self.mapView.annotations
  geocoderCounter := self.geocoderCounter
  waiting := self.waiting
  inFlight := self.inFlight
  jobsScheduled := self.jobsScheduled
  isHidden := self.chevronButton.isHidden
  center := self.center
  now := self.now

/-- The controller with an empty console. -/
def unprinted (self : MainViewController) : MainViewController := { self with console := [] }

/-! ## The deals -/

theorem deals_of_sameDeals {self self' : MainViewController} {reloads : Bool}
    (h : SameDeals self 0 reloads self') : self'.deals = self.deals :=
  Deals.ext h.restaurants h.annotations h.pins h.geocoderCounter h.waiting h.inFlight
    h.jobsScheduled h.isHidden h.center h.now

theorem deals_interface {self self' : MainViewController} {event : Event}
    (h : self.step event = some self') (hi : event.isInterface = true) :
    self'.deals = self.deals := by
  cases step_effect h with
  | added | changed | removed | started | geocoded => cases hi
  | pressed => rw [chevronButtonPressed_eq]; rfl
  | quiet event self' hq same =>
    rw [Event.elapsed_of_isInterface hi] at same
    exact deals_of_sameDeals same

/-- The controllers agree on the deals, field by field. -/
theorem deals_eq_iff {self other : MainViewController} :
    self.deals = other.deals ↔
      self.restaurants = other.restaurants ∧ self.annotations = other.annotations ∧
        self.mapView.annotations = other.mapView.annotations ∧
        self.geocoderCounter = other.geocoderCounter ∧ self.waiting = other.waiting ∧
        self.inFlight = other.inFlight ∧ self.jobsScheduled = other.jobsScheduled ∧
        self.chevronButton.isHidden = other.chevronButton.isHidden ∧
        self.center = other.center ∧ self.now = other.now := by
  simp only [deals, Deals.mk.injEq]

theorem annotationJob_congr {self other : MainViewController} (h : self.deals = other.deals)
    (restaurant : Restaurant) : self.annotationJob restaurant = other.annotationJob restaurant := by
  obtain ⟨-, -, -, hcounter, -, -, hscheduled, -, -, hnow⟩ := deals_eq_iff.mp h
  simp only [annotationJob, hcounter, hscheduled, hnow]

theorem listed_congr {self other : MainViewController} (h : self.deals = other.deals)
    (dataSnapshot : DataSnapshot) : self.listed dataSnapshot = other.listed dataSnapshot := by
  simp only [listed, (deals_eq_iff.mp h).1]

theorem deals_childAdded {self other : MainViewController} (h : self.deals = other.deals)
    (dataSnapshot : DataSnapshot) :
    (self.childAdded dataSnapshot).deals = (other.childAdded dataSnapshot).deals := by
  have hjob := annotationJob_congr h
  have hfields := deals_eq_iff.mp h
  cases hr : restaurantOf dataSnapshot with
  | error line =>
    rw [childAdded_of_error hr, childAdded_of_error hr]
    exact h
  | ok restaurant =>
    rw [childAdded_of_ok hr, childAdded_of_ok hr, deals_eq_iff]
    simp only [hjob, hfields, and_self]

theorem deals_childChanged {self other : MainViewController} (h : self.deals = other.deals)
    (dataSnapshot : DataSnapshot) :
    (self.childChanged dataSnapshot).deals = (other.childChanged dataSnapshot).deals := by
  have hjob := annotationJob_congr h
  have hfields := deals_eq_iff.mp h
  cases hr : restaurantOf dataSnapshot with
  | error line =>
    rw [childChanged_of_error hr, childChanged_of_error hr]
    exact h
  | ok restaurant =>
    rw [childChanged_of_ok hr, childChanged_of_ok hr, deals_eq_iff]
    simp only [pins_removeAnnotationOf, center_notifyFor]
    simp only [removeAnnotationOf, hjob, hfields, and_self]

theorem deals_childRemoved {self other : MainViewController} (h : self.deals = other.deals)
    (dataSnapshot : DataSnapshot) :
    (self.childRemoved dataSnapshot).deals = (other.childRemoved dataSnapshot).deals := by
  have hlisted := listed_congr h dataSnapshot
  have hfields := deals_eq_iff.mp h
  cases hl : self.listed dataSnapshot with
  | none =>
    rw [childRemoved_of_not_listed hl, childRemoved_of_not_listed (hlisted.symm.trans hl),
      deals_eq_iff]
    simp only [hfields, and_self]
  | some restaurant =>
    rw [childRemoved_of_listed hl, childRemoved_of_listed (hlisted.symm.trans hl), deals_eq_iff]
    simp only [pins_removeAnnotationOf]
    simp only [removeAnnotationOf, hfields, and_self]

theorem deals_annotationGeocoded {self other : MainViewController} (h : self.deals = other.deals)
    (job : AnnotationJob) (reply : GeocodeReply) :
    (self.annotationGeocoded job reply).deals = (other.annotationGeocoded job reply).deals := by
  have hfields := deals_eq_iff.mp h
  rw [annotationGeocoded_eq, annotationGeocoded_eq, deals_eq_iff]
  cases reply.coordinate <;>
    simp only [Option.elim_none, Option.elim_some, MKMapView.addAnnotation, hfields, and_self]

/-- What the other events make of the deals depends on the deals alone. -/
theorem deals_step {self other self' : MainViewController} {event : Event}
    (hi : event.isInterface = false) (h : self.deals = other.deals)
    (hstep : self.step event = some self') :
    ∃ other', other.step event = some other' ∧ self'.deals = other'.deals := by
  have hfields := deals_eq_iff.mp h
  cases event with
  | childAdded dataSnapshot =>
    rw [← Option.some.inj hstep]
    exact ⟨_, rfl, deals_childAdded h dataSnapshot⟩
  | childChanged dataSnapshot =>
    rw [← Option.some.inj hstep]
    exact ⟨_, rfl, deals_childChanged h dataSnapshot⟩
  | childRemoved dataSnapshot =>
    rw [← Option.some.inj hstep]
    exact ⟨_, rfl, deals_childRemoved h dataSnapshot⟩
  | annotationStarted job =>
    rw [← Option.some.inj hstep]
    refine ⟨_, rfl, deals_eq_iff.mpr ?_⟩
    simp only [annotationStarted, hfields, and_self]
  | annotationGeocoded job reply =>
    rw [← Option.some.inj hstep]
    exact ⟨_, rfl, deals_annotationGeocoded h job reply⟩
  | elapse milliseconds =>
    rw [← Option.some.inj hstep]
    refine ⟨_, rfl, deals_eq_iff.mpr ?_⟩
    simp only [hfields, and_self]
  | _ => cases hi

/-! ## The console -/

theorem eq_of_unprinted {self other : MainViewController} (h : self.unprinted = other.unprinted) :
    other = { self with console := other.console } := by
  have hother : other = { other.unprinted with console := other.console } := rfl
  rw [hother, ← h]
  rfl

theorem unprinted_updateRestaurantLocation {self self' : MainViewController} {page : Option Nat}
    (h : self.updateRestaurantLocation page = some self') (console : List ConsoleLine) :
    ∃ other', updateRestaurantLocation { self with console := console } page = some other' ∧
      self'.unprinted = other'.unprinted := by
  cases page with
  | none =>
    rw [← Option.some.inj h]
    exact ⟨_, rfl, rfl⟩
  | some page =>
    rw [updateRestaurantLocation] at h ⊢
    cases hpage : self.restaurants[page]? with
    | none =>
      simp only [hpage] at h
      cases h
    | some restaurant =>
      simp only [hpage] at h ⊢
      rw [← Option.some.inj h]
      exact ⟨_, rfl, rfl⟩

/-- No method reads the console. -/
theorem unprinted_step {self self' : MainViewController} {event : Event}
    (h : self.step event = some self') (console : List ConsoleLine) :
    ∃ other', step { self with console := console } event = some other' ∧
      self'.unprinted = other'.unprinted := by
  cases event with
  | childAdded dataSnapshot =>
    rw [← Option.some.inj h]
    refine ⟨_, rfl, ?_⟩
    cases hr : restaurantOf dataSnapshot with
    | ok restaurant => rw [childAdded_of_ok hr, childAdded_of_ok hr]; rfl
    | error line => rw [childAdded_of_error hr, childAdded_of_error hr]; rfl
  | childChanged dataSnapshot =>
    rw [← Option.some.inj h]
    refine ⟨_, rfl, ?_⟩
    cases hr : restaurantOf dataSnapshot with
    | ok restaurant => rw [childChanged_of_ok hr, childChanged_of_ok hr]; rfl
    | error line => rw [childChanged_of_error hr, childChanged_of_error hr]; rfl
  | childRemoved dataSnapshot =>
    rw [← Option.some.inj h]
    refine ⟨_, rfl, ?_⟩
    have hlisted : listed { self with console := console } dataSnapshot =
        self.listed dataSnapshot := rfl
    cases hl : self.listed dataSnapshot with
    | none =>
      rw [childRemoved_of_not_listed hl, childRemoved_of_not_listed (hlisted.trans hl)]
      rfl
    | some restaurant =>
      rw [childRemoved_of_listed hl, childRemoved_of_listed (hlisted.trans hl)]
      rfl
  | annotationGeocoded job reply =>
    rw [← Option.some.inj h]
    refine ⟨_, rfl, ?_⟩
    rw [annotationGeocoded_eq, annotationGeocoded_eq]
    rfl
  | locationGeocoded address reply =>
    rw [← Option.some.inj h]
    refine ⟨_, rfl, ?_⟩
    cases hc : reply.coordinate <;> simp only [locationGeocoded, printError_eq, hc] <;> rfl
  | didUpdateLocations coordinate =>
    rw [← Option.some.inj h]
    refine ⟨_, rfl, ?_⟩
    cases coordinate with
    | none => rfl
    | some coordinate =>
      cases hguard : !self.isExpanded && self.followLocation <;>
        simp [didUpdateLocations, updateLocation, hguard, unprinted]
  | locationButtonPressed =>
    rw [← Option.some.inj h]
    refine ⟨_, rfl, ?_⟩
    cases hf : self.followLocation <;> simp [locationButtonPressed, hf, unprinted]
  | chevronButtonPressed =>
    rw [← Option.some.inj h]
    refine ⟨_, rfl, ?_⟩
    rw [chevronButtonPressed_eq, chevronButtonPressed_eq]
    rfl
  | chevronAnimationCompleted page => exact unprinted_updateRestaurantLocation h console
  | scrollViewDidEndDecelerating page => exact unprinted_updateRestaurantLocation h console
  | scrollViewDidEndScrollingAnimation page =>
    exact unprinted_updateRestaurantLocation h console
  | didSelectItemAt row page =>
    rw [← Option.some.inj h]
    refine ⟨_, rfl, ?_⟩
    cases page with
    | none => rfl
    | some page =>
      by_cases hrow : page = row <;> simp [didSelectItemAt, hrow, unprinted]
  | cellForItemAt cell row =>
    obtain ⟨drawn, hdrawn, rfl⟩ := Option.map_eq_some_iff.mp h
    exact ⟨_, Option.map_eq_some_iff.mpr ⟨drawn, hdrawn, rfl⟩, rfl⟩
  | _ =>
    rw [← Option.some.inj h]
    exact ⟨_, rfl, rfl⟩

theorem unprinted_rejected {self self' : MainViewController} {event : Event}
    (h : self.step event = some self') (hr : event.isRejected = true) :
    self'.unprinted = self.unprinted := by
  cases event with
  | childAdded dataSnapshot =>
    rw [← Option.some.inj h]
    cases hres : restaurantOf dataSnapshot with
    | ok restaurant => simp [Event.isRejected, hres, Except.isOk, Except.toBool] at hr
    | error line => rw [childAdded_of_error hres]; rfl
  | childChanged dataSnapshot =>
    rw [← Option.some.inj h]
    cases hres : restaurantOf dataSnapshot with
    | ok restaurant => simp [Event.isRejected, hres, Except.isOk, Except.toBool] at hr
    | error line => rw [childChanged_of_error hres]; rfl
  | _ => cases hr

end MainViewController

namespace Session

/-- A valid stream, closures that run once, and timers on time. -/
def Promised (self : Session) (event : Event) : Prop :=
  self.ValidVersions event ∧ self.app.OnTime event

instance (self : Session) (event : Event) : Decidable (self.Promised event) :=
  inferInstanceAs (Decidable (_ ∧ _))

/-- What is promised of the stream and the jobs is about the deals alone. -/
theorem promised_congr {self other : Session} {event : Event} (hi : event.isInterface = false)
    (hdeals : self.app.deals = other.app.deals) (hdatabase : self.database = other.database)
    (h : self.Promised event) : other.Promised event := by
  obtain ⟨⟨⟨⟨hpending, hkey⟩, hid⟩, hversion⟩, htime⟩ := h
  have hwaiting : self.app.waiting = other.app.waiting := congrArg Deals.waiting hdeals
  have hinFlight : self.app.inFlight = other.app.inFlight := congrArg Deals.inFlight hdeals
  have hnow : self.app.now = other.app.now := congrArg Deals.now hdeals
  rw [hdatabase] at hkey hid hversion
  refine ⟨⟨⟨⟨?_, hkey⟩, hid⟩, hversion⟩, ?_⟩
  · cases event with
    | annotationStarted job =>
      show job ∈ other.app.waiting
      rw [← hwaiting]
      exact hpending
    | annotationGeocoded job reply =>
      show job ∈ other.app.inFlight
      rw [← hinFlight]
      exact hpending
    | childAdded | childChanged | childRemoved | elapse => trivial
    | _ => cases hi
  · cases event with
    | annotationStarted job =>
      show (other.app.now : Int) = job.startTime
      rw [← hnow]
      exact htime
    | elapse milliseconds =>
      show ∀ job ∈ other.app.waiting, (other.app.now + milliseconds : Int) ≤ job.startTime
      rw [← hwaiting, ← hnow]
      exact htime
    | _ => trivial

end Session

/-! ## Runs -/

/-- Leaving out the events of the interface leaves a run with the same deals and the
same stream, which the environment allows if what it asks of the other events is
about these alone. -/
theorem deals_independent_of_interface (env : Session → Event → Prop)
    (henv : ∀ s u : Session, ∀ event, event.isInterface = false → s.app.deals = u.app.deals →
      s.database = u.database → env s event → env u event)
    (es : List Event) (t : Session) (h : Session.machine.Legal env es)
    (hexec : Session.machine.exec es = some t) :
    Session.machine.Legal env (es.filter fun event => !event.isInterface) ∧
      ∃ u, Session.machine.exec (es.filter fun event => !event.isInterface) = some u ∧
        u.app.deals = t.app.deals ∧ u.database = t.database := by
  have hfilter := Machine.execFrom_filter (M := Session.machine)
    (fun s : Session => (s.app.deals, s.database)) (fun event => !event.isInterface)
    ?_ ?_ ?_ rfl h hexec
  · obtain ⟨hlegal, u, hu, hview⟩ := hfilter
    obtain ⟨hdeals, hdatabase⟩ := Prod.mk.inj hview
    exact ⟨hlegal, u, hu, hdeals.symm, hdatabase.symm⟩
  · intro s event s' hi hstep
    obtain ⟨app, happ, rfl⟩ := Option.map_eq_some_iff.mp hstep
    have hinterface : event.isInterface = true := by simpa using hi
    exact Prod.ext (MainViewController.deals_interface happ hinterface)
      (Database.observe_of_isInterface s.database hinterface)
  · intro s u event hi hview henv'
    obtain ⟨hdeals, hdatabase⟩ := Prod.mk.inj hview
    exact henv s u event (by simpa using hi) hdeals hdatabase henv'
  · intro s u event s' hi hview hstep
    obtain ⟨hdeals, hdatabase⟩ := Prod.mk.inj hview
    obtain ⟨app, happ, rfl⟩ := Option.map_eq_some_iff.mp hstep
    obtain ⟨other, hother, hsame⟩ :=
      MainViewController.deals_step (by simpa using hi) hdeals happ
    refine ⟨⟨other, u.database.observe event⟩, Option.map_eq_some_iff.mpr ⟨other, hother, rfl⟩, ?_⟩
    exact Prod.ext hsame (congrArg (fun database => database.observe event) hdatabase)

/-- The panel is opened, closed and opened while a deal is geocoded. -/
theorem deals_independent_of_interface_taps :
    let es : List Event := [.childAdded (.deal "a" "1" "King St" "Wings"), .chevronButtonPressed,
      .elapse 500, .annotationStarted ⟨0, .deal "a" "1" "King St" "Wings", 0, 500⟩,
      .chevronAnimationCompleted (some 0), .locationButtonPressed,
      .annotationGeocoded ⟨0, .deal "a" "1" "King St" "Wings", 0, 500⟩
        ⟨some [⟨some ⟨43, -80⟩⟩], none⟩, .cellForItemAt .initial 0]
    let t := (Session.machine.exec es).get (by decide)
    Session.machine.Legal Session.Promised (es.filter fun event => !event.isInterface) ∧
      ∃ u, Session.machine.exec (es.filter fun event => !event.isInterface) = some u ∧
        u.app.deals = t.app.deals ∧ u.database = t.database :=
  deals_independent_of_interface Session.Promised (fun _ _ _ => Session.promised_congr) _ _
    (by decide) (Option.some_get _).symm

/-- Two runs with the same events of the interface leave the same on screen of the
controls and give the map the same region last, whatever the database sent and whenever
the pins were geocoded. -/
theorem interface_independent_of_deals (es es' : List Event) (t t' : Session)
    (h : Session.machine.exec es = some t) (h' : Session.machine.exec es' = some t')
    (hsame : es.filter Event.isInterface = es'.filter Event.isInterface) :
    t.app.interface = t'.app.interface := by
  refine Machine.view_eq_of_filter_eq (M := Session.machine)
    (fun s : Session => s.app.interface) Event.isInterface ?_ ?_ rfl hsame h h'
  · intro s event s' hi hstep
    obtain ⟨app, happ, rfl⟩ := Option.map_eq_some_iff.mp hstep
    show app.interface = s.app.interface
    rw [MainViewController.interface_step happ, Interface.next_of_not_isInterface hi]
  · intro s u event s' u' _ hview hs hu
    obtain ⟨app, happ, rfl⟩ := Option.map_eq_some_iff.mp hs
    obtain ⟨app', happ', rfl⟩ := Option.map_eq_some_iff.mp hu
    have hinterface : s.app.interface = u.app.interface := hview
    show app.interface = app'.interface
    rw [MainViewController.interface_step happ, MainViewController.interface_step happ',
      hinterface]

/-- A deal arrives in one of two runs in which the panel is opened. -/
theorem interface_independent_of_deals_opened :
    let es : List Event := [.childAdded (.deal "a" "1" "King St" "Wings"), .chevronButtonPressed,
      .childRemoved (.deal "a" "1" "King St" "Wings"), .chevronAnimationCompleted none]
    let es' : List Event := [.chevronButtonPressed, .chevronAnimationCompleted none, .elapse 500]
    ((Session.machine.exec es).get (by decide)).app.interface =
      ((Session.machine.exec es').get (by decide)).app.interface :=
  interface_independent_of_deals _ _ _ _ (Option.some_get _).symm (Option.some_get _).symm rfl

/-- Leaving out the versions that fail the guards leaves a run that ends in the same
state but for the console. -/
theorem rejected_versions_invisible (es : List Event) (t : Session)
    (h : Session.machine.Legal Session.Pending es) (hexec : Session.machine.exec es = some t) :
    Session.machine.Legal Session.Pending (es.filter fun event => !event.isRejected) ∧
      ∃ u, Session.machine.exec (es.filter fun event => !event.isRejected) = some u ∧
        u.app.unprinted = t.app.unprinted := by
  have hfilter := Machine.execFrom_filter (M := Session.machine)
    (fun s : Session => s.app.unprinted) (fun event => !event.isRejected)
    ?_ ?_ ?_ rfl h hexec
  · obtain ⟨hlegal, u, hu, hview⟩ := hfilter
    exact ⟨hlegal, u, hu, hview.symm⟩
  · intro s event s' hr hstep
    obtain ⟨app, happ, rfl⟩ := Option.map_eq_some_iff.mp hstep
    exact MainViewController.unprinted_rejected happ (by simpa using hr)
  · intro s u event _ hview hpending
    have happ := MainViewController.eq_of_unprinted hview
    show u.app.Pending event
    rw [happ]
    cases event <;> exact hpending
  · intro s u event s' _ hview hstep
    obtain ⟨app, happ, rfl⟩ := Option.map_eq_some_iff.mp hstep
    obtain ⟨other, hother, hsame⟩ := MainViewController.unprinted_step happ u.app.console
    rw [← MainViewController.eq_of_unprinted hview] at hother
    exact ⟨⟨other, u.database.observe event⟩,
      Option.map_eq_some_iff.mpr ⟨other, hother, rfl⟩, hsame⟩

/-- A child that gets its address only later, and loses it again. -/
theorem rejected_versions_invisible_late :
    let es : List Event := [.childAdded (.stub "a" "1"),
      .childChanged (.deal "a" "1" "King St" "Wings"), .childChanged (.stub "a" "1"),
      .cellForItemAt .initial 0]
    let t := (Session.machine.exec es).get (by decide)
    Session.machine.Legal Session.Pending (es.filter fun event => !event.isRejected) ∧
      ∃ u, Session.machine.exec (es.filter fun event => !event.isRejected) = some u ∧
        u.app.unprinted = t.app.unprinted :=
  rejected_versions_invisible _ _ (by decide) (Option.some_get _).symm

end MealDeals
