import MealDeals.Controller.Handlers

/-!
# Events and what each of them can do

`step` dispatches an event to the method or closure that it runs, and is `none`
where that traps.  `Pending` is what the run-time promises: a closure runs only
while it is waiting to be run.

`Effect` is the inversion of `step`.  It names the six ways in which an event
changes the deals, that is the list, the pins, the annotation jobs, the counter
and the panel, and says of every other event that they stay as they are.  The
invariants of later modules are proved by cases on it.
-/

namespace MealDeals

open Library

inductive Event where
  | childAdded (dataSnapshot : DataSnapshot)
  | childChanged (dataSnapshot : DataSnapshot)
  | childRemoved (dataSnapshot : DataSnapshot)
  | annotationStarted (job : AnnotationJob)
  | annotationGeocoded (job : AnnotationJob) (reply : GeocodeReply)
  | locationGeocoded (address : String) (reply : GeocodeReply)
  | didUpdateLocations (coordinate : Option CLLocationCoordinate2D)
  | locationButtonPressed
  | chevronButtonPressed
  | chevronAnimationCompleted (page : Option Nat)
  | scrollViewDidEndDecelerating (page : Option Nat)
  | scrollViewDidEndScrollingAnimation (page : Option Nat)
  | didSelectItemAt (row : Nat) (page : Option Nat)
  | cellForItemAt (cell : CollectionViewCell) (row : Nat)
  -- the collection view loads its data of its own accord
  | collectionViewLoads
  -- MapKit changes the mode of its own accord, as when the user moves the map
  | userTrackingModeChanges (mode : UserTrackingMode)
  | elapse (milliseconds : Nat)

namespace Event

/-- The restaurant of a `childAdded` or `childChanged` snapshot that passes the
guards. -/
def accepted : Event → Option Restaurant
  | .childAdded dataSnapshot | .childChanged dataSnapshot => (restaurantOf dataSnapshot).toOption
  | _ => none

/-- The three observers of `viewDidLoad`. -/
def isDatabase : Event → Bool
  | .childAdded _ | .childChanged _ | .childRemoved _ => true
  | _ => false

/-- The job whose geocode completes. -/
def completed : Event → List AnnotationJob
  | .annotationGeocoded job _ => [job]
  | _ => []

/-- The coordinate with which an annotation geocode completes. -/
def found : Event → Option CLLocationCoordinate2D
  | .annotationGeocoded _ reply => reply.coordinate
  | _ => none

def elapsed : Event → Nat
  | .elapse milliseconds => milliseconds
  | _ => 0

/-- Events that can change the list, the pins, the annotation jobs, the counter
or whether the panel is open. -/
def touchesDeals : Event → Bool
  | .childAdded dataSnapshot | .childChanged dataSnapshot => (restaurantOf dataSnapshot).isOk
  | .childRemoved _ | .annotationStarted _ | .annotationGeocoded _ _ | .chevronButtonPressed =>
    true
  | _ => false

/-- The handler of the event calls `reloadData`, or the collection view loads its data
of its own accord. -/
def reloads : Event → Bool
  | .childAdded dataSnapshot | .childChanged dataSnapshot => (restaurantOf dataSnapshot).isOk
  | .childRemoved _ | .collectionViewLoads => true
  | _ => false

/-- The index into `restaurants` that the event reads. -/
def index : Event → Option Nat
  | .chevronAnimationCompleted page => page
  | .scrollViewDidEndDecelerating page => page
  | .scrollViewDidEndScrollingAnimation page => page
  | .cellForItemAt _ row => some row
  | _ => none

theorem accepted_childAdded {dataSnapshot : DataSnapshot} {restaurant : Restaurant}
    (h : restaurantOf dataSnapshot = .ok restaurant) :
    (Event.childAdded dataSnapshot).accepted = some restaurant := by
  rw [accepted, h]
  rfl

theorem accepted_childChanged {dataSnapshot : DataSnapshot} {restaurant : Restaurant}
    (h : restaurantOf dataSnapshot = .ok restaurant) :
    (Event.childChanged dataSnapshot).accepted = some restaurant := by
  rw [accepted, h]
  rfl

theorem accepted_of_quiet {event : Event} (h : event.touchesDeals = false) :
    event.accepted = none := by
  cases event with
  | childAdded dataSnapshot | childChanged dataSnapshot =>
    cases hr : restaurantOf dataSnapshot with
    | ok restaurant =>
      rw [touchesDeals, hr] at h
      cases h
    | error line =>
      rw [accepted, hr]
      rfl
  | _ => rfl

theorem completed_of_quiet {event : Event} (h : event.touchesDeals = false) :
    event.completed = [] := by
  cases event with
  | annotationGeocoded job reply => cases h
  | _ => rfl

theorem found_of_quiet {event : Event} (h : event.touchesDeals = false) :
    event.found = none := by
  cases event with
  | annotationGeocoded job reply => cases h
  | _ => rfl

end Event

theorem id_of_restaurantOf {dataSnapshot : DataSnapshot} {restaurant : Restaurant}
    (h : restaurantOf dataSnapshot = .ok restaurant) :
    dataSnapshot.value.id = some restaurant.id := by
  unfold restaurantOf at h
  cases hdict : dataSnapshot.value.asDictionary with
  | none => simp [hdict] at h
  | some restaurantDict =>
    rw [← SnapshotValue.lookup_asDictionary hdict]
    simp only [hdict] at h
    split at h
    · rename_i address name id haddress hname hid
      rw [← Except.ok.inj h, hid]
    · cases h

namespace MainViewController

def step (self : MainViewController) : Event → Option MainViewController
  | .childAdded dataSnapshot => some (self.childAdded dataSnapshot)
  | .childChanged dataSnapshot => some (self.childChanged dataSnapshot)
  | .childRemoved dataSnapshot => some (self.childRemoved dataSnapshot)
  | .annotationStarted job => some (self.annotationStarted job)
  | .annotationGeocoded job reply => some (self.annotationGeocoded job reply)
  | .locationGeocoded address reply => some (self.locationGeocoded address reply)
  | .didUpdateLocations coordinate => some (self.didUpdateLocations coordinate)
  | .locationButtonPressed => some self.locationButtonPressed
  | .chevronButtonPressed => some self.chevronButtonPressed
  | .chevronAnimationCompleted page => self.chevronAnimationCompleted page
  | .scrollViewDidEndDecelerating page => self.updateRestaurantLocation page
  | .scrollViewDidEndScrollingAnimation page => self.updateRestaurantLocation page
  | .didSelectItemAt row page => some (self.didSelectItemAt row page)
  | .cellForItemAt cell row => (self.cellForItemAt cell row).map fun _ => self
  | .collectionViewLoads => some self.reloadData
  | .userTrackingModeChanges mode =>
    some { self with mapView := { self.mapView with userTrackingMode := mode } }
  | .elapse milliseconds => some { self with now := self.now + milliseconds }

/-- Closures and completion handlers run once each, after what they wait for. -/
def Pending (self : MainViewController) : Event → Prop
  | .annotationStarted job => job ∈ self.waiting
  | .annotationGeocoded job _ => job ∈ self.inFlight
  | .locationGeocoded address _ => address ∈ self.locationRequests
  | .chevronAnimationCompleted _ => 0 < self.panelAnimations
  | _ => True

instance (self : MainViewController) (event : Event) : Decidable (self.Pending event) := by
  apply @Event.casesOn _ event <;> intros <;> dsimp only [Pending] <;> infer_instance

/-! ## What the methods write -/

@[simp] theorem printError_eq (self : MainViewController) (reply : GeocodeReply) :
    self.printError reply =
      { self with console := self.console ++ reply.error.toList.map ConsoleLine.error } := by
  cases h : reply.error <;> simp [printError, print, h]

/-- An accepted `childAdded` leaves the list with at least the new restaurant, so
it always shows the chevron. -/
theorem childAdded_of_ok {self : MainViewController} {dataSnapshot : DataSnapshot}
    {restaurant : Restaurant} (h : restaurantOf dataSnapshot = .ok restaurant) :
    self.childAdded dataSnapshot =
      { self with
        restaurants := self.restaurants ++ [restaurant]
        waiting := self.waiting ++ [self.annotationJob restaurant]
        jobsScheduled := self.jobsScheduled + 1
        geocoderCounter := self.geocoderCounter + 1
        loadedCount := some (self.restaurants.length + 1)
        chevronButton := { self.chevronButton with isHidden := false } } := by
  simp [childAdded, h, addAnnotationFor, reloadData, numberOfItemsInSection, annotationJob]

theorem childChanged_of_ok {self : MainViewController} {dataSnapshot : DataSnapshot}
    {restaurant : Restaurant} (h : restaurantOf dataSnapshot = .ok restaurant) :
    self.childChanged dataSnapshot =
      { self.removeAnnotationOf restaurant.id with
        restaurants := (self.restaurants.filter fun r => r.id != restaurant.id) ++ [restaurant]
        waiting := self.waiting ++ [self.annotationJob restaurant]
        jobsScheduled := self.jobsScheduled + 1
        geocoderCounter := self.geocoderCounter + 1
        center := (self.notifyFor restaurant).center
        loadedCount :=
          some ((self.restaurants.filter fun r => r.id != restaurant.id).length + 1) } := by
  simp [childChanged, h, removeAnnotationOf, addAnnotationFor, notifyFor, reloadData,
    numberOfItemsInSection, annotationJob]

theorem childAdded_of_error {self : MainViewController} {dataSnapshot : DataSnapshot}
    {line : ConsoleLine} (h : restaurantOf dataSnapshot = .error line) :
    self.childAdded dataSnapshot = self.print line := by
  simp only [childAdded, h]

theorem childChanged_of_error {self : MainViewController} {dataSnapshot : DataSnapshot}
    {line : ConsoleLine} (h : restaurantOf dataSnapshot = .error line) :
    self.childChanged dataSnapshot = self.print line := by
  simp only [childChanged, h]

/-- The completion of an annotation geocode, on either branch. -/
theorem annotationGeocoded_eq (self : MainViewController) (job : AnnotationJob)
    (reply : GeocodeReply) :
    self.annotationGeocoded job reply =
      { self with
        inFlight := self.inFlight.erase job
        console := self.console ++ reply.error.toList.map ConsoleLine.error ++
          reply.coordinate.elim [.didntFindAnything job.restaurant] fun _ => []
        mapView := reply.coordinate.elim self.mapView fun coordinate =>
          self.mapView.addAnnotation (job.pin coordinate)
        annotations := reply.coordinate.elim self.annotations fun coordinate =>
          self.annotations.insert job.id (job.pin coordinate)
        geocoderCounter := self.geocoderCounter - 1 } := by
  cases hc : reply.coordinate with
  | none => simp only [annotationGeocoded, printError_eq, hc, print, Option.elim_none]
  | some coordinate =>
    simp only [annotationGeocoded, printError_eq, hc, Option.elim_some, List.append_nil]
    rfl

theorem annotationGeocoded_of_some {self : MainViewController} {job : AnnotationJob}
    {reply : GeocodeReply} {coordinate : CLLocationCoordinate2D}
    (h : reply.coordinate = some coordinate) :
    self.annotationGeocoded job reply =
      { self with
        inFlight := self.inFlight.erase job
        console := self.console ++ reply.error.toList.map ConsoleLine.error
        mapView := self.mapView.addAnnotation (job.pin coordinate)
        annotations := self.annotations.insert job.id (job.pin coordinate)
        geocoderCounter := self.geocoderCounter - 1 } := by
  rw [annotationGeocoded_eq, h]
  simp only [Option.elim_some, List.append_nil]

theorem annotationGeocoded_of_none {self : MainViewController} {job : AnnotationJob}
    {reply : GeocodeReply} (h : reply.coordinate = none) :
    self.annotationGeocoded job reply =
      { self with
        inFlight := self.inFlight.erase job
        console := self.console ++ reply.error.toList.map ConsoleLine.error ++
          [.didntFindAnything job.restaurant]
        geocoderCounter := self.geocoderCounter - 1 } := by
  rw [annotationGeocoded_eq, h]
  rfl

theorem chevronButtonPressed_eq (self : MainViewController) :
    self.chevronButtonPressed =
      { self with
        isExpanded := !self.isExpanded
        chevronButton := { self.chevronButton with
          isEnabled := false
          pointsDown := !self.isExpanded }
        collectionViewBottomConstraint := if self.isExpanded then 265 else -10
        panelAnimations := self.panelAnimations + 1 } := by
  cases he : self.isExpanded <;> simp [chevronButtonPressed, he]

/-- The entry of the list that a `childRemoved` snapshot selects. -/
def listed (self : MainViewController) (dataSnapshot : DataSnapshot) : Option Restaurant :=
  dataSnapshot.value.id.bind fun id => self.restaurants.find? fun r => r.id == id

theorem listed_eq_some {self : MainViewController} {dataSnapshot : DataSnapshot}
    {restaurant : Restaurant} (h : self.listed dataSnapshot = some restaurant) :
    dataSnapshot.value.id = some restaurant.id ∧ restaurant ∈ self.restaurants := by
  obtain ⟨id, hid, hfind⟩ := Option.bind_eq_some_iff.mp h
  have hrid : restaurant.id = id := by simpa using List.find?_some hfind
  exact ⟨by rw [hid, hrid], List.mem_of_find?_eq_some hfind⟩

theorem listed_eq_none {self : MainViewController} {dataSnapshot : DataSnapshot}
    (h : self.listed dataSnapshot = none) {id : String} (hid : dataSnapshot.value.id = some id) :
    ∀ r ∈ self.restaurants, r.id ≠ id := by
  rw [listed, hid, Option.bind_some, List.find?_eq_none] at h
  intro r hr
  simpa using h r hr

/-- The loop over the children selects at most one restaurant, because the key
`id` occurs at most once. -/
theorem restaurantsToRemove_eq (self : MainViewController) (dataSnapshot : DataSnapshot) :
    restaurantsToRemove self.restaurants dataSnapshot = (self.listed dataSnapshot).toList := by
  have hchild : ∀ child : Σ _ : String, FieldValue,
      (matchChild self.restaurants child).toOption =
        if child.1 = "id" then
          child.2.asString.bind fun id => self.restaurants.find? fun r => r.id == id
        else none := by
    intro child
    by_cases hid : child.1 = "id"
    · simp only [matchChild, hid, if_true]
      cases child.2.asString.bind fun id => self.restaurants.find? fun r => r.id == id <;> rfl
    · simp only [matchChild, hid, if_false]
      rfl
  simp only [restaurantsToRemove, hchild]
  exact SnapshotValue.filterMap_children _ _

def removalLines (self : MainViewController) (dataSnapshot : DataSnapshot) : List ConsoleLine :=
  dataSnapshot.value.children.filterMap fun child =>
    printedLine (matchChild self.restaurants child)

/-- What `childRemoved` does for a listed restaurant.  The list keeps that
restaurant, so it is not empty and the chevron stays as it is. -/
theorem childRemoved_of_listed {self : MainViewController} {dataSnapshot : DataSnapshot}
    {restaurant : Restaurant} (h : self.listed dataSnapshot = some restaurant) :
    self.childRemoved dataSnapshot =
      { self.removeAnnotationOf restaurant.id with
        restaurants := self.restaurants.filter fun r => r.id == restaurant.id
        console := self.console ++ self.removalLines dataSnapshot
        loadedCount := some (self.restaurants.filter fun r => r.id == restaurant.id).length } := by
  have hne : (self.restaurants.filter fun r => r.id == restaurant.id).isEmpty = false := by
    rw [List.isEmpty_eq_false_iff_exists_mem]
    exact ⟨restaurant, List.mem_filter.mpr ⟨(listed_eq_some h).2, by simp⟩⟩
  simp only [childRemoved, restaurantsToRemove_eq, h, Option.toList_some, List.foldl_cons,
    List.foldl_nil, removeRestaurant, removeAnnotationOf, reloadData, numberOfItemsInSection, hne]
  rfl

theorem childRemoved_of_not_listed {self : MainViewController} {dataSnapshot : DataSnapshot}
    (h : self.listed dataSnapshot = none) :
    self.childRemoved dataSnapshot =
      { self with
        console := self.console ++ self.removalLines dataSnapshot
        loadedCount := some self.restaurants.length
        chevronButton := { self.chevronButton with
          isHidden := self.chevronButton.isHidden || self.restaurants.isEmpty } } := by
  cases hl : self.restaurants.isEmpty <;>
    simp [childRemoved, restaurantsToRemove_eq, h, reloadData, numberOfItemsInSection, hl,
      removalLines]

/-- `childRemoved` leaves the annotation jobs, the counter and the panel alone. -/
theorem childRemoved_frame (self : MainViewController) (dataSnapshot : DataSnapshot) :
    ∃ restaurants annotations mapView console loadedCount chevronButton,
      self.childRemoved dataSnapshot =
        { self with
          restaurants := restaurants
          annotations := annotations
          mapView := mapView
          console := console
          loadedCount := loadedCount
          chevronButton := chevronButton } := by
  cases hl : self.listed dataSnapshot with
  | none => exact ⟨_, _, _, _, _, _, childRemoved_of_not_listed hl⟩
  | some restaurant => exact ⟨_, _, _, _, _, _, childRemoved_of_listed hl⟩

/-! ## Inversion of `step` -/

/-- The deals, the panel and the notifications are the same, the clock has moved by
the time that passed, and the collection view has loaded the list as it is, or else
nothing. -/
structure SameDeals (before : MainViewController) (elapsed : Nat) (reloads : Bool)
    (after : MainViewController) : Prop where
  restaurants : after.restaurants = before.restaurants
  annotations : after.annotations = before.annotations
  pins : after.mapView.annotations = before.mapView.annotations
  geocoderCounter : after.geocoderCounter = before.geocoderCounter
  waiting : after.waiting = before.waiting
  inFlight : after.inFlight = before.inFlight
  jobsScheduled : after.jobsScheduled = before.jobsScheduled
  isHidden : after.chevronButton.isHidden = before.chevronButton.isHidden
  isExpanded : after.isExpanded = before.isExpanded
  center : after.center = before.center
  now : after.now = before.now + elapsed
  loadedCount : after.loadedCount =
    if reloads then some before.restaurants.length else before.loadedCount

inductive Effect (self : MainViewController) : Event → MainViewController → Prop where
  | added (dataSnapshot : DataSnapshot) (restaurant : Restaurant)
      (h : restaurantOf dataSnapshot = .ok restaurant) :
      Effect self (.childAdded dataSnapshot) (self.childAdded dataSnapshot)
  | changed (dataSnapshot : DataSnapshot) (restaurant : Restaurant)
      (h : restaurantOf dataSnapshot = .ok restaurant) :
      Effect self (.childChanged dataSnapshot) (self.childChanged dataSnapshot)
  | removed (dataSnapshot : DataSnapshot) :
      Effect self (.childRemoved dataSnapshot) (self.childRemoved dataSnapshot)
  | started (job : AnnotationJob) :
      Effect self (.annotationStarted job) (self.annotationStarted job)
  | geocoded (job : AnnotationJob) (reply : GeocodeReply) :
      Effect self (.annotationGeocoded job reply) (self.annotationGeocoded job reply)
  | pressed : Effect self .chevronButtonPressed self.chevronButtonPressed
  | quiet (event : Event) (self' : MainViewController) (h : event.touchesDeals = false)
      (same : SameDeals self event.elapsed event.reloads self') : Effect self event self'

theorem SameDeals.refl (self : MainViewController) : SameDeals self 0 false self :=
  ⟨rfl, rfl, rfl, rfl, rfl, rfl, rfl, rfl, rfl, rfl, rfl, rfl⟩

theorem sameDeals_print (self : MainViewController) (line : ConsoleLine) :
    SameDeals self 0 false (self.print line) :=
  ⟨rfl, rfl, rfl, rfl, rfl, rfl, rfl, rfl, rfl, rfl, rfl, rfl⟩

theorem sameDeals_updateRestaurantLocation {self self' : MainViewController} {page : Option Nat}
    (h : self.updateRestaurantLocation page = some self') : SameDeals self 0 false self' := by
  cases page with
  | none =>
    rw [← Option.some.inj h]
    exact SameDeals.refl self
  | some page =>
    simp only [updateRestaurantLocation] at h
    cases hpage : self.restaurants[page]? with
    | none => simp [hpage] at h
    | some restaurant =>
      simp only [hpage, Option.some.injEq] at h
      rw [← h]
      exact ⟨rfl, rfl, rfl, rfl, rfl, rfl, rfl, rfl, rfl, rfl, rfl, rfl⟩

theorem step_effect {self self' : MainViewController} {event : Event}
    (h : self.step event = some self') : Effect self event self' := by
  cases event with
  | childAdded dataSnapshot =>
    rw [← Option.some.inj h]
    cases hr : restaurantOf dataSnapshot with
    | ok restaurant => exact .added _ restaurant hr
    | error line =>
      have hrejected : (restaurantOf dataSnapshot).isOk = false := by rw [hr]; rfl
      rw [childAdded_of_error hr]
      exact .quiet _ _ hrejected (by rw [Event.reloads, hrejected]; exact sameDeals_print self line)
  | childChanged dataSnapshot =>
    rw [← Option.some.inj h]
    cases hr : restaurantOf dataSnapshot with
    | ok restaurant => exact .changed _ restaurant hr
    | error line =>
      have hrejected : (restaurantOf dataSnapshot).isOk = false := by rw [hr]; rfl
      rw [childChanged_of_error hr]
      exact .quiet _ _ hrejected (by rw [Event.reloads, hrejected]; exact sameDeals_print self line)
  | childRemoved dataSnapshot => rw [← Option.some.inj h]; exact .removed _
  | annotationStarted job => rw [← Option.some.inj h]; exact .started _
  | annotationGeocoded job reply => rw [← Option.some.inj h]; exact .geocoded _ _
  | locationGeocoded address reply =>
    rw [← Option.some.inj h]
    refine .quiet _ _ rfl ?_
    cases hc : reply.coordinate <;> simp only [locationGeocoded, printError_eq, hc] <;>
      exact ⟨rfl, rfl, rfl, rfl, rfl, rfl, rfl, rfl, rfl, rfl, rfl, rfl⟩
  | didUpdateLocations coordinate =>
    rw [← Option.some.inj h]
    refine .quiet _ _ rfl ?_
    cases coordinate with
    | none => exact SameDeals.refl self
    | some coordinate =>
      simp only [didUpdateLocations]
      split <;> exact ⟨rfl, rfl, rfl, rfl, rfl, rfl, rfl, rfl, rfl, rfl, rfl, rfl⟩
  | locationButtonPressed =>
    rw [← Option.some.inj h]
    refine .quiet _ _ rfl ?_
    simp only [locationButtonPressed]
    split <;> exact ⟨rfl, rfl, rfl, rfl, rfl, rfl, rfl, rfl, rfl, rfl, rfl, rfl⟩
  | chevronButtonPressed => rw [← Option.some.inj h]; exact .pressed
  | chevronAnimationCompleted page =>
    obtain ⟨h1, h2, h3, h4, h5, h6, h7, h8, h9, h10, h11, h12⟩ :=
      sameDeals_updateRestaurantLocation h
    exact .quiet _ _ rfl ⟨h1, h2, h3, h4, h5, h6, h7, h8, h9, h10, h11, h12⟩
  | scrollViewDidEndDecelerating page =>
    exact .quiet _ _ rfl (sameDeals_updateRestaurantLocation h)
  | scrollViewDidEndScrollingAnimation page =>
    exact .quiet _ _ rfl (sameDeals_updateRestaurantLocation h)
  | didSelectItemAt row page =>
    rw [← Option.some.inj h]
    refine .quiet _ _ rfl ?_
    cases page with
    | none => exact SameDeals.refl self
    | some page =>
      simp only [didSelectItemAt]
      split <;> exact ⟨rfl, rfl, rfl, rfl, rfl, rfl, rfl, rfl, rfl, rfl, rfl, rfl⟩
  | cellForItemAt cell row =>
    obtain ⟨drawn, -, rfl⟩ := Option.map_eq_some_iff.mp h
    exact .quiet _ _ rfl (SameDeals.refl self)
  | collectionViewLoads =>
    rw [← Option.some.inj h]
    exact .quiet _ _ rfl ⟨rfl, rfl, rfl, rfl, rfl, rfl, rfl, rfl, rfl, rfl, rfl, rfl⟩
  | userTrackingModeChanges mode =>
    rw [← Option.some.inj h]
    exact .quiet _ _ rfl ⟨rfl, rfl, rfl, rfl, rfl, rfl, rfl, rfl, rfl, rfl, rfl, rfl⟩
  | elapse milliseconds =>
    rw [← Option.some.inj h]
    exact .quiet _ _ rfl ⟨rfl, rfl, rfl, rfl, rfl, rfl, rfl, rfl, rfl, rfl, rfl, rfl⟩

theorem restaurants_of_not_database {self self' : MainViewController} {event : Event}
    (hevent : event.isDatabase = false) (h : self.step event = some self') :
    self'.restaurants = self.restaurants := by
  cases step_effect h with
  | added | changed | removed => cases hevent
  | started job => rfl
  | geocoded job reply => rw [annotationGeocoded_eq]
  | pressed => rw [chevronButtonPressed_eq]
  | quiet event self' hq same => exact same.restaurants

end MainViewController
end MealDeals
