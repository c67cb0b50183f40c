import MealDeals.Library.Double
import MealDeals.Views.CollectionViewCell

/-!
# The methods of the main view controller

Each method of the class is a function from the controller to the controller,
under its own name.  The three database observers, the closures of
`addAnnotationFor` and the completion handlers are methods too.

A method that reads `restaurants` by index returns `none` where Swift traps.
`UIView.animate` runs its `animations` block before it returns, so the
properties set there are set by the method that calls it.
-/

namespace MealDeals

open Library

/-- The guards with which `childChanged` and `childAdded` both start: the
restaurant a snapshot describes, or the line that is printed for it. -/
def restaurantOf (dataSnapshot : DataSnapshot) : Except ConsoleLine Restaurant :=
  match dataSnapshot.value.asDictionary with
  | none => .error (.text "CANT BE A DICT")
  | some restaurantDict =>
    match restaurantDict.lookup "address", restaurantDict.lookup "name",
      restaurantDict.lookup "id" with
    | some address, some name, some id =>
      .ok {
        address := address
        name := name
        id := id
        dealTitle := restaurantDict.lookup "deal_title"
        dealDescription := restaurantDict.lookup "deal_description" }
    | _, _, _ => .error (.text "Malformed data 😢")

/-- The restaurant of `DataSnapshot.deal`. -/
def Restaurant.deal (key id address title : String) : Restaurant where
  address := address
  name := key
  id := id
  dealTitle := some title
  dealDescription := none

example (key id address title : String) :
    restaurantOf (.deal key id address title) = .ok (.deal key id address title) := rfl

/-- One turn of the first loop of `childRemoved`: the restaurant a field of the
snapshot selects, or the line that is printed for it. -/
def matchChild (restaurants : List Restaurant) (child : Σ _ : String, FieldValue) :
    Except ConsoleLine Restaurant :=
  if child.1 = "id" then
    match child.2.asString.bind fun id => restaurants.find? fun r => r.id == id with
    | some restaurant => .ok restaurant
    | none => .error (.text "Malformed data 😢 or no matching restaurant")
  else
    .error (.text "not an 'id' field ¯\\_(ツ)_/¯")

def printedLine : Except ConsoleLine Restaurant → Option ConsoleLine
  | .ok _ => none
  | .error line => some line

def restaurantsToRemove (restaurants : List Restaurant) (dataSnapshot : DataSnapshot) :
    List Restaurant :=
  dataSnapshot.value.children.filterMap fun child => (matchChild restaurants child).toOption

/-- The region that a call of `updateLocation` gives to `setRegion`. -/
def LocationUpdate.region (mkCoordinateRegionMakeWithDistance : MakeRegionWithDistance)
    (update : LocationUpdate) : MKCoordinateRegion :=
  let region := mkCoordinateRegionMakeWithDistance update.coordinate 400 400
  if update.isExpanded then
    let latitude := toDouble (region.center.latitude -
      toDouble (region.span.latitudeDelta * toDouble (mkRat 30 100)))
    { region with center := { region.center with latitude := latitude } }
  else
    region

namespace MainViewController

def print (self : MainViewController) (line : ConsoleLine) : MainViewController :=
  { self with console := self.console ++ [line] }

/-! ## Collection view -/

def numberOfItemsInSection (self : MainViewController) : Nat := self.restaurants.length

/-- UIKit asks for the number of items anew. -/
def reloadData (self : MainViewController) : MainViewController :=
  { self with loadedCount := some self.numberOfItemsInSection }

/-! ## Geocoding -/

/-- The job of a call of `addAnnotationFor` now. -/
def annotationJob (self : MainViewController) (restaurant : Restaurant) : AnnotationJob where
  number := self.jobsScheduled
  restaurant := restaurant
  scheduledAt := self.now
  delay := 500 * self.geocoderCounter

def addAnnotationFor (self : MainViewController) (restaurant : Restaurant) :
    MainViewController :=
  { self with
    waiting := self.waiting ++ [self.annotationJob restaurant]
    jobsScheduled := self.jobsScheduled + 1
    geocoderCounter := self.geocoderCounter + 1 }

/-- The closure given to `asyncAfter`. -/
def annotationStarted (self : MainViewController) (job : AnnotationJob) : MainViewController :=
  { self with
    waiting := self.waiting.erase job
    inFlight := self.inFlight ++ [job] }

def printError (self : MainViewController) (reply : GeocodeReply) : MainViewController :=
  match reply.error with
  | some error => self.print (.error error)
  | none => self

/-- The completion handler of the geocode of `addAnnotationFor`. -/
def annotationGeocoded (self : MainViewController) (job : AnnotationJob) (reply : GeocodeReply) :
    MainViewController :=
  let self := { self with inFlight := self.inFlight.erase job }
  let self := self.printError reply
  let self :=
    match reply.coordinate with
    | some coordinate =>
      let annotation := job.pin coordinate
      { self with
        mapView := self.mapView.addAnnotation annotation
        annotations := self.annotations.insert job.restaurant.id annotation }
    | none => self.print (.didntFindAnything job.restaurant)
  { self with geocoderCounter := self.geocoderCounter - 1 }

def updateLocation (self : MainViewController) (coordinate : CLLocationCoordinate2D) :
    MainViewController :=
  { self with
    mapView := { self.mapView with
      givenRegion := some { coordinate := coordinate, isExpanded := self.isExpanded } } }

/-- `page` is the value of `currentCenteredPage`. -/
def updateRestaurantLocation (self : MainViewController) (page : Option Nat) :
    Option MainViewController :=
  match page with
  | none => some self
  | some page =>
    match self.restaurants[page]? with
    | none => none
    | some restaurant =>
      some { self with locationRequests := self.locationRequests ++ [restaurant.address] }

/-- The completion handler of the geocode of `updateRestaurantLocation`. -/
def locationGeocoded (self : MainViewController) (address : String) (reply : GeocodeReply) :
    MainViewController :=
  let self := { self with locationRequests := self.locationRequests.erase address }
  let self := self.printError reply
  match reply.coordinate with
  | some coordinate => self.updateLocation coordinate
  | none => self

def didUpdateLocations (self : MainViewController) (coordinate : Option CLLocationCoordinate2D) :
    MainViewController :=
  match coordinate with
  | none => self
  | some coordinate =>
    if !self.isExpanded && self.followLocation then self.updateLocation coordinate else self

/-! ## Database observers -/

def notifyFor (self : MainViewController) (restaurant : Restaurant) : MainViewController :=
  { self with
    center := self.center ++ [{
      identifier := restaurant.id
      title := restaurant.name
      body := restaurant.dealTitle.getD "Deal coming soon!" }] }

/-- The removal of a pin by id that `childChanged` and `childRemoved` share. -/
def removeAnnotationOf (self : MainViewController) (id : String) : MainViewController :=
  { self with
    mapView :=
      match self.annotations.lookup id with
      | some annotation => self.mapView.removeAnnotation annotation
      | none => self.mapView
    annotations := self.annotations.erase id }

def childChanged (self : MainViewController) (dataSnapshot : DataSnapshot) :
    MainViewController :=
  match restaurantOf dataSnapshot with
  | .error line => self.print line
  | .ok restaurant =>
    -- remove
    let self := self.removeAnnotationOf restaurant.id
    let self := { self with
      restaurants := self.restaurants.filter fun r => r.id != restaurant.id }
    -- add again
    let self := { self with restaurants := self.restaurants ++ [restaurant] }
    let self := self.addAnnotationFor restaurant
    let self := self.notifyFor restaurant
    self.reloadData

def childAdded (self : MainViewController) (dataSnapshot : DataSnapshot) : MainViewController :=
  match restaurantOf dataSnapshot with
  | .error line => self.print line
  | .ok restaurant =>
    let self := { self with restaurants := self.restaurants ++ [restaurant] }
    let self := self.addAnnotationFor restaurant
    let self := self.reloadData
    if !self.restaurants.isEmpty then
      { self with chevronButton := { self.chevronButton with isHidden := false } }
    else
      self

/-- One turn of the second loop of `childRemoved`.  The filter keeps the entries
with the id of the removed restaurant. -/
def removeRestaurant (self : MainViewController) (restaurant : Restaurant) :
    MainViewController :=
  let self := self.removeAnnotationOf restaurant.id
  { self with restaurants := self.restaurants.filter fun r => r.id == restaurant.id }

def childRemoved (self : MainViewController) (dataSnapshot : DataSnapshot) :
    MainViewController :=
  let restaurantsToRemove := restaurantsToRemove self.restaurants dataSnapshot
  let self := { self with
    console := self.console ++
      dataSnapshot.value.children.filterMap fun child =>
        printedLine (matchChild self.restaurants child) }
  let self := restaurantsToRemove.foldl removeRestaurant self
  let self := self.reloadData
  if self.restaurants.isEmpty then
    { self with chevronButton := { self.chevronButton with isHidden := true } }
  else
    self

/-! ## Buttons, scrolling and cells -/

def locationButtonPressed (self : MainViewController) : MainViewController :=
  if self.followLocation then
    { self with
      locationButton := .locationOff
      mapView := { self.mapView with userTrackingMode := .none }
      followLocation := false }
  else
    { self with
      locationButton := .location
      mapView := { self.mapView with userTrackingMode := .follow }
      followLocation := true }

def chevronButtonPressed (self : MainViewController) : MainViewController :=
  let self := { self with chevronButton := { self.chevronButton with isEnabled := false } }
  let self :=
    if self.isExpanded then
      { self with
        isExpanded := false
        chevronButton := { self.chevronButton with pointsDown := false }
        collectionViewBottomConstraint := 265 }
    else
      { self with
        isExpanded := true
        chevronButton := { self.chevronButton with pointsDown := true }
        collectionViewBottomConstraint := -10 }
  { self with panelAnimations := self.panelAnimations + 1 }

/-- The completion handler of the animation of `chevronButtonPressed`. -/
def chevronAnimationCompleted (self : MainViewController) (page : Option Nat) :
    Option MainViewController :=
  let self := { self with panelAnimations := self.panelAnimations - 1 }
  let self := { self with chevronButton := { self.chevronButton with isEnabled := true } }
  self.updateRestaurantLocation page

/-- `didSelectItemAt`: scroll to the selected row unless it is centered or no page
is. -/
def didSelectItemAt (self : MainViewController) (row : Nat) (page : Option Nat) :
    MainViewController :=
  match page with
  | none => self
  | some page => if page ≠ row then { self with scrolledToPage := some row } else self

/-- `cell` is the cell that was dequeued. -/
def cellForItemAt (self : MainViewController) (cell : CollectionViewCell) (row : Nat) :
    Option CollectionViewCell :=
  match self.restaurants[row]? with
  | none => none
  | some restaurant => some { cell with restaurant := some restaurant }.render

/-! ## Start -/

/-- The controller with the initial values of its properties. -/
def initial : MainViewController where
  restaurants := []
  annotations := ∅
  geocoderCounter := 1
  isExpanded := false
  followLocation := true
  collectionViewBottomConstraint := 265
  mapView := { annotations := 0, userTrackingMode := .none, givenRegion := none }
  chevronButton := { isHidden := false, isEnabled := true, pointsDown := false }
  locationButton := .location
  loadedCount := none
  scrolledToPage := none
  center := []
  console := []
  now := 0
  jobsScheduled := 0
  waiting := []
  inFlight := []
  locationRequests := []
  panelAnimations := 0

/-- What `viewDidLoad` sets of the state above. -/
def viewDidLoad (self : MainViewController) : MainViewController :=
  { self with
    chevronButton := { self.chevronButton with isHidden := false }
    locationButton := .location
    collectionViewBottomConstraint := 265 }

end MainViewController
end MealDeals
