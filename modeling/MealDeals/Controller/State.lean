import MealDeals.Firebase.Snapshot
import Mathlib.Data.Rat.Defs

/-!
# The state of the main view controller

`MainViewController` collects the stored properties of the class, the parts of
its UIKit and MapKit objects that its methods write, and the closures it has
handed to the run-time and that have not run yet: the annotation jobs waiting on
the main queue, the geocodes in flight, and the completion handlers of panel
animations.  All of it runs on the main queue, so a method or a closure is one
atomic step.
-/

namespace MealDeals

open Library

structure Restaurant where
  address : String
  name : String
  id : String
  dealTitle : Option String
  dealDescription : Option String
deriving DecidableEq, Repr

structure CLLocationCoordinate2D where
  latitude : Rat
  longitude : Rat
deriving DecidableEq, Repr

structure CLPlacemark where
  location : Option CLLocationCoordinate2D
deriving DecidableEq, Repr

/-- The arguments of a geocoder's completion handler. -/
structure GeocodeReply where
  placemarks : Option (List CLPlacemark)
  error : Option String
deriving DecidableEq, Repr

/-- `placemarks?.first?.location?.coordinate` -/
def GeocodeReply.coordinate (reply : GeocodeReply) : Option CLLocationCoordinate2D :=
  (reply.placemarks.bind List.head?).bind CLPlacemark.location

/-- One call of `addAnnotationFor`: the closure given to `asyncAfter`, and the
completion handler it passes on to the geocoder.  The restaurant is captured by
value.  `number` tells closures with equal captures apart. -/
structure AnnotationJob where
  number : Nat
  restaurant : Restaurant
  scheduledAt : Nat
  delay : Int
deriving DecidableEq, Repr

namespace AnnotationJob

def id (job : AnnotationJob) : String := job.restaurant.id

/-- When the timer of the job fires and its geocode starts, in milliseconds. -/
def startTime (job : AnnotationJob) : Int := job.scheduledAt + job.delay

end AnnotationJob

/-- A pin.  The job that created it is its identity as an object: no job creates
two. -/
structure MKPointAnnotation where
  coordinate : CLLocationCoordinate2D
  title : Option String
  createdBy : AnnotationJob
deriving DecidableEq, Repr

/-- The pin that a job creates at a coordinate. -/
def AnnotationJob.pin (job : AnnotationJob) (coordinate : CLLocationCoordinate2D) :
    MKPointAnnotation where
  coordinate := coordinate
  title := job.restaurant.dealTitle
  createdBy := job

def MKPointAnnotation.id (pin : MKPointAnnotation) : String := pin.createdBy.id

inductive UserTrackingMode where
  | none
  | follow
  | followWithHeading
deriving DecidableEq, Repr

structure MKCoordinateSpan where
  latitudeDelta : Rat
  longitudeDelta : Rat
deriving DecidableEq, Repr

structure MKCoordinateRegion where
  center : CLLocationCoordinate2D
  span : MKCoordinateSpan
deriving DecidableEq, Repr

/-- `MKCoordinateRegionMakeWithDistance` -/
abbrev MakeRegionWithDistance := CLLocationCoordinate2D → Rat → Rat → MKCoordinateRegion

/-- A call of `updateLocation`: its coordinate, and whether the panel was open. -/
structure LocationUpdate where
  coordinate : CLLocationCoordinate2D
  isExpanded : Bool
deriving DecidableEq, Repr

/-- `annotations` holds the deal pins; the annotation of the user's own location
is MapKit's. -/
structure MKMapView where
  annotations : Multiset MKPointAnnotation
  userTrackingMode : UserTrackingMode
  -- the call that gave the map a region last; MapKit moves the map besides
  givenRegion : Option LocationUpdate
deriving DecidableEq

def MKMapView.addAnnotation (mapView : MKMapView) (pin : MKPointAnnotation) : MKMapView :=
  { mapView with annotations := pin ::ₘ mapView.annotations }

def MKMapView.removeAnnotation (mapView : MKMapView) (pin : MKPointAnnotation) : MKMapView :=
  { mapView with annotations := mapView.annotations.erase pin }

inductive LocationImage where
  | location
  | locationOff
deriving DecidableEq, Repr

/-- The chevron.  `pointsDown` is its rotation by π. -/
structure ChevronButton where
  isHidden : Bool
  isEnabled : Bool
  pointsDown : Bool
deriving DecidableEq, Repr

structure UNNotificationRequest where
  identifier : String
  title : String
  body : String
deriving DecidableEq, Repr

/-- A line that the controller prints: a fixed text, an error that a framework
reported, or `Didn't find anything for` a restaurant. -/
inductive ConsoleLine where
  | text (line : String)
  | error (error : String)
  | didntFindAnything (restaurant : Restaurant)
deriving DecidableEq, Repr

structure MainViewController where
  restaurants : List Restaurant
  annotations : Dictionary String MKPointAnnotation
  geocoderCounter : Int
  isExpanded : Bool
  followLocation : Bool
  collectionViewBottomConstraint : Int
  mapView : MKMapView
  chevronButton : ChevronButton
  locationButton : LocationImage
  -- what `numberOfItemsInSection` returned when the collection view last loaded
  loadedCount : Option Nat
  -- the page the flow layout was last asked to scroll to
  scrolledToPage : Option Nat
  center : List UNNotificationRequest
  console : List ConsoleLine
  -- the clock of the main queue, in milliseconds
  now : Nat
  jobsScheduled : Nat
  -- jobs whose timer has not fired
  waiting : List AnnotationJob
  -- jobs whose geocode has started and not completed, in the order of starting
  inFlight : List AnnotationJob
  -- addresses that `updateRestaurantLocation` is geocoding
  locationRequests : List String
  -- panel animations whose completion handler has not run
  panelAnimations : Nat
deriving DecidableEq

end MealDeals
