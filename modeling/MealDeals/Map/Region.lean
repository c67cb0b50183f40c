import MealDeals.Firebase.Stream
import MealDeals.Panel.Interface
import Mathlib.Tactic.NormNum

/-!
# The region the map is given

When a page has been scrolled to, or the panel has finished moving,
`updateRestaurantLocation` geocodes the address on the centered page, and the map is
given a region around what the geocoder finds.  Where the open panel covers the lower
part of the map, the middle of the region is moved to the south by 0.30 of its span.
The app keeps no note of what it asked for, so the last answer wins, not the last
request.

`region_of_last_page` says that this comes to the same when the geocoder answers in
the order of the requests and the user's position is not followed: the region is for
the address of the last request answered, the others are still outstanding in their
order, and when none is, it is for the page scrolled to last.  For all the rounding of
`updateLocation` the address is in the region: in its middle, or north of it when the
panel was open.
-/

namespace MealDeals

open Library

/-- The address whose geocode an event answers. -/
def Event.answered : Event → List String
  | .locationGeocoded address _ => [address]
  | _ => []

namespace MainViewController

/-- The address on a page. -/
def addressOn (self : MainViewController) (page : Option Nat) : List String :=
  (page.bind fun i => self.restaurants[i]?).toList.map Restaurant.address

/-- The address that an event asks the geocoder for, to move the map. -/
def requested (self : MainViewController) : Event → List String
  | .chevronAnimationCompleted page => self.addressOn page
  | .scrollViewDidEndDecelerating page => self.addressOn page
  | .scrollViewDidEndScrollingAnimation page => self.addressOn page
  | _ => []

/-- The geocoder answers in the order of the requests and finds every address. -/
def AnswersInOrder (geo : String → CLLocationCoordinate2D) (self : MainViewController) :
    Event → Prop
  | .locationGeocoded address reply =>
    self.locationRequests.head? = some address ∧ reply.coordinate = some (geo address)
  | _ => True

/-- The panel is open or the user is not followed when a position comes in. -/
def PositionIgnored (self : MainViewController) : Event → Prop
  | .didUpdateLocations _ => self.isExpanded = true ∨ self.followLocation = false
  | _ => True

instance (geo : String → CLLocationCoordinate2D) (self : MainViewController) (event : Event) :
    Decidable (self.AnswersInOrder geo event) := by
  apply @Event.casesOn _ event <;> intros <;> dsimp only [AnswersInOrder] <;> infer_instance

instance (self : MainViewController) (event : Event) : Decidable (self.PositionIgnored event) := by
  apply @Event.casesOn _ event <;> intros <;> dsimp only [PositionIgnored] <;> infer_instance

/-! ## Steps -/

theorem locationRequests_updateRestaurantLocation {self self' : MainViewController}
    {page : Option Nat} (h : self.updateRestaurantLocation page = some self') :
    self'.locationRequests = self.locationRequests ++ self.addressOn page := by
  cases page with
  | none =>
    rw [← Option.some.inj h]
    exact (List.append_nil _).symm
  | some page =>
    rw [updateRestaurantLocation] at h
    cases hpage : self.restaurants[page]? with
    | none =>
      simp only [hpage] at h
      cases h
    | some restaurant =>
      simp only [hpage] at h
      rw [← Option.some.inj h]
      simp [addressOn, hpage]

/-- The requests of an event go to the end of the queue, and an answer takes its
address out. -/
theorem locationRequests_step {self self' : MainViewController} {event : Event}
    (h : self.step event = some self') :
    self'.locationRequests =
      self.locationRequests.diff event.answered ++ self.requested event := by
  cases event with
  | childAdded dataSnapshot =>
    rw [← Option.some.inj h]
    cases hr : restaurantOf dataSnapshot with
    | ok restaurant => rw [childAdded_of_ok hr]; exact (List.append_nil _).symm
    | error line => rw [childAdded_of_error hr]; exact (List.append_nil _).symm
  | childChanged dataSnapshot =>
    rw [← Option.some.inj h]
    cases hr : restaurantOf dataSnapshot with
    | ok restaurant => rw [childChanged_of_ok hr]; exact (List.append_nil _).symm
    | error line => rw [childChanged_of_error hr]; exact (List.append_nil _).symm
  | childRemoved dataSnapshot =>
    obtain ⟨_, _, _, _, _, _, hframe⟩ := self.childRemoved_frame dataSnapshot
    rw [← Option.some.inj h, hframe]
    exact (List.append_nil _).symm
  | annotationGeocoded job reply =>
    rw [← Option.some.inj h, annotationGeocoded_eq]
    exact (List.append_nil _).symm
  | locationGeocoded address reply =>
    rw [← Option.some.inj h]
    cases hc : reply.coordinate <;>
      simp [locationGeocoded, hc, updateLocation, Event.answered, requested]
  | didUpdateLocations coordinate =>
    rw [← Option.some.inj h]
    cases coordinate with
    | none => exact (List.append_nil _).symm
    | some coordinate =>
      cases hguard : !self.isExpanded && self.followLocation <;>
        simp [didUpdateLocations, updateLocation, hguard, Event.answered, requested]
  | locationButtonPressed =>
    rw [← Option.some.inj h]
    cases hf : self.followLocation <;>
      simp [locationButtonPressed, hf, Event.answered, requested]
  | chevronButtonPressed =>
    rw [← Option.some.inj h, chevronButtonPressed_eq]
    exact (List.append_nil _).symm
  | chevronAnimationCompleted page =>
    have hrequests := locationRequests_updateRestaurantLocation h
    exact hrequests
  | scrollViewDidEndDecelerating page => exact locationRequests_updateRestaurantLocation h
  | scrollViewDidEndScrollingAnimation page =>
    exact locationRequests_updateRestaurantLocation h
  | didSelectItemAt row page =>
    rw [← Option.some.inj h]
    cases page with
    | none => exact (List.append_nil _).symm
    | some page =>
      by_cases hrow : page = row <;> simp [didSelectItemAt, hrow, Event.answered, requested]
  | cellForItemAt cell row =>
    obtain ⟨drawn, -, rfl⟩ := Option.map_eq_some_iff.mp h
    exact (List.append_nil _).symm
  | _ =>
    rw [← Option.some.inj h]
    exact (List.append_nil _).symm

/-- In the order of the requests, an answer is the front of the queue. -/
theorem queue_step {geo : String → CLLocationCoordinate2D} {self self' : MainViewController}
    {event : Event} (horder : self.AnswersInOrder geo event)
    (h : self.step event = some self') :
    self.locationRequests ++ self.requested event = event.answered ++ self'.locationRequests := by
  rw [locationRequests_step h]
  cases event with
  | locationGeocoded address reply =>
    obtain ⟨rest, hrest⟩ := List.head?_eq_some_iff.mp horder.1
    simp [hrest, Event.answered]
  | _ => simp [Event.answered]

/-- Only answers give the map a region. -/
theorem givenRegion_step {geo : String → CLLocationCoordinate2D} {self self' : MainViewController}
    {event : Event} (horder : self.AnswersInOrder geo event)
    (hignored : self.PositionIgnored event) (h : self.step event = some self') :
    self'.mapView.givenRegion =
      (event.answered.getLast?.map fun address => ⟨geo address, self.isExpanded⟩).or
        self.mapView.givenRegion := by
  have hregion : self'.mapView.givenRegion = (self.interface.next event).givenRegion :=
    congrArg Interface.givenRegion (interface_step h)
  rw [hregion]
  cases event with
  | locationGeocoded address reply =>
    simp only [Interface.next, horder.2]
    rfl
  | didUpdateLocations coordinate =>
    have hguard : (!self.isExpanded && self.followLocation) = false := by
      rcases hignored with hopen | hoff
      · rw [hopen]; rfl
      · rw [hoff, Bool.and_false]
    simp only [Interface.next]
    rw [if_neg (by simpa [interface, buttons] using hguard)]
    rfl
  | didSelectItemAt row page =>
    cases page with
    | none => rfl
    | some page =>
      simp only [Interface.next, Option.elim_some]
      split <;> rfl
  | _ => rfl

end MainViewController

/-! ## The region -/

/-- What MapKit says of a region that is 400 meters high and wide: its middle is the
coordinate, and it spans less than a degree of latitude and more than a thousandth. -/
structure MakesRegions (make : MakeRegionWithDistance) : Prop where
  center : ∀ coordinate, |coordinate.latitude| ≤ 90 → (make coordinate 400 400).center = coordinate
  lower : ∀ coordinate, |coordinate.latitude| ≤ 90 →
    mkRat 1 1000 < (make coordinate 400 400).span.latitudeDelta
  upper : ∀ coordinate, |coordinate.latitude| ≤ 90 →
    (make coordinate 400 400).span.latitudeDelta < 1

/-- The coordinate is in the region: in its middle, or with the panel open between its
middle and its northern edge. -/
structure MKCoordinateRegion.Shows (region : MKCoordinateRegion)
    (coordinate : CLLocationCoordinate2D) (isExpanded : Bool) : Prop where
  longitude : region.center.longitude = coordinate.longitude
  closed : isExpanded = false → region.center.latitude = coordinate.latitude
  opened : isExpanded = true → region.center.latitude < coordinate.latitude ∧
    coordinate.latitude < region.center.latitude + region.span.latitudeDelta / 2

/-- A number below 128 is at most a millionth from its double. -/
theorem abs_toDouble_sub_le_micro {x : Rat} (h : |x| < 128) : |toDouble x - x| ≤ 1 / 1000000 :=
  (abs_toDouble_sub_le (k := 6) (by norm_num; exact h)).trans (by norm_num)

theorem abs_toDouble_thirty_sub_le : |toDouble (mkRat 30 100) - 3 / 10| ≤ 1 / 1000000 := by
  have hthirty : (mkRat 30 100 : Rat) = 3 / 10 := by norm_num
  rw [hthirty]
  exact abs_toDouble_sub_le_micro (by rw [abs_lt]; constructor <;> norm_num)

/-- However the results are rounded, the middle is lowered by more than nothing and less
than half of the span. -/
theorem lowered_latitude {latitude latitudeDelta factor : Rat} (hlatitude : |latitude| ≤ 90)
    (hlower : mkRat 1 1000 < latitudeDelta) (hupper : latitudeDelta < 1)
    (hfactor : |factor - 3 / 10| ≤ 1 / 1000000) :
    let lowered := toDouble (latitude - toDouble (latitudeDelta * factor))
    lowered < latitude ∧ latitude < lowered + latitudeDelta / 2 := by
  intro lowered
  rw [show mkRat 1 1000 = (1 / 1000 : Rat) by norm_num] at hlower
  obtain ⟨hleft, hright⟩ := abs_le.mp hlatitude
  obtain ⟨hfactorLeft, hfactorRight⟩ := abs_le.mp hfactor
  have hproductLeft : latitudeDelta * (29 / 100) ≤ latitudeDelta * factor :=
    mul_le_mul_of_nonneg_left (by linarith) (by linarith)
  have hproductRight : latitudeDelta * factor ≤ latitudeDelta * (31 / 100) :=
    mul_le_mul_of_nonneg_left (by linarith) (by linarith)
  have hshift := abs_toDouble_sub_le_micro (x := latitudeDelta * factor)
    (by rw [abs_lt]; constructor <;> linarith)
  obtain ⟨hshiftLeft, hshiftRight⟩ := abs_le.mp hshift
  have hlowered := abs_toDouble_sub_le_micro (x := latitude - toDouble (latitudeDelta * factor))
    (by rw [abs_lt]; constructor <;> linarith)
  obtain ⟨hloweredLeft, hloweredRight⟩ := abs_le.mp hlowered
  constructor <;> linarith

theorem LocationUpdate.shows {make : MakeRegionWithDistance} (hmake : MakesRegions make)
    (update : LocationUpdate) (hlatitude : |update.coordinate.latitude| ≤ 90) :
    (update.region make).Shows update.coordinate update.isExpanded := by
  have hcenter := hmake.center update.coordinate hlatitude
  have hlowered := lowered_latitude hlatitude (hmake.lower _ hlatitude)
    (hmake.upper _ hlatitude) abs_toDouble_thirty_sub_le
  cases hopen : update.isExpanded with
  | false =>
    simp only [LocationUpdate.region, hopen]
    constructor <;> simp [hcenter]
  | true =>
    simp only [LocationUpdate.region, hopen, if_true]
    constructor
    · simp [hcenter]
    · simp
    · simp only [hcenter]
      exact fun _ => hlowered

/-! ## Runs -/

/-- The addresses that a run asked for. -/
def requested (run : List (Step Session Event)) : List String :=
  run.flatMap fun x => x.source.app.requested x.event

/-- The addresses that a run was answered, each with whether the panel was open. -/
def answers (run : List (Step Session Event)) : List (String × Bool) :=
  run.flatMap fun x => x.event.answered.map fun address => (address, x.source.app.isExpanded)

/-- The call of `updateLocation` that an answer leads to. -/
def answerUpdate (geo : String → CLLocationCoordinate2D) (answer : String × Bool) :
    LocationUpdate :=
  ⟨geo answer.1, answer.2⟩

/-- The environment of the geocodes of pages. -/
def Session.Paged (geo : String → CLLocationCoordinate2D) (self : Session) (event : Event) :
    Prop :=
  self.Pending event ∧ self.app.AnswersInOrder geo event ∧ self.app.PositionIgnored event

instance (geo : String → CLLocationCoordinate2D) (self : Session) (event : Event) :
    Decidable (self.Paged geo event) :=
  inferInstanceAs (Decidable (_ ∧ _ ∧ _))

theorem map_fst_answers (run : List (Step Session Event)) :
    (answers run).map Prod.fst = run.flatMap fun x => x.event.answered := by
  simp [answers, List.map_flatMap, Function.comp_def]

theorem givenRegion_of_execFrom {geo : String → CLLocationCoordinate2D} {s t : Session}
    {es : List Event} (h : Session.machine.LegalFrom (Session.Paged geo) s es)
    (hexec : Session.machine.execFrom s es = some t) :
    t.app.mapView.givenRegion =
      ((answers (Session.machine.stepsFrom s es)).getLast?.map (answerUpdate geo)).or
        s.app.mapView.givenRegion := by
  induction es generalizing s with
  | nil =>
    rw [Option.some.inj hexec]
    rfl
  | cons event es ih =>
    obtain ⟨u, hu, hexec⟩ := Machine.execFrom_cons_eq_some hexec
    rw [Machine.legalFrom_cons hu] at h
    obtain ⟨app, happ, rfl⟩ := Option.map_eq_some_iff.mp hu
    have hstep := MainViewController.givenRegion_step h.1.2.1 h.1.2.2 happ
    rw [ih h.2 hexec, hstep, Machine.stepsFrom_cons hu, ← Option.or_assoc]
    congr 1
    simp only [answers, List.flatMap_cons, List.getLast?_append, Option.map_or, List.getLast?_map,
      Option.map_map]
    rfl

/-- In every run in which the geocoder answers in order and the user's position is
not followed, the region that the map was given last is for the address of the last
request answered, and shows it as the panel was then.  What is outstanding are the
requests after it, in their order; when none is, the region is for the address
requested last. -/
theorem region_of_last_page (make : MakeRegionWithDistance)
    (geo : String → CLLocationCoordinate2D) (hmake : MakesRegions make)
    (hgeo : ∀ address, |(geo address).latitude| ≤ 90) (es : List Event) (t : Session)
    (h : Session.machine.Legal (Session.Paged geo) es)
    (hexec : Session.machine.exec es = some t) :
    requested (Session.machine.run es) =
        (answers (Session.machine.run es)).map Prod.fst ++ t.app.locationRequests ∧
      t.app.mapView.givenRegion =
        (answers (Session.machine.run es)).getLast?.map (answerUpdate geo) ∧
      (∀ update ∈ t.app.mapView.givenRegion,
        (update.region make).Shows update.coordinate update.isExpanded) ∧
      (t.app.locationRequests = [] →
        t.app.mapView.givenRegion.map LocationUpdate.coordinate =
          (requested (Session.machine.run es)).getLast?.map geo) := by
  have hqueue : requested (Session.machine.run es) =
      (answers (Session.machine.run es)).map Prod.fst ++ t.app.locationRequests := by
    rw [map_fst_answers]
    have hconserved := Machine.queue_of_execFrom (M := Session.machine)
      (fun s : Session => s.app.locationRequests)
      (fun x => x.source.app.requested x.event) (fun x => x.event.answered)
      ?_ h hexec
    · exact hconserved
    · intro x henv hstep
      obtain ⟨app, happ, htarget⟩ := Option.map_eq_some_iff.mp hstep
      rw [← htarget]
      exact MainViewController.queue_step henv.2.1 happ
  have hregion : t.app.mapView.givenRegion =
      (answers (Session.machine.run es)).getLast?.map (answerUpdate geo) := by
    rw [givenRegion_of_execFrom h hexec]
    exact Option.or_none
  refine ⟨hqueue, hregion, fun update hupdate => ?_, fun hidle => ?_⟩
  · rw [hregion] at hupdate
    obtain ⟨answer, -, rfl⟩ := Option.map_eq_some_iff.mp hupdate
    exact LocationUpdate.shows hmake _ (hgeo answer.1)
  · rw [hregion, hqueue, hidle, List.append_nil, List.getLast?_map, Option.map_map, Option.map_map]
    rfl

/-- Two deals are scrolled to with the panel open, and the first is answered. -/
theorem region_of_last_page_scrolled :
    let make : MakeRegionWithDistance := fun coordinate _ _ =>
      ⟨coordinate, ⟨mkRat 36 10000, mkRat 49 10000⟩⟩
    let geo : String → CLLocationCoordinate2D := fun address =>
      if address = "King St" then ⟨43, -80⟩ else ⟨43, -81⟩
    let es : List Event := [.childAdded (.deal "a" "1" "King St" "Wings"),
      .childAdded (.deal "b" "2" "Queen St" "Nachos"), .chevronButtonPressed,
      .didUpdateLocations (some ⟨0, 0⟩), .chevronAnimationCompleted (some 0),
      .scrollViewDidEndDecelerating (some 1),
      .locationGeocoded "King St" ⟨some [⟨some ⟨43, -80⟩⟩], none⟩]
    let t := (Session.machine.exec es).get (by decide)
    requested (Session.machine.run es) =
        (answers (Session.machine.run es)).map Prod.fst ++ t.app.locationRequests ∧
      t.app.mapView.givenRegion =
        (answers (Session.machine.run es)).getLast?.map (answerUpdate geo) ∧
      (∀ update ∈ t.app.mapView.givenRegion,
        (update.region make).Shows update.coordinate update.isExpanded) ∧
      (t.app.locationRequests = [] →
        t.app.mapView.givenRegion.map LocationUpdate.coordinate =
          (requested (Session.machine.run es)).getLast?.map geo) :=
  region_of_last_page _ _ ⟨fun _ _ => rfl, fun _ _ => by norm_num, fun _ _ => by norm_num⟩
    (fun address => by split <;> norm_num) _ _ (by decide) (Option.some_get _).symm

end MealDeals
