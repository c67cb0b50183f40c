import MealDeals.Firebase.Stream
import Mathlib.Algebra.Order.Group.Multiset

/-!
# Pins and the `annotations` dictionary

The two removals take a pin off the map and out of the dictionary together:
`childChanged` for every id, `childRemoved` only for an id that is still in
`restaurants`.  The completion of a geocode puts a pin on the map and writes it under
the id of its restaurant without looking at what is there.  When a pin for that id is
there already, it loses its entry and stays on the map, where nothing can reach it.
`pins_in_step_iff` says that this is the only way for the two to drift apart.
-/

namespace MealDeals

open Library

namespace MainViewController

def PinsMatch (self : MainViewController) : Prop :=
  self.mapView.annotations = Dictionary.values self.annotations

instance (self : MainViewController) : Decidable self.PinsMatch :=
  inferInstanceAs (Decidable (_ = _))

/-- The pins on the map are the values of the dictionary; hence there is one per
id at most, each is the entry under its own id, and each is removed by a
well-formed `childChanged` with that id.  A `childRemoved` with that id removes it only
while the id is in the list. -/
structure PinsInStep (app : MainViewController) : Prop where
  pinsMatch : app.PinsMatch
  onePerId : ∀ id, (app.mapView.annotations.filter fun pin => pin.id = id).card ≤ 1
  reachable : ∀ pin ∈ app.mapView.annotations, app.annotations.lookup pin.id = some pin
  removable : ∀ pin ∈ app.mapView.annotations, ∀ dataSnapshot restaurant,
    restaurantOf dataSnapshot = .ok restaurant → restaurant.id = pin.id →
      pin ∉ (app.childChanged dataSnapshot).mapView.annotations

/-- No geocode completes with a coordinate while the dictionary holds a pin for
its id. -/
def CompletesUnpinned (self : MainViewController) : Event → Prop
  | .annotationGeocoded job reply =>
    reply.coordinate.isSome → self.annotations.lookup job.id = none
  | _ => True

/-- Every entry of the dictionary is on the map, under the id of its restaurant. -/
def Entered (self : MainViewController) : Prop :=
  ∀ id pin, self.annotations.lookup id = some pin →
    pin ∈ self.mapView.annotations ∧ pin.id = id

/-! ## The operations on pins -/

theorem pins_removeAnnotationOf {self : MainViewController} {id : String} :
    (self.removeAnnotationOf id).mapView.annotations =
      self.mapView.annotations - ((self.annotations.lookup id).toList : Multiset _) := by
  cases hl : self.annotations.lookup id with
  | none => simp [removeAnnotationOf, hl]
  | some pin =>
    simp [removeAnnotationOf, hl, MKMapView.removeAnnotation, Multiset.sub_singleton]

theorem lookup_removeAnnotationOf (self : MainViewController) (id id' : String) :
    (self.removeAnnotationOf id).annotations.lookup id' =
      if id' = id then none else self.annotations.lookup id' := by
  show (self.annotations.erase id).lookup id' = _
  by_cases hid : id' = id
  · rw [hid, AList.lookup_erase, if_pos rfl]
  · rw [AList.lookup_erase_ne hid, if_neg hid]

theorem pinsMatch_removeAnnotationOf {self : MainViewController} {id : String}
    (hself : self.PinsMatch) : (self.removeAnnotationOf id).PinsMatch := by
  unfold PinsMatch
  rw [pins_removeAnnotationOf, hself, Dictionary.values_eq_add_erase self.annotations id,
    add_tsub_cancel_left]
  rfl

/-- The pin that goes is the one under the removed id, so the others keep both
their entry and their place on the map. -/
theorem entered_removeAnnotationOf {self : MainViewController} {id : String}
    (hself : self.Entered) : (self.removeAnnotationOf id).Entered := by
  intro id' pin hpin
  rw [lookup_removeAnnotationOf] at hpin
  by_cases hid : id' = id
  · rw [if_pos hid] at hpin
    cases hpin
  · rw [if_neg hid] at hpin
    obtain ⟨hmem, hpid⟩ := hself id' pin hpin
    refine ⟨?_, hpid⟩
    rw [pins_removeAnnotationOf]
    cases hl : self.annotations.lookup id with
    | none => simpa using hmem
    | some other =>
      have hne : pin ≠ other := by
        intro heq
        exact hid (hpid.symm.trans (heq ▸ (hself id other hl).2))
      simpa [Multiset.sub_singleton] using (Multiset.mem_erase_of_ne hne).mpr hmem

/-- What an event does to the pins and the dictionary: it removes the pin of an
id, it sets one, or it leaves both alone. -/
inductive PinEffect (self : MainViewController) : Event → MainViewController → Prop where
  | removed (event : Event) (self' : MainViewController) (id : String)
      (hfound : event.found = none)
      (hpins : self'.mapView.annotations = (self.removeAnnotationOf id).mapView.annotations)
      (hann : self'.annotations = (self.removeAnnotationOf id).annotations) :
      PinEffect self event self'
  | added (job : AnnotationJob) (reply : GeocodeReply) (self' : MainViewController)
      (coordinate : CLLocationCoordinate2D) (hfound : reply.coordinate = some coordinate)
      (hpins : self'.mapView.annotations = job.pin coordinate ::ₘ self.mapView.annotations)
      (hann : self'.annotations = self.annotations.insert job.id (job.pin coordinate)) :
      PinEffect self (.annotationGeocoded job reply) self'
  | none (event : Event) (self' : MainViewController) (hfound : event.found = none)
      (hpins : self'.mapView.annotations = self.mapView.annotations)
      (hann : self'.annotations = self.annotations) : PinEffect self event self'

theorem pinEffect_of_effect {self self' : MainViewController} {event : Event}
    (h : Effect self event self') : PinEffect self event self' := by
  cases h with
  | added dataSnapshot restaurant hr =>
    rw [childAdded_of_ok hr]
    exact .none _ _ rfl rfl rfl
  | changed dataSnapshot restaurant hr =>
    rw [childChanged_of_ok hr]
    exact .removed _ _ restaurant.id rfl rfl rfl
  | removed dataSnapshot =>
    cases hl : self.listed dataSnapshot with
    | none =>
      rw [childRemoved_of_not_listed hl]
      exact .none _ _ rfl rfl rfl
    | some restaurant =>
      rw [childRemoved_of_listed hl]
      exact .removed _ _ restaurant.id rfl rfl rfl
  | started job => exact .none _ _ rfl rfl rfl
  | geocoded job reply =>
    cases hc : reply.coordinate with
    | none =>
      rw [annotationGeocoded_of_none hc]
      exact .none _ _ hc rfl rfl
    | some coordinate =>
      rw [annotationGeocoded_of_some hc]
      exact .added job reply _ coordinate hc rfl rfl
  | pressed =>
    rw [chevronButtonPressed_eq]
    exact .none _ _ rfl rfl rfl
  | quiet event self' hq same =>
    exact .none _ _ (Event.found_of_quiet hq) same.pins same.annotations

theorem completesUnpinned_of_not_found {self : MainViewController} {event : Event}
    (h : event.found = none) : self.CompletesUnpinned event := by
  cases event with
  | annotationGeocoded job reply =>
    intro hsome
    have hnone : reply.coordinate = none := h
    rw [hnone] at hsome
    cases hsome
  | _ => trivial

/-! ## Steps -/

theorem entered_step {self self' : MainViewController} {event : Event}
    (h : Effect self event self') (hself : self.Entered) : self'.Entered := by
  unfold Entered
  cases pinEffect_of_effect h with
  | removed event self' id hfound hpins hann =>
    rw [hpins, hann]
    exact entered_removeAnnotationOf hself
  | added job reply self' coordinate hfound hpins hann =>
    rw [hpins, hann]
    intro id pin hpin
    by_cases hid : id = job.id
    · subst hid
      rw [AList.lookup_insert] at hpin
      rw [← Option.some.inj hpin]
      exact ⟨Multiset.mem_cons_self _ _, rfl⟩
    · rw [AList.lookup_insert_ne hid] at hpin
      obtain ⟨hmem, hpid⟩ := hself id pin hpin
      exact ⟨Multiset.mem_cons_of_mem hmem, hpid⟩
  | none event self' hfound hpins hann =>
    rw [hpins, hann]
    exact hself

/-- The new pin is added to both sides, where the dictionary first drops what it
held under the id. -/
theorem pinsMatch_added {self self' : MainViewController} {id : String}
    {pin : MKPointAnnotation}
    (hpins : self'.mapView.annotations = pin ::ₘ self.mapView.annotations)
    (hann : self'.annotations = self.annotations.insert id pin) (hself : self.PinsMatch) :
    self'.PinsMatch ↔ self.annotations.lookup id = none := by
  unfold PinsMatch
  rw [hpins, hann, Dictionary.values_insert, hself,
    Dictionary.values_eq_add_erase self.annotations id, Multiset.cons_inj_right]
  cases hl : self.annotations.lookup id with
  | none => simp
  | some old =>
    refine iff_of_false (fun heq => ?_) (by simp)
    have hcard := congrArg Multiset.card heq
    simp at hcard

theorem pinsMatch_step {self self' : MainViewController} {event : Event}
    (h : Effect self event self') (hself : self.PinsMatch) :
    self'.PinsMatch ↔ self.CompletesUnpinned event := by
  cases pinEffect_of_effect h with
  | removed event self' id hfound hpins hann =>
    refine iff_of_true ?_ (completesUnpinned_of_not_found hfound)
    unfold PinsMatch
    rw [hpins, hann]
    exact pinsMatch_removeAnnotationOf hself
  | added job reply self' coordinate hfound hpins hann =>
    rw [pinsMatch_added hpins hann hself]
    simp only [CompletesUnpinned, hfound, Option.isSome_some, forall_const]
  | none event self' hfound hpins hann =>
    refine iff_of_true ?_ (completesUnpinned_of_not_found hfound)
    unfold PinsMatch
    rw [hpins, hann]
    exact hself

/-- The rest of `PinsInStep` follows from the equality. -/
theorem pinsInStep_iff {self : MainViewController} (hentered : self.Entered) :
    self.PinsInStep ↔ self.PinsMatch := by
  refine ⟨PinsInStep.pinsMatch, fun hmatch => ?_⟩
  have hreach : ∀ pin ∈ self.mapView.annotations,
      self.annotations.lookup pin.id = some pin := by
    intro pin hpin
    rw [hmatch, Dictionary.mem_values] at hpin
    obtain ⟨id, hid⟩ := hpin
    rw [(hentered id pin hid).2]
    exact hid
  have hrest : ∀ id, ∀ pin ∈ Dictionary.values (self.annotations.erase id), pin.id ≠ id := by
    intro id pin hpin heq
    obtain ⟨id', hid'⟩ := Dictionary.mem_values.mp hpin
    by_cases hne : id' = id
    · rw [hne, AList.lookup_erase] at hid'
      cases hid'
    · rw [AList.lookup_erase_ne hne] at hid'
      exact hne ((hentered id' pin hid').2.symm.trans heq)
  refine ⟨hmatch, fun id => ?_, hreach, fun pin hpin dataSnapshot restaurant hr hid hmem => ?_⟩
  · rw [hmatch, Dictionary.values_eq_add_erase self.annotations id, Multiset.filter_add,
      Multiset.filter_eq_nil.mpr (hrest id), Multiset.add_zero]
    refine (Multiset.card_le_card (Multiset.filter_le _ _)).trans ?_
    cases self.annotations.lookup id <;> simp
  · rw [childChanged_of_ok hr] at hmem
    have hafter : pin ∈ (self.removeAnnotationOf restaurant.id).mapView.annotations := hmem
    rw [pinsMatch_removeAnnotationOf hmatch] at hafter
    exact hrest restaurant.id pin hafter hid.symm

end MainViewController

/-! ## Runs -/

theorem entered_reached (es : List Event) :
    ∀ s ∈ Session.machine.reached es, s.app.Entered := by
  refine Machine.invariant (I := fun s : Session => s.app.Entered) ?_ ?_
    (Machine.legalFrom_true _ es)
  · intro id pin hpin
    cases hpin
  · intro s e t _ hstep hs
    exact MainViewController.entered_step (Session.step_cases hstep).1 hs

/-- In every run, whatever the stream and the order of starts and completions, the
map and the dictionary hold the same pins after every step if and only if no
geocode completes with a coordinate while its id has a pin. -/
theorem pins_in_step_iff (es : List Event) :
    (∀ s ∈ Session.machine.reached es, s.app.PinsInStep) ↔
      ∀ x ∈ Session.machine.run es, x.source.app.CompletesUnpinned x.event := by
  have hmatch := Machine.forall_reached_iff_of_step (M := Session.machine)
    (P := fun s : Session => s.app.PinsMatch)
    (C := fun (s : Session) e => s.app.CompletesUnpinned e) rfl
    (fun s e t hstep hs => MainViewController.pinsMatch_step (Session.step_cases hstep).1 hs) es
  rw [← hmatch]
  exact forall₂_congr fun s hs => MainViewController.pinsInStep_iff (entered_reached es s hs)

/-- A deal changes while the job of its first version is in flight, and both jobs
complete. -/
theorem pin_lost_from_dictionary :
    ∃ es, Session.machine.Legal Session.ValidVersions es ∧
      ¬∀ s ∈ Session.machine.reached es, s.app.PinsInStep := by
  let first : AnnotationJob := ⟨0, .deal "a" "1" "King St" "Wings", 0, 500⟩
  let second : AnnotationJob := ⟨1, .deal "a" "1" "King St" "Nachos", 0, 1000⟩
  let found : GeocodeReply := ⟨some [⟨some ⟨43, -80⟩⟩], none⟩
  refine ⟨[.childAdded (.deal "a" "1" "King St" "Wings"),
    .childChanged (.deal "a" "1" "King St" "Nachos"), .annotationStarted first,
    .annotationStarted second, .annotationGeocoded first found,
    .annotationGeocoded second found], by decide, fun h => ?_⟩
  have hmatch := fun s hs => (h s hs).pinsMatch
  revert hmatch
  decide

end MealDeals
