import MealDeals.Geocoder.Throttle
import MealDeals.Library.DelayLine

/-!
# Annotation jobs as a delay line

When every geocode succeeds and the completions come in the order of the starts,
the annotation jobs are a delay line that writes pins into `annotations` under
the ids of their restaurants.  `delayLine_step` says what each event does to the
line, and `exists_moves_of_drains` that the controller can follow every draining of
it: the clock reaches each deadline, and each geocode completes.
-/

namespace MealDeals

open Library

/-- What the map shows of a pin: where it is, and its title. -/
abbrev Shown := CLLocationCoordinate2D × Option String

def MKPointAnnotation.shown (pin : MKPointAnnotation) : Shown := (pin.coordinate, pin.title)

/-- What the pin of a restaurant shows, when `geo` is where addresses are. -/
def Restaurant.shown (geo : String → CLLocationCoordinate2D) (restaurant : Restaurant) : Shown :=
  (geo restaurant.address, restaurant.dealTitle)

/-- What an annotation job writes, under which id, and when it starts. -/
def pinWrites (geo : String → CLLocationCoordinate2D) :
    Delayed AnnotationJob String Shown Int where
  key := AnnotationJob.id
  value := fun job => job.restaurant.shown geo
  deadline := AnnotationJob.startTime

namespace MainViewController

def delayLine (self : MainViewController) : DelayLine AnnotationJob String Shown where
  waiting := self.waiting
  inFlight := self.inFlight
  store := fun id => (self.annotations.lookup id).map MKPointAnnotation.shown

/-- A geocode completes after all that started before it, with the coordinate of
its address. -/
def CompletesInOrder (geo : String → CLLocationCoordinate2D) (self : MainViewController) :
    Event → Prop
  | .annotationGeocoded job reply =>
    self.inFlight.head? = some job ∧ reply.coordinate = some (geo job.restaurant.address)
  | _ => True

instance (geo : String → CLLocationCoordinate2D) (self : MainViewController) (event : Event) :
    Decidable (self.CompletesInOrder geo event) := by
  apply @Event.casesOn _ event <;> intros <;> dsimp only [CompletesInOrder] <;> infer_instance

/-- The counter is exact, and no waiting job is late. -/
structure Timely (app : MainViewController) : Prop where
  counter : app.CounterExact
  ahead : ∀ job ∈ app.waiting, (app.now : Int) ≤ job.startTime

/-! ## Steps -/

theorem store_removeAnnotationOf {self : MainViewController} {id id' : String} (h : id' ≠ id) :
    (self.removeAnnotationOf id).delayLine.store id' = self.delayLine.store id' := by
  show ((self.annotations.erase id).lookup id').map _ = _
  rw [AList.lookup_erase_ne h]
  rfl

/-- A successful completion writes the pin of its job. -/
theorem delayLine_annotationGeocoded {geo : String → CLLocationCoordinate2D}
    {self : MainViewController} {job : AnnotationJob} {reply : GeocodeReply}
    (h : reply.coordinate = some (geo job.restaurant.address)) :
    (self.annotationGeocoded job reply).delayLine =
      (pinWrites geo).complete self.delayLine job := by
  have hstore : (fun id => ((self.annotations.insert job.id
        (job.pin (geo job.restaurant.address))).lookup id).map MKPointAnnotation.shown) =
      Function.update self.delayLine.store job.id (some (job.restaurant.shown geo)) := by
    funext id
    by_cases hid : id = job.id
    · rw [hid, AList.lookup_insert, Function.update_self]
      rfl
    · rw [AList.lookup_insert_ne hid, Function.update_of_ne hid]
      rfl
  rw [annotationGeocoded_of_some h, Delayed.complete, delayLine, DelayLine.mk.injEq]
  exact ⟨rfl, rfl, hstore⟩

/-- What a step does to the line: it puts the job of an accepted version into it,
it starts a job, it completes the first one in flight, or at most it removes the
entry of a removed child. -/
theorem delayLine_step {geo : String → CLLocationCoordinate2D} {self self' : MainViewController}
    {event : Event} (h : Effect self event self') (horder : self.CompletesInOrder geo event) :
    (∃ restaurant, event.accepted = some restaurant ∧
        (pinWrites geo).Put self.delayLine (self.annotationJob restaurant) self'.delayLine) ∨
      (∃ job, event = .annotationStarted job ∧ self'.delayLine = self.delayLine.start job) ∨
      (∃ job reply rest, event = .annotationGeocoded job reply ∧ self.inFlight = job :: rest ∧
        self'.delayLine = (pinWrites geo).complete self.delayLine job) ∨
      (event.accepted = none ∧ self'.waiting = self.waiting ∧ self'.inFlight = self.inFlight ∧
        ∀ id, (∀ dataSnapshot, event = .childRemoved dataSnapshot →
            dataSnapshot.value.id ≠ some id) →
          self'.delayLine.store id = self.delayLine.store id) := by
  cases h with
  | added dataSnapshot restaurant hr =>
    rw [childAdded_of_ok hr]
    exact .inl ⟨restaurant, Event.accepted_childAdded hr, rfl, rfl, fun _ _ => rfl⟩
  | changed dataSnapshot restaurant hr =>
    rw [childChanged_of_ok hr]
    exact .inl ⟨restaurant, Event.accepted_childChanged hr, rfl, rfl,
      fun _ hid => store_removeAnnotationOf hid⟩
  | removed dataSnapshot =>
    right; right; right
    cases hl : self.listed dataSnapshot with
    | none =>
      rw [childRemoved_of_not_listed hl]
      exact ⟨rfl, rfl, rfl, fun _ _ => rfl⟩
    | some restaurant =>
      rw [childRemoved_of_listed hl]
      refine ⟨rfl, rfl, rfl, fun id hid => store_removeAnnotationOf fun heq => ?_⟩
      exact hid dataSnapshot rfl (by rw [heq, (listed_eq_some hl).1])
  | started job => exact .inr (.inl ⟨job, rfl, rfl⟩)
  | geocoded job reply =>
    right; right; left
    obtain ⟨hhead, hcoordinate⟩ := horder
    obtain ⟨rest, hrest⟩ := List.head?_eq_some_iff.mp hhead
    exact ⟨job, reply, rest, rfl, hrest, delayLine_annotationGeocoded hcoordinate⟩
  | pressed =>
    rw [chevronButtonPressed_eq]
    exact .inr (.inr (.inr ⟨rfl, rfl, rfl, fun _ _ => rfl⟩))
  | quiet event self' hq same =>
    right; right; right
    refine ⟨Event.accepted_of_quiet hq, same.waiting, same.inFlight, fun id _ => ?_⟩
    simp only [delayLine, same.annotations]

/-- Time does not pass the start of a waiting job. -/
theorem add_elapsed_le {self : MainViewController} {event : Event} (htime : self.OnTime event)
    (h : self.Timely) : ∀ job ∈ self.waiting, (self.now + event.elapsed : Int) ≤ job.startTime := by
  intro job hjob
  cases event with
  | elapse milliseconds => exact htime job hjob
  | _ => simpa [Event.elapsed] using h.ahead job hjob

theorem timely_step {self self' : MainViewController} {event : Event}
    (h : Effect self event self') (hpending : self.Pending event) (htime : self.OnTime event)
    (hself : self.Timely) : self'.Timely := by
  refine ⟨counterExact_step h hpending hself.counter, fun job hjob => ?_⟩
  rw [now_step h, Int.natCast_add]
  rcases waiting_step h job hjob with hold | hnew
  · exact add_elapsed_le htime hself job hold
  · obtain ⟨restaurant, hacc, rfl⟩ := List.mem_map.mp hnew
    have helapsed : event.elapsed = 0 := by
      cases event <;> first | rfl | cases hacc
    have hone := hself.counter.one_le
    show (self.now + event.elapsed : Int) ≤ self.now + 500 * self.geocoderCounter
    omega

end MainViewController

/-! ## Sessions -/

namespace Session

/-- Closures run once; timers fire on time; geocodes succeed, in the order in which
they started. -/
def Timed (geo : String → CLLocationCoordinate2D) (self : Session) (event : Event) : Prop :=
  self.Pending event ∧ self.app.OnTime event ∧ self.app.CompletesInOrder geo event

/-- The same, and the stream is silent. -/
def Offline (geo : String → CLLocationCoordinate2D) (self : Session) (event : Event) : Prop :=
  self.Timed geo event ∧ event.isDatabase = false

instance (geo : String → CLLocationCoordinate2D) (self : Session) (event : Event) :
    Decidable (self.Timed geo event) :=
  inferInstanceAs (Decidable (_ ∧ _ ∧ _))

variable {geo : String → CLLocationCoordinate2D}

theorem timely_step {s t : Session} {event : Event} (htimed : s.Timed geo event)
    (hstep : machine.step s event = some t) (hs : s.app.Timely) : t.app.Timely :=
  MainViewController.timely_step (step_cases hstep).1 htimed.1 htimed.2.1 hs

theorem timely_initial : machine.init.app.Timely where
  counter := ⟨rfl, fun _ hjob => by cases hjob⟩
  ahead _ hjob := by cases hjob

/-- One step of the line, followed by the controller. -/
theorem exists_moves_of_step {s : Session} {line : DelayLine AnnotationJob String Shown}
    (hs : s.app.Timely) (h : (pinWrites geo).Step s.app.delayLine line) :
    ∃ t, Relation.ReflTransGen (machine.Moves (Offline geo)) s t ∧ t.app.delayLine = line ∧
      t.database = s.database := by
  obtain ⟨app, database⟩ := s
  cases h with
  | start job hjob hmin =>
    have hmem : job ∈ app.waiting := hjob
    have hahead : (app.now : Int) ≤ job.startTime := hs.ahead job hmem
    let wait := (job.startTime - app.now).toNat
    have hwait : (app.now + wait : Int) = job.startTime := by omega
    let fired : Session := ⟨{ app with now := app.now + wait }, database⟩
    have hfired : machine.Moves (Offline geo) ⟨app, database⟩ fired := by
      refine ⟨.elapse wait, ⟨⟨trivial, fun other hother => ?_, trivial⟩, rfl⟩, rfl⟩
      rw [hwait]
      exact hmin other hother
    have hstarted : machine.Moves (Offline geo) fired
        ⟨fired.app.annotationStarted job, database⟩ := by
      refine ⟨.annotationStarted job, ⟨⟨hmem, ?_, trivial⟩, rfl⟩, rfl⟩
      show ((app.now + wait : Nat) : Int) = job.startTime
      rw [Int.natCast_add]
      exact hwait
    exact ⟨_, .head hfired (.single hstarted), rfl, rfl⟩
  | complete job rest hflight =>
    have hinFlight : app.inFlight = job :: rest := hflight
    let found : GeocodeReply := ⟨some [⟨some (geo job.restaurant.address)⟩], none⟩
    have horder : app.CompletesInOrder geo (.annotationGeocoded job found) :=
      ⟨by rw [hinFlight]; rfl, rfl⟩
    have hpending : app.Pending (.annotationGeocoded job found) := by
      show job ∈ app.inFlight
      rw [hinFlight]
      exact List.mem_cons_self
    have hmove : machine.Moves (Offline geo) ⟨app, database⟩
        ⟨app.annotationGeocoded job found, database⟩ :=
      ⟨.annotationGeocoded job found, ⟨⟨hpending, trivial, horder⟩, rfl⟩, rfl⟩
    exact ⟨_, .single hmove, MainViewController.delayLine_annotationGeocoded rfl, rfl⟩

/-- Every draining of the line is followed by the controller. -/
theorem exists_moves_of_drains {s : Session} {line : DelayLine AnnotationJob String Shown}
    (hs : s.app.Timely) (h : Relation.ReflTransGen (pinWrites geo).Step s.app.delayLine line) :
    ∃ t, Relation.ReflTransGen (machine.Moves (Offline geo)) s t ∧ t.app.delayLine = line ∧
      t.database = s.database := by
  induction h with
  | refl => exact ⟨s, .refl, rfl, rfl⟩
  | tail _ hstep ih =>
    obtain ⟨t, hmoves, rfl, hdatabase⟩ := ih
    have ht : t.app.Timely := Machine.Moves.invariant
      (I := fun s : Session => s.app.Timely) (fun _ _ _ henv hstep => timely_step henv.1 hstep)
      hs hmoves
    obtain ⟨u, hmoves', hline, hdatabase'⟩ := exists_moves_of_step ht hstep
    exact ⟨u, hmoves.trans hmoves', hline, hdatabase'.trans hdatabase⟩

end Session
end MealDeals
