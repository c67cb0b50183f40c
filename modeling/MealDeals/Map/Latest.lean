import MealDeals.Geocoder.Line

/-!
# Convergence to the latest deal

When no job is outstanding, the map should show every deal as its most recent
well-formed version has it.  The pin that stays is the one whose job started last.
The delay of a job grows with the counter, and the counter falls when other jobs
complete, so a new version can start before an old one that still waits, and the
old one then overwrites it.  `map_converges_iff` says that this is the only way
to end with an old version.
-/

namespace MealDeals

open Library

namespace Session

variable (geo : String → CLLocationCoordinate2D)

/-- When no job is outstanding, each id that has a well-formed version and was
never removed has a pin in the dictionary, and it shows the most recent one. -/
def Converged (self : Session) : Prop :=
  self.app.outstanding = [] →
    ∀ id restaurant, self.database.latest.lookup id = some restaurant →
      id ∉ self.database.everRemoved →
        ∃ pin, self.app.annotations.lookup id = some pin ∧
          pin.coordinate = geo restaurant.address ∧ pin.title = restaurant.dealTitle

/-- From here on, unless the stream goes on, the map converges however the
outstanding jobs are run. -/
def Converges (self : Session) : Prop :=
  ∀ t, Relation.ReflTransGen (machine.Moves (Offline geo)) self t → t.Converged geo

/-- The job of an accepted version starts after the last waiting job of its id, or
that one writes the same.  It starts 500 ms later for every unit of the counter. -/
def StartsLast (self : Session) (event : Event) : Prop :=
  ∀ restaurant, event.accepted = some restaurant →
    restaurant.id ∉ self.database.everRemoved →
      ∀ job, (pinWrites geo).LastWaiting self.app.delayLine restaurant.id job →
        (self.app.now + 500 * self.app.geocoderCounter : Int) ≤ job.startTime →
          job.restaurant.shown geo = restaurant.shown geo

/-- The jobs and the dictionary can leave nothing but the most recent version. -/
def OnlyLatest (self : Session) : Prop :=
  ∀ id restaurant, self.database.latest.lookup id = some restaurant →
    id ∉ self.database.everRemoved →
      ∀ o, (pinWrites geo).Outcome self.app.delayLine id o → o = some (restaurant.shown geo)

variable {geo}

theorem drained_delayLine {self : Session} :
    self.app.delayLine.Drained ↔ self.app.outstanding = [] :=
  List.append_eq_nil_iff.symm

theorem startsLast_of_not_accepted {self : Session} {event : Event}
    (h : event.accepted = none) : self.StartsLast geo event := by
  intro restaurant hacc
  rw [h] at hacc
  cases hacc

/-! ## Steps -/

theorem onlyLatest_accepted {s t : Session} {event : Event} {restaurant : Restaurant}
    (hacc : event.accepted = some restaurant)
    (hput : (pinWrites geo).Put s.app.delayLine (s.app.annotationJob restaurant)
      t.app.delayLine)
    (hdatabase : t.database = s.database.observe event) (hs : s.OnlyLatest geo) :
    t.OnlyLatest geo ↔ s.StartsLast geo event := by
  obtain ⟨live, hobserve⟩ := s.database.observe_of_accepted hacc
  have hlatest : t.database.latest = s.database.latest.insert restaurant.id restaurant := by
    rw [hdatabase, hobserve]
    rfl
  have hremoved : t.database.everRemoved = s.database.everRemoved := by
    rw [hdatabase, hobserve]
    rfl
  have hown : (∀ o, (pinWrites geo).Outcome t.app.delayLine restaurant.id o →
      o = some (restaurant.shown geo)) ↔ _ := hput.outcome_iff
  constructor
  · intro ht restaurant' hacc' hkept
    rw [hacc] at hacc'
    cases hacc'
    refine hown.mp (ht restaurant.id restaurant ?_ (hremoved ▸ hkept))
    rw [hlatest, AList.lookup_insert]
  · intro hguard id latest hlookup hkept o ho
    rw [hlatest] at hlookup
    rw [hremoved] at hkept
    by_cases hid : id = restaurant.id
    · subst hid
      rw [AList.lookup_insert] at hlookup
      cases hlookup
      exact hown.mpr (hguard restaurant hacc hkept) o ho
    · rw [AList.lookup_insert_ne hid] at hlookup
      exact hs id latest hlookup hkept o ((hput.outcome_iff_of_ne hid).mp ho)

/-- Any other step only runs jobs or drops an entry of a removed child, so it adds
no outcome. -/
theorem onlyLatest_step {s t : Session} {event : Event} (htimed : s.Timed geo event)
    (hstep : machine.step s event = some t) (htimely : s.app.Timely) (hs : s.OnlyLatest geo) :
    t.OnlyLatest geo ↔ s.StartsLast geo event := by
  obtain ⟨heffect, hdatabase⟩ := step_cases hstep
  have hquiet : event.accepted = none →
      (∀ id, id ∉ t.database.everRemoved → ∀ o, (pinWrites geo).Outcome t.app.delayLine id o →
        (pinWrites geo).Outcome s.app.delayLine id o) →
      (t.OnlyLatest geo ↔ s.StartsLast geo event) := by
    intro hacc hshrinks
    refine iff_of_true (fun id restaurant hlookup hkept o ho => ?_)
      (startsLast_of_not_accepted hacc)
    rw [hdatabase, s.database.latest_of_not_accepted hacc] at hlookup
    refine hs id restaurant hlookup (fun hin => hkept ?_) o (hshrinks id hkept o ho)
    rw [hdatabase]
    exact s.database.everRemoved_subset event hin
  rcases MainViewController.delayLine_step heffect htimed.2.2 with
    ⟨restaurant, hacc, hput⟩ | ⟨job, rfl, hline⟩ | ⟨job, reply, rest, rfl, hflight, hline⟩ |
    ⟨hacc, hwaiting, hinFlight, hstore⟩
  · exact onlyLatest_accepted hacc hput hdatabase hs
  · have hmin : ∀ other ∈ s.app.waiting, job.startTime ≤ other.startTime := by
      intro other hother
      have htime : (s.app.now : Int) = job.startTime := htimed.2.1
      rw [← htime]
      exact htimely.ahead other hother
    refine hquiet rfl fun id _ o ho => Delayed.Outcome.of_step ?_ ho
    rw [hline]
    exact .start s.app.delayLine job htimed.1 hmin
  · refine hquiet rfl fun id _ o ho => Delayed.Outcome.of_step ?_ ho
    rw [hline]
    exact .complete s.app.delayLine job rest hflight
  · refine hquiet hacc fun id hkept o ho => ?_
    have hentry : t.app.delayLine.store id = s.app.delayLine.store id := by
      refine hstore id ?_
      rintro dataSnapshot rfl hid
      refine hkept ?_
      rw [hdatabase]
      simp [Database.observe, hid]
    have hsettled : (pinWrites geo).settled s.app.delayLine id =
        (pinWrites geo).settled t.app.delayLine id :=
      Delayed.settled_congr hinFlight.symm hentry.symm
    refine ho.congr (fun job _ => ?_) hsettled
    show job ∈ s.app.waiting ↔ job ∈ t.app.waiting
    rw [hwaiting]

/-! ## Continuations -/

theorem converged_of_onlyLatest {s : Session} (h : s.OnlyLatest geo) : s.Converged geo := by
  intro hidle id restaurant hlookup hkept
  have hstore := h id restaurant hlookup hkept _
    (Delayed.outcome_of_drained (drained_delayLine.mpr hidle) id)
  obtain ⟨pin, hpin, hshown⟩ := Option.map_eq_some_iff.mp hstore
  exact ⟨pin, hpin, congrArg Prod.fst hshown, congrArg Prod.snd hshown⟩

/-- The outcomes of the jobs are what the continuations end with. -/
theorem converges_iff {s : Session} (hs : s.app.Timely) :
    s.Converges geo ↔ s.OnlyLatest geo := by
  constructor
  · intro h id restaurant hlookup hkept o ho
    obtain ⟨line, hdrains, hdrained, rfl⟩ := Delayed.outcome_iff_drains.mp ho
    obtain ⟨t, hmoves, rfl, hdatabase⟩ := exists_moves_of_drains hs hdrains
    obtain ⟨pin, hpin, hcoordinate, htitle⟩ := h t hmoves (drained_delayLine.mp hdrained) id
      restaurant (hdatabase ▸ hlookup) (hdatabase ▸ hkept)
    show (t.app.annotations.lookup id).map MKPointAnnotation.shown = _
    rw [hpin, Option.map_some, MKPointAnnotation.shown, hcoordinate, htitle]
    rfl
  · intro h t hmoves
    refine converged_of_onlyLatest (Machine.Moves.invariant
      (I := fun s : Session => s.app.Timely ∧ s.OnlyLatest geo) ?_ ⟨hs, h⟩ hmoves).2
    intro s event t henv hstep hI
    have hacc : event.accepted = none := by
      cases event <;> first | rfl | cases henv.2
    exact ⟨timely_step henv.1 hstep hI.1,
      (onlyLatest_step henv.1 hstep hI.1 hI.2).mpr (startsLast_of_not_accepted hacc)⟩

end Session

/-! ## Runs -/

theorem timely_reached {geo : String → CLLocationCoordinate2D} {es : List Event}
    (h : Session.machine.Legal (Session.Timed geo) es) :
    ∀ s ∈ Session.machine.reached es, s.app.Timely :=
  Machine.invariant (I := fun s : Session => s.app.Timely) Session.timely_initial
    (fun _ _ _ henv hstep => Session.timely_step henv hstep) h

/-- In every run with timers on time and geocodes that succeed in their order, the
map has converged in every state reached, if the job of every accepted version
starts after the waiting jobs of its id that write something else.  And exactly
then it also converges from every state reached, however the jobs outstanding
there are run. -/
theorem map_converges_iff (geo : String → CLLocationCoordinate2D) (es : List Event)
    (h : Session.machine.Legal (Session.Timed geo) es) :
    ((∀ x ∈ Session.machine.run es, x.source.StartsLast geo x.event) →
        ∀ s ∈ Session.machine.reached es, s.Converged geo) ∧
      ((∀ s ∈ Session.machine.reached es, s.Converges geo) ↔
        ∀ x ∈ Session.machine.run es, x.source.StartsLast geo x.event) := by
  have honly : (∀ s ∈ Session.machine.reached es, s.OnlyLatest geo) ↔
      ∀ x ∈ Session.machine.run es, x.source.StartsLast geo x.event := by
    refine Machine.forall_reached_iff (I := fun s : Session => s.app.Timely)
      (P := fun s => s.OnlyLatest geo) (C := fun s e => s.StartsLast geo e)
      Session.timely_initial ?_ (fun _ _ _ henv hstep => Session.timely_step henv hstep)
      (fun _ _ _ => Session.onlyLatest_step) h
    intro id restaurant hlookup
    cases hlookup
  refine ⟨fun hstarts s hs => Session.converged_of_onlyLatest (honly.mpr hstarts s hs), ?_⟩
  rw [← honly]
  exact forall₂_congr fun s hs => Session.converges_iff (timely_reached h s hs)

/-- A deal is added and put on the map, and then changed. -/
theorem map_converges_iff_change :
    let geo : String → CLLocationCoordinate2D := fun _ => ⟨43, -80⟩
    let found : GeocodeReply := ⟨some [⟨some ⟨43, -80⟩⟩], none⟩
    let es : List Event := [.childAdded (.deal "a" "1" "King St" "Wings"), .elapse 500,
      .annotationStarted ⟨0, .deal "a" "1" "King St" "Wings", 0, 500⟩,
      .annotationGeocoded ⟨0, .deal "a" "1" "King St" "Wings", 0, 500⟩ found,
      .childChanged (.deal "a" "1" "King St" "Nachos")]
    ((∀ x ∈ Session.machine.run es, x.source.StartsLast geo x.event) →
        ∀ s ∈ Session.machine.reached es, s.Converged geo) ∧
      ((∀ s ∈ Session.machine.reached es, s.Converges geo) ↔
        ∀ x ∈ Session.machine.run es, x.source.StartsLast geo x.event) :=
  map_converges_iff _ _ (by decide)

/-- A deal is added while two others are in flight and changed after these have
completed.  The change waits for two units and the first version for three, so the
change is geocoded first, and the first version replaces it on the map. -/
theorem old_version_overtakes :
    ∃ geo es, Session.machine.Legal (fun s e => s.ValidVersions e ∧ s.Timed geo e) es ∧
      ¬∀ s ∈ Session.machine.reached es, s.Converged geo := by
  let found : GeocodeReply := ⟨some [⟨some ⟨43, -80⟩⟩], none⟩
  let other : AnnotationJob := ⟨0, .deal "b" "2" "Queen St" "Tacos", 0, 500⟩
  let another : AnnotationJob := ⟨1, .deal "c" "3" "Main St" "Ribs", 0, 1000⟩
  let old : AnnotationJob := ⟨2, .deal "a" "1" "King St" "Wings", 1000, 1500⟩
  let new : AnnotationJob := ⟨3, .deal "a" "1" "King St" "Nachos", 1000, 1000⟩
  refine ⟨fun _ => ⟨43, -80⟩, [.childAdded (.deal "b" "2" "Queen St" "Tacos"),
    .childAdded (.deal "c" "3" "Main St" "Ribs"), .elapse 500, .annotationStarted other,
    .elapse 500, .annotationStarted another, .childAdded (.deal "a" "1" "King St" "Wings"),
    .annotationGeocoded other found, .annotationGeocoded another found,
    .childChanged (.deal "a" "1" "King St" "Nachos"), .elapse 1000, .annotationStarted new,
    .annotationGeocoded new found, .elapse 500, .annotationStarted old,
    .annotationGeocoded old found], by decide, fun h => ?_⟩
  have hnachos : ∀ s : Session, s.Converged (fun _ => ⟨43, -80⟩) → s.app.outstanding = [] →
      s.database.latest.lookup "1" = some (.deal "a" "1" "King St" "Nachos") →
        "1" ∉ s.database.everRemoved →
          (s.app.annotations.lookup "1").map MKPointAnnotation.title = some (some "Nachos") := by
    intro s hconverged hidle hlatest hkept
    obtain ⟨pin, hpin, -, htitle⟩ := hconverged hidle "1" _ hlatest hkept
    rw [hpin, Option.map_some, htitle]
    rfl
  have htitle := fun s hs => hnachos s (h s hs)
  revert htitle
  decide

end MealDeals
