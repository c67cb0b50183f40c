import MealDeals.Firebase.Stream

/-!
# The chevron button

`childAdded` shows the chevron when it leaves deals in the list and `childRemoved`
hides it when it leaves none.  `childChanged` changes the list too and does not
touch the chevron, so a deal that arrives by a change while the chevron is hidden
has no button that opens it.  `chevron_shown_iff` says that this is the only way
to lose the button.

`childRemoved` does not look at `isExpanded` when it hides the chevron.  An open
panel over an empty list then has nothing left that closes it, and
`panel_closable_iff` says that this is the only way to get there.
-/

namespace MealDeals

open Library

namespace MainViewController

/-- Where there are deals, the button that opens them is on screen. -/
def DealsHaveButton (self : MainViewController) : Prop :=
  self.restaurants ≠ [] → self.chevronButton.isHidden = false

/-- No well-formed `childChanged` is handled while the chevron is hidden. -/
def ChangesWhileShown (self : MainViewController) : Event → Prop
  | .childChanged dataSnapshot =>
    (restaurantOf dataSnapshot).isOk → self.chevronButton.isHidden = false
  | _ => True

/-- An open panel has its chevron on screen. -/
def PanelClosable (self : MainViewController) : Prop :=
  self.isExpanded → self.chevronButton.isHidden = false

/-- No `childRemoved` is handled while the panel is open over an empty list. -/
def RemovesWhileClosed (self : MainViewController) : Event → Prop
  | .childRemoved _ => ¬(self.isExpanded ∧ self.restaurants = [])
  | _ => True

/-- UIKit sends a tap only to a button that is visible and enabled. -/
def TapsVisible (self : MainViewController) : Event → Prop
  | .chevronButtonPressed =>
    self.chevronButton.isHidden = false ∧ self.chevronButton.isEnabled = true
  | _ => True

instance (self : MainViewController) : Decidable self.DealsHaveButton :=
  inferInstanceAs (Decidable (_ → _))

instance (self : MainViewController) : Decidable self.PanelClosable :=
  inferInstanceAs (Decidable (_ → _))

instance (self : MainViewController) (event : Event) : Decidable (self.TapsVisible event) := by
  apply @Event.casesOn _ event <;> intros <;> dsimp only [TapsVisible] <;> infer_instance

/-! ## Steps -/

theorem dealsHaveButton_step {self self' : MainViewController} {event : Event}
    (h : Effect self event self') (hself : self.DealsHaveButton) :
    self'.DealsHaveButton ↔ self.ChangesWhileShown event := by
  cases h with
  | added dataSnapshot restaurant hr =>
    rw [childAdded_of_ok hr]
    simp [DealsHaveButton, ChangesWhileShown]
  | changed dataSnapshot restaurant hr =>
    rw [childChanged_of_ok hr]
    simp [DealsHaveButton, ChangesWhileShown, removeAnnotationOf, hr, Except.isOk,
      Except.toBool]
  | removed dataSnapshot =>
    simp only [ChangesWhileShown, iff_true]
    cases hl : self.listed dataSnapshot with
    | none =>
      rw [childRemoved_of_not_listed hl]
      intro hne
      have hshown : self.chevronButton.isHidden = false := hself hne
      have hempty : self.restaurants.isEmpty = false := by simpa using hne
      simp [hshown, hempty]
    | some restaurant =>
      rw [childRemoved_of_listed hl]
      intro _
      exact hself (List.ne_nil_of_mem (listed_eq_some hl).2)
  | started job => exact iff_of_true hself trivial
  | geocoded job reply =>
    rw [annotationGeocoded_eq]
    exact iff_of_true hself trivial
  | pressed =>
    rw [chevronButtonPressed_eq]
    exact iff_of_true hself trivial
  | quiet event self' hq same =>
    refine iff_of_true ?_ ?_
    · unfold DealsHaveButton
      rw [same.restaurants, same.isHidden]
      exact hself
    · cases event with
      | childChanged dataSnapshot =>
        intro hok
        rw [Event.touchesDeals, hok] at hq
        cases hq
      | _ => trivial

theorem panelClosable_step {self self' : MainViewController} {event : Event}
    (h : Effect self event self') (htap : self.TapsVisible event)
    (hself : self.PanelClosable) :
    self'.PanelClosable ↔ self.RemovesWhileClosed event := by
  cases h with
  | added dataSnapshot restaurant hr =>
    rw [childAdded_of_ok hr]
    simp [PanelClosable, RemovesWhileClosed]
  | changed dataSnapshot restaurant hr =>
    rw [childChanged_of_ok hr]
    exact iff_of_true hself trivial
  | removed dataSnapshot =>
    cases hl : self.listed dataSnapshot with
    | none =>
      rw [childRemoved_of_not_listed hl]
      cases hempty : self.restaurants.isEmpty with
      | true =>
        have hnil : self.restaurants = [] := List.isEmpty_iff.mp hempty
        simp [PanelClosable, RemovesWhileClosed, hnil]
      | false =>
        have hne : self.restaurants ≠ [] := by simpa using hempty
        refine iff_of_true ?_ fun hopen => hne hopen.2
        simpa [PanelClosable] using hself
    | some restaurant =>
      rw [childRemoved_of_listed hl]
      have hne : self.restaurants ≠ [] := List.ne_nil_of_mem (listed_eq_some hl).2
      exact iff_of_true hself fun hopen => hne hopen.2
  | started job => exact iff_of_true hself trivial
  | geocoded job reply =>
    rw [annotationGeocoded_eq]
    exact iff_of_true hself trivial
  | pressed =>
    rw [chevronButtonPressed_eq]
    exact iff_of_true (fun _ => htap.1) trivial
  | quiet event self' hq same =>
    refine iff_of_true ?_ ?_
    · unfold PanelClosable
      rw [same.isExpanded, same.isHidden]
      exact hself
    · cases event with
      | childRemoved dataSnapshot => cases hq
      | _ => trivial

end MainViewController

/-! ## Runs -/

/-- In every run, whatever the stream and the order of events, the deals keep
their button if and only if every well-formed `childChanged` finds it shown. -/
theorem chevron_shown_iff (es : List Event) :
    (∀ s ∈ Session.machine.reached es, s.app.DealsHaveButton) ↔
      ∀ x ∈ Session.machine.run es, x.source.app.ChangesWhileShown x.event := by
  refine Machine.forall_reached_iff_of_step (P := fun s : Session => s.app.DealsHaveButton)
    (C := fun (s : Session) e => s.app.ChangesWhileShown e) (by decide) ?_ es
  intro s e t hstep hs
  exact MainViewController.dealsHaveButton_step (Session.step_cases hstep).1 hs

/-- A child without an address is added; another one is removed and the chevron
hidden with the list empty; then the first gets its address. -/
theorem chevron_hidden_over_deals :
    ∃ es, Session.machine.Legal Session.ValidVersions es ∧
      ¬∀ s ∈ Session.machine.reached es, s.app.DealsHaveButton :=
  ⟨[.childAdded (.stub "a" "1"), .childAdded (.stub "b" "2"), .childRemoved (.stub "b" "2"),
    .childChanged (.deal "a" "1" "King St" "Wings")], by decide, by decide⟩

/-- When taps reach the chevron only while it is visible and enabled, an open
panel can always be closed if and only if no `childRemoved` is handled while the
panel is open over an empty list. -/
theorem panel_closable_iff (es : List Event)
    (h : Session.machine.Legal (fun s e => s.Pending e ∧ s.app.TapsVisible e) es) :
    (∀ s ∈ Session.machine.reached es, s.app.PanelClosable) ↔
      ∀ x ∈ Session.machine.run es, x.source.app.RemovesWhileClosed x.event := by
  refine Machine.forall_reached_iff (I := fun _ => True)
    (P := fun s : Session => s.app.PanelClosable)
    (C := fun (s : Session) e => s.app.RemovesWhileClosed e)
    trivial (by decide) (fun _ _ _ _ _ _ => trivial) ?_ h
  intro s e t henv hstep _ hs
  exact MainViewController.panelClosable_step (Session.step_cases hstep).1 henv.2 hs

/-- A deal is added, shown in the open panel and the panel closed again. -/
theorem panel_closable_iff_open_close :
    let es : List Event := [.childAdded (.deal "a" "1" "King St" "Wings"), .chevronButtonPressed,
      .chevronAnimationCompleted none, .chevronButtonPressed, .chevronAnimationCompleted none]
    (∀ s ∈ Session.machine.reached es, s.app.PanelClosable) ↔
      ∀ x ∈ Session.machine.run es, x.source.app.RemovesWhileClosed x.event :=
  panel_closable_iff _ (by decide)

/-- The panel is opened over a child without an address, which is then removed. -/
theorem panel_stuck_open :
    ∃ es, Session.machine.Legal (fun s e => s.ValidVersions e ∧ s.app.TapsVisible e) es ∧
      ¬∀ s ∈ Session.machine.reached es, s.app.PanelClosable :=
  ⟨[.childAdded (.stub "a" "1"), .chevronButtonPressed, .childRemoved (.stub "a" "1")],
    by decide, by decide⟩

end MealDeals
