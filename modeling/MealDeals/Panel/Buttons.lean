import MealDeals.Panel.Chevron
import MealDeals.Panel.Interface

/-!
# The panel behind its flags

The controller keeps the state of its panel in five places: `isExpanded`, the
rotation of the chevron, the constant of the bottom constraint, whether the
chevron is enabled, and the animations that have not completed.  `Panel` is what
they stand for, a panel that is open or closed and may be moving.
`panel_refines` says that every run keeps the five in step with it: a tap turns
the panel and sets it moving, its animation ends the movement, and nothing else
touches it.  So at most one animation runs, and the panel is open after an odd
number of taps.
-/

namespace MealDeals

open Library

structure Panel where
  isOpen : Bool
  moving : Bool
deriving DecidableEq

namespace Panel

def closed : Panel := ⟨false, false⟩

def next (panel : Panel) : Event → Panel
  | .chevronButtonPressed => ⟨!panel.isOpen, true⟩
  | .chevronAnimationCompleted _ => ⟨panel.isOpen, false⟩
  | _ => panel

def isTap : Event → Bool
  | .chevronButtonPressed => true
  | _ => false

/-- A tap is the only event that opens or closes the panel. -/
theorem isOpen_next (panel : Panel) (event : Event) :
    (panel.next event).isOpen = (panel.isOpen ^^ isTap event) := by
  cases event with
  | chevronButtonPressed => exact (Bool.xor_true _).symm
  | _ => exact (Bool.xor_false _).symm

theorem isOpen_foldl (es : List Event) (panel : Panel) :
    (es.foldl next panel).isOpen = (panel.isOpen ^^ decide (es.countP isTap % 2 = 1)) := by
  induction es generalizing panel with
  | nil => exact (Bool.xor_false _).symm
  | cons event es ih =>
    rw [List.foldl_cons, ih, isOpen_next, List.countP_cons]
    cases htap : isTap event with
    | false => simp
    | true =>
      have hparity : decide ((es.countP isTap + 1) % 2 = 1) =
          !decide (es.countP isTap % 2 = 1) := by
        rw [← decide_not]
        apply decide_eq_decide.mpr
        omega
      rw [if_pos rfl, hparity]
      cases panel.isOpen <;> simp

end Panel

namespace Buttons

/-- The five flags say what the panel does. -/
structure ShowPanel (buttons : Buttons) (panel : Panel) : Prop where
  isExpanded : buttons.isExpanded = panel.isOpen
  pointsDown : buttons.pointsDown = panel.isOpen
  constraint : buttons.constraint = if panel.isOpen then -10 else 265
  isEnabled : buttons.isEnabled = !panel.moving
  animations : buttons.animations = panel.moving.toNat

theorem ShowPanel.animations_le_one {buttons : Buttons} {panel : Panel}
    (h : buttons.ShowPanel panel) : buttons.animations ≤ 1 := by
  rw [h.animations]
  exact Bool.toNat_le panel.moving

theorem ShowPanel.isEnabled_iff {buttons : Buttons} {panel : Panel}
    (h : buttons.ShowPanel panel) : buttons.isEnabled = true ↔ buttons.animations = 0 := by
  rw [h.isEnabled, h.animations]
  cases panel.moving <;> simp

/-! ## Steps -/

/-- A tap comes only while the chevron is enabled, so the panel was still. -/
theorem showPanel_pressed {interface : Interface} {panel : Panel}
    (henabled : interface.buttons.isEnabled = true) (h : interface.buttons.ShowPanel panel) :
    (interface.next .chevronButtonPressed).buttons.ShowPanel
      (panel.next .chevronButtonPressed) := by
  have hzero : interface.buttons.animations = 0 := h.isEnabled_iff.mp henabled
  refine ⟨?_, ?_, ?_, rfl, ?_⟩
  · show (!interface.buttons.isExpanded) = !panel.isOpen
    rw [h.isExpanded]
  · show (!interface.buttons.isExpanded) = !panel.isOpen
    rw [h.isExpanded]
  · show (if interface.buttons.isExpanded then (265 : Int) else -10) =
      if !panel.isOpen then -10 else 265
    rw [h.isExpanded]
    cases panel.isOpen <;> rfl
  · show interface.buttons.animations + 1 = 1
    rw [hzero]

theorem showPanel_completed {interface : Interface} {panel : Panel} (page : Option Nat)
    (h : interface.buttons.ShowPanel panel) :
    (interface.next (.chevronAnimationCompleted page)).buttons.ShowPanel
      (panel.next (.chevronAnimationCompleted page)) := by
  have hone := h.animations_le_one
  refine ⟨h.isExpanded, h.pointsDown, h.constraint, rfl, ?_⟩
  show interface.buttons.animations - 1 = 0
  omega

theorem showPanel_next {interface : Interface} {panel : Panel} {event : Event}
    (htap : event = .chevronButtonPressed → interface.buttons.isEnabled = true)
    (h : interface.buttons.ShowPanel panel) :
    (interface.next event).buttons.ShowPanel (panel.next event) := by
  cases event with
  | chevronButtonPressed => exact showPanel_pressed (htap rfl) h
  | chevronAnimationCompleted page => exact showPanel_completed page h
  | locationButtonPressed =>
    exact ⟨h.isExpanded, h.pointsDown, h.constraint, h.isEnabled, h.animations⟩
  | userTrackingModeChanges mode =>
    exact ⟨h.isExpanded, h.pointsDown, h.constraint, h.isEnabled, h.animations⟩
  | _ =>
    rw [Interface.buttons_next (by simp) (by simp) (by simp) (by simp)]
    exact h

end Buttons

/-! ## Runs -/

/-- A run in which taps reach the chevron only while it is visible and enabled
leaves the flags as its taps and animations leave the panel, which is open after an
odd number of taps. -/
theorem panel_refines (es : List Event) (t : Session)
    (h : Session.machine.Legal (fun s e => s.Pending e ∧ s.app.TapsVisible e) es)
    (hexec : Session.machine.exec es = some t) :
    t.app.buttons.ShowPanel (es.foldl Panel.next Panel.closed) ∧
      (t.app.isExpanded = true ↔ es.countP Panel.isTap % 2 = 1) := by
  have hinit : Session.machine.init.app.buttons.ShowPanel Panel.closed :=
    ⟨rfl, rfl, rfl, rfl, rfl⟩
  have hshow : t.app.buttons.ShowPanel (es.foldl Panel.next Panel.closed) := by
    refine Machine.foldl_of_execFrom
      (R := fun (s : Session) panel => s.app.buttons.ShowPanel panel) ?_ hinit h hexec
    intro s event u panel henv hstep hs
    obtain ⟨app, happ, rfl⟩ := Option.map_eq_some_iff.mp hstep
    show app.interface.buttons.ShowPanel (panel.next event)
    rw [MainViewController.interface_step happ]
    refine Buttons.showPanel_next ?_ hs
    rintro rfl
    exact henv.2.2
  refine ⟨hshow, ?_⟩
  have hexpanded : t.app.isExpanded = (es.foldl Panel.next Panel.closed).isOpen :=
    hshow.isExpanded
  rw [hexpanded, Panel.isOpen_foldl]
  show (false ^^ decide _) = true ↔ _
  rw [Bool.false_xor, decide_eq_true_iff]

/-- The panel is opened and closed, and opened again while a deal arrives. -/
theorem panel_refines_taps :
    let es : List Event := [.chevronButtonPressed, .chevronAnimationCompleted none,
      .chevronButtonPressed, .childAdded (.deal "a" "1" "King St" "Wings"),
      .chevronAnimationCompleted none, .chevronButtonPressed]
    let t := (Session.machine.exec es).get (by decide)
    t.app.buttons.ShowPanel (es.foldl Panel.next Panel.closed) ∧
      (t.app.isExpanded = true ↔ es.countP Panel.isTap % 2 = 1) :=
  panel_refines _ _ (by decide) (Option.some_get _).symm

end MealDeals
