import MealDeals.Firebase.Stream

/-!
# The notifications of a run

`childChanged` is the only method that notifies, once for each well-formed
version, whether or not the app had seen the deal before.  So the requests that a
run hands to the notification center are those of its well-formed changes, in
their order, and no other event adds, drops or reorders one.
-/

namespace MealDeals

open Library

/-- The request that `notifyFor` makes of a restaurant. -/
def Restaurant.notification (restaurant : Restaurant) : UNNotificationRequest where
  identifier := restaurant.id
  title := restaurant.name
  body := restaurant.dealTitle.getD "Deal coming soon!"

/-- The requests of an event: one for a well-formed change. -/
def Event.notifications : Event → List UNNotificationRequest
  | .childChanged dataSnapshot =>
    (restaurantOf dataSnapshot).toOption.toList.map Restaurant.notification
  | _ => []

theorem Event.notifications_of_quiet {event : Event} (h : event.touchesDeals = false) :
    event.notifications = [] := by
  cases event with
  | childChanged dataSnapshot =>
    have hacc : (restaurantOf dataSnapshot).toOption = none := Event.accepted_of_quiet h
    rw [notifications, hacc]
    rfl
  | _ => rfl

namespace MainViewController

theorem center_notifyFor (self : MainViewController) (restaurant : Restaurant) :
    (self.notifyFor restaurant).center = self.center ++ [restaurant.notification] := rfl

theorem center_step {self self' : MainViewController} {event : Event}
    (h : Effect self event self') :
    self'.center = self.center ++ event.notifications := by
  cases h with
  | added dataSnapshot restaurant hr =>
    rw [childAdded_of_ok hr]
    exact (List.append_nil _).symm
  | changed dataSnapshot restaurant hr =>
    rw [childChanged_of_ok hr, Event.notifications, hr]
    exact center_notifyFor self restaurant
  | removed dataSnapshot =>
    obtain ⟨_, _, _, _, _, _, hframe⟩ := self.childRemoved_frame dataSnapshot
    rw [hframe]
    exact (List.append_nil _).symm
  | started job => exact (List.append_nil _).symm
  | geocoded job reply =>
    rw [annotationGeocoded_eq]
    exact (List.append_nil _).symm
  | pressed =>
    rw [chevronButtonPressed_eq]
    exact (List.append_nil _).symm
  | quiet event self' hq same =>
    rw [Event.notifications_of_quiet hq, same.center]
    exact (List.append_nil _).symm

end MainViewController

/-! ## Runs -/

/-- The notifications of a run are those of its well-formed changes, in their
order. -/
theorem notifications_of_changes (es : List Event) (t : Session)
    (h : Session.machine.exec es = some t) :
    t.app.center = es.flatMap Event.notifications := by
  rw [List.flatMap_eq_foldl]
  refine Machine.foldl_of_execFrom (R := fun (s : Session) sent => s.app.center = sent) ?_ rfl
    (Machine.legalFrom_true _ es) h
  intro s event u sent _ hstep hs
  rw [MainViewController.center_step (Session.step_cases hstep).1, hs]

end MealDeals
