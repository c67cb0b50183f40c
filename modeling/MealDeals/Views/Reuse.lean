import MealDeals.Library.ReusePool
import MealDeals.Views.CollectionViewCell
import MealDeals.Views.DealAnnotationView

/-!
# The pools of views

MapKit shows pins and lets go of them as the map moves, and the collection view
does the same with deals.  Each keeps the views that are not on screen for the next
ones.  Whatever pins come and go, in whatever order and with whatever view, a pin has
its own title over it, centered on the pin by the size of its own label.  Only the
size of a label can come from earlier pins, and `views_drawn_as_new_iff` says for
which titles it never does.
-/

namespace MealDeals

open Library

namespace CollectionViewCell

/-- The cells of the collection view.  `cellForItemAt` displays a restaurant in the
cell it has dequeued. -/
def pool : Reusable Restaurant CollectionViewCell where
  new := initial
  display self restaurant := { self with restaurant := some restaurant }.render
  prepareForReuse := prepareForReuse

end CollectionViewCell

namespace DealAnnotationView

variable {F : Type} [Neg F] [Div F] [OfNat F 2] [Zero F]

/-- The annotation views of the map.  The contents are the titles of pins. -/
def pool (sizeToFit : SizeToFit F) : Reusable (Option String) (DealAnnotationView F) where
  new := initial
  display := showTitle sizeToFit
  prepareForReuse := prepareForReuse

theorem viewFor_eq_display (sizeToFit : SizeToFit F) (dequeued : Option (DealAnnotationView F))
    (title : Option String) :
    viewFor sizeToFit dequeued (.point title) =
      some ((pool sizeToFit).display (dequeued.getD (pool sizeToFit).new) title) := by
  cases dequeued <;> rfl

theorem used_eq_reused (sizeToFit : SizeToFit F) (history : List (Option String)) :
    (pool sizeToFit).used history = reused sizeToFit history := rfl

omit [Zero F] in
theorem dealTitle_showTitle (sizeToFit : SizeToFit F) (view : DealAnnotationView F)
    (title : Option String) : (view.showTitle sizeToFit title).dealTitle = title := by
  cases title <;> rfl

/-- What is drawn of a pin after some history of its view. -/
theorem drawn_used (sizeToFit : SizeToFit F) (history : List (Option String))
    (title : Option String) :
    ((pool sizeToFit).display ((pool sizeToFit).used history) title).drawn =
      (title.bind labelText, boundsAfter sizeToFit (leftover sizeToFit history) title,
        ⟨-(boundsAfter sizeToFit (leftover sizeToFit history) title).width / 2,
          -(boundsAfter sizeToFit (leftover sizeToFit history) title).height⟩) := by
  have hlabel := reused_label sizeToFit history
  have hdrawn := drawn_showTitle sizeToFit (reused sizeToFit history) (by rw [hlabel]) title
  rw [hlabel] at hdrawn
  exact hdrawn

end DealAnnotationView

open DealAnnotationView

section Pins

variable {F : Type} [Neg F] [Div F] [OfNat F 2] [Zero F]

/-- A view on screen shows the title of its pin and is placed by its own label, whose
size comes from that title and some of those that came before it. -/
structure ShowsOwnTitle (sizeToFit : SizeToFit F) (titles : List (Option String))
    (title : Option String) (view : DealAnnotationView F) : Prop where
  dealTitle : view.dealTitle = title
  text : view.label.text = title.bind labelText
  centered : view.centerOffset = ⟨-view.label.bounds.width / 2, -view.label.bounds.height⟩
  bounds : ∃ earlier, (earlier ++ [title]).Sublist titles ∧
    view.label.bounds = boundsAfter sizeToFit (leftover sizeToFit earlier) title

/-- In every run of the map's views, whatever pins come and go and whichever view each
gets, every pin on screen has its own title over it. -/
theorem pins_show_own_titles (sizeToFit : SizeToFit F) (es : List (ReuseEvent (Option String)))
    (views : ReusePool (Option String) (DealAnnotationView F))
    (h : (pool sizeToFit).machine.exec es = some views) :
    ∀ x ∈ views.shown, ShowsOwnTitle sizeToFit (es.flatMap ReuseEvent.content) x.1 x.2 := by
  intro x hx
  obtain ⟨earlier, hsub, hview⟩ := (Reusable.exec_traced h).shown x hx
  have hdrawn := drawn_used sizeToFit earlier x.1
  rw [← hview] at hdrawn
  obtain ⟨htext, hrest⟩ := Prod.mk.inj hdrawn
  obtain ⟨hbounds, hoffset⟩ := Prod.mk.inj hrest
  refine ⟨?_, htext, ?_, earlier, hsub, hbounds⟩
  · rw [hview]
    exact dealTitle_showTitle sizeToFit _ x.1
  · rw [hoffset, hbounds]

/-- A pin comes, goes and comes back without its title, in the same view. -/
theorem pins_show_own_titles_reused :
    let sizeToFit : SizeToFit Rat := fun _ _ => ⟨0, 0, 60, 40⟩
    let es : List (ReuseEvent (Option String)) := [.display (some "Wings") none,
      .display (some "Nachos") none, .recycle 0, .display none (some 0)]
    let views : ReusePool (Option String) (DealAnnotationView Rat) :=
      ((pool sizeToFit).machine.exec es).get (by decide)
    ∀ x ∈ views.shown, ShowsOwnTitle sizeToFit (es.flatMap ReuseEvent.content) x.1 x.2 :=
  pins_show_own_titles _ _ _ (Option.some_get _).symm

/-- The pins with some titles are drawn as by new views in every run if and only if
no history of a view leaves a trace in the size of their labels.  So they are when the
size of a label with a text depends on the text alone, and the titles are there. -/
theorem views_drawn_as_new_iff (sizeToFit : SizeToFit F) (titles : Option String → Prop) :
    ((∀ es views, (pool sizeToFit).machine.exec es = some views → ∀ x ∈ views.shown,
          titles x.1 → some x.2.drawn = (viewFor sizeToFit none (.point x.1)).map drawn) ↔
        ∀ history title, titles title → LeavesNoTrace sizeToFit history (.point title)) ∧
      ((∀ text bounds bounds', sizeToFit (some text) bounds = sizeToFit (some text) bounds') →
        (∀ title, titles title → title.isSome) →
        ∀ history title, titles title → LeavesNoTrace sizeToFit history (.point title)) := by
  constructor
  · refine (Reusable.forall_shown_iff (R := pool sizeToFit) (P := fun title view =>
      titles title → some view.drawn = (viewFor sizeToFit none (.point title)).map drawn)).trans ?_
    refine forall_congr' fun history => forall_congr' fun title => imp_congr_right fun _ => ?_
    rw [← reuseInvisible_iff, ReuseInvisible, viewFor_eq_display, used_eq_reused]
    rfl
  · intro htext hsome history title htitle
    obtain ⟨t, rfl⟩ := Option.isSome_iff_exists.mp (hsome title htitle)
    exact htext (t ++ "\n📍") _ _

/-- The size of a label is that of its text in a fixed font, and every pin has a title. -/
theorem views_drawn_as_new_iff_titled :
    let sizeToFit : SizeToFit Rat := fun text _ => ⟨0, 0, text.elim 0 fun t => 7 * t.length, 40⟩
    ∀ es views, (pool sizeToFit).machine.exec es = some views → ∀ x ∈ views.shown,
      x.1.isSome = true → some x.2.drawn = (viewFor sizeToFit none (.point x.1)).map drawn :=
  (views_drawn_as_new_iff _ fun title => title.isSome = true).1.mpr
    ((views_drawn_as_new_iff _ _).2 (fun _ _ _ => rfl) fun _ h => h)

end Pins

end MealDeals
