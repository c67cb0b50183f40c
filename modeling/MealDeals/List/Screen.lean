import MealDeals.List.Indices
import MealDeals.Views.Reuse

/-!
# The cells on screen

The collection view keeps the cells that it has asked for until they leave the
screen, and hands them out again for other rows.  A cell is rendered once, from the
deal that is at its row by then.  Every handler that changes the list reloads the
collection view, which takes all cells off the screen, so no cell outlives the list
that it was rendered from: `screen_shows_deals`.
-/

namespace MealDeals

open Library

/-- The app, the cells on screen with their rows, and the cells that wait for
another row. -/
structure Screen where
  session : Session
  visibleCells : List (Nat × CollectionViewCell)
  reuseQueue : List CollectionViewCell

inductive ScreenEvent where
  | app (event : Event)
  -- UIKit asks for the cell of a row, and has the cell at the index of the queue or a
  -- new one dequeued for it
  | willDisplay (row : Nat) (index : Option Nat)
  -- the cell at the index leaves the screen
  | didEndDisplaying (index : Nat)

namespace Screen

def step (self : Screen) : ScreenEvent → Option Screen
  | .app event =>
    (self.session.step event).map fun session =>
      if event.reloads then
        { session := session
          visibleCells := []
          reuseQueue := self.reuseQueue ++ self.visibleCells.map Prod.snd }
      else
        { self with session := session }
  | .willDisplay row index =>
    (CollectionViewCell.pool.dequeue self.reuseQueue index).bind fun dequeued =>
      (self.session.app.cellForItemAt dequeued.1 row).map fun cell =>
        { self with
          visibleCells := self.visibleCells ++ [(row, cell)]
          reuseQueue := dequeued.2 }
  | .didEndDisplaying index =>
    self.visibleCells[index]?.map fun gone =>
      { self with
        visibleCells := self.visibleCells.eraseIdx index
        reuseQueue := self.reuseQueue ++ [gone.2] }

def machine : Machine Screen ScreenEvent where
  init := ⟨Session.machine.init, [], []⟩
  step := step

/-- What UIKit and the run-time promise. -/
def Allows (self : Screen) : ScreenEvent → Prop
  | .app event => self.session.Rows event
  | .willDisplay row index =>
    self.session.Rows (.cellForItemAt .initial row) ∧ ∀ i ∈ index, i < self.reuseQueue.length
  | .didEndDisplaying index => index < self.visibleCells.length

instance (self : Screen) : (event : ScreenEvent) → Decidable (self.Allows event)
  | .app event => inferInstanceAs (Decidable (self.session.Rows event))
  | .willDisplay row index =>
    inferInstanceAs (Decidable (self.session.Rows (.cellForItemAt .initial row) ∧ ∀ _ ∈ index, _))
  | .didEndDisplaying index => inferInstanceAs (Decidable (index < self.visibleCells.length))

/-- The list is the one that was loaded, and each cell shows the deal at its row. -/
structure ShowsDeals (screen : Screen) : Prop where
  loaded : screen.session.app.ListLoaded
  cells : ∀ x ∈ screen.visibleCells,
    screen.session.app.restaurants[x.1]?.map CollectionViewCell.showing = some x.2

theorem cellForItemAt_of_rows {self : Screen} (hself : self.ShowsDeals) {row : Nat}
    (hrows : self.session.Rows (.cellForItemAt .initial row)) (cell : CollectionViewCell) :
    ∃ restaurant, self.session.app.restaurants[row]? = some restaurant ∧
      self.session.app.cellForItemAt cell row = some (.showing restaurant) := by
  have hlt : row < self.session.app.restaurants.length :=
    MainViewController.index_lt hself.loaded hrows.2 row rfl
  have hget := List.getElem?_eq_getElem hlt
  refine ⟨self.session.app.restaurants[row], hget, ?_⟩
  rw [MainViewController.cellForItemAt_eq, hget]
  rfl

theorem showsDeals_step {self self' : Screen} {event : ScreenEvent} (hallows : self.Allows event)
    (hstep : self.step event = some self') (hself : self.ShowsDeals) : self'.ShowsDeals := by
  cases event with
  | app event =>
    obtain ⟨session, hsession, rfl⟩ := Option.map_eq_some_iff.mp hstep
    have heffect := (Session.step_cases hsession).1
    have hloaded := MainViewController.listLoaded_step heffect hself.loaded
    cases hreloads : event.reloads with
    | true => exact ⟨hloaded, fun x hx => by cases hx⟩
    | false =>
      refine ⟨hloaded, fun x hx => ?_⟩
      show session.app.restaurants[x.1]?.map CollectionViewCell.showing = some x.2
      rw [MainViewController.restaurants_of_not_reloads heffect hreloads]
      exact hself.cells x hx
  | willDisplay row index =>
    obtain ⟨dequeued, -, hdisplayed⟩ := Option.bind_eq_some_iff.mp hstep
    obtain ⟨cell, hcell, rfl⟩ := Option.map_eq_some_iff.mp hdisplayed
    obtain ⟨restaurant, hget, hshowing⟩ := cellForItemAt_of_rows hself hallows.1 dequeued.1
    refine ⟨hself.loaded, fun x hx => ?_⟩
    rcases List.mem_append.mp hx with hold | hnew
    · exact hself.cells x hold
    · rw [List.mem_singleton.mp hnew, ← hcell, hshowing]
      exact congrArg (Option.map CollectionViewCell.showing) hget
  | didEndDisplaying index =>
    obtain ⟨gone, -, rfl⟩ := Option.map_eq_some_iff.mp hstep
    exact ⟨hself.loaded, fun x hx => hself.cells x (List.mem_of_mem_eraseIdx hx)⟩

theorem step_isSome {self : Screen} {event : ScreenEvent} (hallows : self.Allows event)
    (hself : self.ShowsDeals) : (self.step event).isSome := by
  cases event with
  | app event =>
    rw [step, Option.isSome_map]
    exact step_isSome_of_rows hallows hself.loaded
  | willDisplay row index =>
    obtain ⟨hrows, hindex⟩ := hallows
    have hdequeued : ∃ dequeued,
        CollectionViewCell.pool.dequeue self.reuseQueue index = some dequeued := by
      cases index with
      | none => exact ⟨_, rfl⟩
      | some index =>
        rw [Reusable.dequeue, List.getElem?_eq_getElem (hindex index rfl)]
        exact ⟨_, rfl⟩
    obtain ⟨dequeued, hdequeued⟩ := hdequeued
    obtain ⟨restaurant, -, hshowing⟩ := cellForItemAt_of_rows hself hrows dequeued.1
    rw [step, hdequeued, Option.bind_some, hshowing]
    rfl
  | didEndDisplaying index =>
    rw [step, Option.isSome_map, List.getElem?_eq_getElem hallows]
    rfl

end Screen

/-! ## Runs -/

/-- Whatever the events of the app and of the collection view and their order, and
whichever cell each row gets, nothing traps, and in every state reached each cell on
screen shows the deal that is at its row. -/
theorem screen_shows_deals (es : List ScreenEvent) (h : Screen.machine.Legal Screen.Allows es) :
    (Screen.machine.exec es).isSome ∧
      ∀ screen ∈ Screen.machine.reached es, ∀ x ∈ screen.visibleCells,
        screen.session.app.restaurants[x.1]?.map CollectionViewCell.showing = some x.2 := by
  have hinit : Screen.machine.init.ShowsDeals := ⟨.inl rfl, fun x hx => by cases hx⟩
  have hstep : ∀ (s : Screen) (e : ScreenEvent) (t : Screen), s.Allows e →
      Screen.machine.step s e = some t → s.ShowsDeals → t.ShowsDeals :=
    fun _ _ _ hallows hstep hs => Screen.showsDeals_step hallows hstep hs
  constructor
  · exact Machine.execFrom_isSome hstep (fun _ _ => Screen.step_isSome) hinit h
  · intro screen hscreen
    exact (Machine.invariant hinit hstep h screen hscreen).cells

/-- Two deals are shown, the first one changes, which moves it to the end, and its old
cell is reused for the second one. -/
theorem screen_shows_deals_after_change :
    let es : List ScreenEvent := [.app (.childAdded (.deal "a" "1" "King St" "Wings")),
      .app (.childAdded (.deal "b" "2" "Queen St" "Nachos")), .willDisplay 0 none,
      .willDisplay 1 none, .app (.childChanged (.deal "a" "1" "King St" "Ribs")),
      .willDisplay 0 (some 0), .didEndDisplaying 0, .willDisplay 1 (some 1)]
    (Screen.machine.exec es).isSome ∧
      ∀ screen ∈ Screen.machine.reached es, ∀ x ∈ screen.visibleCells,
        screen.session.app.restaurants[x.1]?.map CollectionViewCell.showing = some x.2 :=
  screen_shows_deals _ (by decide)

end MealDeals
