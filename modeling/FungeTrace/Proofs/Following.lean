import FungeTrace.Proofs.GridWindow
import FungeTrace.Proofs.Navigation

/-!
# Following a target

A window that follows a target moves up or down to it and is kept within the content afterwards.
Keeping it there may move it a second time, but never away from the target: `Scroll.fits_follow`.
It does not depend on where the window was, which may be an offset from a larger pane or grid.  A
window that is right already stays: `Scroll.follow_of_fits`.

The window of the grid pane follows the active pointer on both axes.  Its life is a sequence of
`GridPane.Move`s, drawn for one snapshot after the other in areas of any size and put elsewhere by
hand in between.

* `GridPane.follows_of_mem_displays` is the run over such a sequence, from the step
  `GridPane.follows_draw`: every window that is drawn is a full rectangle of the grid with the
  active pointer in it.
* `App.gridDisplays_eq` says that a session with the application is such a sequence.  Keys put the
  window elsewhere only if they scroll and the grid pane has the focus.
-/

namespace FungeTrace

namespace Scroll

/-- A window of `visible` places over `total` contains `target` and does not leave the content.  It
starts at the first place if the content is smaller than the window. -/
structure Fits (offset target visible total : Nat) : Prop where
  start : offset ≤ target
  stop : target < offset + visible
  inside : offset ≤ total - visible

variable {offset target visible total : Nat}

theorem fits_follow
    (hvisible : 1 ≤ visible)
    (htarget : target < total)
    (offset : Nat) :
    Fits (follow offset target visible total) target visible total where
  start := (follow_spec hvisible htarget offset).1
  stop := (follow_spec hvisible htarget offset).2
  inside := Nat.min_le_right _ _

theorem follow_of_fits
    (h : Fits offset target visible total) :
    follow offset target visible total = offset := by
  have hstart : ¬ target < offset := Nat.not_lt.2 h.start
  have hstop : ¬ offset + visible ≤ target := Nat.not_le.2 h.stop
  rw [follow, if_neg hstart, if_neg hstop]
  exact Nat.min_eq_left h.inside

/-- The places of a window that fits end with the content, or before it. -/
theorem Fits.add_min_le
    (h : Fits offset target visible total) :
    offset + min visible total ≤ total := by
  have hinside := h.inside
  omega

theorem Fits.min_add
    (h : Fits offset target visible total) :
    min (offset + visible) total = offset + min visible total := by
  -- Content that is smaller than the window leaves no offset but zero.
  have hinside := h.inside
  omega

theorem Fits.lt_add_min
    (h : Fits offset target visible total)
    (htarget : target < total) :
    target < offset + min visible total := by
  have hstop := h.stop
  omega

end Scroll

namespace IpView

/-- The column that a window follows. -/
def column (ip : IpView) : Nat := GridPane.place (ip.position.get? 0)

/-- The row that a window follows. -/
def row (ip : IpView) : Nat := GridPane.place (ip.position.get? 1)

end IpView

namespace GridPane

section Windows

/-- Columns that are drawn of a grid. -/
def shownWidth (a : Area) (s : Snapshot) : Nat := min (visibleWidth a) s.grid.width

/-- Rows that are drawn of a grid. -/
def shownHeight (a : Area) (s : Snapshot) : Nat := min (visibleHeight a) s.grid.height

/-- A window fits the grid on both axes, with column `x` and row `y` as targets. -/
structure Frames (a : Area) (s : Snapshot) (w : GridScroll) (x y : Nat) : Prop where
  across : Scroll.Fits w.x x (visibleWidth a) s.grid.width
  down : Scroll.Fits w.y y (visibleHeight a) s.grid.height

/-- What is drawn is a rectangle of the grid, as large as area and grid allow, and column `x` of row
`y` is in it. -/
structure Encloses (a : Area) (s : Snapshot) (w : GridScroll) (x y : Nat) : Prop where
  rows_eq :
    rows a s w =
      (interval w.y (w.y + shownHeight a s)).map (gridRow s w.x (w.x + shownWidth a s))
  right : w.x + shownWidth a s ≤ s.grid.width
  bottom : w.y + shownHeight a s ≤ s.grid.height
  column : x ∈ interval w.x (w.x + shownWidth a s)
  row : y ∈ interval w.y (w.y + shownHeight a s)

variable {a : Area} {s : Snapshot} {w : GridScroll} {ip : IpView} {x y : Nat}

theorem mem_interval
    {first last n : Nat} :
    n ∈ interval first last ↔ first ≤ n ∧ n < last := by
  rw [interval, List.mem_range'_1]
  omega

theorem Frames.encloses
    (h : Frames a s w x y)
    (hx : x < s.grid.width)
    (hy : y < s.grid.height) :
    Encloses a s w x y where
  rows_eq := by
    rw [rows, h.across.min_add, h.down.min_add]
    rfl
  right := h.across.add_min_le
  bottom := h.down.add_min_le
  column := mem_interval.2 ⟨h.across.start, h.across.lt_add_min hx⟩
  row := mem_interval.2 ⟨h.down.start, h.down.lt_add_min hy⟩

theorem scrollTo_active
    (hactive : s.active = some ip)
    (a : Area) (w : GridScroll) :
    scrollTo a s w = {
      x := Scroll.follow w.x ip.column (visibleWidth a) s.grid.width
      y := Scroll.follow w.y ip.row (visibleHeight a) s.grid.height } := by
  rw [scrollTo, hactive]
  rfl

/-- Small as an area may be, the window has a column and a row. -/
theorem frames_scrollTo
    (hactive : s.active = some ip)
    (hcolumn : ip.column < s.grid.width)
    (hrow : ip.row < s.grid.height)
    (a : Area) (w : GridScroll) :
    Frames a s (scrollTo a s w) ip.column ip.row := by
  rw [scrollTo_active hactive]
  exact
    ⟨Scroll.fits_follow (Nat.le_max_right _ _) hcolumn w.x,
      Scroll.fits_follow (Nat.le_max_right _ _) hrow w.y⟩

theorem Frames.scrollTo_eq
    (h : Frames a s w ip.column ip.row)
    (hactive : s.active = some ip) :
    scrollTo a s w = w := by
  rw [scrollTo_active hactive, Scroll.follow_of_fits h.across, Scroll.follow_of_fits h.down]

end Windows

/-- A window that was drawn, with the area and the snapshot that it was drawn for. -/
structure Display where
  area : Area
  snapshot : Snapshot
  window : GridScroll

/-- A display follows the active pointer of its snapshot, if the pointer is on the grid: the window
fits, it is drawn as a rectangle with the pointer in it, and drawing it again leaves it there. -/
def Display.Follows (v : Display) : Prop :=
  ∀ ip, v.snapshot.active = some ip →
    ip.column < v.snapshot.grid.width →
    ip.row < v.snapshot.grid.height →
      Frames v.area v.snapshot v.window ip.column ip.row ∧
      Encloses v.area v.snapshot v.window ip.column ip.row ∧
      ∀ focused, (draw v.area v.snapshot focused v.window).2 = v.window

/-- What happens to a window: it is drawn, or it is put elsewhere by hand. -/
inductive Move where
  | draw (area : Area) (snapshot : Snapshot) (focused : Bool)
  | hand (window : GridScroll)

namespace Move

/-- The window after a move. -/
def apply (w : GridScroll) : Move → GridScroll
  | draw a s focused => (GridPane.draw a s focused w).2
  | hand w' => w'

/-- The display that a move draws, if any. -/
def display (w : GridScroll) : Move → List Display
  | draw a s focused => [⟨a, s, (GridPane.draw a s focused w).2⟩]
  | hand _ => []

end Move

/-- The displays that moves draw one after the other. -/
def displays (w : GridScroll) : List Move → List Display
  | [] => []
  | move :: moves => move.display w ++ displays (move.apply w) moves

section Sequences

theorem displays_append
    (w : GridScroll) (moves moves' : List Move) :
    displays w (moves ++ moves') =
      displays w moves ++ displays (moves.foldl Move.apply w) moves' := by
  induction moves generalizing w with
  | nil =>
      rfl
  | cons move moves ih =>
      rw [List.cons_append, displays, displays, ih, List.append_assoc, List.foldl_cons]

/-- Wherever the window is, drawing it makes it follow. -/
theorem follows_draw
    (a : Area) (s : Snapshot) (focused : Bool) (w : GridScroll) :
    Display.Follows ⟨a, s, (draw a s focused w).2⟩ := by
  intro ip hactive hcolumn hrow
  have hframes : Frames a s (scrollTo a s w) ip.column ip.row :=
    frames_scrollTo hactive hcolumn hrow a w
  exact ⟨hframes, hframes.encloses hcolumn hrow, fun _ => hframes.scrollTo_eq hactive⟩

theorem follows_of_mem_displays
    {w : GridScroll} {moves : List Move} {v : Display}
    (h : v ∈ displays w moves) :
    v.Follows := by
  induction moves generalizing w with
  | nil =>
      contradiction
  | cons move moves ih =>
      -- Nothing has to be carried along: a drawing makes any window follow.
      rcases List.mem_append.1 h with hfirst | hlater
      · cases move with
        | draw a s focused =>
            rw [List.mem_singleton.1 hfirst]
            exact follows_draw a s focused w
        | hand w' =>
            contradiction
      · exact ih hlater

end Sequences

end GridPane

namespace App

open GridPane

/-- A scroll key moves the window of the grid pane if the pane has the focus. -/
def byHand (app : App) (shift : Nat → Nat) : List Move :=
  if app.focus = .grid then [.hand { app.gridScroll with y := shift app.gridScroll.y }] else []

/-- The moves of the grid pane's window that a stimulus makes. -/
def gridMoves (app : App) : Stimulus → List Move
  | .key _ .up => app.byHand Scroll.up
  | .key _ .down => app.byHand Scroll.down
  | .frame layout => [.draw layout.grid app.debugger.current (app.focus == .grid)]
  | _ => []

/-- The display of the grid pane that a stimulus draws, if any. -/
def gridDisplay (app : App) : Stimulus → List Display
  | .frame layout => [⟨layout.grid, app.debugger.current, (app.draw layout).2.gridScroll⟩]
  | _ => []

/-- The moves of a session. -/
def sessionMoves (app : App) : List Stimulus → List Move
  | [] => []
  | stimulus :: stimuli => app.gridMoves stimulus ++ (app.handle stimulus).sessionMoves stimuli

/-- The displays of the grid pane that a session draws. -/
def gridDisplays (app : App) : List Stimulus → List Display
  | [] => []
  | stimulus :: stimuli => app.gridDisplay stimulus ++ (app.handle stimulus).gridDisplays stimuli

section Sessions

theorem gridScroll_report
    (app : App) (step : Except Fault Debugger) (words words' : String) :
    (app.report step words words').gridScroll = app.gridScroll := by
  cases step with
  | ok debugger =>
      rfl
  | error fault =>
      cases fault <;> rfl

theorem gridScroll_scroll
    (app : App) (shift : Nat → Nat) :
    (app.scroll shift).gridScroll = (app.byHand shift).foldl Move.apply app.gridScroll := by
  rw [scroll, byHand]
  cases app.focus <;> rfl

theorem gridScroll_togglePlayback
    (app : App) :
    app.togglePlayback.gridScroll = app.gridScroll := by
  rw [togglePlayback]
  split <;> rfl

theorem gridScroll_elapse
    (app : App) :
    app.elapse.gridScroll = app.gridScroll := by
  rw [elapse]
  split
  · split <;> rfl
  · rfl

/-- Nothing but scroll keys and frames moves the window of the grid pane. -/
theorem gridScroll_handle
    (app : App) (stimulus : Stimulus) :
    (app.handle stimulus).gridScroll =
      (app.gridMoves stimulus).foldl Move.apply app.gridScroll := by
  cases stimulus with
  | frame layout =>
      rfl
  | interval =>
      exact gridScroll_elapse app
  | key now key =>
      cases key with
      | up =>
          exact gridScroll_scroll app Scroll.up
      | down =>
          exact gridScroll_scroll app Scroll.down
      | left | right =>
          exact gridScroll_report app.paused _ _ _
      | space =>
          change (app.press now .space).gridScroll = app.gridScroll
          rw [press]
          split
          · rfl
          · exact gridScroll_togglePlayback _
      | digit | tab | backTab | enter | backspace | quit | other =>
          rfl

theorem gridDisplay_eq
    (app : App) (stimulus : Stimulus) :
    app.gridDisplay stimulus = displays app.gridScroll (app.gridMoves stimulus) := by
  cases stimulus with
  | frame layout =>
      rfl
  | interval =>
      rfl
  | key now key =>
      cases key with
      | up | down =>
          change [] = displays app.gridScroll (app.byHand _)
          rw [byHand]
          split <;> rfl
      | left | right | space | digit | tab | backTab | enter | backspace | quit | other =>
          rfl

/-- A session draws what its moves draw. -/
theorem gridDisplays_eq
    (app : App) (stimuli : List Stimulus) :
    app.gridDisplays stimuli = displays app.gridScroll (app.sessionMoves stimuli) := by
  induction stimuli generalizing app with
  | nil =>
      rfl
  | cons stimulus stimuli ih =>
      rw [gridDisplays, sessionMoves, displays_append, ih, gridDisplay_eq, gridScroll_handle]

end Sessions

/-- Following is correct, bounded and stable.  So is the window of the grid pane, however it is
drawn and put elsewhere, and whatever an application is given to react to: each display contains the
active pointer, lies inside the grid, and stays if it is drawn again. -/
theorem gridDisplays_follow :
    (∀ offset target visible total, 1 ≤ visible → target < total →
      Scroll.Fits (Scroll.follow offset target visible total) target visible total ∧
      Scroll.follow (Scroll.follow offset target visible total) target visible total =
        Scroll.follow offset target visible total ∧
      (Scroll.Fits offset target visible total →
        Scroll.follow offset target visible total = offset)) ∧
    (∀ window moves, ∀ v ∈ displays window moves, v.Follows) ∧
    (∀ (app : App) stimuli, ∀ v ∈ app.gridDisplays stimuli, v.Follows) := by
  refine ⟨?_, fun window moves v hv => follows_of_mem_displays hv, ?_⟩
  · intro offset target visible total hvisible htarget
    have hfits := Scroll.fits_follow hvisible htarget offset
    exact ⟨hfits, Scroll.follow_of_fits hfits, Scroll.follow_of_fits⟩
  · intro app stimuli v hv
    rw [gridDisplays_eq] at hv
    exact follows_of_mem_displays hv

/-- A pointer in the last cell of a grid of the usual size. -/
def corner : Snapshot := walk 80 25 79 24

/-- A history of one snapshot. -/
def cornered : Debugger where
  snapshots := #[corner]
  used := 0
  limit := 0
  outcome := .halted none
  position := 0
  position_lt := by decide

/-- Room for all of a grid of the usual size. -/
def wide : Layout := .ofSize 200 100

/-- Room for eight columns and three rows of a grid. -/
def slim : Layout := .ofSize 20 8

/-- A window far outside the grid comes back to the pointer.  Two columns fit into the pane, so it
is kept within the grid one column before the pointer.  In a session the screen shrinks after the
pane was scrolled, and the window that had all of the grid in it goes to the pointer too. -/
theorem gridDisplays_follow_corner :
    (Scroll.follow 0 70 40 80 = 31 ∧ Scroll.Fits 31 70 40 80) ∧
    (displays {} [.hand ⟨1000, 1000⟩, .draw narrow.area corner false] =
        [⟨narrow.area, corner, ⟨78, 24⟩⟩] ∧
      Encloses narrow.area corner ⟨78, 24⟩ 79 24) ∧
    (gridDisplays (ofDebugger cornered) [.frame wide, .key 0 .down, .frame slim] =
        [⟨wide.grid, corner, ⟨0, 0⟩⟩,
          ⟨slim.grid, corner, ⟨72, 22⟩⟩] ∧
      Encloses slim.grid corner ⟨72, 22⟩ 79 24) := by
  obtain ⟨hfollow, hmoves, hsessions⟩ := gridDisplays_follow
  have hpane :
      displays {} [.hand ⟨1000, 1000⟩, .draw narrow.area corner false] =
        [⟨narrow.area, corner, ⟨78, 24⟩⟩] := rfl
  have hsession :
      gridDisplays (ofDebugger cornered) [.frame wide, .key 0 .down, .frame slim] =
        [⟨wide.grid, corner, ⟨0, 0⟩⟩,
          ⟨slim.grid, corner, ⟨72, 22⟩⟩] := rfl
  have hback := hmoves {} [.hand ⟨1000, 1000⟩, .draw narrow.area corner false]
    ⟨narrow.area, corner, ⟨78, 24⟩⟩ (by simp [hpane])
    (walker 79 24) rfl (by decide) (by decide)
  have hshrunk := hsessions (ofDebugger cornered) [.frame wide, .key 0 .down, .frame slim]
    ⟨slim.grid, corner, ⟨72, 22⟩⟩ (by simp [hsession])
    (walker 79 24) rfl (by decide) (by decide)
  exact
    ⟨⟨rfl, (hfollow 0 70 40 80 (by decide) (by decide)).1⟩, ⟨hpane, hback.2.1⟩,
      ⟨hsession, hshrunk.2.1⟩⟩

end App
end FungeTrace
