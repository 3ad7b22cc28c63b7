import FungeTrace.View.App

/-!
# Navigation

Whatever keys come and however playback goes on in between, the application only moves the position
of its debugger.  `Cursor.advance` says by how much: every move is clamped to the recorded history,
and keys that move by hand stop playback.  A key comes with its time, so that a blank too soon after
the last one is ignored.  `handle_moved` compares one reaction with the cursor and `foldl_handle` a
whole session.

A step is refused at the ends of the history only, so the loop behind a digit key takes as many steps
as there are snapshots left: `stepsForward_eq`.
-/

namespace FungeTrace

namespace Debugger

/-- The debugger at another position, or at the last snapshot if the history ends before it. -/
def moved (d : Debugger) (position : Nat) : Debugger :=
  { d with
    position := min position (d.total - 1)
    position_lt := by
      have := d.position_lt
      rw [total]
      omega }

variable (d : Debugger)

@[simp] theorem position_moved
    (position : Nat) :
    (d.moved position).position = min position (d.total - 1) := by
  rfl

@[simp] theorem total_moved
    (position : Nat) :
    (d.moved position).total = d.total := by
  rfl

@[simp] theorem moved_moved
    (position position' : Nat) :
    (d.moved position).moved position' = d.moved position' := by
  rfl

/-- Debuggers of one history are told apart by their positions. -/
theorem eq_moved
    {d : Debugger} {p : Nat}
    (hp : p < d.snapshots.size)
    {position : Nat}
    (h : min position (d.total - 1) = p) :
    { d with position := p, position_lt := hp } = d.moved position := by
  subst h
  rfl

theorem moved_of_min
    {position : Nat}
    (h : min position (d.total - 1) = d.position) :
    d.moved position = d :=
  (eq_moved d.position_lt h).symm

theorem position_le :
    d.position ≤ d.total - 1 :=
  Nat.le_sub_one_of_lt d.position_lt

theorem moved_position :
    d.moved d.position = d :=
  moved_of_min d (Nat.min_eq_left d.position_le)

theorem moved_min
    (position : Nat) :
    d.moved (min position (d.total - 1)) = d.moved position :=
  (eq_moved _ (by simp)).symm

/-- Beyond the last snapshot there is nowhere to go. -/
theorem moved_of_end
    (h : d.position = d.total - 1) :
    d.moved (min (d.position + 1) (d.total - 1)) = d :=
  moved_of_min d (by omega)

/-- A step forward is refused at the last snapshot only. -/
theorem stepForward_eq :
    d.stepForward =
      if d.position = d.total - 1 then .error (.history .atEnd)
      else .ok (d.moved (d.position + 1)) := by
  have hlt : d.position < d.total := d.position_lt
  rw [stepForward]
  by_cases hnext : d.position + 1 < d.total
  · rw [if_neg (by omega)]
    exact (dif_pos hnext).trans (congrArg Except.ok (eq_moved hnext (by omega)))
  · rw [if_pos (by omega)]
    exact dif_neg hnext

/-- A step backward is refused at the first snapshot only. -/
theorem stepBackward_eq :
    d.stepBackward =
      if d.position = 0 then .error (.history .atStart) else .ok (d.moved (d.position - 1)) := by
  have hle := d.position_le
  rw [stepBackward]
  by_cases hstart : d.position = 0
  · rw [if_pos hstart, if_pos hstart]
  · rw [if_neg hstart, if_neg hstart]
    exact congrArg Except.ok (eq_moved _ (by omega))

theorem rewind_eq :
    d.rewind = d.moved 0 :=
  eq_moved _ (Nat.zero_min _)

theorem jumpToEnd_eq :
    d.jumpToEnd = d.moved (d.total - 1) :=
  eq_moved _ (Nat.min_self _)

section Histories

/-- A debugger holds a history as it was recorded, and the outcome of the run. -/
structure Keeps (h : History) (outcome : Outcome) (d : Debugger) : Prop where
  snapshots : d.snapshots.toList = h.snapshots
  used : d.used = h.used
  limit : d.limit = h.limit
  outcome : d.outcome = outcome

variable {h : History} {outcome : Outcome} {d : Debugger}

theorem Keeps.moved
    (hd : Keeps h outcome d)
    (position : Nat) :
    Keeps h outcome (d.moved position) :=
  ⟨hd.snapshots, hd.used, hd.limit, hd.outcome⟩

theorem Keeps.total_eq
    (hd : Keeps h outcome d) :
    d.total = h.size := by
  rw [total, ← Array.length_toList, hd.snapshots, History.snapshots, List.length_reverse]
  rfl

theorem Keeps.current
    (hd : Keeps h outcome d) :
    h.snapshots[d.position]? = some d.current := by
  rw [← hd.snapshots, Array.getElem?_toList, Array.getElem?_eq_getElem d.position_lt]
  rfl

theorem ofHistory_ok
    (hsize : 0 < h.size)
    (outcome : Outcome) :
    ∃ d, ofHistory h outcome = .ok d ∧ Keeps h outcome d ∧ d.position = 0 := by
  have hpos : 0 < h.snapshots.toArray.size := by
    simpa [History.snapshots, History.size] using hsize
  rw [ofHistory]
  exact ⟨_, dif_pos hpos, ⟨List.toList_toArray, rfl, rfl, rfl⟩, rfl⟩

end Histories

end Debugger

/-- What an application reacts to: a key at some time, the passing of the playback interval, and
that it is drawn. -/
inductive Stimulus where
  | key (now : Nat) (key : KeyPress)
  | interval
  | frame (layout : Layout)

/-- Where a session stands in a history, whether it plays, and when that was last switched. -/
structure Cursor where
  position : Nat
  playing : Bool := false
  switched : Option Nat := none

namespace Cursor

/-- A move by hand, which ends playback. -/
def move (c : Cursor) (position : Nat) : Cursor := { c with position, playing := false }

/-- Playback starts or ends, unless it did so in the last 200 milliseconds. -/
def switch (c : Cursor) (now : Nat) : Cursor :=
  if ∃ last ∈ c.switched, now < last + 200 then c
  else { c with playing := !c.playing, switched := some now }

/-- The moves through a history whose last snapshot has number `last`. -/
def advance (last : Nat) (c : Cursor) : Stimulus → Cursor
  | .key _ (.digit n) => c.move (min (c.position + n) last)
  | .key _ .right => c.move (min (c.position + 1) last)
  | .key _ .left => c.move (c.position - 1)
  | .key _ .enter => c.move last
  | .key _ .backspace => c.move 0
  | .key now .space => c.switch now
  | .key _ _ => c
  | .interval =>
    -- Playback that finds no further snapshot ends.
    if c.playing then
      { c with position := min (c.position + 1) last, playing := c.position != last }
    else c
  | .frame _ => c

theorem position_switch
    (c : Cursor) (now : Nat) :
    (c.switch now).position = c.position := by
  rw [switch]
  split <;> rfl

theorem position_advance_le
    {last : Nat} {c : Cursor}
    (h : c.position ≤ last)
    (stimulus : Stimulus) :
    (c.advance last stimulus).position ≤ last := by
  cases stimulus with
  | key now key =>
      cases key with
      | digit | right =>
          exact Nat.min_le_right _ _
      | left =>
          exact Nat.le_trans (Nat.sub_le _ _) h
      | enter =>
          exact Nat.le_refl last
      | backspace =>
          exact Nat.zero_le last
      | space =>
          rw [advance, position_switch]
          exact h
      | up | down | tab | backTab | quit | other =>
          exact h
  | interval =>
      rw [advance]
      split
      · exact Nat.min_le_right _ _
      · exact h
  | frame layout =>
      exact h

theorem position_foldl_le
    {last : Nat} {c : Cursor}
    (h : c.position ≤ last)
    (stimuli : List Stimulus) :
    (stimuli.foldl (advance last) c).position ≤ last := by
  induction stimuli generalizing c with
  | nil =>
      exact h
  | cons stimulus stimuli ih =>
      exact ih (position_advance_le h stimulus)

end Cursor

namespace App

open Debugger

/-- The application after a stimulus. -/
def handle (app : App) : Stimulus → App
  | .key now key => app.press now key
  | .interval => app.elapse
  | .frame layout => (app.draw layout).2

/-- Where the application stands. -/
def cursor (app : App) : Cursor := ⟨app.debugger.position, app.playing, app.lastSpace⟩

/-- The application has moved in its history, if at all, and stands where the cursor does. -/
structure Moved (app app' : App) (c : Cursor) : Prop where
  debugger : app'.debugger = app.debugger.moved c.position
  playing : app'.playing = c.playing
  switched : app'.lastSpace = c.switched

section Steps

/-- What is refused is told, whatever the reason, and playback is over. -/
theorem report_refused
    (app : App) (fault : Fault) (words words' : String) :
    Moved app (app.paused.report (.error fault) words words')
      (app.cursor.move app.debugger.position) := by
  cases fault <;> exact ⟨(moved_position _).symm, rfl, rfl⟩

/-- A step that is taken or refused moves accordingly, and playback is over. -/
theorem report_moved
    {app : App} {step : Except Fault Debugger} {position : Nat}
    (hstep :
      step = .ok (app.debugger.moved position) ∨
        (∃ fault, step = .error fault) ∧ app.debugger.moved position = app.debugger)
    (words words' : String) :
    Moved app (app.paused.report step words words') (app.cursor.move position) := by
  rcases hstep with rfl | ⟨⟨fault, rfl⟩, hstays⟩
  · exact ⟨rfl, rfl, rfl⟩
  · have hrefused := report_refused app fault words words'
    exact
      ⟨hrefused.debugger.trans ((moved_position _).trans hstays.symm), hrefused.playing,
        hrefused.switched⟩

/-- Steps forward are taken until the last snapshot is reached. -/
theorem stepsForward_eq
    (d : Debugger) (n : Nat) :
    stepsForward d n = (min n (d.total - 1 - d.position), d.moved (d.position + n)) := by
  induction n generalizing d with
  | zero =>
      have hle := d.position_le
      rw [stepsForward, moved_of_min _ (by omega), Nat.zero_min]
  | succ n ih =>
      have hle := d.position_le
      rw [stepsForward, stepForward_eq]
      by_cases hend : d.position = d.total - 1
      · rw [if_pos hend, moved_of_min _ (by omega)]
        simp [hend]
      · rw [if_neg hend]
        dsimp only
        rw [ih]
        simp only [position_moved, total_moved, moved_moved]
        have hpos : min (d.position + 1) (d.total - 1) = d.position + 1 := by
          omega
        rw [hpos]
        simp only [Prod.mk.injEq]
        constructor
        · omega
        · congr 1
          omega

end Steps

theorem scroll_moved
    (app : App) (shift : Nat → Nat) :
    Moved app (app.scroll shift) app.cursor := by
  rw [scroll]
  cases app.focus <;> exact ⟨(moved_position _).symm, rfl, rfl⟩

theorem isTooSoon_iff
    (app : App) (now : Nat) :
    app.isTooSoon now = true ↔ ∃ last ∈ app.cursor.switched, now < last + 200 := by
  rw [isTooSoon, cursor]
  cases app.lastSpace with
  | none =>
      simp
  | some last =>
      rw [Option.any_some, decide_eq_true_iff, spaceInterval]
      simp

/-- A blank leaves the position alone, and playback too if it comes too soon. -/
theorem press_space_moved
    (app : App) (now : Nat) :
    Moved app (app.press now .space) (app.cursor.switch now) := by
  have hstays := app.debugger.moved_position
  rw [press, Cursor.switch]
  by_cases hsoon : app.isTooSoon now = true
  · rw [if_pos hsoon, if_pos ((isTooSoon_iff app now).1 hsoon)]
    exact ⟨hstays.symm, rfl, rfl⟩
  · rw [if_neg hsoon, if_neg (mt (isTooSoon_iff app now).2 hsoon), togglePlayback]
    dsimp only
    by_cases hplaying : app.playing = true
    · rw [if_pos hplaying]
      exact ⟨hstays.symm, by simp [cursor, hplaying], rfl⟩
    · rw [if_neg hplaying]
      exact ⟨hstays.symm, by simp [cursor, hplaying], rfl⟩

theorem press_moved
    (app : App) (now : Nat) (key : KeyPress) :
    Moved app (app.press now key) (app.cursor.advance (app.debugger.total - 1) (.key now key)) := by
  have hstays := app.debugger.moved_position
  cases key with
  | digit n =>
      refine ⟨?_, rfl, rfl⟩
      change (stepsForward app.debugger n).2 = _
      rw [stepsForward_eq]
      exact (moved_min _ _).symm
  | right =>
      apply report_moved
      rw [stepForward_eq]
      by_cases hend : app.debugger.position = app.debugger.total - 1
      · exact .inr ⟨⟨_, if_pos hend⟩, moved_of_end _ hend⟩
      · rw [if_neg hend]
        exact .inl (congrArg Except.ok (moved_min _ _).symm)
  | left =>
      apply report_moved
      rw [stepBackward_eq]
      by_cases hstart : app.debugger.position = 0
      · exact .inr ⟨⟨_, if_pos hstart⟩, moved_of_min _ (by simp [cursor, hstart])⟩
      · exact .inl (if_neg hstart)
  | enter =>
      exact ⟨app.debugger.jumpToEnd_eq, rfl, rfl⟩
  | backspace =>
      exact ⟨app.debugger.rewind_eq, rfl, rfl⟩
  | space =>
      exact press_space_moved app now
  | up =>
      exact scroll_moved app Scroll.up
  | down =>
      exact scroll_moved app Scroll.down
  | tab | backTab | quit | other =>
      exact ⟨hstays.symm, rfl, rfl⟩

theorem elapse_moved
    (app : App) :
    Moved app app.elapse (app.cursor.advance (app.debugger.total - 1) .interval) := by
  by_cases hplaying : app.playing = true
  · have hadvance :
        app.cursor.advance (app.debugger.total - 1) .interval =
          { position := min (app.debugger.position + 1) (app.debugger.total - 1)
            playing := app.debugger.position != app.debugger.total - 1
            switched := app.lastSpace } :=
      if_pos hplaying
    rw [hadvance, elapse, if_pos hplaying, stepForward_eq]
    by_cases hend : app.debugger.position = app.debugger.total - 1
    · rw [if_pos hend]
      exact ⟨(moved_of_end _ hend).symm, by simp [paused, hend], rfl⟩
    · rw [if_neg hend]
      exact ⟨(moved_min _ _).symm, by simp [showLatest, hplaying, hend], rfl⟩
  · have hadvance : app.cursor.advance (app.debugger.total - 1) .interval = app.cursor :=
      if_neg hplaying
    rw [hadvance, elapse, if_neg hplaying]
    exact ⟨(moved_position _).symm, rfl, rfl⟩

/-- A reaction moves as the cursor does. -/
theorem handle_moved
    (app : App) (stimulus : Stimulus) :
    Moved app (app.handle stimulus) (app.cursor.advance (app.debugger.total - 1) stimulus) := by
  cases stimulus with
  | key now key =>
      exact press_moved app now key
  | interval =>
      exact elapse_moved app
  | frame layout =>
      exact ⟨(moved_position _).symm, rfl, rfl⟩

theorem Moved.cursor_eq
    {app app' : App} {c : Cursor}
    (h : Moved app app' c)
    (hc : c.position ≤ app.debugger.total - 1) :
    app'.cursor = c := by
  obtain ⟨position, playing, switched⟩ := c
  rw [cursor, h.debugger, h.playing, h.switched, position_moved, Nat.min_eq_left hc]

/-- However long a session is, the application has moved as the cursor did. -/
theorem foldl_handle
    (app : App) (stimuli : List Stimulus) :
    Moved app (stimuli.foldl handle app)
      (stimuli.foldl (Cursor.advance (app.debugger.total - 1)) app.cursor) := by
  induction stimuli generalizing app with
  | nil =>
      exact ⟨(moved_position _).symm, rfl, rfl⟩
  | cons stimulus stimuli ih =>
      have hstep := handle_moved app stimulus
      have hcursor := hstep.cursor_eq
        (Cursor.position_advance_le app.debugger.position_le stimulus)
      have htotal : (app.handle stimulus).debugger.total = app.debugger.total := by
        rw [hstep.debugger, total_moved]
      have hrest := ih (app.handle stimulus)
      rw [hcursor, htotal] at hrest
      refine ⟨?_, hrest.playing, hrest.switched⟩
      rw [List.foldl_cons, hrest.debugger, hstep.debugger, moved_moved]
      rfl

/-- A digit key tells how far it went. -/
theorem message_digit
    (app : App) (now n : Nat) :
    (app.press now (.digit n)).message =
      "Stepped forward " ++
        toString ((app.press now (.digit n)).debugger.position - app.debugger.position) ++
        " step(s)" := by
  have hle := app.debugger.position_le
  have htaken :
      (stepsForward app.debugger n).1 =
        (stepsForward app.debugger n).2.position - app.debugger.position := by
    rw [stepsForward_eq, position_moved]
    omega
  exact congrArg (fun taken : Nat => "Stepped forward " ++ toString taken ++ " step(s)") htaken

section Refusals

variable {app : App} {fault : Fault}

theorem press_right_refused
    (h : app.debugger.stepForward = .error fault)
    (now : Nat) :
    (app.press now .right).debugger = app.debugger := by
  change (app.paused.report app.debugger.stepForward _ _).debugger = _
  rw [h, (report_refused app fault _ _).debugger]
  exact moved_position _

theorem press_left_refused
    (h : app.debugger.stepBackward = .error fault)
    (now : Nat) :
    (app.press now .left).debugger = app.debugger := by
  change (app.paused.report app.debugger.stepBackward _ _).debugger = _
  rw [h, (report_refused app fault _ _).debugger]
  exact moved_position _

theorem elapse_refused
    (h : app.debugger.stepForward = .error fault) :
    app.elapse.debugger = app.debugger := by
  rw [elapse]
  rw [h]
  split <;> rfl

end Refusals

/-- An application stands in a history where the cursor does, and the history is as it was recorded.
What a digit key tells is the distance that it goes, and steps that are refused go nowhere. -/
structure Attends (h : History) (outcome : Outcome) (app : App) (c : Cursor) : Prop where
  cursor : app.cursor = c
  position_lt : app.debugger.position < h.size
  current : h.snapshots[app.debugger.position]? = some app.debugger.current
  history : Keeps h outcome app.debugger
  told :
    ∀ now n,
      (app.press now (.digit n)).message =
        "Stepped forward " ++
          toString ((app.press now (.digit n)).debugger.position - app.debugger.position) ++
          " step(s)"
  refused_forward :
    ∀ fault, app.debugger.stepForward = .error fault →
      (∀ now, (app.press now .right).debugger.position = app.debugger.position) ∧
      app.elapse.debugger.position = app.debugger.position
  refused_backward :
    ∀ fault, app.debugger.stepBackward = .error fault →
      ∀ now, (app.press now .left).debugger.position = app.debugger.position

theorem attends_of_keeps
    {h : History} {outcome : Outcome} {app : App}
    (hkeeps : Keeps h outcome app.debugger) :
    Attends h outcome app app.cursor where
  cursor := rfl
  position_lt := by
    rw [← hkeeps.total_eq]
    exact app.debugger.position_lt
  current := hkeeps.current
  history := hkeeps
  told := message_digit app
  refused_forward := by
    intro fault hfault
    refine ⟨?_, by rw [elapse_refused hfault]⟩
    intro now
    rw [press_right_refused hfault]
  refused_backward := by
    intro fault hfault now
    rw [press_left_refused hfault]

/-- A session with a recorded history goes where the cursor goes, whatever it is given to react to. -/
theorem session_attends
    (h : History) (outcome : Outcome)
    (hsize : 0 < h.size) :
    ∃ d,
      ofHistory h outcome = .ok d ∧
      ∀ stimuli : List Stimulus,
        Attends h outcome (stimuli.foldl handle (ofDebugger d))
          (stimuli.foldl (Cursor.advance (h.size - 1)) { position := 0 }) := by
  obtain ⟨d, hd, hkeeps, hstart⟩ := ofHistory_ok hsize outcome
  refine ⟨d, hd, ?_⟩
  intro stimuli
  have hmoved := foldl_handle (ofDebugger d) stimuli
  have hcursor := hmoved.cursor_eq (Cursor.position_foldl_le d.position_le stimuli)
  have hbegin : (ofDebugger d).cursor = { position := 0 } :=
    congrArg (Cursor.mk · false none) hstart
  have hlast : (ofDebugger d).debugger.total = h.size := hkeeps.total_eq
  rw [hbegin, hlast] at hcursor
  rw [← hcursor]
  apply attends_of_keeps
  rw [hmoved.debugger]
  exact hkeeps.moved _

/-- A snapshot of a single blank cell. -/
def still : Snapshot where
  tick := 0
  phase := .launch
  current := none
  grid := { width := 1, height := 1, cells := #[32] }
  ips := []
  terminal := .empty

/-- Five steps are two too many for a history of four snapshots.  The second blank comes too soon to
end the playback that the first one started, which ends at the last snapshot by itself. -/
theorem session_attends_still :
    0 < History.size ⟨[still, still, still, still], 4, 4⟩ ∧
    ∃ d,
      ofHistory ⟨[still, still, still, still], 4, 4⟩ (.halted none) = .ok d ∧
      ([.key 0 .right, .key 0 .space, .key 199 .space].foldl handle (ofDebugger d)).cursor =
        ⟨1, true, some 0⟩ ∧
      ([.key 0 (.digit 5), .key 0 .space, .key 199 .space, .interval].foldl handle
          (ofDebugger d)).cursor = ⟨3, false, some 0⟩ := by
  have hsize : 0 < History.size ⟨[still, still, still, still], 4, 4⟩ := by decide
  obtain ⟨d, hd, hattends⟩ :=
    session_attends ⟨[still, still, still, still], 4, 4⟩ (.halted none) hsize
  exact
    ⟨hsize, d, hd, (hattends [.key 0 .right, .key 0 .space, .key 199 .space]).cursor,
      (hattends [.key 0 (.digit 5), .key 0 .space, .key 199 .space, .interval]).cursor⟩

end App
end FungeTrace
