import FungeTrace.Proofs.Generators
import FungeTrace.Proofs.Travel
import FungeTrace.Proofs.Underflow

/-!
# Strings

Between two quotes a Befunge-93 pointer executes nothing.  The opening quote is a command that
switches string mode on, every cell behind it is pushed as its code, whatever command it would be,
and the closing quote, which is no command at that point, switches the mode off.

* `stride_opens`, `stride_collects` and `stride_closes` are the three kinds of strides on the way.
* `strides_collect` runs over the cells of a string and its closing quote by induction on the cells.
  The invariant is the pointer in string mode with the codes so far on its stack.
* `Engine.runFor_string` adds the opening quote and the engine around the strides.

`Space.Meets` says which cells a pointer is going to meet.  The string may go over edges of the
space, and the closing quote may be the cell of the opening one.
-/

namespace FungeTrace

namespace Space

variable {C : Type} {s : Space C} {c c' : Coord} {d : Direction} {cell : C} {cells : List C}

/-- The cells from `c` onward along `d`, one step after the other, begin with `cells`. -/
def Meets (s : Space C) (c : Coord) (d : Direction) (cells : List C) : Prop :=
  ∀ k cell, cells[k]? = some cell →
    ∃ position, s.moveTimes d k c = .ok position ∧ s.read position = .ok cell

theorem Meets.head
    (h : s.Meets c d (cell :: cells)) :
    s.read c = .ok cell := by
  obtain ⟨position, hmoved, hread⟩ := h 0 cell rfl
  obtain rfl : c = position := Except.ok.inj hmoved
  exact hread

theorem Meets.tail
    (h : s.Meets c d (cell :: cells))
    (hmove : s.move c d = .ok c') :
    s.Meets c' d cells := by
  intro k cell' hcell'
  obtain ⟨position, hmoved, hread⟩ := h (k + 1) cell' hcell'
  rw [moveTimes_succ hmove] at hmoved
  exact ⟨position, hmoved, hread⟩

/-- A pointer that meets a second cell can leave the first one. -/
theorem Meets.move
    {next : C}
    (h : s.Meets c d (cell :: next :: cells)) :
    ∃ c', s.move c d = .ok c' := by
  obtain ⟨position, hmoved, _⟩ := h 1 next rfl
  cases hmove : s.move c d with
  | ok c' =>
      exact ⟨c', rfl⟩
  | error fault =>
      rw [moveTimes, hmove] at hmoved
      contradiction

end Space

namespace Befunge

open Focus Act

variable {f g : Focus} {cell : UInt8} {stack : Stack} {c : Coord}

section Strides

theorem stride_of_react
    (hcell : f.space.read f.ip.position = .ok cell)
    (hreact : react cell f = .ok .proceed g)
    (hmove : g.space.move g.ip.position g.ip.direction = .ok c) :
    stride f = .ok .proceed { g with ip := { g.ip with position := c } } := by
  have hskip : skip g = .ok () { g with ip := { g.ip with position := c } } := by
    simp [skip, hmove]
  exact stride_of_skip hcell hreact hskip

/-- Out of string mode a quote switches it on. -/
theorem stride_opens
    (hmode : f.ip.state.get stringModeKey = .ok false)
    (hcell : f.space.read f.ip.position = .ok quote)
    (hmove : f.space.move f.ip.position f.ip.direction = .ok c) :
    stride f =
      .ok .proceed { f with ip := { f.ip with
        position := c
        state := f.ip.state.insert stringModeKey true } } := by
  have htoggle :
      effect .stringMode f =
        .ok () { f with ip := { f.ip with state := f.ip.state.insert stringModeKey true } } := by
    change toggleStringMode f = _
    unfold toggleStringMode onState zoom Bag.update
    rw [hmode]
    rfl
  have hreact :
      react quote f =
        .ok .proceed
          { f with ip := { f.ip with state := f.ip.state.insert stringModeKey true } } := by
    rw [react_of_inString hmode]
    change perform .stringMode f = _
    unfold perform
    rw [bind_ok htoggle]
    rfl
  exact stride_of_react hcell hreact hmove

/-- In string mode every cell but a quote is pushed as its code. -/
theorem stride_collects
    (hmode : f.ip.state.get stringModeKey = .ok true)
    (hstack : f.ip.state.get stackKey = .ok stack)
    (hne : cell ≠ quote)
    (hcell : f.space.read f.ip.position = .ok cell)
    (hmove : f.space.move f.ip.position f.ip.direction = .ok c) :
    stride f =
      .ok .proceed
        { f with ip := { restack (ofCell cell :: stack) f.ip with position := c } } := by
  have hgather :
      gather cell f = .ok () { f with ip := restack (ofCell cell :: stack) f.ip } := by
    rw [gather, if_neg hne, onStack_eq hstack]
    rfl
  have hreact :
      react cell f = .ok .proceed { f with ip := restack (ofCell cell :: stack) f.ip } := by
    rw [react_of_inString hmode, if_pos rfl, bind_ok hgather]
    rfl
  exact stride_of_react hcell hreact hmove

/-- In string mode a quote switches it off. -/
theorem stride_closes
    (hmode : f.ip.state.get stringModeKey = .ok true)
    (hcell : f.space.read f.ip.position = .ok quote)
    (hmove : f.space.move f.ip.position f.ip.direction = .ok c) :
    stride f =
      .ok .proceed { f with ip := { f.ip with
        position := c
        state := f.ip.state.insert stringModeKey false } } := by
  have hreact :
      react quote f =
        .ok .proceed
          { f with ip := { f.ip with state := f.ip.state.insert stringModeKey false } } := by
    rw [react_of_inString hmode, if_pos rfl, gather, if_pos rfl]
    rfl
  exact stride_of_react hcell hreact hmove

end Strides

section Strings

/-- The pointer behind a string: at `c`, with the given stack and out of string mode. -/
def behindString (c : Coord) (stack : Stack) (ip : Ip) : Ip :=
  { restack stack ip with
    position := c
    state := (restack stack ip).state.insert stringModeKey false }

theorem behindString_restack
    (c c' : Coord) (stack stack' : Stack) (ip : Ip) :
    behindString c stack { restack stack' ip with position := c' } = behindString c stack ip := by
  simp [behindString, restack, Bag.insert_insert]

theorem behindString_switched
    (c c' : Coord) (stack : Stack) (mode : Bool) (ip : Ip) :
    behindString c stack
        { ip with position := c', state := ip.state.insert stringModeKey mode } =
      behindString c stack ip := by
  have hkeys : stringModeKey.name ≠ stackKey.name := by decide
  simp [behindString, restack, Bag.insert_comm hkeys, Bag.insert_insert]

/-- In string mode a pointer collects the cells up to the next quote and stops behind it. -/
theorem strides_collect
    {w : List UInt8}
    (hmode : f.ip.state.get stringModeKey = .ok true)
    (hstack : f.ip.state.get stackKey = .ok stack)
    (hw : quote ∉ w)
    (hcells : f.space.Meets f.ip.position f.ip.direction (w ++ [quote]))
    (hway : ∃ c, f.space.move f.ip.position f.ip.direction = .ok c) :
    ∃ c,
      f.space.moveTimes f.ip.direction (w.length + 1) f.ip.position = .ok c ∧
      strides (w.length + 1) f =
        (w.length + 1,
          .ok .tickLimit
            { f with ip := behindString c ((w.map ofCell).reverse ++ stack) f.ip }) := by
  obtain ⟨c, hmove⟩ := hway
  -- That the way goes on is carried along, for the closing quote has to be left as well.
  induction w generalizing f stack c with
  | nil =>
      refine ⟨c, Space.moveTimes_succ hmove 0, ?_⟩
      rw [List.length_nil, strides_succ (stride_closes hmode hcells.head hmove)]
      simp [strides, behindString, restack_self hstack]
  | cons cell w ih =>
      have hne : cell ≠ quote := fun h => hw (h ▸ List.mem_cons_self)
      have hstride := stride_collects hmode hstack hne hcells.head hmove
      obtain ⟨c₁, hnext⟩ := Ground.move_again hmove
      have hkeys : stackKey.name ≠ stringModeKey.name := by decide
      obtain ⟨c', htimes, hstrides⟩ :=
        ih (f := { f with ip := { restack (ofCell cell :: stack) f.ip with position := c } })
          ((Bag.get_insert_of_ne hkeys _ _).trans hmode)
          (Bag.get_insert_self _ _ _)
          (fun h => hw (List.mem_cons_of_mem cell h))
          (hcells.tail hmove) c₁ hnext
      refine ⟨c', (Space.moveTimes_succ hmove _).trans htimes, ?_⟩
      rw [List.length_cons, strides_succ hstride, hstrides]
      simp [behindString_restack]

end Strings

end Befunge

namespace Engine

open Befunge Focus

variable {σ : Type} {e : Engine UInt8 σ}

/-- The first tick of a run forgets which pointer was current. -/
theorem runFor_succ_plain
    (hlanguage : e.language = Befunge.language)
    (hobservers : e.observers = [])
    (n : Nat) (f : Focus) :
    runFor (n + 1) (e.withFocus f) =
      some ({ e with launched := true, current := none }.ran (strides (n + 1) f)) := by
  have hlaunch :=
    launch_silent (e := e.withFocus f) (hobservers ▸ silent_nil .launch)
  have htick :
      tick ({ e with launched := true }.withFocus f) =
        tick ({ e with launched := true, current := none }.withFocus f) := by
    rw [tick_plain (e := { e with launched := true }) hlanguage hobservers,
      tick_plain (e := { e with launched := true, current := none }) hlanguage hobservers]
  rw [← tickWithin_plain (e := { e with launched := true, current := none })
    hlanguage hobservers rfl]
  unfold runFor
  rw [hlaunch]
  change tickWithin ({ e with launched := true }.withFocus f) (n + 1) = _
  rw [tickWithin, tickWithin, htick]

/-- Strings are pushed and not executed.  Let the only pointer of an engine without observers stand
on a quote, out of string mode, and let it meet the cells of `w`, none of which is a quote, and then
a quote again.  After two ticks more than `w` has cells the run goes on: the pointer is out of string
mode, heads the same way and stands behind the closing quote, and the codes of `w` lie on its stack
in order.  Nothing else has changed, whatever commands the cells of `w` are. -/
theorem runFor_string
    {ip : Ip} {stack : Stack} {w : List UInt8}
    (hlanguage : e.language = Befunge.language)
    (hobservers : e.observers = [])
    (hip : e.machine.ips = [ip])
    (hmode : ip.state.get stringModeKey = .ok false)
    (hstack : ip.state.get stackKey = .ok stack)
    (hw : quote ∉ w)
    (hcells : e.machine.space.Meets ip.position ip.direction (quote :: w ++ [quote])) :
    ∃ e' ip',
      e.runFor (w.length + 2) = some (.ok .tickLimit e') ∧
      e'.ticks = e.ticks + (w.length + 2) ∧
      e'.halted = e.halted ∧
      e'.machine = { e.machine with ips := [ip'] } ∧
      ip'.id = ip.id ∧
      ip'.direction = ip.direction ∧
      e.machine.space.moveTimes ip.direction (w.length + 2) ip.position = .ok ip'.position ∧
      ip'.state.get stringModeKey = .ok false ∧
      ip'.state.get stackKey = .ok ((w.map ofCell).reverse ++ stack) ∧
      ∀ name, name ≠ stringModeKey.name → name ≠ stackKey.name →
        ip'.state.entries[name]? = ip.state.entries[name]? := by
  let f : Focus := { ip, space := e.machine.space, shared := e.machine.shared }
  have hfocus : e = e.withFocus f := by
    change e = e.withIps [ip]
    rw [← hip]
    rfl
  have hkeys : stringModeKey.name ≠ stackKey.name := by decide
  obtain ⟨c, hmove⟩ : ∃ c, f.space.move f.ip.position f.ip.direction = .ok c := by
    cases w with
    | nil =>
        exact hcells.move
    | cons cell w =>
        exact hcells.move
  have hstride := stride_opens (f := f) hmode hcells.head hmove
  obtain ⟨c', htimes, hstrides⟩ :=
    strides_collect
      (f := { f with ip := { f.ip with
        position := c
        state := f.ip.state.insert stringModeKey true } })
      (Bag.get_insert_self _ _ _)
      ((Bag.get_insert_of_ne hkeys _ _).trans hstack)
      hw (hcells.tail hmove) (Ground.move_again hmove)
  have hrun := runFor_succ_plain hlanguage hobservers (w.length + 1) f
  rw [← hfocus, strides_succ hstride, hstrides] at hrun
  refine
    ⟨_, behindString c' ((w.map ofCell).reverse ++ stack) ip, hrun, rfl, rfl, ?_, rfl, rfl,
      (Space.moveTimes_succ hmove _).trans htimes, Bag.get_insert_self _ _ _, ?_, ?_⟩
  · rw [behindString_switched]
    rfl
  · exact (Bag.get_insert_of_ne hkeys _ _).trans (Bag.get_insert_self _ _ _)
  · intro name hname hname'
    exact (Bag.entries_insert_of_ne (Ne.symm hname) _ _).trans
      (Bag.entries_insert_of_ne (Ne.symm hname') _ _)

/-- A pointer on the only quote of a ring, in front of the commands to skip and to halt. -/
def quoted : Engine UInt8 Unit :=
  assemble
    { space := .ground (.torus {
        extent := {
          sizes := [3, 1]
          ne_nil := by decide
          bounds := by decide
          cellCount_lt := by decide }
        cells := #[34, 64, 35]
        size_cells := rfl })
      ips := [{
        id := 1
        position := .planar 0 0
        direction := .west
        state := (Bag.empty.insert stringModeKey false).insert stackKey [7] }]
      shared := .empty
      supply := { dice := .loaded } }
    Befunge.language ()

/-- Heading west, the pointer goes over the edge at once and round to its own quote. -/
theorem runFor_string_quoted :
    quoted.machine.space.Meets (.planar 0 0) .west (quote :: [35, 64] ++ [quote]) ∧
    ∃ e' ip',
      quoted.runFor 4 = some (.ok .tickLimit e') ∧
      e'.machine.ips = [ip'] ∧
      ip'.position = .planar 2 0 ∧
      ip'.state.get stackKey = .ok [64, 35, 7] := by
  have hcells :
      quoted.machine.space.Meets (.planar 0 0) .west (quote :: [35, 64] ++ [quote]) := by
    intro k cell hk
    match k with
    | 0 | 1 | 2 | 3 =>
        obtain rfl := Option.some.inj hk
        exact ⟨_, rfl, rfl⟩
    | k + 4 =>
        contradiction
  obtain ⟨e', ip', hrun, _, _, hmachine, _, _, hmoved, _, hstack, _⟩ :=
    runFor_string (e := quoted) rfl rfl rfl rfl rfl (by decide) hcells
  refine ⟨hcells, e', ip', hrun, by rw [hmachine], ?_, hstack⟩
  exact Except.ok.inj (hmoved.symm.trans rfl)

end Engine

end FungeTrace
