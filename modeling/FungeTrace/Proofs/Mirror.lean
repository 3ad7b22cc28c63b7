import FungeTrace.Proofs.Entries
import FungeTrace.Proofs.Stride

/-!
# Programs that print to a terminal

Two pointers mirror each other if they differ in the output alone: one program writes to a writer
without limit, the other to a captured terminal that shows the bytes written so far.  No command can
tell the two apart, so strides keep the mirror image: `respects_mirrors`.
-/

namespace FungeTrace

namespace Terminal

theorem contents_empty :
    Terminal.empty.contents = "" := by
  rfl

/-- Wherever a piece of output goes, it comes behind all earlier output. -/
theorem contents_print
    (t : Terminal) (text : String) (tick : Nat) :
    (t.print text tick).contents = t.contents ++ text := by
  obtain ⟨recent⟩ := t
  cases recent with
  | nil =>
      simp [print, contents, lines]
  | cons last earlier =>
      unfold print
      dsimp only
      split
      · simp [contents, lines, String.append_assoc]
      · simp [contents, lines, String.append_assoc]

end Terminal

namespace Writer

/-- A writer without limit takes everything. -/
theorem writeAll_unlimited
    {w : Writer}
    (hlimit : w.limit = none)
    (bytes : List UInt8) :
    writeAll bytes w = .ok () { w with recent := bytes.reverse ++ w.recent } := by
  induction bytes generalizing w with
  | nil =>
      rfl
  | cons byte rest ih =>
      have hroom : w.isFull = false := by
        simp [isFull, hlimit]
      unfold writeAll
      rw [hroom]
      simp only [Bool.false_eq_true, if_false]
      rw [ih (w := { w with recent := byte :: w.recent }) hlimit]
      simp

end Writer

namespace Befunge

open Focus Act

section Apart

/-- A result with other shared state. -/
def reshared {α : Type} (shared : Bag) :
    EStateM.Result Fault Focus α → EStateM.Result Fault Focus α
  | .ok a f => .ok a { f with shared }
  | .error fault f => .error fault { f with shared }

/-- An action that has nothing to do with the shared state. -/
def Apart {α : Type} (act : Act Focus α) : Prop :=
  ∀ f shared, act { f with shared } = reshared shared (act f)

theorem apart_onState
    {α : Type} (act : Act Bag α) :
    Apart (onState act) := by
  intro f shared
  unfold onState zoom
  dsimp only
  cases act f.ip.state with
  | ok a state =>
      rfl
  | error fault state =>
      rfl

theorem apart_ask
    {α : Type} {ask : Focus → Except Fault α}
    (h : ∀ f shared, ask { f with shared } = ask f) :
    Apart fun f => ofExcept (ask f) f := by
  intro f shared
  dsimp only
  rw [h f shared]
  cases ask f with
  | ok a =>
      rfl
  | error fault =>
      rfl

theorem apart_skip :
    Apart skip := by
  intro f shared
  unfold skip
  dsimp only
  cases f.space.move f.ip.position f.ip.direction with
  | ok position =>
      rfl
  | error fault =>
      rfl

theorem apart_mark
    (c : Coord) (cell : UInt8) :
    Apart (mark c cell) := by
  intro f shared
  unfold mark
  dsimp only
  cases f.space.write c cell with
  | ok space =>
      rfl
  | error fault =>
      rfl

end Apart

section Mirrors

/-- A terminal shows what a writer without limits has written. -/
structure Echoes (w : Writer) (t : Terminal) : Prop where
  unlimited : w.limit = none
  unclogged : w.flushLimit = none
  spells : Spells w.bytes t.contents

theorem Echoes.print
    {w : Writer} {t : Terminal} {bytes : List UInt8} {text : String}
    (h : Echoes w t)
    (hspells : Spells bytes text)
    (tick : Nat) :
    Echoes { w with recent := bytes.reverse ++ w.recent } (t.print text tick) where
  unlimited := h.unlimited
  unclogged := h.unclogged
  spells := by
    rw [Terminal.contents_print]
    have hbytes :
        Writer.bytes { w with recent := bytes.reverse ++ w.recent } = w.bytes ++ bytes := by
      simp [Writer.bytes]
    rw [hbytes]
    exact h.spells.append hspells

/-- Two pointers that differ in their output alone, the one's terminal showing what the other's
writer has written. -/
def Mirrors (f g : Focus) : Prop :=
  ∃ w t tick,
    f.shared.get outputKey = .ok (.writer w) ∧
    g = { f with shared := f.shared.insert outputKey (.terminal t tick) } ∧
    Echoes w t

variable {Q : Fault → Prop}

theorem agree_apart
    {α : Type} {act : Act Focus α}
    (hact : Apart act)
    (hQ : ∀ fault, Q fault) :
    Agree Mirrors Q act act := by
  rintro f _ ⟨w, t, tick, hwriter, rfl, hechoes⟩
  have hsame : act f = reshared f.shared (act f) := hact f f.shared
  have hmirrors :
      ∀ f' : Focus, f' = { f' with shared := f.shared } →
        Mirrors f' { f' with shared := f.shared.insert outputKey (.terminal t tick) } := by
    intro f' hf'
    have hshared : f'.shared = f.shared := by
      rw [hf']
    refine ⟨w, t, tick, ?_, ?_, hechoes⟩
    · rw [hshared]
      exact hwriter
    · rw [hshared]
  rw [hact f (f.shared.insert outputKey (.terminal t tick))]
  cases hf : act f with
  | ok a f' =>
      rw [hf] at hsame
      injection hsame with _ hf'
      exact .ok a (hmirrors f' hf')
  | error fault f' =>
      rw [hf] at hsame
      injection hsame with _ hf'
      exact .error (hQ fault) (hmirrors f' hf')

theorem print_mirrors
    {bytes : List UInt8} {text : String}
    (hspells : Spells bytes text) :
    Agree Mirrors Q (print bytes text) (print bytes text) := by
  rintro f _ ⟨w, t, tick, hwriter, rfl, hechoes⟩
  have hwrite :
      print bytes text f =
        .ok () { f with shared :=
          f.shared.insert outputKey (.writer { w with recent := bytes.reverse ++ w.recent }) } := by
    simp [print, onShared, zoom, Bag.update, hwriter, Sink.put,
      Writer.writeAll_unlimited hechoes.unlimited]
  have hshow :
      print bytes text
          { f with shared := f.shared.insert outputKey (.terminal t tick) } =
        .ok () { f with shared :=
          f.shared.insert outputKey (.terminal (t.print text tick) tick) } := by
    simp [print, onShared, zoom, Bag.update, Sink.put, Bag.insert_insert]
  rw [hwrite, hshow]
  refine .ok () ⟨_, t.print text tick, tick, Bag.get_insert_self _ _ _, ?_, ?_⟩
  · rw [Bag.insert_insert]
  · exact hechoes.print hspells tick

theorem flush_mirrors :
    Agree Mirrors Q flushOutput flushOutput := by
  rintro f _ ⟨w, t, tick, hwriter, rfl, hechoes⟩
  let flushed : Writer := { w with flushes := w.flushes + 1 }
  have hclear : w.isClogged = false := by
    simp [Writer.isClogged, hechoes.unclogged]
  have hwrite :
      flushOutput f =
        .ok () { f with shared := f.shared.insert outputKey (.writer flushed) } := by
    simp [flushOutput, hwriter, onShared, zoom, Bag.update, Sink.flush, Writer.flush, hclear,
      flushed]
  have hshow :
      flushOutput { f with shared := f.shared.insert outputKey (.terminal t tick) } =
        .ok () { f with shared := f.shared.insert outputKey (.terminal t tick) } := by
    simp [flushOutput, onShared, zoom, Bag.update, Sink.flush, Bag.insert_insert]
  rw [hwrite, hshow]
  refine .ok () ⟨flushed, t, tick, Bag.get_insert_self _ _ _, ?_, ?_⟩
  · rw [Bag.insert_insert]
  · exact ⟨hechoes.unlimited, hechoes.unclogged, hechoes.spells⟩

theorem input_mirrors
    {α : Type} (act : Act Source α)
    (hQ : ∀ fault, Q fault) :
    Agree Mirrors Q
      (onShared (Bag.update inputKey act))
      (onShared (Bag.update inputKey act)) := by
  rintro f _ ⟨w, t, tick, hwriter, rfl, hechoes⟩
  have hother : outputKey.name ≠ inputKey.name := by
    decide
  have hmirrors :
      ∀ source : Source,
        Mirrors
          { f with shared := f.shared.insert inputKey source }
          { f with shared :=
            (f.shared.insert outputKey (.terminal t tick)).insert inputKey source } := by
    intro source
    refine ⟨w, t, tick, ?_, ?_, hechoes⟩
    · rw [Bag.get_insert_of_ne hother.symm]
      exact hwriter
    · rw [Bag.insert_comm hother]
  unfold onShared zoom Bag.update
  dsimp only
  rw [Bag.get_insert_of_ne hother]
  cases f.shared.get inputKey with
  | error fault =>
      exact .error (hQ fault) ⟨w, t, tick, hwriter, rfl, hechoes⟩
  | ok source =>
      dsimp only
      cases act source with
      | ok a source' =>
          exact .ok a (hmirrors source')
      | error fault source' =>
          exact .error (hQ fault) (hmirrors source')

/-- Programs cannot tell a captured terminal from a writer. -/
theorem respects_mirrors :
    Respects Mirrors (fun _ _ => True) (fun _ => True) where
  operate _ _ _ := agree_apart (apart_onState _) fun _ => trivial
  choose := agree_apart (apart_onState _) fun _ => trivial
  toggle := agree_apart (apart_onState _) fun _ => trivial
  turn _ _ _ := agree_apart (fun _ _ => rfl) fun _ => trivial
  bridge := agree_apart apart_skip fun _ => trivial
  look _ _ := agree_apart (apart_ask fun _ _ => rfl) fun _ => trivial
  mark _ _ _ := agree_apart (apart_mark _ _) fun _ => trivial
  print _ _ _ _ hspells := print_mirrors hspells
  flush _ _ := flush_mirrors
  input _ act _ _ := input_mirrors act fun _ => trivial
  widen _ _ _ := trivial
  underfoot := agree_apart (apart_ask fun _ _ => rfl) fun _ => trivial
  inString := agree_apart (apart_ask fun _ _ => rfl) fun _ => trivial
  closeString := agree_apart (fun _ _ => rfl) fun _ => trivial
  move := agree_apart apart_skip fun _ => trivial

end Mirrors

end Befunge
end FungeTrace
