import FungeTrace.Proofs.Entries
import FungeTrace.Proofs.Lone

/-!
# Soundness of Befunge-93 runs

In a plane, a pointer that stands on a cell, heads in one of the four directions and holds its stack,
its string mode and its generator keeps doing so.  Every command respects this, and so do strides,
ticks and runs, whatever they end with.  Fetching a cell and moving on therefore never fail, and the
faults of a run are those that the executed command may raise on its own account.
-/

namespace FungeTrace
namespace Befunge

open Focus Act

section Entries

/-- The entries that every pointer holds. -/
structure Furnished (b : Bag) : Prop where
  stack : ∃ stack, b.get stackKey = .ok stack
  stringMode : ∃ mode, b.get stringModeKey = .ok mode
  random : ∃ generator, b.get randomKey = .ok generator

theorem Furnished.insert_stack
    {b : Bag}
    (h : Furnished b)
    (stack : Stack) :
    Furnished (b.insert stackKey stack) where
  stack := ⟨stack, Bag.get_insert_self b stackKey stack⟩
  stringMode := by
    rw [Bag.get_insert_of_ne (by decide)]
    exact h.stringMode
  random := by
    rw [Bag.get_insert_of_ne (by decide)]
    exact h.random

theorem Furnished.insert_stringMode
    {b : Bag}
    (h : Furnished b)
    (mode : Bool) :
    Furnished (b.insert stringModeKey mode) where
  stack := by
    rw [Bag.get_insert_of_ne (by decide)]
    exact h.stack
  stringMode := ⟨mode, Bag.get_insert_self b stringModeKey mode⟩
  random := by
    rw [Bag.get_insert_of_ne (by decide)]
    exact h.random

theorem Furnished.insert_random
    {b : Bag}
    (h : Furnished b)
    (generator : Generator) :
    Furnished (b.insert randomKey generator) where
  stack := by
    rw [Bag.get_insert_of_ne (by decide)]
    exact h.stack
  stringMode := by
    rw [Bag.get_insert_of_ne (by decide)]
    exact h.stringMode
  random := ⟨generator, Bag.get_insert_self b randomKey generator⟩

theorem furnished_newIp
    (space : Space UInt8) (supply : Supply) :
    Furnished (newIp space supply).1.state where
  stack := by
    refine ⟨[], ?_⟩
    change
      (((Bag.empty.insert stackKey []).insert stringModeKey false).insert randomKey _).get
        stackKey = _
    rw [Bag.get_insert_of_ne (by decide), Bag.get_insert_of_ne (by decide)]
    exact Bag.get_insert_self _ _ _
  stringMode := by
    refine ⟨false, ?_⟩
    change
      (((Bag.empty.insert stackKey []).insert stringModeKey false).insert randomKey _).get
        stringModeKey = _
    rw [Bag.get_insert_of_ne (by decide)]
    exact Bag.get_insert_self _ _ _
  random := ⟨_, Bag.get_insert_self _ _ _⟩

/-- An entry that is absent or of its key's type. -/
def Admissible {α : Type} [Storable α] (b : Bag) (key : Key α) : Prop :=
  b.get key = .error (.missingState key.name) ∨ ∃ value, b.get key = .ok value

/-- Shared state whose streams are absent or of the right type. -/
structure Streamed (b : Bag) : Prop where
  input : Admissible b inputKey
  output : Admissible b outputKey

theorem Streamed.insert_input
    {b : Bag}
    (h : Streamed b)
    (source : Source) :
    Streamed (b.insert inputKey source) where
  input := .inr ⟨source, Bag.get_insert_self b inputKey source⟩
  output := by
    unfold Admissible
    rw [Bag.get_insert_of_ne (by decide)]
    exact h.output

theorem Streamed.insert_output
    {b : Bag}
    (h : Streamed b)
    (sink : Sink) :
    Streamed (b.insert outputKey sink) where
  input := by
    unfold Admissible
    rw [Bag.get_insert_of_ne (by decide)]
    exact h.input
  output := .inr ⟨sink, Bag.get_insert_self b outputKey sink⟩

theorem Admissible.error
    {α : Type} [Storable α] {b : Bag} {key : Key α} {fault : Fault}
    (h : Admissible b key)
    (hget : b.get key = .error fault) :
    fault = .missingState key.name := by
  rcases h with hmissing | ⟨value, hok⟩
  · rw [hmissing] at hget
    exact (Except.error.inj hget).symm
  · rw [hok] at hget
    contradiction

end Entries

section Primitives

/-- A pointer in order: it stands on a cell of a space of a given shape, heads in a direction of the
plane and holds its entries.  If the streams are `typed`, they stay so. -/
structure Sound (shape : Shape) (typed : Prop) (f : Focus) : Prop where
  shape : f.space.shape = shape
  inside : f.space.contains f.ip.position = true
  heading : f.ip.direction ∈ cardinals
  furnished : Furnished f.ip.state
  streams : typed → Streamed f.shared

variable {shape : Shape} {typed : Prop} {width height : Nat}
  {f g : Focus} {Q : Fault → Prop}

/-- An action that keeps a pointer in order and does not fail agrees with itself, whatever faults
are allowed. -/
theorem agree_of_ok
    {α : Type} {act : Act Focus α}
    (h : ∀ f, Sound shape typed f → ∃ a g, act f = .ok a g ∧ Sound shape typed g) :
    Agree (Diagonal (Sound shape typed)) Q act act := by
  rintro f _ ⟨rfl, hf⟩
  obtain ⟨a, g, hact, hg⟩ := h f hf
  rw [hact]
  exact .ok a ⟨rfl, hg⟩

theorem agree_onState
    {α β : Type} [Storable α] {key : Key α} {act : Act α β}
    (hget : ∀ b, Furnished b → ∃ value, b.get key = .ok value)
    (hinsert : ∀ b, Furnished b → ∀ value : α, Furnished (b.insert key value))
    (hact : ∀ value fault value', act value = .error fault value' → Q fault) :
    Agree (Diagonal (Sound shape typed)) Q
      (onState (Bag.update key act))
      (onState (Bag.update key act)) := by
  apply agree_zoom
  · intro f x b hf hupdate
    obtain ⟨_, value, _, _, rfl⟩ := Bag.update_ok hupdate
    exact { hf with furnished := hinsert _ hf.furnished value }
  · intro f fault b hf hupdate
    rcases Bag.update_error hupdate with ⟨hmissing, _⟩ | ⟨_, value, _, hfault, rfl⟩
    · obtain ⟨value, hvalue⟩ := hget _ hf.furnished
      rw [hvalue] at hmissing
      contradiction
    · exact ⟨hact _ _ _ hfault, { hf with furnished := hinsert _ hf.furnished value }⟩

theorem agree_onShared
    {α β : Type} [Storable α] {key : Key α} {act : Act α β}
    (hkey : ∀ b, Streamed b → Admissible b key)
    (hinsert : ∀ b, Streamed b → ∀ value : α, Streamed (b.insert key value))
    (hmissing : Q (.missingState key.name))
    (hmismatch : ¬ typed → Q (.stateTypeMismatch key.name))
    (hact : ∀ value fault value', act value = .error fault value' → Q fault) :
    Agree (Diagonal (Sound shape typed)) Q
      (onShared (Bag.update key act))
      (onShared (Bag.update key act)) := by
  apply agree_zoom
  · intro f x b hf hupdate
    obtain ⟨_, value, _, _, rfl⟩ := Bag.update_ok hupdate
    exact { hf with streams := fun ht => hinsert _ (hf.streams ht) value }
  · intro f fault b hf hupdate
    rcases Bag.update_error hupdate with ⟨hget, rfl⟩ | ⟨_, value, _, hfault, rfl⟩
    · refine ⟨?_, hf⟩
      by_cases ht : typed
      · rw [(hkey _ (hf.streams ht)).error hget]
        exact hmissing
      · rcases Bag.get_error hget with rfl | rfl
        · exact hmissing
        · exact hmismatch ht
    · refine ⟨hact _ _ _ hfault, ?_⟩
      exact { hf with streams := fun ht => hinsert _ (hf.streams ht) value }

theorem onStack_sound
    {α : Type} {act : Act Stack α}
    (hact : ∀ stack fault stack', act stack = .error fault stack' → Q fault) :
    Agree (Diagonal (Sound shape typed)) Q (onStack act) (onStack act) :=
  agree_onState
    (fun _ h => h.stack)
    (fun _ h => h.insert_stack)
    hact

theorem axis_of_mem_cardinals
    {d : Direction}
    (h : d ∈ cardinals) :
    d.axis?.isSome = true ∧ d.dims = 2 := by
  simp only [cardinals, List.mem_cons, List.not_mem_nil, or_false] at h
  rcases h with rfl | rfl | rfl | rfl <;> exact ⟨rfl, rfl⟩

/-- In a plane a pointer in order can always move on. -/
theorem skip_sound
    (hplane : shape.plane? = some (width, height))
    (hf : Sound shape typed f) :
    ∃ a g, skip f = .ok a g ∧ Sound shape typed g := by
  obtain ⟨haxis, hdims⟩ := axis_of_mem_cardinals hf.heading
  have hplane' : f.space.shape.plane? = some (width, height) := by
    rw [hf.shape]
    exact hplane
  obtain ⟨position, hmove, hinside⟩ :=
    Space.move_of_plane hplane' haxis hdims hf.inside
  refine ⟨(), { f with ip := { f.ip with position } }, ?_, ?_⟩
  · simp [skip, hmove]
  · exact { hf with inside := hinside }

theorem underfoot_sound
    (hf : Sound shape typed f) :
    ∃ cell,
      f.space.read f.ip.position = .ok cell ∧
      underfoot f = .ok cell f := by
  obtain ⟨cell, hread⟩ := Space.read_of_contains hf.inside
  exact ⟨cell, hread, by simp [underfoot, hread, Act.ofExcept]⟩

theorem inString_sound
    (hf : Sound shape typed f) :
    ∃ mode,
      f.ip.state.get stringModeKey = .ok mode ∧
      inString f = .ok mode f := by
  obtain ⟨mode, hmode⟩ := hf.furnished.stringMode
  exact ⟨mode, hmode, by simp [inString, hmode, Act.ofExcept]⟩

theorem mark_sound
    (hplane : shape.plane? = some (width, height))
    (hQ : ∀ axis index size, Q (.indexOutOfRange axis index size))
    (x y : Int32) (cell : UInt8) :
    Agree (Diagonal (Sound shape typed)) Q
      (mark (address x y) cell)
      (mark (address x y) cell) := by
  rintro f _ ⟨rfl, hf⟩
  have hplane' : f.space.shape.plane? = some (width, height) := by
    rw [hf.shape]
    exact hplane
  unfold mark
  cases hwrite : f.space.write (address x y) cell with
  | error fault =>
      obtain ⟨axis, index, size, rfl⟩ := Space.write_error_of_plane hplane' hwrite
      exact .error (hQ axis index size) ⟨rfl, hf⟩
  | ok space =>
      have hshape : space.shape = f.space.shape := Space.write_shape hwrite
      have hinside : space.contains f.ip.position = true := by
        rw [Space.contains_iff_of_plane (hshape ▸ hplane'),
          ← Space.contains_iff_of_plane hplane']
        exact hf.inside
      exact .ok () ⟨rfl, { hf with shape := hshape.trans hf.shape, inside := hinside }⟩

theorem look_sound
    (hplane : shape.plane? = some (width, height))
    (hQ : ∀ axis index size, Q (.indexOutOfRange axis index size))
    (x y : Int32) :
    Agree (Diagonal (Sound shape typed)) Q
      (look (address x y))
      (look (address x y)) := by
  apply agree_ask
  intro f fault hf hread
  have hplane' : f.space.shape.plane? = some (width, height) := by
    rw [hf.shape]
    exact hplane
  obtain ⟨axis, index, size, rfl⟩ := Space.read_error_of_plane hplane' hread
  exact hQ axis index size

theorem writeAll_error
    {bytes : List UInt8} {w w' : Writer} {fault : Fault}
    (h : Writer.writeAll bytes w = .error fault w') :
    fault = .stream .sinkFull := by
  induction bytes generalizing w with
  | nil =>
      contradiction
  | cons byte rest ih =>
      unfold Writer.writeAll at h
      split at h
      · simp only [EStateM.Result.error.injEq] at h
        exact h.1.symm
      · exact ih h

/-- A sink refuses bytes only because it is full. -/
theorem put_error
    {bytes : List UInt8} {text : String} {sink sink' : Sink} {fault : Fault}
    (h : Sink.put bytes text sink = .error fault sink') :
    fault = .stream .sinkFull := by
  cases sink with
  | terminal t tick =>
      contradiction
  | writer w =>
      unfold Sink.put at h
      cases hw : Writer.writeAll bytes w with
      | ok _ w' =>
          simp [hw] at h
      | error fault' w' =>
          simp only [hw, EStateM.Result.error.injEq] at h
          rw [← h.1]
          exact writeAll_error hw

theorem flush_sound
    (hQ : Q (.stream .sinkFull)) :
    Agree (Diagonal (Sound shape typed)) Q flushOutput flushOutput := by
  rintro f _ ⟨rfl, hf⟩
  rcases flushOutput_cases f with
    ⟨_, hflush⟩ | ⟨sink, _, ⟨sink', _, hflush⟩ | ⟨_, hflush⟩⟩
  · rw [hflush]
    exact .ok () ⟨rfl, hf⟩
  · rw [hflush]
    exact .ok () ⟨rfl, { hf with streams := fun ht => (hf.streams ht).insert_output sink' }⟩
  · rw [hflush]
    exact .error hQ ⟨rfl, hf⟩

theorem turn_sound
    {direction : Direction}
    (hdirection : direction ∈ cardinals)
    (hf : Sound shape typed f) :
    ∃ a g, turn direction f = .ok a g ∧ Sound shape typed g :=
  ⟨(), _, rfl, { hf with heading := hdirection }⟩

theorem closeString_sound
    (hf : Sound shape typed f) :
    ∃ a g, closeString f = .ok a g ∧ Sound shape typed g :=
  ⟨(), _, rfl, { hf with furnished := hf.furnished.insert_stringMode false }⟩

end Primitives

section Strides

variable {shape : Shape} {typed : Prop} {width height : Nat}
  {f g : Focus} {fault : Fault}

/-- Whether a command may end in a fault: one of its own, or one of a stream of the wrong type. -/
def Command.mayFail (typed : Prop) (command : Command) (fault : Fault) : Prop :=
  command.mayRaise fault ∨ (¬ typed ∧ ∃ key, fault = .stateTypeMismatch key)

/-- Strides in a plane keep a pointer in order, and commands fail only as they may. -/
theorem respects_sound
    (hplane : shape.plane? = some (width, height)) :
    Respects
      (Diagonal (Sound shape typed))
      (Command.mayFail typed)
      (fun fault => ∃ command : Command, command.mayFail typed fault) where
  operate command act hcovers :=
    onStack_sound fun stack fault stack' h => .inl (hcovers stack fault stack' h)
  choose :=
    agree_onState
      (fun _ h => h.random)
      (fun _ h => h.insert_random)
      (fun value fault value' h => by
        cases h)
  toggle :=
    agree_onState
      (fun _ h => h.stringMode)
      (fun _ h => h.insert_stringMode)
      (fun value fault value' h => by
        cases h)
  turn _ _ hdirection :=
    agree_of_ok fun _ hf => turn_sound hdirection hf
  bridge :=
    agree_of_ok fun _ hf => skip_sound hplane hf
  look x y :=
    look_sound hplane (fun _ _ _ => .inl (.inl rfl)) x y
  mark x y cell :=
    mark_sound hplane (fun _ _ _ => .inl (.inr rfl)) x y cell
  print command bytes text hcommand _ := by
    refine
      agree_onShared
        (fun _ h => h.output)
        (fun _ h => h.insert_output)
        (.inl (.inr ⟨rfl, hcommand⟩))
        (fun ht => .inr ⟨ht, _, rfl⟩)
        ?_
    intro sink fault sink' h
    rw [put_error h]
    exact .inl (.inr (.inr hcommand))
  flush _ hcommand :=
    flush_sound (.inl (hcommand.imp_right .inl))
  input command act hcommand hcovers :=
    agree_onShared
      (fun _ h => h.input)
      (fun _ h => h.insert_input)
      (.inl (.inl ⟨rfl, hcommand⟩))
      (fun ht => .inr ⟨ht, _, rfl⟩)
      (fun source fault source' h => .inl (hcovers source fault source' h))
  widen command fault h := ⟨command, h⟩
  underfoot := by
    refine agree_of_ok ?_
    intro f hf
    obtain ⟨cell, _, hunder⟩ := underfoot_sound hf
    exact ⟨cell, f, hunder, hf⟩
  inString := by
    refine agree_of_ok ?_
    intro f hf
    obtain ⟨mode, _, hmode⟩ := inString_sound hf
    exact ⟨mode, f, hmode, hf⟩
  closeString :=
    agree_of_ok fun _ hf => closeString_sound hf
  move :=
    agree_of_ok fun _ hf => skip_sound hplane hf

theorem stride_sound
    {decision : Decision UInt8}
    (hplane : shape.plane? = some (width, height))
    (hf : Sound shape typed f)
    (h : stride f = .ok decision g) :
    Sound shape typed g :=
  diagonal_ok (stride_agree (respects_sound hplane)) hf h

/-- A cell that is part of a string is taken without fault. -/
theorem gather_sound
    (hf : Sound shape typed f)
    (cell : UInt8) :
    ∃ a g, gather cell f = .ok a g ∧ Sound shape typed g := by
  unfold gather
  split
  · exact closeString_sound hf
  · obtain ⟨stack, hstack⟩ := hf.furnished.stack
    refine
      ⟨(), { f with ip := { f.ip with
        state := f.ip.state.insert stackKey (ofCell cell :: stack) } }, ?_, ?_⟩
    · simp [onStack, onState, zoom, Bag.update, hstack, Stack.push]
    · exact { hf with furnished := hf.furnished.insert_stack _ }

/-- A stride fails out of string mode only, as the command of the cell that the pointer stands on
may. -/
theorem stride_error
    (hplane : shape.plane? = some (width, height))
    (hf : Sound shape typed f)
    (h : stride f = .error fault g) :
    Sound shape typed g ∧
      ∃ cell,
        f.space.read f.ip.position = .ok cell ∧
        f.ip.state.get stringModeKey = .ok false ∧
        (Command.decode cell).mayFail typed fault := by
  obtain ⟨cell, hread, hunder⟩ := underfoot_sound hf
  obtain ⟨mode, hmode, hin⟩ := inString_sound hf
  unfold stride at h
  rw [bind_ok hunder, bind_ok hin] at h
  cases mode with
  | true =>
      obtain ⟨_, f', hgather, hf'⟩ := gather_sound hf cell
      obtain ⟨_, f'', hskip, _⟩ := skip_sound hplane hf'
      simp only [if_true] at h
      rw [bind_ok hgather, bind_ok hskip] at h
      contradiction
  | false =>
      have hrespects :
          Respects (Diagonal (Sound shape typed)) (Command.mayFail typed) _ :=
        respects_sound hplane
      have heffect :=
        effect_agree hrespects (Command.decode cell) fun _ => mem_cardinals_of_decode
      simp only [Bool.false_eq_true, if_false] at h
      cases hact : effect (Command.decode cell) f with
      | error fault' f' =>
          rw [bind_error hact, EStateM.Result.error.injEq] at h
          obtain ⟨rfl, rfl⟩ := h
          obtain ⟨hraise, hf'⟩ := diagonal_error heffect hf hact
          exact ⟨hf', cell, hread, hmode, hraise⟩
      | ok _ f' =>
          rw [bind_ok hact] at h
          split at h
          · contradiction
          · obtain ⟨_, f'', hskip, _⟩ := skip_sound hplane (diagonal_ok heffect hf hact)
            rw [bind_ok hskip] at h
            contradiction

/-- A run of strides fails as some command may. -/
theorem strides_error
    {n k : Nat}
    (hplane : shape.plane? = some (width, height))
    (hf : Sound shape typed f)
    (h : strides n f = (k, .error fault g)) :
    ∃ command : Command, command.mayFail typed fault := by
  induction n generalizing f k with
  | zero =>
      simp [strides] at h
  | succ n ih =>
      unfold strides at h
      cases hstride : stride f with
      | error fault' f' =>
          obtain ⟨_, cell, _, _, hfail⟩ := stride_error hplane hf hstride
          simp only [hstride, Prod.mk.injEq, EStateM.Result.error.injEq] at h
          rw [← h.2.1]
          exact ⟨_, hfail⟩
      | ok decision f' =>
          rw [hstride] at h
          cases decision with
          | halt result =>
              simp at h
          | proceed =>
              simp only [Prod.mk.injEq] at h
              exact ih (stride_sound hplane hf hstride) (Prod.ext rfl h.2)

/-- A pointer that a run starts with is in order. -/
theorem newIp_sound
    {space : Space UInt8}
    (hplane : space.shape.plane? = some (width, height))
    (shared : Bag) (supply : Supply) :
    Sound space.shape (Streamed shared) { ip := (newIp space supply).1, space, shared } where
  shape := rfl
  inside := Space.contains_origin hplane
  heading := by
    change space.heading ∈ cardinals
    rw [Space.heading_of_plane hplane]
    simp [cardinals]
  furnished := furnished_newIp space supply
  streams h := h

end Strides

end Befunge

namespace Engine

open Befunge Act

variable {σ : Type}

section Reachability

variable {C α : Type}

/-- The engine that a computation leaves, also after a fault. -/
def left : Reached C σ α → Engine C σ
  | .ok _ e => e
  | .error _ e => e

/-- Engines that ticks and runs lead to, whatever these end with. -/
inductive Reachable
    (e₀ : Engine C σ) :
    Engine C σ →
      Prop
  | start :
      Reachable e₀ e₀
  | tick
      {e : Engine C σ}
      {r : Reached C σ (Decision C)}
      (h : Reachable e₀ e)
      (htick : tick e = some r) :
      Reachable e₀ (left r)
  | runFor
      {e : Engine C σ}
      {r : Reached C σ (RunOutcome C)}
      (h : Reachable e₀ e)
      (n : Nat)
      (hrun : runFor n e = some r) :
      Reachable e₀ (left r)
  | run
      {e : Engine C σ}
      {r : Reached C σ (Option C)}
      (h : Reachable e₀ e)
      (hrun : run e = some r) :
      Reachable e₀ (left r)

theorem Reachable.trans
    {e₀ e₁ e₂ : Engine C σ}
    (h₁ : Reachable e₀ e₁)
    (h₂ : Reachable e₁ e₂) :
    Reachable e₀ e₂ := by
  induction h₂ with
  | start =>
      exact h₁
  | tick _ htick ih =>
      exact .tick ih htick
  | runFor _ n hrun ih =>
      exact .runFor ih n hrun
  | run _ hrun ih =>
      exact .run ih hrun

end Reachability

section Invariant

/-- An engine without observers whose only pointer is in order. -/
structure Standing
    (shape : Shape) (typed : Prop) (id : Nat)
    (e : Engine UInt8 σ) : Prop where
  language : e.language = Befunge.language
  observers : e.observers = []
  pointer : ∃ f, e = e.withFocus f ∧ f.ip.id = id ∧ Sound shape typed f

/-- A fault of the command that the only pointer stands on, which is not in string mode. -/
def Excused (e : Engine UInt8 σ) (fault : Fault) : Prop :=
  ∃ ip cell,
    e.machine.ips = [ip] ∧
    ip.state.get stringModeKey = .ok false ∧
    e.machine.space.read ip.position = .ok cell ∧
    (Command.decode cell).mayRaise fault

variable {shape : Shape} {typed : Prop} {id width height : Nat} {e : Engine UInt8 σ}

theorem tick_standing
    (hplane : shape.plane? = some (width, height))
    (he : Standing shape typed id e) :
    ∃ r,
      tick e = some r ∧
      Standing shape typed id (left r) ∧
      ∀ fault e', r = .error fault e' → typed → Excused e fault := by
  obtain ⟨hlanguage, hobservers, f, hfocus, hid, hf⟩ := he
  have htick := tick_plain hlanguage hobservers f
  rw [← hfocus] at htick
  refine ⟨_, htick, ?_⟩
  cases hstride : stride f with
  | ok decision g =>
      have hgid : g.ip.id = id := (stride_id hstride).trans hid
      refine ⟨⟨hlanguage, hobservers, g, rfl, hgid, ?_⟩, ?_⟩
      · exact stride_sound hplane hf hstride
      · intro fault e' h
        contradiction
  | error fault g =>
      have hgid : g.ip.id = f.ip.id :=
        (diagonal_error (stride_agree (respects_id f.ip.id)) rfl hstride).2
      obtain ⟨hg, cell, hread, hmode, hraise⟩ := stride_error hplane hf hstride
      refine ⟨⟨hlanguage, hobservers, g, rfl, hgid.trans hid, hg⟩, ?_⟩
      intro fault' e' h ht
      simp only [EStateM.Result.error.injEq] at h
      rw [← h.1, hfocus]
      refine ⟨f.ip, cell, rfl, hmode, hread, ?_⟩
      rcases hraise with hraise | ⟨hnot, _⟩
      · exact hraise
      · exact absurd ht hnot

theorem launch_standing
    (he : Standing shape typed id e) :
    launch e = .ok () { e with launched := true } ∧
      Standing shape typed id { e with launched := true } := by
  obtain ⟨hlanguage, hobservers, f, hfocus, hid, hf⟩ := he
  constructor
  · exact launch_silent (hobservers ▸ silent_nil .launch)
  · refine ⟨hlanguage, hobservers, f, ?_, hid, hf⟩
    rw [hfocus]
    rfl

theorem finish_standing
    (he : Standing shape typed id e)
    (result : Option UInt8) :
    finish result e = .ok result { e with halted := true } ∧
      Standing shape typed id { e with halted := true } := by
  obtain ⟨hlanguage, hobservers, f, hfocus, hid, hf⟩ := he
  constructor
  · exact finish_silent (hobservers ▸ silent_nil .halt) result
  · refine ⟨hlanguage, hobservers, f, ?_, hid, hf⟩
    rw [hfocus]
    rfl

/-- What a run from `e` ends with: its only pointer is in order, and a fault is one that a tick on the
way ended in. -/
def Sustained
    {α : Type}
    (shape : Shape) (typed : Prop) (id : Nat)
    (e : Engine UInt8 σ) (r : Reached UInt8 σ α) : Prop :=
  Standing shape typed id (left r) ∧
    ∀ fault e', r = .error fault e' →
      ∃ e₁,
        Reachable e e₁ ∧
        tick e₁ = some (.error fault e') ∧
        (typed → Excused e₁ fault)

theorem Sustained.of_ok
    {α : Type} {e' : Engine UInt8 σ}
    (h : Standing shape typed id e')
    (a : α) :
    Sustained shape typed id e (.ok a e') := by
  refine ⟨h, ?_⟩
  intro fault e'' hfault
  contradiction

theorem Sustained.after
    {α : Type} {e' : Engine UInt8 σ} {r : Reached UInt8 σ α}
    (hreach : Reachable e e')
    (h : Sustained shape typed id e' r) :
    Sustained shape typed id e r := by
  refine ⟨h.1, ?_⟩
  intro fault e'' hfault
  obtain ⟨e₁, he₁, htick, hexcused⟩ := h.2 fault e'' hfault
  exact ⟨e₁, hreach.trans he₁, htick, hexcused⟩

theorem Sustained.of_tick
    {α : Type} {fault : Fault} {e' : Engine UInt8 σ}
    (htick : tick e = some (.error fault e'))
    (h : Standing shape typed id e')
    (hexcused : typed → Excused e fault) :
    Sustained shape typed id e (.error fault e' : Reached UInt8 σ α) := by
  refine ⟨h, ?_⟩
  intro fault' e'' hfault
  simp only [EStateM.Result.error.injEq] at hfault
  obtain ⟨rfl, rfl⟩ := hfault
  exact ⟨e, .start, htick, hexcused⟩

theorem tickWithin_sustained
    (hplane : shape.plane? = some (width, height))
    (he : Standing shape typed id e)
    (n : Nat) :
    ∃ r, tickWithin e n = some r ∧ Sustained shape typed id e r := by
  induction n generalizing e with
  | zero =>
      exact ⟨_, rfl, .of_ok he _⟩
  | succ n ih =>
      obtain ⟨r, htick, hr, hexcused⟩ := tick_standing hplane he
      unfold tickWithin
      rw [htick]
      cases r with
      | error fault e' =>
          exact ⟨_, rfl, .of_tick htick hr (hexcused fault e' rfl)⟩
      | ok decision e' =>
          cases decision with
          | halt result =>
              obtain ⟨hfinish, hstanding⟩ := finish_standing hr result
              change finish result e' = _ at hfinish
              dsimp only
              rw [hfinish]
              exact ⟨_, rfl, .of_ok hstanding _⟩
          | proceed =>
              obtain ⟨r, hrun, hsustained⟩ := ih hr
              exact ⟨r, hrun, hsustained.after (.tick .start htick)⟩

theorem tickOn_sustained
    (hplane : shape.plane? = some (width, height))
    {r : Reached UInt8 σ (Option UInt8)}
    (hrun : tickOn e = some r) :
    Standing shape typed id e → Sustained shape typed id e r := by
  refine
    tickOn.partial_correctness
      (fun e r => Standing shape typed id e → Sustained shape typed id e r)
      ?_ e r hrun
  intro tickOn ih e r hr he
  obtain ⟨r', htick, hr', hexcused⟩ := tick_standing hplane he
  rw [htick] at hr
  cases r' with
  | error fault e' =>
      obtain rfl := Option.some.inj hr
      exact .of_tick htick hr' (hexcused fault e' rfl)
  | ok decision e' =>
      cases decision with
      | halt result =>
          obtain ⟨hfinish, hstanding⟩ := finish_standing hr' result
          change finish result e' = _ at hfinish
          obtain rfl := Option.some.inj hr
          rw [hfinish]
          exact .of_ok hstanding _
      | proceed =>
          exact (ih e' r hr hr').after (.tick .start htick)

theorem reachable_launched
    (he : Standing shape typed id e) :
    Reachable e { e with launched := true } := by
  have hrun : runFor 0 e = some (.ok .tickLimit { e with launched := true }) := by
    unfold runFor
    rw [(launch_standing he).1]
    rfl
  exact .runFor .start 0 hrun

theorem runFor_sustained
    (hplane : shape.plane? = some (width, height))
    (he : Standing shape typed id e)
    (n : Nat) :
    ∃ r, runFor n e = some r ∧ Sustained shape typed id e r := by
  obtain ⟨hlaunch, hlaunched⟩ := launch_standing he
  obtain ⟨r, hrun, hsustained⟩ := tickWithin_sustained hplane hlaunched n
  refine ⟨r, ?_, hsustained.after (reachable_launched he)⟩
  unfold runFor
  rw [hlaunch]
  exact hrun

theorem run_sustained
    (hplane : shape.plane? = some (width, height))
    (he : Standing shape typed id e)
    {r : Reached UInt8 σ (Option UInt8)}
    (hrun : run e = some r) :
    Sustained shape typed id e r := by
  obtain ⟨hlaunch, hlaunched⟩ := launch_standing he
  unfold run at hrun
  rw [hlaunch] at hrun
  exact (tickOn_sustained hplane hrun hlaunched).after (reachable_launched he)

/-- Ticks and runs of any outcome lead from order to order. -/
theorem standing_of_reachable
    {e₀ : Engine UInt8 σ}
    (hplane : shape.plane? = some (width, height))
    (h₀ : Standing shape typed id e₀)
    (h : Reachable e₀ e) :
    Standing shape typed id e := by
  induction h with
  | start =>
      exact h₀
  | tick _ htick ih =>
      obtain ⟨r, hr, hstanding, _⟩ := tick_standing hplane ih
      obtain rfl := Option.some.inj (htick.symm.trans hr)
      exact hstanding
  | runFor _ n hrun ih =>
      obtain ⟨r, hr, hsustained⟩ := runFor_sustained hplane ih n
      obtain rfl := Option.some.inj (hrun.symm.trans hr)
      exact hsustained.1
  | run _ hrun ih =>
      exact (run_sustained hplane ih hrun).1

end Invariant

section Starts

/-- The only live pointer of an engine, in order: it stands on a cell that can be read, it can move
on in the direction it heads in, and it holds its entries. -/
structure InOrder (e : Engine UInt8 σ) (ip : Ip) : Prop where
  live : e.machine.ips = [ip]
  inside : e.machine.space.contains ip.position = true
  heading : ip.direction ∈ cardinals
  furnished : Furnished ip.state
  cell : ∃ cell, e.machine.cellUnder? ip.id = some (.ok cell)
  move : ∃ position, e.machine.space.move ip.position ip.direction = .ok position

variable {width height id : Nat} {shape : Shape} {typed : Prop}

theorem Standing.inOrder
    {e : Engine UInt8 σ}
    (hplane : shape.plane? = some (width, height))
    (he : Standing shape typed id e) :
    ∃ ip, ip.id = id ∧ InOrder e ip := by
  obtain ⟨_, _, f, hfocus, hid, hf⟩ := he
  obtain ⟨haxis, hdims⟩ := axis_of_mem_cardinals hf.heading
  obtain ⟨position, hmove, _⟩ :=
    Space.move_of_plane (by rw [hf.shape]; exact hplane) haxis hdims hf.inside
  obtain ⟨cell, hread⟩ := Space.read_of_contains hf.inside
  refine ⟨f.ip, hid, ?_⟩
  rw [hfocus]
  exact {
    live := rfl
    inside := hf.inside
    heading := hf.heading
    furnished := hf.furnished
    cell := ⟨cell, (Machine.cellUnder?_withFocus e.machine f).trans (congrArg some hread)⟩
    move := ⟨position, hmove⟩ }

/-- A Befunge-93 engine in a plane stays in order for ever.  Ticks and bounded runs always end; with
streams that are absent or of the right type, a fault of a tick or a run is one that the command under
the pointer may raise. -/
theorem reachable_inOrder
    {space : Space UInt8} {t : Torus UInt8}
    (hbase : space.base = .torus t)
    (hdims : t.dims = 2)
    (shared : Bag) (supply : Supply) (memory : σ) :
    ∃ e₀,
      start space Befunge.language shared supply memory = .ok e₀ ∧
      ∀ e, Reachable e₀ e →
        (∃ ip, ip.id = supply.nextId ∧ InOrder e ip) ∧
        (∃ r, tick e = some r) ∧
        (∀ n, ∃ r, runFor n e = some r) ∧
        (Streamed shared →
          (∀ fault e', tick e = some (.error fault e') → Excused e fault) ∧
          (∀ n fault e', runFor n e = some (.error fault e') →
            ∃ e₁, Reachable e e₁ ∧ tick e₁ = some (.error fault e') ∧ Excused e₁ fault) ∧
          (∀ fault e', run e = some (.error fault e') →
            ∃ e₁, Reachable e e₁ ∧ tick e₁ = some (.error fault e') ∧ Excused e₁ fault)) := by
  obtain ⟨width, height, hsizes⟩ : ∃ width height, t.sizes = [width, height] :=
    List.length_eq_two.1 hdims
  have hplane : space.shape.plane? = some (width, height) :=
    Space.plane?_eq_some_iff.2 ⟨t, hbase, hsizes⟩
  have hstanding :
      Standing space.shape (Streamed shared) supply.nextId
        (fresh space shared supply memory) :=
    ⟨rfl, rfl, _, rfl, rfl, newIp_sound hplane shared supply⟩
  refine ⟨_, start_of_plane (by rw [hplane]; rfl) shared supply memory, ?_⟩
  intro e hreach
  have he := standing_of_reachable hplane hstanding hreach
  obtain ⟨r, htick, _, hexcused⟩ := tick_standing hplane he
  refine ⟨he.inOrder hplane, ⟨r, htick⟩, ?_, ?_⟩
  · intro n
    obtain ⟨r, hrun, _⟩ := runFor_sustained hplane he n
    exact ⟨r, hrun⟩
  · intro hstreamed
    refine ⟨?_, ?_, ?_⟩
    · intro fault e' hfault
      exact hexcused fault e' (Option.some.inj (htick.symm.trans hfault)) hstreamed
    · intro n fault e' hfault
      obtain ⟨r, hrun, hsustained⟩ := runFor_sustained hplane he n
      obtain ⟨e₁, he₁, htick₁, hexcused₁⟩ :=
        hsustained.2 fault e' (Option.some.inj (hrun.symm.trans hfault))
      exact ⟨e₁, he₁, htick₁, hexcused₁ hstreamed⟩
    · intro fault e' hfault
      obtain ⟨e₁, he₁, htick₁, hexcused₁⟩ := (run_sustained hplane he hfault).2 fault e' rfl
      exact ⟨e₁, he₁, htick₁, hexcused₁ hstreamed⟩

theorem reachable_inOrder_overlay :
    ∃ e₀ : Engine UInt8 Unit,
      start (.overlay (.ground (.torus Torus.shortRing)) [.ofList [(.planar 1 0, 103)]])
        Befunge.language .empty { dice := .loaded } () = .ok e₀ ∧
      Streamed .empty ∧
      ∀ e, Reachable e₀ e →
        (∃ ip, ip.id = 1 ∧ InOrder e ip) ∧
        ∀ fault e', tick e = some (.error fault e') → Excused e fault := by
  have hempty : Streamed .empty := by
    constructor
    · exact .inl (by simp [Bag.empty, Bag.get])
    · exact .inl (by simp [Bag.empty, Bag.get])
  have hbase :
      (Space.overlay (.ground (.torus Torus.shortRing)) [.ofList [(.planar 1 0, 103)]]).base =
        .torus Torus.shortRing :=
    rfl
  obtain ⟨e₀, hstart, hreach⟩ := reachable_inOrder hbase rfl .empty { dice := .loaded } ()
  refine ⟨e₀, hstart, hempty, ?_⟩
  intro e he
  obtain ⟨hip, _, _, hfaults⟩ := hreach e he
  exact ⟨hip, (hfaults hempty).1⟩

end Starts

end Engine
end FungeTrace
