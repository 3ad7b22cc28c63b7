import FungeTrace.Proofs.Depth
import FungeTrace.Proofs.Mirror
import FungeTrace.Proofs.Store

/-!
# Footprints of commands

A command reaches few parts of what it sees, and how it fails does not change that.

* `Command.reach` lists the parts that each command may change; `effect_beyond` says that all other
  parts stay as they are.
* Streams go one way: output is continued and input is used up, as `Along` says of an entry of the
  shared state.
* A command takes its operands before anything else can fail, so that a failure leaves the pointer
  as it was, up to operands that are gone: `Spent`.

`execute_footprint` puts these together for a command that is executed for one of many pointers.
-/

namespace FungeTrace

section Streams

/-- Output that comes behind earlier output. -/
def Sink.Continues (sink sink' : Sink) : Prop :=
  ∃ bytes text,
    sink'.bytes = sink.bytes ++ bytes ∧
    sink'.captured.contents = sink.captured.contents ++ text

/-- Output to which nothing was added. -/
def Sink.Idle (sink sink' : Sink) : Prop :=
  sink'.bytes = sink.bytes ∧ sink'.captured = sink.captured

/-- Input from which bytes were taken. -/
def Source.Drained (source source' : Source) : Prop :=
  source'.bytes <:+ source.bytes ∧ source'.failure = source.failure

theorem Sink.Idle.continues
    {sink sink' : Sink}
    (h : sink.Idle sink') :
    sink.Continues sink' :=
  ⟨[], "", by simpa using h.1, by simp [h.2]⟩

/-- A flush adds nothing to the output, also when it is refused. -/
theorem Sink.flush_idle :
    Act.Moves Sink.Idle flush := by
  intro sink
  cases sink with
  | terminal t tick =>
      exact ⟨rfl, rfl⟩
  | writer w =>
      cases hclogged : w.isClogged with
      | true =>
          simp [flush, Writer.flush, hclogged, Act.left, Idle]
      | false =>
          simp [flush, Writer.flush, hclogged, Act.left, Idle, bytes, Writer.bytes, captured]

theorem Sink.Continues.trans
    {sink sink₁ sink₂ : Sink}
    (h₁ : sink.Continues sink₁)
    (h₂ : sink₁.Continues sink₂) :
    sink.Continues sink₂ := by
  obtain ⟨bytes₁, text₁, hbytes₁, htext₁⟩ := h₁
  obtain ⟨bytes₂, text₂, hbytes₂, htext₂⟩ := h₂
  refine ⟨bytes₁ ++ bytes₂, text₁ ++ text₂, ?_, ?_⟩
  · rw [hbytes₂, hbytes₁, List.append_assoc]
  · rw [htext₂, htext₁, String.append_assoc]

/-- A writer keeps what it has, also when it is full before the end. -/
theorem Writer.writeAll_continues
    (bytes : List UInt8) (w : Writer) :
    ∃ more, (Act.left (writeAll bytes w)).bytes = w.bytes ++ more := by
  induction bytes generalizing w with
  | nil =>
      exact ⟨[], (List.append_nil _).symm⟩
  | cons byte rest ih =>
      unfold writeAll
      split
      · exact ⟨[], (List.append_nil _).symm⟩
      · obtain ⟨more, hmore⟩ := ih { w with recent := byte :: w.recent }
        refine ⟨byte :: more, ?_⟩
        rw [hmore]
        simp [bytes]

theorem Sink.put_continues
    (bytes : List UInt8) (text : String) :
    Act.Moves Sink.Continues (put bytes text) := by
  intro sink
  cases sink with
  | terminal t tick =>
      exact ⟨[], text, rfl, Terminal.contents_print t text tick⟩
  | writer w =>
      obtain ⟨more, hmore⟩ := Writer.writeAll_continues bytes w
      unfold put
      dsimp only
      cases hw : Writer.writeAll bytes w with
      | ok _ w' =>
          rw [hw] at hmore
          exact ⟨more, "", hmore, rfl⟩
      | error fault w' =>
          rw [hw] at hmore
          exact ⟨more, "", hmore, rfl⟩

theorem Source.readUnit_drained :
    Act.Moves Source.Drained readUnit := by
  intro source
  unfold readUnit
  split
  · exact ⟨List.suffix_rfl, rfl⟩
  · rename_i byte rest hbytes
    refine ⟨?_, rfl⟩
    rw [hbytes]
    exact List.suffix_cons byte rest

theorem Source.readInteger_drained :
    Act.Moves Source.Drained readInteger := by
  intro source
  have hsuffix :
      (source.bytes.dropWhile isBlank).dropWhile (!isBlank ·) <:+ source.bytes :=
    (List.dropWhile_suffix _).trans (List.dropWhile_suffix _)
  unfold readInteger
  dsimp only
  split
  · exact ⟨hsuffix, rfl⟩
  · split
    · exact ⟨hsuffix, rfl⟩
    · exact ⟨hsuffix, rfl⟩

end Streams

namespace Befunge

open Focus Act

variable {α β γ : Type}

section Parts

/-- A part of what a command sees. -/
inductive Part where
  | space
  /-- The number of the pointer. -/
  | number
  | position
  | direction
  /-- An entry of the pointer's own state. -/
  | entry (name : String)
  /-- An entry of the shared state. -/
  | shared (name : String)
deriving DecidableEq

/-- Whether a part is the same before and after a change. -/
def Part.Same : Part → Focus → Focus → Prop
  | space, f, g => g.space = f.space
  | number, f, g => g.ip.id = f.ip.id
  | position, f, g => g.ip.position = f.ip.position
  | direction, f, g => g.ip.direction = f.ip.direction
  | entry name, f, g => g.ip.state.entries[name]? = f.ip.state.entries[name]?
  | shared name, f, g => g.shared.entries[name]? = f.shared.entries[name]?

/-- The parts that a command may change. -/
def Command.reach : Command → List Part
  | .push _ | .add | .subtract | .multiply | .divide _ | .not | .greater
  | .duplicate | .swap | .discard | .get => [.entry stackKey.name]
  | .go _ => [.direction]
  | .random => [.direction, .entry randomKey.name]
  | .horizontalIf | .verticalIf => [.direction, .entry stackKey.name]
  | .stringMode => [.entry stringModeKey.name]
  | .outputNumber | .outputChar => [.entry stackKey.name, .shared outputKey.name]
  | .bridge => [.position]
  | .put => [.space, .entry stackKey.name]
  | .inputNumber | .inputChar =>
    [.entry stackKey.name, .shared inputKey.name, .shared outputKey.name]
  | .halt | .nop => []

/-- A change of the given parts only. -/
def Beyond (parts : List Part) (f g : Focus) : Prop :=
  ∀ part, part ∉ parts → part.Same f g

variable {parts : List Part} {f g h : Focus}

theorem Part.same_refl
    (part : Part) (f : Focus) :
    part.Same f f := by
  cases part <;> exact rfl

theorem beyond_refl
    (f : Focus) :
    Beyond parts f f :=
  fun part _ => part.same_refl f

theorem Beyond.trans
    (h₁ : Beyond parts f g)
    (h₂ : Beyond parts g h) :
    Beyond parts f h := by
  intro part hpart
  have hfirst := h₁ part hpart
  have hsecond := h₂ part hpart
  cases part <;> exact Eq.trans hsecond hfirst

theorem beyond_bind
    {act : Act Focus α} {next : α → Act Focus β}
    (hact : Moves (Beyond parts) act)
    (hnext : ∀ a, Moves (Beyond parts) (next a)) :
    Moves (Beyond parts) (act >>= next) := by
  refine moves_bind ?_ hact hnext
  intro f g h
  exact Beyond.trans

/-- A change of one entry of the pointer's own state. -/
theorem beyond_onState
    [Storable β] {key : Key β}
    (hkey : .entry key.name ∈ parts)
    (act : Act β α) :
    Moves (Beyond parts) (onState (Bag.update key act)) := by
  refine moves_zoom ?_
  intro f part hpart
  cases part with
  | entry name =>
      have hne : key.name ≠ name := by
        rintro rfl
        exact hpart hkey
      exact Bag.entries_update_of_ne hne act f.ip.state
  | _ =>
      rfl

/-- A change of one entry of the shared state. -/
theorem beyond_onShared
    [Storable β] {key : Key β}
    (hkey : .shared key.name ∈ parts)
    (act : Act β α) :
    Moves (Beyond parts) (onShared (Bag.update key act)) := by
  refine moves_zoom ?_
  intro f part hpart
  cases part with
  | shared name =>
      have hne : key.name ≠ name := by
        rintro rfl
        exact hpart hkey
      exact Bag.entries_update_of_ne hne act f.shared
  | _ =>
      rfl

theorem beyond_turn
    (hdirection : .direction ∈ parts)
    (direction : Direction) :
    Moves (Beyond parts) (turn direction) := by
  intro f part hpart
  cases part with
  | direction =>
      exact absurd hdirection hpart
  | _ =>
      rfl

theorem beyond_skip
    (hposition : .position ∈ parts) :
    Moves (Beyond parts) skip := by
  intro f
  unfold skip
  cases f.space.move f.ip.position f.ip.direction with
  | error fault =>
      exact beyond_refl f
  | ok position =>
      intro part hpart
      cases part with
      | position =>
          exact absurd hposition hpart
      | _ =>
          rfl

theorem beyond_mark
    (hspace : .space ∈ parts)
    (c : Coord) (cell : UInt8) :
    Moves (Beyond parts) (mark c cell) := by
  intro f
  unfold mark
  cases f.space.write c cell with
  | error fault =>
      exact beyond_refl f
  | ok space =>
      intro part hpart
      cases part with
      | space =>
          exact absurd hspace hpart
      | _ =>
          rfl

theorem beyond_look
    (c : Coord) :
    Moves (Beyond parts) (look c) :=
  moves_ask beyond_refl fun f => f.space.read c

/-- A flush does what flushing the output entry does, or nothing. -/
theorem moves_flushOutput
    {R : Focus → Focus → Prop}
    (hrefl : ∀ f, R f f)
    (hflush : Moves R (onShared (Bag.update outputKey Sink.flush))) :
    Moves R flushOutput := by
  intro f
  unfold flushOutput
  split
  · exact hflush f
  · exact hrefl f

theorem beyond_flushOutput
    (houtput : .shared outputKey.name ∈ parts) :
    Moves (Beyond parts) flushOutput :=
  moves_flushOutput beyond_refl (beyond_onShared houtput _)

end Parts

section Commands

variable {parts : List Part}

theorem beyond_onStack
    (hstack : .entry stackKey.name ∈ parts)
    (act : Act Stack α) :
    Moves (Beyond parts) (onStack act) :=
  beyond_onState hstack act

theorem beyond_branch
    (hdirection : .direction ∈ parts)
    (hstack : .entry stackKey.name ∈ parts)
    (zero nonzero : Direction) :
    Moves (Beyond parts) (branch zero nonzero) := by
  refine beyond_bind (beyond_onStack hstack _) ?_
  intro value
  exact beyond_turn hdirection _

theorem beyond_emit
    (hstack : .entry stackKey.name ∈ parts)
    (houtput : .shared outputKey.name ∈ parts)
    (write : Int32 → Act Sink Unit) :
    Moves (Beyond parts) (emit write) := by
  refine beyond_bind (beyond_onStack hstack _) ?_
  intro value
  exact beyond_onShared houtput _

theorem beyond_accept
    (hstack : .entry stackKey.name ∈ parts)
    (hinput : .shared inputKey.name ∈ parts)
    (houtput : .shared outputKey.name ∈ parts)
    (read : Act Source Int32) :
    Moves (Beyond parts) (accept read) := by
  refine beyond_bind (beyond_flushOutput houtput) ?_
  intro _
  refine beyond_bind (beyond_onShared hinput read) ?_
  intro value
  exact beyond_onStack hstack _

/-- A command changes the parts in its reach at most, also when it fails. -/
theorem effect_beyond
    (command : Command) :
    Moves (Beyond command.reach) (effect command) := by
  cases command with
  | push _ | add | subtract | multiply | divide _ | not | greater
  | duplicate | swap | discard =>
      exact beyond_onStack (by simp [Command.reach]) _
  | go direction =>
      exact beyond_turn (by simp [Command.reach]) direction
  | random =>
      refine beyond_bind (beyond_onState (by simp [Command.reach]) _) ?_
      intro choice
      exact beyond_turn (by simp [Command.reach]) _
  | horizontalIf | verticalIf =>
      exact beyond_branch (by simp [Command.reach]) (by simp [Command.reach]) _ _
  | stringMode =>
      exact beyond_onState (by simp [Command.reach]) _
  | outputNumber | outputChar =>
      exact beyond_emit (by simp [Command.reach]) (by simp [Command.reach]) _
  | bridge =>
      exact beyond_skip (by simp [Command.reach])
  | get =>
      change Moves _ fetch
      rw [fetch_eq]
      refine beyond_bind (beyond_onStack (by simp [Command.reach]) _) ?_
      rintro ⟨x, y⟩
      refine beyond_bind (beyond_look _) ?_
      intro cell
      exact beyond_onStack (by simp [Command.reach]) _
  | put =>
      change Moves _ store
      rw [store_eq]
      refine beyond_bind (beyond_onStack (by simp [Command.reach]) _) ?_
      rintro ⟨x, y⟩
      refine beyond_bind (beyond_onStack (by simp [Command.reach]) _) ?_
      intro value
      exact beyond_mark (by simp [Command.reach]) _ _
  | inputNumber | inputChar =>
      exact
        beyond_accept (by simp [Command.reach]) (by simp [Command.reach])
          (by simp [Command.reach]) _
  | halt | nop =>
      exact moves_pure beyond_refl ()

end Commands

section Flow

/-- A change of an entry of the shared state along a relation of its values. -/
def Along [Storable β] (key : Key β) (R : β → β → Prop) (f g : Focus) : Prop :=
  ∀ value, f.shared.get key = .ok value → ∃ value', g.shared.get key = .ok value' ∧ R value value'

variable [Storable β] {key : Key β} {R S : β → β → Prop}

theorem along_of_beyond
    (parts : List Part)
    (hrefl : ∀ value, R value value)
    (hkey : .shared key.name ∉ parts)
    {act : Act Focus α}
    (hact : Moves (Beyond parts) act) :
    Moves (Along key R) act := by
  intro f value hvalue
  refine ⟨value, ?_, hrefl value⟩
  rw [Bag.get_congr (hact f _ hkey)]
  exact hvalue

theorem along_mono
    (hRS : ∀ value value', R value value' → S value value')
    {act : Act Focus α}
    (hact : Moves (Along key R) act) :
    Moves (Along key S) act := by
  intro f value hvalue
  obtain ⟨value', hvalue', hR⟩ := hact f value hvalue
  exact ⟨value', hvalue', hRS _ _ hR⟩

theorem along_bind
    (htrans : ∀ a b c, R a b → R b c → R a c)
    {act : Act Focus α} {next : α → Act Focus γ}
    (hact : Moves (Along key R) act)
    (hnext : ∀ a, Moves (Along key R) (next a)) :
    Moves (Along key R) (act >>= next) := by
  refine moves_bind ?_ hact hnext
  intro f g h hfirst hsecond value hvalue
  obtain ⟨value₁, hvalue₁, hR₁⟩ := hfirst value hvalue
  obtain ⟨value₂, hvalue₂, hR₂⟩ := hsecond value₁ hvalue₁
  exact ⟨value₂, hvalue₂, htrans _ _ _ hR₁ hR₂⟩

theorem along_onShared
    {act : Act β α}
    (hact : Moves R act) :
    Moves (Along key R) (onShared (Bag.update key act)) := by
  refine moves_zoom ?_
  intro f value hvalue
  rcases Bag.left_update key act f.shared with ⟨_, fault, hfault⟩ | ⟨value', hvalue', hleft⟩
  · rw [hvalue] at hfault
    contradiction
  · obtain rfl : value = value' := Except.ok.inj (hvalue.symm.trans hvalue')
    rw [hleft]
    exact ⟨_, Bag.get_insert_self _ _ _, hact value⟩

theorem along_onStack
    (hrefl : ∀ value, R value value)
    (act : Act Stack α) :
    Moves (Along key R) (onStack act) :=
  along_of_beyond [.entry stackKey.name] hrefl (by simp) (beyond_onStack (by simp) act)

theorem flushOutput_idle :
    Moves (Along outputKey Sink.Idle) flushOutput :=
  moves_flushOutput (fun _ sink hsink => ⟨sink, hsink, rfl, rfl⟩) (along_onShared Sink.flush_idle)

theorem accept_idle
    (read : Act Source Int32) :
    Moves (Along outputKey Sink.Idle) (accept read) := by
  have htrans :
      ∀ a b c : Sink, a.Idle b → b.Idle c → a.Idle c :=
    fun _ _ _ h h' => ⟨h'.1.trans h.1, h'.2.trans h.2⟩
  have hrefl : ∀ sink : Sink, sink.Idle sink :=
    fun _ => ⟨rfl, rfl⟩
  refine along_bind htrans flushOutput_idle ?_
  intro _
  refine along_bind htrans ?_ fun value => along_onStack hrefl _
  exact
    along_of_beyond [.shared inputKey.name] hrefl (by decide)
      (beyond_onShared (by simp) read)

theorem accept_drained
    {read : Act Source Int32}
    (hread : Moves Source.Drained read) :
    Moves (Along inputKey Source.Drained) (accept read) := by
  have htrans :
      ∀ a b c : Source, a.Drained b → b.Drained c → a.Drained c :=
    fun _ _ _ h h' => ⟨h'.1.trans h.1, h'.2.trans h.2⟩
  have hrefl : ∀ source : Source, source.Drained source :=
    fun _ => ⟨List.suffix_rfl, rfl⟩
  refine along_bind htrans ?_ fun _ => ?_
  · exact
      along_of_beyond [.shared outputKey.name] hrefl (by decide)
        (beyond_flushOutput (by simp))
  · exact along_bind htrans (along_onShared hread) fun value => along_onStack hrefl _

theorem emit_continues
    {write : Int32 → Act Sink Unit}
    (hwrite : ∀ value, Moves Sink.Continues (write value)) :
    Moves (Along outputKey Sink.Continues) (emit write) := by
  have hrefl : ∀ sink : Sink, sink.Continues sink :=
    fun _ => Sink.Idle.continues ⟨rfl, rfl⟩
  refine along_bind ?_ (along_onStack hrefl _) fun value => along_onShared (hwrite value)
  exact fun _ _ _ => Sink.Continues.trans

/-- Only two commands add to the output. -/
theorem effect_idle
    {command : Command}
    (hnumber : command ≠ .outputNumber)
    (hchar : command ≠ .outputChar) :
    Moves (Along outputKey Sink.Idle) (effect command) := by
  by_cases hreach : Part.shared outputKey.name ∈ command.reach
  · cases command with
    | inputNumber | inputChar =>
        exact accept_idle _
    | outputNumber | outputChar =>
        contradiction
    | _ =>
        simp [Command.reach] at hreach
  · exact along_of_beyond _ (fun _ => ⟨rfl, rfl⟩) hreach (effect_beyond command)

/-- No command takes output back. -/
theorem effect_continues
    (command : Command) :
    Moves (Along outputKey Sink.Continues) (effect command) := by
  by_cases houtput : command = .outputNumber ∨ command = .outputChar
  · rcases houtput with rfl | rfl
    · exact emit_continues fun value => Sink.put_continues _ _
    · exact emit_continues fun value => Sink.put_continues _ _
  · obtain ⟨hnumber, hchar⟩ := not_or.1 houtput
    exact along_mono (fun _ _ => Sink.Idle.continues) (effect_idle hnumber hchar)

/-- No command gives input back. -/
theorem effect_drained
    (command : Command) :
    Moves (Along inputKey Source.Drained) (effect command) := by
  by_cases hreach : Part.shared inputKey.name ∈ command.reach
  · cases command with
    | inputNumber =>
        exact accept_drained Source.readInteger_drained
    | inputChar =>
        refine accept_drained ?_
        refine moves_bind ?_ Source.readUnit_drained fun unit source => ⟨List.suffix_rfl, rfl⟩
        exact fun _ _ _ h h' => ⟨h'.1.trans h.1, h'.2.trans h.2⟩
    | _ =>
        simp [Command.reach, outputKey, inputKey] at hreach
  · exact along_of_beyond _ (fun _ => ⟨List.suffix_rfl, rfl⟩) hreach (effect_beyond command)

end Flow

section Failures

/-- A stack of which values on top are gone. -/
def Below (stack stack' : Stack) : Prop :=
  stack' <:+ stack

/-- The space and the pointer as they were, up to values on top of its stack that are gone. -/
def Spent (f g : Focus) : Prop :=
  g.space = f.space ∧
    (g.ip = f.ip ∨
      ∃ stack stack',
        f.ip.state.get stackKey = .ok stack ∧
        Below stack stack' ∧
        g.ip = restack stack' f.ip)

variable {f g h : Focus}

theorem spent_refl
    (f : Focus) :
    Spent f f :=
  ⟨rfl, .inl rfl⟩

theorem restack_restack
    (stack stack' : Stack) (ip : Ip) :
    restack stack' (restack stack ip) = restack stack' ip := by
  simp [restack, Bag.insert_insert]

theorem Spent.trans
    (h₁ : Spent f g)
    (h₂ : Spent g h) :
    Spent f h := by
  obtain ⟨hspace₁, hip₁⟩ := h₁
  obtain ⟨hspace₂, hip₂⟩ := h₂
  refine ⟨hspace₂.trans hspace₁, ?_⟩
  rcases hip₂ with hip₂ | ⟨stack₁, stack₂, hstack₁, hbelow₂, hip₂⟩
  · rw [hip₂]
    exact hip₁
  · rcases hip₁ with hip₁ | ⟨stack, stack', hstack, hbelow₁, hip₁⟩
    · rw [hip₁] at hstack₁ hip₂
      exact .inr ⟨stack₁, stack₂, hstack₁, hbelow₂, hip₂⟩
    · rw [hip₁] at hstack₁ hip₂
      obtain rfl : stack' = stack₁ :=
        Except.ok.inj ((Bag.get_insert_self _ _ _).symm.trans hstack₁)
      rw [restack_restack] at hip₂
      exact .inr ⟨stack, stack₂, hstack, hbelow₂.trans hbelow₁, hip₂⟩

theorem below_bind
    {act : Act Stack α} {next : α → Act Stack β}
    (hact : Moves Below act)
    (hnext : ∀ a, Fails Below (next a)) :
    Fails Below (act >>= next) := by
  refine fails_bind ?_ hact hnext
  intro stack stack₁ stack₂ h₁ h₂
  exact h₂.trans h₁

theorem spent_bind
    {act : Act Focus α} {next : α → Act Focus β}
    (hact : Moves Spent act)
    (hnext : ∀ a, Fails Spent (next a)) :
    Fails Spent (act >>= next) := by
  refine fails_bind ?_ hact hnext
  intro f g h
  exact Spent.trans

section Operands

theorem pop_below :
    Moves Below Stack.pop := by
  intro stack
  cases stack with
  | nil =>
      exact List.suffix_rfl
  | cons top rest =>
      exact List.suffix_cons top rest

theorem peek_below :
    Moves Below Stack.peek := by
  intro stack
  cases stack with
  | nil =>
      exact List.suffix_rfl
  | cons top rest =>
      exact List.suffix_rfl

theorem popTwo_below :
    Moves Below Stack.popTwo := by
  intro stack
  match stack with
  | [] =>
      exact List.suffix_rfl
  | [_] =>
      exact List.suffix_rfl
  | top :: second :: rest =>
      exact (List.suffix_cons second rest).trans (List.suffix_cons top _)

theorem push_fails
    (value : Int32) :
    Fails Below (Stack.push value) := by
  intro stack fault stack' h
  contradiction

theorem binary_fails
    (op : Int32 → Int32 → Except Fault Int32) :
    Fails Below (Stack.binary op) := by
  refine below_bind popTwo_below ?_
  rintro ⟨left, right⟩
  have hop : Moves Below (Act.ofExcept (op left right)) :=
    moves_ask (R := Below) (fun _ => List.suffix_rfl) fun _ => op left right
  exact below_bind hop push_fails

end Operands

/-- An action on the operands that only takes values off the stack. -/
theorem onStack_spent
    {act : Act Stack α}
    (hact : Moves Below act) :
    Moves Spent (onStack act) := by
  refine moves_zoom ?_
  intro f
  refine ⟨rfl, ?_⟩
  rcases Bag.left_update stackKey act f.ip.state with ⟨hleft, _⟩ | ⟨stack, hstack, hleft⟩
  · left
    rw [hleft]
  · right
    rw [hleft]
    exact ⟨stack, _, hstack, hact stack, rfl⟩

/-- An action on the operands that takes values off the stack before it fails. -/
theorem onStack_fails
    {act : Act Stack α}
    (hact : Fails Below act) :
    Fails Spent (onStack act) := by
  intro f fault g h
  unfold onStack onState zoom at h
  split at h
  · contradiction
  · rename_i fault' state hupdate
    injection h with _ hg
    rw [← hg]
    rcases Bag.update_error hupdate with ⟨_, rfl⟩ | ⟨stack, stack', hstack, hfault, rfl⟩
    · exact spent_refl f
    · exact ⟨rfl, .inr ⟨stack, stack', hstack, hact _ _ _ hfault, rfl⟩⟩

/-- An action on another entry that fails only if there is no such entry. -/
theorem onState_fails
    [Storable β] {key : Key β} {act : Act β α}
    (hact : ∀ value fault value', act value ≠ .error fault value') :
    Fails Spent (onState (Bag.update key act)) := by
  intro f fault g h
  unfold onState zoom at h
  split at h
  · contradiction
  · rename_i fault' state hupdate
    injection h with _ hg
    rw [← hg]
    rcases Bag.update_error hupdate with ⟨_, rfl⟩ | ⟨value, value', _, hfault, _⟩
    · exact spent_refl f
    · exact absurd hfault (hact _ _ _)

theorem onShared_spent
    (act : Act Bag α) :
    Moves Spent (onShared act) :=
  moves_zoom fun _ => ⟨rfl, .inl rfl⟩

theorem flushOutput_spent :
    Moves Spent flushOutput :=
  moves_flushOutput spent_refl (onShared_spent _)

theorem turn_fails
    (direction : Direction) :
    Fails Spent (turn direction) := by
  intro f fault g h
  contradiction

theorem skip_fails :
    Fails Spent skip := by
  intro f fault g h
  unfold skip at h
  split at h
  · contradiction
  · injection h with _ hg
    rw [← hg]
    exact spent_refl f

theorem mark_fails
    (c : Coord) (cell : UInt8) :
    Fails Spent (mark c cell) := by
  intro f fault g h
  unfold mark at h
  split at h
  · contradiction
  · injection h with _ hg
    rw [← hg]
    exact spent_refl f

theorem turnRandomly_fails :
    Fails Spent turnRandomly := by
  intro f fault g h
  have hchoose :
      Fails Spent (onState (Bag.update randomKey (modifyGet Generator.choose))) :=
    onState_fails fun _ _ _ hfault => by contradiction
  unfold turnRandomly at h
  -- The turn cannot fail, so the failure is that of the choice.
  cases hs : onState (Bag.update randomKey (modifyGet Generator.choose)) f with
  | ok choice f₁ =>
      rw [bind_ok hs] at h
      contradiction
  | error fault' f₁ =>
      rw [bind_error hs] at h
      injection h with _ hg
      rw [← hg]
      exact hchoose f fault' f₁ hs

/-- A command that fails has at most taken operands off the stack, apart from what it did to the
streams. -/
theorem effect_fails
    (command : Command) :
    Fails Spent (effect command) := by
  cases command with
  | push value =>
      exact onStack_fails (push_fails value)
  | add | subtract | multiply | divide _ | greater =>
      exact onStack_fails (binary_fails _)
  | not =>
      exact onStack_fails (below_bind pop_below fun _ => push_fails _)
  | go direction =>
      exact turn_fails direction
  | random =>
      exact turnRandomly_fails
  | horizontalIf | verticalIf =>
      exact spent_bind (onStack_spent pop_below) fun _ => turn_fails _
  | stringMode =>
      exact onState_fails fun _ _ _ hfault => by contradiction
  | duplicate =>
      exact onStack_fails (below_bind peek_below push_fails)
  | swap =>
      refine onStack_fails (below_bind popTwo_below ?_)
      rintro ⟨second, top⟩ stack fault stack' h
      contradiction
  | discard =>
      refine onStack_fails ?_
      intro stack fault stack' h
      cases stack with
      | nil =>
          injection h with _ hstack
          rw [← hstack]
          exact List.suffix_rfl
      | cons top rest =>
          contradiction
  | outputNumber | outputChar =>
      exact spent_bind (onStack_spent pop_below) fun _ => (onShared_spent _).fails
  | bridge =>
      exact skip_fails
  | get =>
      change Fails _ fetch
      rw [fetch_eq]
      refine spent_bind (onStack_spent popTwo_below) ?_
      rintro ⟨x, y⟩
      refine spent_bind (moves_ask spent_refl fun f => f.space.read (address x y)) ?_
      intro cell
      exact onStack_fails (push_fails _)
  | put =>
      change Fails _ store
      rw [store_eq]
      refine spent_bind (onStack_spent popTwo_below) ?_
      rintro ⟨x, y⟩
      refine spent_bind (onStack_spent pop_below) ?_
      intro value
      exact mark_fails _ _
  | inputNumber | inputChar =>
      refine spent_bind flushOutput_spent ?_
      intro _
      refine spent_bind (onShared_spent _) ?_
      intro value
      exact onStack_fails (push_fails _)
  | halt | nop =>
      intro f fault g h
      contradiction

end Failures

section Successes

variable {f g : Focus}

theorem onStack_ok
    {act : Act Stack α} {a : α}
    (h : onStack act f = .ok a g) :
    ∃ stack stack',
      f.ip.state.get stackKey = .ok stack ∧
      act stack = .ok a stack' ∧
      g = { f with ip := restack stack' f.ip } := by
  unfold onStack onState zoom at h
  split at h
  · rename_i b state hupdate
    injection h with hb hg
    subst hb
    obtain ⟨stack, stack', hstack, hact, rfl⟩ := Bag.update_ok hupdate
    exact ⟨stack, stack', hstack, hact, hg.symm⟩
  · contradiction

theorem pop_ok
    {stack stack' : Stack} {value : Int32}
    (h : Stack.pop stack = .ok value stack') :
    stack = value :: stack' := by
  cases stack with
  | nil =>
      contradiction
  | cons top rest =>
      injection h with htop hrest
      rw [htop, hrest]

theorem popTwo_ok
    {stack stack' : Stack} {x y : Int32}
    (h : Stack.popTwo stack = .ok (x, y) stack') :
    stack = y :: x :: stack' := by
  match stack, h with
  | top :: second :: rest, h =>
      injection h with hpair hrest
      obtain ⟨rfl, rfl⟩ := Prod.mk.inj hpair
      rw [hrest]

theorem toCell_eq
    (value : Int32) :
    ((toCell value).toNat : Int) = value.toInt % 256 := by
  have hpos : 0 ≤ value.toInt % 256 := Int.emod_nonneg _ (by decide)
  have hlt : value.toInt % 256 < 256 := Int.emod_lt_of_pos _ (by decide)
  simp only [toCell, UInt8.ofInt, UInt8.toNat_ofNat']
  omega

/-- A value was taken off the stack and its low byte written at the address above it. -/
def Wrote (f g : Focus) : Prop :=
  ∃ y x value below cell,
    f.ip.state.get stackKey = .ok (y :: x :: value :: below) ∧
    (cell.toNat : Int) = value.toInt % 256 ∧
    f.space.write (.planar x.toInt64 y.toInt64) cell = .ok g.space ∧
    Stored (.planar x.toInt64 y.toInt64) cell f.space.read g.space.read ∧
    g.space.shape = f.space.shape

theorem store_ok
    (h : store f = .ok () g) :
    Wrote f g := by
  rw [store_eq] at h
  obtain ⟨⟨x, y⟩, f₁, htwo, h⟩ := of_bind_ok h
  obtain ⟨value, f₂, hone, h⟩ := of_bind_ok h
  obtain ⟨stack, stack₁, hstack, hpopTwo, rfl⟩ := onStack_ok htwo
  obtain ⟨stack₁', stack₂, hstack₁, hpop, rfl⟩ := onStack_ok hone
  obtain rfl : stack₁ = stack₁' :=
    Except.ok.inj ((Bag.get_insert_self _ _ _).symm.trans hstack₁)
  obtain rfl := pop_ok hpop
  obtain rfl := popTwo_ok hpopTwo
  unfold mark at h
  split at h
  · rename_i space hwrite
    injection h with _ hg
    rw [← hg]
    exact
      ⟨y, x, value, stack₂, toCell value, hstack, toCell_eq value, hwrite,
        Space.write_stored hwrite, Space.write_shape hwrite⟩
  · contradiction

theorem skip_ok
    (h : skip f = .ok () g) :
    f.space.move f.ip.position f.ip.direction = .ok g.ip.position := by
  unfold skip at h
  split at h
  · rename_i position hmove
    injection h with _ hg
    rw [hmove, ← hg]
  · contradiction

end Successes

section Execution

variable {m : Machine UInt8} {index : Nat} {ip : Ip}

theorem execute_seated
    (command : Command)
    (hip : m.ips[index]? = some ip) :
    execute command index m = m.seated index (perform command ⟨ip, m.space, m.shared⟩) :=
  Machine.onFocus_seated _ hip

theorem left_perform
    (command : Command) (f : Focus) :
    left (perform command f) = left (effect command f) := by
  unfold perform
  cases h : effect command f with
  | ok a g =>
      rw [bind_ok h]
      rfl
  | error fault g =>
      rw [bind_error h]
      rfl

theorem perform_ok
    {command : Command} {f g : Focus} {decision : Decision UInt8}
    (h : perform command f = .ok decision g) :
    effect command f = .ok () g := by
  obtain ⟨a, f', heffect, hrest⟩ := of_bind_ok h
  injection hrest with _ hg
  rw [heffect, hg]

theorem perform_error
    {command : Command} {f g : Focus} {fault : Fault}
    (h : perform command f = .error fault g) :
    effect command f = .error fault g := by
  unfold perform at h
  cases heffect : effect command f with
  | ok a f' =>
      rw [bind_ok heffect] at h
      contradiction
  | error fault' f' =>
      rw [bind_error heffect] at h
      injection h with hfault hg
      rw [hfault, hg]

/-- A read whose flush is refused fails before it takes any input. -/
theorem perform_clogged
    {command : Command} {f : Focus} {w : Writer}
    (hcommand : command = .inputNumber ∨ command = .inputChar)
    (hw : f.shared.get outputKey = .ok (.writer w))
    (hclogged : w.isClogged = true) :
    perform command f = .error (.stream .sinkFull) f := by
  have hrefused : Sink.flush (.writer w) = .error (.stream .sinkFull) (.writer w) := by
    simp [Sink.flush, Writer.flush, hclogged]
  have hflush : flushOutput f = .error (.stream .sinkFull) f := by
    rcases flushOutput_cases f with
      ⟨⟨fault, hnone⟩, _⟩ | ⟨sink, hsink, ⟨sink', hok, _⟩ | ⟨_, hfails⟩⟩
    · rw [hw] at hnone
      contradiction
    · obtain rfl : .writer w = sink := Except.ok.inj (hw.symm.trans hsink)
      rw [hrefused] at hok
      contradiction
    · exact hfails
  rcases hcommand with rfl | rfl
  · unfold perform effect accept
    rw [bind_assoc, bind_error hflush]
  · unfold perform effect accept
    rw [bind_assoc, bind_error hflush]

/-- The footprint of a command executed for the pointer at a place, whatever the space and the other
pointers are.

* Nothing but the pointer, the space and the shared state is touched: no other pointer, and neither
  the numbers nor the order of the live sequence.
* Of those, the parts in the command's reach may change; output is only ever continued, by two
  commands alone, and input only ever used up.
* A bridge that succeeds makes one move, and a write that succeeds stores a popped value modulo 256
  at the popped address and nowhere else.
* After a failure the space and the pointer are as before, but for operands that are gone.
* A command that asks for input while the output refuses to be flushed fails with the fault of the
  output, and nothing at all has changed. -/
theorem execute_footprint
    (command : Command)
    (hip : m.ips[index]? = some ip) :
    ∃ g : Focus,
      left (execute command index m) = m.seat index g ∧
      (m.seat index g).ids = m.ids ∧
      (∀ other, other ≠ index → (m.seat index g).ips[other]? = m.ips[other]?) ∧
      Beyond command.reach ⟨ip, m.space, m.shared⟩ g ∧
      Along outputKey Sink.Continues ⟨ip, m.space, m.shared⟩ g ∧
      (command ≠ .outputNumber → command ≠ .outputChar →
        Along outputKey Sink.Idle ⟨ip, m.space, m.shared⟩ g) ∧
      Along inputKey Source.Drained ⟨ip, m.space, m.shared⟩ g ∧
      (∀ decision m', execute command index m = .ok decision m' →
        (command = .bridge → m.space.move ip.position ip.direction = .ok g.ip.position) ∧
        (command = .put → Wrote ⟨ip, m.space, m.shared⟩ g)) ∧
      (∀ fault m', execute command index m = .error fault m' →
        Spent ⟨ip, m.space, m.shared⟩ g) ∧
      (command = .inputNumber ∨ command = .inputChar →
        ∀ w, m.shared.get outputKey = .ok (.writer w) → w.isClogged = true →
          execute command index m = .error (.stream .sinkFull) m) := by
  let f : Focus := ⟨ip, m.space, m.shared⟩
  have hexecute : execute command index m = m.seated index (perform command f) :=
    execute_seated command hip
  have hbeyond := effect_beyond command f
  refine
    ⟨left (effect command f), ?_, ?_, ?_, hbeyond, effect_continues command f, ?_,
      effect_drained command f, ?_, ?_, ?_⟩
  · rw [hexecute, Machine.left_seated, left_perform]
  · refine Machine.ids_seat_of_id hip (hbeyond .number ?_)
    cases command <;> simp [Command.reach]
  · intro other hother
    exact List.getElem?_set_ne hother.symm
  · intro hnumber hchar
    exact effect_idle hnumber hchar f
  · intro decision m' hok
    rw [hexecute] at hok
    cases hperform : perform command f with
    | error fault g =>
        rw [hperform] at hok
        contradiction
    | ok decision g =>
        have heffect := perform_ok hperform
        rw [heffect]
        constructor
        · rintro rfl
          exact skip_ok heffect
        · rintro rfl
          exact store_ok heffect
  · intro fault m' herror
    rw [hexecute] at herror
    cases hperform : perform command f with
    | ok decision g =>
        rw [hperform] at herror
        contradiction
    | error fault g =>
        have heffect := perform_error hperform
        rw [heffect]
        exact effect_fails command f fault g heffect
  · intro hcommand w hw hclogged
    rw [hexecute, perform_clogged (f := f) hcommand hw hclogged]
    exact congrArg (EStateM.Result.error _) (Machine.seat_self hip)

/-- Two pointers on a ring of two cells; the second one holds a value and an address. -/
def writers : Machine UInt8 where
  space := .ground (.torus Torus.shortRing)
  ips := [
    { id := 1, position := .planar 1 0, direction := .west, state := .empty },
    { id := 2, position := .planar 0 0, direction := .east,
      state := Bag.empty.insert stackKey [0, 1, 298] }]
  shared := .empty
  supply := { nextId := 3, dice := .loaded }

/-- The same pointers with an output that refuses its first flush. -/
def clogged : Machine UInt8 :=
  { writers with shared := Bag.empty.insert outputKey (.writer { flushLimit := some 0 }) }

theorem execute_footprint_writers :
    execute .inputChar 1 clogged = .error (.stream .sinkFull) clogged ∧
    ∃ g : Focus,
      execute .put 1 writers = .ok .proceed (writers.seat 1 g) ∧
      (writers.seat 1 g).ids = [1, 2] ∧
      (writers.seat 1 g).ips[0]? = writers.ips[0]? ∧
      g.ip.position = .planar 0 0 ∧
      g.space.read (.planar 1 0) = .ok 42 ∧
      g.space.read (.planar 0 0) = .ok 49 := by
  obtain ⟨_, _, _, _, _, _, _, _, _, _, hclogged⟩ :=
    execute_footprint .inputChar (show clogged.ips[1]? = some _ from rfl)
  refine ⟨hclogged (.inr rfl) _ (Bag.get_insert_self _ _ _) rfl, ?_⟩
  obtain ⟨g, hleft, hids, hothers, hbeyond, _, _, _, hdone, _, _⟩ :=
    execute_footprint .put (show writers.ips[1]? = some _ from rfl)
  have hok : execute .put 1 writers = .ok .proceed (left (execute .put 1 writers)) := rfl
  obtain ⟨y, x, value, below, cell, hstack, hcell, _, hstored, _⟩ := (hdone _ _ hok).2 rfl
  obtain ⟨rfl, rfl, rfl, rfl⟩ : 0 = y ∧ 1 = x ∧ 298 = value ∧ [] = below := by
    simpa using Except.ok.inj ((Bag.get_insert_self _ _ _).symm.trans hstack)
  obtain rfl : cell = 42 := UInt8.toNat_inj.1 (Int.ofNat.inj hcell)
  refine ⟨g, hok.trans (congrArg _ hleft), hids, hothers 0 (by decide), ?_, hstored.self, ?_⟩
  · exact hbeyond .position (by decide)
  · exact hstored.other (.planar 0 0) (by decide)

end Execution

end Befunge

end FungeTrace
