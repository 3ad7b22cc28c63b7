import FungeTrace.Befunge.Language
import FungeTrace.Engine.Basic
import FungeTrace.Proofs.Entries
import FungeTrace.Proofs.Spelling

/-!
# Strides of a single pointer

A stride is one step of an interpreter that knows a single pointer: the cell under the pointer is
read, then collected or executed, and unless that halts the program the pointer moves on.  It works
on the pointer, the space and the shared state, and knows nothing of live sequences, notifications
or numbers of pointers.

A relation between such states is respected by strides as soon as it is respected by the primitive
actions that commands are made of.  `Respects` lists these; `effect_agree` goes through the commands
once, for every relation and every bound on faults.
-/

namespace FungeTrace
namespace Befunge

namespace Focus

/-- The cell under the pointer. -/
def underfoot : Act Focus UInt8 := fun f =>
  Act.ofExcept (f.space.read f.ip.position) f

/-- Whether the pointer is in string mode. -/
def inString : Act Focus Bool := fun f =>
  Act.ofExcept (f.ip.state.get stringModeKey) f

/-- Ends string mode. -/
def closeString : Act Focus Unit :=
  modify fun f => { f with ip := { f.ip with state := f.ip.state.insert stringModeKey false } }

/-- The cell at a coordinate. -/
def look (c : Coord) : Act Focus UInt8 := fun f =>
  Act.ofExcept (f.space.read c) f

/-- Writes a cell at a coordinate. -/
def mark (c : Coord) (cell : UInt8) : Act Focus Unit := fun f =>
  match f.space.write c cell with
  | .ok space => .ok () { f with space }
  | .error fault => .error fault f

/-- Writes bytes to the output, or the text that stands for them. -/
def print (bytes : List UInt8) (text : String) : Act Focus Unit :=
  onShared (Bag.update outputKey (Sink.put bytes text))

/-- Takes a cell as part of a string: a quote ends the string and any other cell is pushed as its
code. -/
def gather (cell : UInt8) : Act Focus Unit :=
  if cell = quote then closeString else onStack (Stack.push (ofCell cell))

end Focus

open Focus

/-- One step of an interpreter with a single pointer.  In string mode the cell is part of a string;
out of it the cell is executed as a command. -/
def stride : Act Focus (Decision UInt8) := do
  let cell ← underfoot
  if ← inString then
    gather cell
    skip
    return .proceed
  else
    effect (Command.decode cell)
    if Command.decode cell = .halt then
      return .halt (some 0)
    else
      skip
      return .proceed

/-- At most `n` strides: how many were begun, and how they ended. -/
def strides : Nat → Focus → Nat × EStateM.Result Fault Focus (RunOutcome UInt8)
  | 0, f => (0, .ok .tickLimit f)
  | n + 1, f =>
    match stride f with
    | .error fault f => (1, .error fault f)
    | .ok (.halt result) f => (1, .ok (.halted result) f)
    | .ok .proceed f => ((strides n f).1 + 1, (strides n f).2)

theorem strides_succ
    {f g : Focus}
    (h : stride f = .ok .proceed g)
    (n : Nat) :
    strides (n + 1) f = ((strides n g).1 + 1, (strides n g).2) := by
  rw [strides, h]

section Directions

/-- The directions of the plane. -/
def cardinals : List Direction := [.east, .west, .south, .north]

theorem choices_mem_cardinals
    (choice : Nat) :
    choices choice ∈ cardinals := by
  unfold choices
  split <;> simp [cardinals]

/-- A command read off a cell never turns a pointer out of the plane. -/
theorem mem_cardinals_of_decode
    {cell : UInt8} {direction : Direction}
    (h : Command.decode cell = .go direction) :
    direction ∈ cardinals := by
  unfold Command.decode at h
  split at h
  case h_8 | h_9 | h_10 | h_11 =>
    simp only [Command.go.injEq] at h
    rw [← h]
    simp [cardinals]
  case h_27 =>
    split at h <;> contradiction
  all_goals contradiction

end Directions

section Faults

/-- Whether a fault is one that a command may end in. -/
def Command.mayRaise (command : Command) : Fault → Prop
  | .stackUnderflow _ _ => True
  | .divisionByZero division => command = .divide division
  | .indexOutOfRange _ _ _ => command = .get ∨ command = .put
  | .inputFormat _ => command = .inputNumber
  | .unexpectedEof => command = .inputNumber ∨ command = .inputChar
  | .stream _ =>
    command = .inputNumber ∨ command = .inputChar ∨
      command = .outputNumber ∨ command = .outputChar
  | .missingState key =>
    key = inputKey.name ∧ (command = .inputNumber ∨ command = .inputChar) ∨
      key = outputKey.name ∧ (command = .outputNumber ∨ command = .outputChar)
  | _ => False

/-- An action on a part of the state that fails only as `command` may. -/
def Command.Covers {σ α : Type} (command : Command) (act : Act σ α) : Prop :=
  ∀ s fault t, act s = .error fault t → command.mayRaise fault

theorem covers_push
    (command : Command) (value : Int32) :
    command.Covers (Stack.push value) := by
  intro s fault t h
  simp [Stack.push] at h

theorem covers_pop
    (command : Command) :
    command.Covers Stack.pop := by
  intro s fault t h
  cases s with
  | nil =>
      simp only [Stack.pop, EStateM.Result.error.injEq] at h
      rw [← h.1]
      trivial
  | cons top rest =>
      simp [Stack.pop] at h

theorem covers_peek
    (command : Command) :
    command.Covers Stack.peek := by
  intro s fault t h
  cases s with
  | nil =>
      simp only [Stack.peek, EStateM.Result.error.injEq] at h
      rw [← h.1]
      trivial
  | cons top rest =>
      simp [Stack.peek] at h

theorem covers_popTwo
    (command : Command) :
    command.Covers Stack.popTwo := by
  intro s fault t h
  unfold Stack.popTwo at h
  split at h
  · contradiction
  · simp only [EStateM.Result.error.injEq] at h
    rw [← h.1]
    trivial

theorem covers_bind
    {σ α β : Type} {command : Command}
    {act : Act σ α} {next : α → Act σ β}
    (hact : command.Covers act)
    (hnext : ∀ a, command.Covers (next a)) :
    command.Covers (act >>= next) := by
  intro s fault t h
  change EStateM.bind act next s = .error fault t at h
  unfold EStateM.bind at h
  cases hs : act s with
  | ok a s' =>
      rw [hs] at h
      exact hnext a s' fault t h
  | error fault' s' =>
      rw [hs] at h
      simp only [EStateM.Result.error.injEq] at h
      rw [← h.1]
      exact hact s fault' s' hs

theorem covers_discard
    {σ α : Type} {command : Command}
    {act : Act σ α}
    (hact : command.Covers act) :
    command.Covers (discard act) := by
  intro s fault t h
  change EStateM.map (Function.const α ()) act s = .error fault t at h
  unfold EStateM.map at h
  cases hs : act s with
  | ok a s' =>
      rw [hs] at h
      contradiction
  | error fault' s' =>
      rw [hs] at h
      simp only [EStateM.Result.error.injEq] at h
      rw [← h.1]
      exact hact s fault' s' hs

theorem covers_ofExcept
    {σ α : Type} {command : Command}
    {result : Except Fault α}
    (h : ∀ fault, result = .error fault → command.mayRaise fault) :
    command.Covers (Act.ofExcept result : Act σ α) := by
  intro s fault t hs
  cases result with
  | ok a =>
      simp [Act.ofExcept] at hs
  | error fault' =>
      simp only [Act.ofExcept, EStateM.Result.error.injEq] at hs
      rw [← hs.1]
      exact h fault' rfl

theorem covers_binary
    {command : Command}
    {op : Int32 → Int32 → Except Fault Int32}
    (h : ∀ a b fault, op a b = .error fault → command.mayRaise fault) :
    command.Covers (Stack.binary op) := by
  refine covers_bind (covers_popTwo command) ?_
  rintro ⟨left, right⟩
  refine covers_bind (covers_ofExcept (h left right)) ?_
  exact covers_push command

theorem divide_error
    {division : Division} {a b : Int32} {fault : Fault}
    (h : Stack.divide division a b = .error fault) :
    fault = .divisionByZero division := by
  unfold Stack.divide at h
  split at h
  · simpa using h.symm
  · cases division <;> simp at h

/-- What comes after the last byte is the end of input or a failure of the source. -/
theorem mayRaise_ending
    {command : Command}
    (hcommand : command = .inputNumber ∨ command = .inputChar)
    (s : Source) :
    command.mayRaise s.ending := by
  unfold Source.ending
  cases s.failure with
  | none =>
      exact hcommand
  | some flaw =>
      rcases hcommand with hnumber | hchar
      · exact .inl hnumber
      · exact .inr (.inl hchar)

theorem covers_readUnit :
    Command.inputChar.Covers Source.readUnit := by
  intro s fault t h
  unfold Source.readUnit at h
  split at h
  · simp only [EStateM.Result.error.injEq] at h
    rw [← h.1]
    exact mayRaise_ending (.inr rfl) s
  · contradiction

theorem parseToken_error
    {token : List UInt8} {fault : Fault}
    (h : Source.parseToken token = .error fault) :
    ∃ text, fault = .inputFormat text := by
  unfold Source.parseToken at h
  dsimp only at h
  split at h
  · contradiction
  · simp only [Except.error.injEq] at h
    exact ⟨_, h.symm⟩

theorem covers_readInteger :
    Command.inputNumber.Covers Source.readInteger := by
  intro s fault t h
  unfold Source.readInteger at h
  dsimp only at h
  split at h
  · simp only [EStateM.Result.error.injEq] at h
    rw [← h.1]
    exact mayRaise_ending (.inl rfl) s
  · split at h
    · contradiction
    · rename_i fault' hparse
      simp only [EStateM.Result.error.injEq] at h
      obtain ⟨text, rfl⟩ := parseToken_error hparse
      rw [← h.1]
      rfl

end Faults

section Primitives

theorem fetch_eq :
    fetch = (do
      let (x, y) ← onStack Stack.popTwo
      let cell ← look (address x y)
      onStack (Stack.push (ofCell cell))) := by
  rfl

theorem mark_eq
    (c : Coord) (cell : UInt8) :
    (do
      let f ← get
      set { f with space := ← Act.ofExcept (f.space.write c cell) }) =
      mark c cell := by
  funext f
  unfold mark
  cases h : f.space.write c cell with
  | ok space =>
      rw [Act.get_bind, h]
      rfl
  | error fault =>
      rw [Act.get_bind, h]
      rfl

theorem store_eq :
    store = (do
      let (x, y) ← onStack Stack.popTwo
      let value ← onStack Stack.pop
      mark (address x y) (toCell value)) := by
  unfold store
  simp only [mark_eq]

/-- A sink takes a flush, or refuses it and stays as it is. -/
theorem flush_cases
    (sink : Sink) :
    (∃ sink', Sink.flush sink = .ok () sink') ∨
      Sink.flush sink = .error (.stream .sinkFull) sink := by
  cases sink with
  | terminal t tick =>
      exact .inl ⟨_, rfl⟩
  | writer w =>
      cases hclogged : w.isClogged with
      | true =>
          exact .inr (by simp [Sink.flush, Writer.flush, hclogged])
      | false =>
          exact .inl ⟨_, by simp [Sink.flush, Writer.flush, hclogged]; rfl⟩

/-- All that a flush can do: nothing without an output, and otherwise what the output does with it.
A flush that is refused leaves everything as it was. -/
theorem flushOutput_cases
    (f : Focus) :
    ((∃ fault, f.shared.get outputKey = .error fault) ∧ flushOutput f = .ok () f) ∨
      ∃ sink,
        f.shared.get outputKey = .ok sink ∧
        ((∃ sink',
            Sink.flush sink = .ok () sink' ∧
            flushOutput f = .ok () { f with shared := f.shared.insert outputKey sink' }) ∨
          (Sink.flush sink = .error (.stream .sinkFull) sink ∧
            flushOutput f = .error (.stream .sinkFull) f)) := by
  unfold flushOutput
  cases hsink : f.shared.get outputKey with
  | error fault =>
      exact .inl ⟨⟨fault, rfl⟩, rfl⟩
  | ok sink =>
      refine .inr ⟨sink, rfl, ?_⟩
      unfold onShared Act.zoom Bag.update
      dsimp only
      rw [hsink]
      dsimp only
      rcases flush_cases sink with ⟨sink', hflush⟩ | hflush
      · rw [hflush]
        exact .inl ⟨sink', rfl, rfl⟩
      · rw [hflush]
        refine .inr ⟨rfl, ?_⟩
        dsimp only
        rw [Bag.insert_self hsink]

theorem react_eq
    (cell : UInt8) :
    react cell = (do
      if ← inString then
        gather cell
        return .proceed
      else
        perform (Command.decode cell)) := by
  rfl

theorem stride_eq_react :
    stride = (do
      let cell ← underfoot
      match ← react cell with
      | .halt result => return .halt result
      | .proceed =>
        skip
        return .proceed) := by
  unfold stride
  congr 1
  funext cell
  rw [react_eq, bind_assoc]
  congr 1
  funext mode
  cases mode with
  | true =>
      simp only [if_true, bind_assoc, pure_bind]
  | false =>
      simp only [Bool.false_eq_true, if_false, perform, bind_assoc, pure_bind]
      by_cases hhalt : Command.decode cell = .halt
      · simp [hhalt, haltResult]
      · simp [hhalt]

end Primitives

section Respect

open Act

/-- A relation that the primitive actions of commands respect.  `Q` bounds the faults of each
command and `S` those of a whole stride. -/
structure Respects
    (R : Focus → Focus → Prop)
    (Q : Command → Fault → Prop)
    (S : Fault → Prop) : Prop where
  operate :
    ∀ {α : Type} (command : Command) (act : Act Stack α),
      command.Covers act →
      Agree R (Q command) (onStack act) (onStack act)
  choose :
    Agree R (Q .random)
      (onState (Bag.update randomKey (modifyGet Generator.choose)))
      (onState (Bag.update randomKey (modifyGet Generator.choose)))
  toggle :
    Agree R (Q .stringMode) toggleStringMode toggleStringMode
  turn :
    ∀ (command : Command) (direction : Direction),
      direction ∈ cardinals →
      Agree R (Q command) (turn direction) (turn direction)
  bridge :
    Agree R (Q .bridge) skip skip
  look :
    ∀ x y : Int32,
      Agree R (Q .get) (look (address x y)) (look (address x y))
  mark :
    ∀ (x y : Int32) (cell : UInt8),
      Agree R (Q .put) (mark (address x y) cell) (mark (address x y) cell)
  print :
    ∀ (command : Command) (bytes : List UInt8) (text : String),
      command = .outputNumber ∨ command = .outputChar →
      Spells bytes text →
      Agree R (Q command) (print bytes text) (print bytes text)
  flush :
    ∀ command : Command,
      command = .inputNumber ∨ command = .inputChar →
      Agree R (Q command) flushOutput flushOutput
  input :
    ∀ (command : Command) (act : Act Source Int32),
      command = .inputNumber ∨ command = .inputChar →
      command.Covers act →
      Agree R (Q command)
        (onShared (Bag.update inputKey act))
        (onShared (Bag.update inputKey act))
  widen :
    ∀ command fault, Q command fault → S fault
  underfoot :
    Agree R S underfoot underfoot
  inString :
    Agree R S inString inString
  closeString :
    Agree R S closeString closeString
  move :
    Agree R S skip skip

variable {R : Focus → Focus → Prop} {Q : Command → Fault → Prop} {S : Fault → Prop}

theorem Respects.binary
    (h : Respects R Q S)
    {command : Command}
    {op : Int32 → Int32 → Except Fault Int32}
    (hop : ∀ a b fault, op a b = .error fault → command.mayRaise fault) :
    Agree R (Q command)
      (onStack (Stack.binary op))
      (onStack (Stack.binary op)) :=
  h.operate command _ (covers_binary hop)

theorem Respects.branch
    (h : Respects R Q S)
    (command : Command)
    {zero nonzero : Direction}
    (hzero : zero ∈ cardinals)
    (hnonzero : nonzero ∈ cardinals) :
    Agree R (Q command) (branch zero nonzero) (branch zero nonzero) := by
  refine agree_bind (h.operate command _ (covers_pop command)) ?_
  intro value
  apply h.turn
  by_cases hv : value = 0
  · simpa [hv] using hzero
  · simpa [hv] using hnonzero

theorem Respects.emit
    (h : Respects R Q S)
    (command : Command)
    (hcommand : command = .outputNumber ∨ command = .outputChar)
    {bytes : Int32 → List UInt8} {text : Int32 → String}
    (hspells : ∀ value, Spells (bytes value) (text value)) :
    Agree R (Q command)
      (emit fun value => Sink.put (bytes value) (text value))
      (emit fun value => Sink.put (bytes value) (text value)) := by
  refine agree_bind (h.operate command _ (covers_pop command)) ?_
  intro value
  exact h.print command _ _ hcommand (hspells value)

theorem Respects.accept
    (h : Respects R Q S)
    (command : Command)
    (hcommand : command = .inputNumber ∨ command = .inputChar)
    {read : Act Source Int32}
    (hread : command.Covers read) :
    Agree R (Q command) (accept read) (accept read) := by
  refine agree_bind (h.flush command hcommand) ?_
  intro _
  refine agree_bind (h.input command read hcommand hread) ?_
  intro value
  exact h.operate command _ (covers_push command value)

/-- Every command respects what its primitive actions respect. -/
theorem effect_agree
    (h : Respects R Q S)
    (command : Command)
    (hgo : ∀ direction, command = .go direction → direction ∈ cardinals) :
    Agree R (Q command) (effect command) (effect command) := by
  cases command with
  | push value =>
      exact h.operate _ _ (covers_push _ value)
  | add =>
      exact h.binary (by simp)
  | subtract =>
      exact h.binary (by simp)
  | multiply =>
      exact h.binary (by simp)
  | divide division =>
      refine h.binary ?_
      intro a b fault hop
      rw [divide_error hop]
      rfl
  | not =>
      refine h.operate _ _ (covers_bind (covers_pop _) ?_)
      intro value
      exact covers_push _ _
  | greater =>
      exact h.binary (by simp)
  | go direction =>
      exact h.turn _ direction (hgo direction rfl)
  | random =>
      refine agree_bind h.choose ?_
      intro choice
      exact h.turn _ _ (choices_mem_cardinals choice)
  | horizontalIf =>
      exact h.branch _ (by simp [cardinals]) (by simp [cardinals])
  | verticalIf =>
      exact h.branch _ (by simp [cardinals]) (by simp [cardinals])
  | stringMode =>
      exact h.toggle
  | duplicate =>
      refine h.operate _ _ (covers_bind (covers_peek _) ?_)
      intro top
      exact covers_push _ top
  | swap =>
      refine h.operate _ _ (covers_bind (covers_popTwo _) ?_)
      rintro ⟨second, top⟩
      refine covers_bind (covers_push _ top) ?_
      intro _
      exact covers_push _ second
  | discard =>
      exact h.operate _ _ (covers_discard (covers_pop _))
  | outputNumber =>
      exact h.emit _ (.inl rfl) Spells.number
  | outputChar =>
      exact h.emit _ (.inr rfl) fun value => Spells.unit (toCell value)
  | bridge =>
      exact h.bridge
  | get =>
      change Agree R _ fetch fetch
      rw [fetch_eq]
      refine agree_bind (h.operate _ _ (covers_popTwo _)) ?_
      rintro ⟨x, y⟩
      refine agree_bind (h.look x y) ?_
      intro cell
      exact h.operate _ _ (covers_push _ _)
  | put =>
      change Agree R _ store store
      rw [store_eq]
      refine agree_bind (h.operate _ _ (covers_popTwo _)) ?_
      rintro ⟨x, y⟩
      refine agree_bind (h.operate _ _ (covers_pop _)) ?_
      intro value
      exact h.mark x y _
  | inputNumber =>
      exact h.accept _ (.inl rfl) covers_readInteger
  | inputChar =>
      refine h.accept _ (.inr rfl) (covers_bind covers_readUnit ?_)
      intro unit s fault t hs
      simp [pure, EStateM.pure] at hs
  | halt =>
      exact agree_pure ()
  | nop =>
      exact agree_pure ()

/-- What a cell does for the pointer on it respects what the primitive actions respect. -/
theorem react_agree
    (h : Respects R Q S)
    (cell : UInt8) :
    Agree R S (react cell) (react cell) := by
  rw [react_eq]
  refine agree_bind h.inString ?_
  intro mode
  cases mode with
  | true =>
      have hgather : Agree R S (gather cell) (gather cell) := by
        refine agree_ite _ h.closeString ?_
        exact agree_mono (h.widen .nop) (h.operate .nop _ (covers_push _ _))
      refine agree_bind hgather ?_
      intro _
      exact agree_pure _
  | false =>
      have heffect :=
        effect_agree h (Command.decode cell) fun _ => mem_cardinals_of_decode
      refine agree_bind (agree_mono (h.widen _) heffect) ?_
      intro _
      exact agree_pure _

theorem stride_agree
    (h : Respects R Q S) :
    Agree R S stride stride := by
  rw [stride_eq_react]
  refine agree_bind h.underfoot ?_
  intro cell
  refine agree_bind (react_agree h cell) ?_
  intro decision
  cases decision with
  | halt result =>
      exact agree_pure _
  | proceed =>
      refine agree_bind h.move ?_
      intro _
      exact agree_pure _

end Respect

end Befunge
end FungeTrace
