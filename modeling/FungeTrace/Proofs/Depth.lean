import FungeTrace.Proofs.Entries
import FungeTrace.Proofs.Lone

/-!
# Deeper stacks

A program looks no deeper into its stack than the operands it takes.  Where it succeeds, it succeeds
with further values below them, does the same, and leaves those values where they are.

The converse fails, for a program that runs out of operands takes the values below in their place.
So this is a relation in one direction: an action `Follows` a relation if from related states it
succeeds on the second wherever it succeeds on the first.

* `Stack.Shallow` is that property of actions on stacks; the operand actions all have it.
* `Befunge.effect_follows` goes through the commands, and `Engine.tickWithin_deepened` takes the
  relation through ticks.
* `Engine.runFor_deepened` states it for runs of an engine with one pointer.
-/

namespace FungeTrace

namespace Act

variable {σ α β : Type} {R : σ → σ → Prop}

/-- Wherever the action succeeds, it succeeds from a related state too, with the same answer and in a
related state. -/
def Follows (R : σ → σ → Prop) (act : Act σ α) : Prop :=
  ∀ s t, R s t → ∀ a s', act s = .ok a s' → ∃ t', act t = .ok a t' ∧ R s' t'

theorem follows_pure
    (a : α) :
    Follows R (pure a) := by
  intro s t hR b s' h
  obtain ⟨rfl, rfl⟩ : a = b ∧ s = s' := by
    simpa [pure, EStateM.pure] using h
  exact ⟨t, rfl, hR⟩

theorem follows_bind
    {act : Act σ α} {next : α → Act σ β}
    (hact : Follows R act)
    (hnext : ∀ a, Follows R (next a)) :
    Follows R (act >>= next) := by
  intro s t hR b s' h
  obtain ⟨a, s₁, hs, hs₁⟩ := of_bind_ok h
  obtain ⟨t₁, ht, hR₁⟩ := hact s t hR a s₁ hs
  rw [bind_ok ht]
  exact hnext a s₁ t₁ hR₁ b s' hs₁

theorem follows_ite
    {act act' : Act σ α}
    (c : Prop) [Decidable c]
    (h : Follows R act)
    (h' : Follows R act') :
    Follows R (if c then act else act') := by
  by_cases hc : c
  · simpa [hc] using h
  · simpa [hc] using h'

/-- A question that related states answer alike. -/
theorem follows_ask
    {ask : σ → Except Fault α}
    (hask : ∀ s t, R s t → ask s = ask t) :
    Follows R fun s => ofExcept (ask s) s := by
  intro s t hR a s' h
  cases hs : ask s with
  | error fault =>
      simp [hs, ofExcept] at h
  | ok b =>
      obtain ⟨rfl, rfl⟩ : b = a ∧ s = s' := by
        simpa [hs, ofExcept] using h
      refine ⟨t, ?_, hR⟩
      simp [← hask s t hR, hs, ofExcept]

theorem follows_change
    {change : σ → σ}
    (h : ∀ s t, R s t → R (change s) (change t)) :
    Follows R (modify change) := by
  intro s t hR a s' hs
  obtain rfl : change s = s' := by
    injection hs
  exact ⟨change t, rfl, h s t hR⟩

end Act

namespace Stack

open Act

/-- An action that looks no deeper than the values it takes. -/
def Shallow {α : Type} (act : Act Stack α) : Prop :=
  ∀ below : Stack, Follows (fun s t => t = s ++ below) act

variable {α β : Type}

theorem shallow_push
    (value : Int32) :
    Shallow (push value) := by
  rintro below s _ rfl a s' h
  obtain rfl : value :: s = s' := by
    injection h
  exact ⟨value :: s ++ below, rfl, rfl⟩

theorem shallow_pop :
    Shallow pop := by
  rintro below s _ rfl a s' h
  cases s with
  | nil =>
      simp [pop] at h
  | cons top rest =>
      obtain ⟨rfl, rfl⟩ : top = a ∧ rest = s' := by
        simpa [pop] using h
      exact ⟨rest ++ below, rfl, rfl⟩

theorem shallow_peek :
    Shallow peek := by
  rintro below s _ rfl a s' h
  cases s with
  | nil =>
      simp [peek] at h
  | cons top rest =>
      obtain ⟨rfl, rfl⟩ : top = a ∧ top :: rest = s' := by
        simpa [peek] using h
      exact ⟨top :: rest ++ below, rfl, rfl⟩

theorem shallow_popTwo :
    Shallow popTwo := by
  rintro below s _ rfl a s' h
  match s, h with
  | [], h => simp [popTwo] at h
  | [_], h => simp [popTwo] at h
  | top :: second :: rest, h =>
      obtain ⟨rfl, rfl⟩ : (second, top) = a ∧ rest = s' := by
        simpa [popTwo] using h
      exact ⟨rest ++ below, rfl, rfl⟩

theorem shallow_bind
    {act : Act Stack α} {next : α → Act Stack β}
    (hact : Shallow act)
    (hnext : ∀ a, Shallow (next a)) :
    Shallow (act >>= next) :=
  fun below => follows_bind (hact below) fun a => hnext a below

theorem shallow_ofExcept
    (result : Except Fault α) :
    Shallow (Act.ofExcept result) := by
  intro below
  change Follows _ fun s => ofExcept ((fun _ => result) s) s
  exact follows_ask fun _ _ _ => rfl

theorem shallow_binary
    (f : Int32 → Int32 → Except Fault Int32) :
    Shallow (binary f) := by
  refine shallow_bind shallow_popTwo ?_
  rintro ⟨left, right⟩
  refine shallow_bind (shallow_ofExcept (f left right)) ?_
  exact shallow_push

theorem shallow_discard_pop :
    Shallow (discard pop) := by
  rintro below s _ rfl a s' h
  cases s with
  | nil =>
      contradiction
  | cons top rest =>
      obtain rfl : rest = s' := by
        injection h
      exact ⟨rest ++ below, rfl, rfl⟩

end Stack

namespace Befunge

open Focus Act

/-- The pointer with another operand stack. -/
def restack (stack : Stack) (ip : Ip) : Ip :=
  { ip with state := ip.state.insert stackKey stack }

/-- Two pointers that differ in their stacks alone, the second one's with further values below. -/
def Deeper (below : Stack) (f g : Focus) : Prop :=
  ∃ stack,
    f.ip.state.get stackKey = .ok stack ∧
    g = { f with ip := restack (stack ++ below) f.ip }

variable {α : Type} {below : Stack}

section Primitives

theorem follows_onStack
    {act : Act Stack α}
    (hact : Stack.Shallow act) :
    Follows (Deeper below) (onStack act) := by
  rintro f _ ⟨stack, hstack, rfl⟩ a f' h
  cases hs : act stack with
  | error fault stack' =>
      simp [onStack, onState, zoom, Bag.update, hstack, hs] at h
  | ok b stack' =>
      obtain ⟨rfl, rfl⟩ :
          b = a ∧ { f with ip := { f.ip with state := f.ip.state.insert stackKey stack' } } = f' := by
        simpa [onStack, onState, zoom, Bag.update, hstack, hs] using h
      obtain ⟨_, hdeep, rfl⟩ := hact below stack _ rfl b stack' hs
      refine
        ⟨{ f with ip := restack (stack' ++ below) f.ip }, ?_,
          stack', Bag.get_insert_self _ _ _, ?_⟩
      · simp [onStack, onState, zoom, Bag.update, restack, hdeep, Bag.insert_insert]
      · simp [restack, Bag.insert_insert]

theorem follows_onState
    {β : Type} [Storable β] {key : Key β}
    (hkey : stackKey.name ≠ key.name)
    (act : Act β α) :
    Follows (Deeper below) (onState (Bag.update key act)) := by
  rintro f _ ⟨stack, hstack, rfl⟩ a f' h
  cases hget : f.ip.state.get key with
  | error fault =>
      simp [onState, zoom, Bag.update, hget] at h
  | ok value =>
      cases hact : act value with
      | error fault value' =>
          simp [onState, zoom, Bag.update, hget, hact] at h
      | ok b value' =>
          obtain ⟨rfl, rfl⟩ :
              b = a ∧ { f with ip := { f.ip with state := f.ip.state.insert key value' } } = f' := by
            simpa [onState, zoom, Bag.update, hget, hact] using h
          refine ⟨_, ?_, stack, ?_, rfl⟩
          · simp [onState, zoom, Bag.update, restack, Bag.get_insert_of_ne hkey, hget, hact,
              Bag.insert_comm hkey]
          · simpa [Bag.get_insert_of_ne hkey.symm] using hstack

/-- An action that has nothing to do with the pointer's own state. -/
theorem follows_stateless
    {act : Act Focus α}
    (hact : ∀ f a f', act f = .ok a f' →
      f'.ip.state = f.ip.state ∧
      ∀ state : Bag,
        act { f with ip := { f.ip with state } } =
          .ok a { f' with ip := { f'.ip with state } }) :
    Follows (Deeper below) act := by
  rintro f _ ⟨stack, hstack, rfl⟩ a f' h
  obtain ⟨hstate, hany⟩ := hact f a f' h
  refine ⟨_, hany _, stack, ?_, ?_⟩
  · rw [hstate]
    exact hstack
  · simp [restack, hstate]

theorem follows_turn
    (direction : Direction) :
    Follows (Deeper below) (turn direction) := by
  refine follows_stateless ?_
  intro f a f' h
  obtain rfl : { f with ip := { f.ip with direction } } = f' := by
    injection h
  exact ⟨rfl, fun _ => rfl⟩

theorem follows_skip :
    Follows (Deeper below) skip := by
  refine follows_stateless ?_
  intro f a f' h
  cases hmove : f.space.move f.ip.position f.ip.direction with
  | error fault =>
      simp [skip, hmove] at h
  | ok position =>
      obtain rfl : { f with ip := { f.ip with position } } = f' := by
        simpa [skip, hmove] using h
      exact ⟨rfl, fun _ => by simp [skip, hmove]⟩

theorem follows_mark
    (c : Coord) (cell : UInt8) :
    Follows (Deeper below) (mark c cell) := by
  refine follows_stateless ?_
  intro f a f' h
  cases hwrite : f.space.write c cell with
  | error fault =>
      simp [mark, hwrite] at h
  | ok space =>
      obtain rfl : { f with space } = f' := by
        simpa [mark, hwrite] using h
      exact ⟨rfl, fun _ => by simp [mark, hwrite]⟩

theorem follows_onShared
    (act : Act Bag α) :
    Follows (Deeper below) (onShared act) := by
  refine follows_stateless ?_
  intro f a f' h
  cases hact : act f.shared with
  | error fault shared =>
      simp [onShared, zoom, hact] at h
  | ok b shared =>
      obtain ⟨rfl, rfl⟩ : b = a ∧ { f with shared } = f' := by
        simpa [onShared, zoom, hact] using h
      exact ⟨rfl, fun _ => by simp [onShared, zoom, hact]⟩

theorem follows_flushOutput :
    Follows (Deeper below) flushOutput := by
  intro f g hdeeper
  have hshared : g.shared = f.shared := by
    obtain ⟨_, _, rfl⟩ := hdeeper
    rfl
  unfold flushOutput
  rw [hshared]
  cases f.shared.get outputKey with
  | ok sink =>
      exact follows_onShared _ f g hdeeper
  | error fault =>
      exact follows_pure () f g hdeeper

theorem follows_look
    (c : Coord) :
    Follows (Deeper below) (look c) := by
  refine follows_ask ?_
  rintro f _ ⟨stack, hstack, rfl⟩
  rfl

theorem follows_underfoot :
    Follows (Deeper below) underfoot := by
  refine follows_ask ?_
  rintro f _ ⟨stack, hstack, rfl⟩
  rfl

theorem follows_inString :
    Follows (Deeper below) inString := by
  refine follows_ask ?_
  rintro f _ ⟨stack, hstack, rfl⟩
  simp [restack, Bag.get_insert_of_ne (show stackKey.name ≠ stringModeKey.name by decide)]

theorem follows_closeString :
    Follows (Deeper below) closeString := by
  have hkey : stackKey.name ≠ stringModeKey.name := by decide
  refine follows_change ?_
  rintro f _ ⟨stack, hstack, rfl⟩
  refine ⟨stack, ?_, ?_⟩
  · simpa [Bag.get_insert_of_ne hkey.symm] using hstack
  · simp [restack, Bag.insert_comm hkey]

end Primitives

section Commands

theorem follows_branch
    (zero nonzero : Direction) :
    Follows (Deeper below) (branch zero nonzero) := by
  refine follows_bind (follows_onStack Stack.shallow_pop) ?_
  intro value
  exact follows_turn _

theorem follows_emit
    (write : Int32 → Act Sink Unit) :
    Follows (Deeper below) (emit write) := by
  refine follows_bind (follows_onStack Stack.shallow_pop) ?_
  intro value
  exact follows_onShared _

theorem follows_accept
    (read : Act Source Int32) :
    Follows (Deeper below) (accept read) := by
  refine follows_bind follows_flushOutput ?_
  intro _
  refine follows_bind (follows_onShared _) ?_
  intro value
  exact follows_onStack (Stack.shallow_push value)

/-- No command looks deeper into the stack than the operands it takes. -/
theorem effect_follows
    (command : Command) :
    Follows (Deeper below) (effect command) := by
  cases command with
  | push value =>
      exact follows_onStack (Stack.shallow_push value)
  | add | subtract | multiply | divide division | greater =>
      exact follows_onStack (Stack.shallow_binary _)
  | not =>
      refine follows_onStack (Stack.shallow_bind Stack.shallow_pop ?_)
      intro value
      exact Stack.shallow_push _
  | go direction =>
      exact follows_turn direction
  | random =>
      refine follows_bind (follows_onState (by decide) _) ?_
      intro choice
      exact follows_turn _
  | horizontalIf | verticalIf =>
      exact follows_branch _ _
  | stringMode =>
      exact follows_onState (by decide) _
  | duplicate =>
      refine follows_onStack (Stack.shallow_bind Stack.shallow_peek ?_)
      exact Stack.shallow_push
  | swap =>
      refine follows_onStack (Stack.shallow_bind Stack.shallow_popTwo ?_)
      rintro ⟨second, top⟩
      refine Stack.shallow_bind (Stack.shallow_push top) ?_
      intro _
      exact Stack.shallow_push second
  | discard =>
      exact follows_onStack Stack.shallow_discard_pop
  | outputNumber | outputChar =>
      exact follows_emit _
  | bridge =>
      exact follows_skip
  | get =>
      change Follows _ fetch
      rw [fetch_eq]
      refine follows_bind (follows_onStack Stack.shallow_popTwo) ?_
      rintro ⟨x, y⟩
      refine follows_bind (follows_look _) ?_
      intro cell
      exact follows_onStack (Stack.shallow_push _)
  | put =>
      change Follows _ store
      rw [store_eq]
      refine follows_bind (follows_onStack Stack.shallow_popTwo) ?_
      rintro ⟨x, y⟩
      refine follows_bind (follows_onStack Stack.shallow_pop) ?_
      intro value
      exact follows_mark _ _
  | inputNumber | inputChar =>
      exact follows_accept _
  | halt | nop =>
      exact follows_pure ()

theorem stride_follows :
    Follows (Deeper below) stride := by
  refine follows_bind follows_underfoot ?_
  intro cell
  refine follows_bind follows_inString ?_
  intro mode
  refine follows_ite _ ?_ ?_
  · refine follows_bind (follows_ite _ follows_closeString ?_) ?_
    · exact follows_onStack (Stack.shallow_push _)
    · intro _
      exact follows_bind follows_skip fun _ => follows_pure _
  · refine follows_bind (effect_follows _) ?_
    intro _
    refine follows_ite _ (follows_pure _) ?_
    exact follows_bind follows_skip fun _ => follows_pure _

/-- A stride that succeeds leaves a stack, and over any values below the one it leaves these below
the other. -/
theorem stride_deepened
    {f f' : Focus} {stack : Stack} {decision : Decision UInt8}
    (hstack : f.ip.state.get stackKey = .ok stack)
    (h : stride f = .ok decision f') :
    ∃ stack',
      f'.ip.state.get stackKey = .ok stack' ∧
      ∀ below : Stack,
        stride { f with ip := restack (stack ++ below) f.ip } =
          .ok decision { f' with ip := restack (stack' ++ below) f'.ip } := by
  obtain ⟨_, _, stack', hstack', _⟩ :=
    @stride_follows [] f _ ⟨stack, hstack, rfl⟩ decision f' h
  refine ⟨stack', hstack', ?_⟩
  intro below
  obtain ⟨_, hdeep, stack'', hstack'', rfl⟩ :=
    @stride_follows below f _ ⟨stack, hstack, rfl⟩ decision f' h
  obtain rfl := Except.ok.inj (hstack'.symm.trans hstack'')
  exact hdeep

end Commands

end Befunge

namespace Engine

open Befunge Act

variable {σ : Type} {e e' : Engine UInt8 σ} {outcome : RunOutcome UInt8} {stack : Stack}

/-- Ticks that end without fault end alike over a deeper stack. -/
theorem tickWithin_deepened
    {f : Focus} {n : Nat}
    (hlanguage : e.language = Befunge.language)
    (hobservers : e.observers = [])
    (hstack : f.ip.state.get stackKey = .ok stack)
    (h : tickWithin (e.withFocus f) n = some (.ok outcome e')) :
    ∃ f' stack',
      e' = e'.withFocus f' ∧
      f'.ip.state.get stackKey = .ok stack' ∧
      ∀ below : Stack,
        tickWithin (e.withFocus { f with ip := restack (stack ++ below) f.ip }) n =
          some (.ok outcome (e'.withFocus { f' with ip := restack (stack' ++ below) f'.ip })) := by
  induction n generalizing e f stack with
  | zero =>
      obtain ⟨rfl, rfl⟩ : RunOutcome.tickLimit = outcome ∧ e.withFocus f = e' := by
        simpa [tickWithin] using h
      exact ⟨f, stack, rfl, hstack, fun _ => rfl⟩
  | succ n ih =>
      simp only [tickWithin, tick_plain hlanguage hobservers] at h ⊢
      cases hstride : stride f with
      | error fault f₁ =>
          simp [hstride] at h
      | ok decision f₁ =>
          obtain ⟨stack₁, hstack₁, hdeep⟩ := stride_deepened hstack hstride
          rw [hstride] at h
          simp only [hdeep]
          cases decision with
          | proceed =>
              exact ih (e := { e with ticks := e.ticks + 1, current := none })
                hlanguage hobservers hstack₁ h
          | halt result =>
              have hfinish :
                  ∀ g : Focus,
                    finish result
                        ({ e with ticks := e.ticks + 1, current := none }.withFocus g) =
                      .ok result
                        ({ e with
                          ticks := e.ticks + 1, current := none, halted := true }.withFocus g) :=
                fun g => finish_silent (hobservers ▸ silent_nil .halt) result
              simp only [hfinish, Option.some.injEq, EStateM.Result.ok.injEq] at h ⊢
              obtain ⟨rfl, rfl⟩ := h
              exact ⟨f₁, stack₁, rfl, hstack₁, fun _ => ⟨rfl, rfl⟩⟩

/-- A deeper stack changes nothing.  A run of an engine with one pointer that ends without fault ends
in the same way over further values at the bottom of the stack: with the same outcome and the same
engine, except that these values are at the bottom of the stack it ends with. -/
theorem runFor_deepened
    {ip : Ip}
    (hlanguage : e.language = Befunge.language)
    (hobservers : e.observers = [])
    (hip : e.machine.ips = [ip])
    (hstack : ip.state.get stackKey = .ok stack)
    (n : Nat)
    (hrun : e.runFor n = some (.ok outcome e')) :
    ∃ ip' stack',
      e'.machine.ips = [ip'] ∧
      ip'.state.get stackKey = .ok stack' ∧
      ∀ below : Stack,
        (e.withIps [restack (stack ++ below) ip]).runFor n =
          some (.ok outcome (e'.withIps [restack (stack' ++ below) ip'])) := by
  let f : Focus := { ip, space := e.machine.space, shared := e.machine.shared }
  have hfocus : e = e.withFocus f := by
    change e = e.withIps [ip]
    rw [← hip]
    rfl
  have hlaunch :
      ∀ g : Focus,
        runFor n (e.withFocus g) = tickWithin ({ e with launched := true }.withFocus g) n := by
    intro g
    have hsilent := launch_silent (e := e.withFocus g) (hobservers ▸ silent_nil .launch)
    simp only [runFor, hsilent]
    rfl
  rw [hfocus, hlaunch] at hrun
  obtain ⟨f', stack', he', hstack', hdeep⟩ :=
    tickWithin_deepened (e := { e with launched := true }) (f := f)
      hlanguage hobservers hstack hrun
  refine ⟨f'.ip, stack', ?_, hstack', ?_⟩
  · rw [he']
    rfl
  · intro below
    rw [he']
    exact (hlaunch _).trans (hdeep below)

/-- A pointer with two operands in front of an addition and the command to halt. -/
def adder : Focus where
  ip := {
    id := 1
    position := .planar 0 0
    direction := .east
    state := (Bag.empty.insert stringModeKey false).insert stackKey [2, 3] }
  space := .ground (.torus { Torus.shortRing with cells := #[43, 64], size_cells := rfl })
  shared := .empty

/-- The engine of the adder. -/
def adding : Engine UInt8 Unit :=
  assemble
    { space := adder.space
      ips := [adder.ip]
      shared := adder.shared
      supply := { dice := .loaded } }
    Befunge.language ()

theorem runFor_deepened_adder :
    ∃ e' ip',
      adder.ip.state.get stackKey = .ok [2, 3] ∧
      adding.runFor 2 = some (.ok (.halted (some 0)) e') ∧
      e'.machine.ips = [ip'] ∧
      ip'.state.get stackKey = .ok [5] ∧
      ∀ below : Stack,
        (adding.withIps [restack ([2, 3] ++ below) adder.ip]).runFor 2 =
          some (.ok (.halted (some 0)) (e'.withIps [restack ([5] ++ below) ip'])) := by
  have hstack : adder.ip.state.get stackKey = .ok [2, 3] :=
    Bag.get_insert_self _ _ _
  have hrun := runFor_plain (e := adding) rfl rfl rfl 2 adder
  have hstrides :
      strides 2 adder =
        (2, .ok (.halted (some 0)) { adder with ip := { adder.ip with
          position := .planar 1 0
          state := (Bag.empty.insert stringModeKey false).insert stackKey [5] } }) :=
    rfl
  rw [hstrides] at hrun
  obtain ⟨ip', stack', hip', hstack', hdeep⟩ :=
    runFor_deepened (e := adding) rfl rfl rfl hstack 2 hrun
  obtain rfl := List.cons.inj hip' |>.1
  obtain rfl := Except.ok.inj ((Bag.get_insert_self _ _ _).symm.trans hstack')
  exact ⟨_, _, hstack, hrun, hip', hstack', hdeep⟩

end Engine

end FungeTrace
