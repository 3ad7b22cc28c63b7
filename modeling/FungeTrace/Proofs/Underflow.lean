import FungeTrace.Proofs.Footprint
import FungeTrace.Proofs.Soundness

/-!
# Missing operands

A command that finds fewer operands than it takes says how many it takes and how many there are, and
has done nothing by then: its operands are counted before the first one is taken.  With enough
operands it may fail for many reasons, but never for this one.

One command breaks the rule.  A write takes its address and its value one after the other, so that
with an address alone it counts the value only and the address is gone.

* `Act.Sated` is an action that never reports missing operands; streams, spaces and look-ups are
  such.
* `Act.Takes` is an action that needs a number of operands.  What it does afterwards must be sated.
* `Befunge.execute_underflow` states the rule and its exception for commands that are executed.
-/

namespace FungeTrace

/-- Reports of missing operands. -/
def Fault.Underflow : Fault → Prop
  | .stackUnderflow _ _ => True
  | _ => False

namespace Act

variable {σ τ α β : Type}

section Sated

/-- An action that never reports missing operands. -/
def Sated (act : Act σ α) : Prop :=
  ∀ s fault t, act s = .error fault t → ¬ fault.Underflow

theorem sated_pure
    (a : α) :
    Sated (pure a : Act σ α) := by
  intro s fault t h
  contradiction

theorem sated_modify
    (change : σ → σ) :
    Sated (modify change) := by
  intro s fault t h
  contradiction

theorem sated_bind
    {act : Act σ α} {next : α → Act σ β}
    (hact : Sated act)
    (hnext : ∀ a, Sated (next a)) :
    Sated (act >>= next) := by
  intro s fault u h
  cases hs : act s with
  | ok a t =>
      rw [bind_ok hs] at h
      exact hnext a t fault u h
  | error fault' t =>
      rw [bind_error hs] at h
      injection h with hfault _
      rw [← hfault]
      exact hact s fault' t hs

theorem sated_ask
    {ask : σ → Except Fault α}
    (hask : ∀ s fault, ask s = .error fault → ¬ fault.Underflow) :
    Sated fun s => ofExcept (ask s) s := by
  intro s fault t h
  cases hs : ask s with
  | ok a =>
      simp [hs, ofExcept] at h
  | error fault' =>
      obtain ⟨rfl, _⟩ : fault' = fault ∧ s = t := by
        simpa [hs, ofExcept] using h
      exact hask s fault' hs

theorem sated_zoom
    {view : σ → τ} {put : τ → σ → σ} {part : Act τ α}
    (hpart : Sated part) :
    Sated (zoom view put part) := by
  intro s fault t h
  unfold zoom at h
  split at h
  · contradiction
  · rename_i fault' x hx
    injection h with hfault _
    rw [← hfault]
    exact hpart _ fault' x hx

theorem sated_update
    [Storable τ] (key : Key τ) {act : Act τ α}
    (hact : Sated act) :
    Sated (Bag.update key act) := by
  intro b fault b' h
  rcases Bag.update_error h with ⟨hget, _⟩ | ⟨value, value', _, hfault, _⟩
  · rcases Bag.get_error hget with rfl | rfl
    · exact id
    · exact id
  · exact hact value fault value' hfault

end Sated

section Takes

/-- An action that takes `count` operands, where `Holds` tells how many there are.  With fewer it
reports both numbers and does nothing else, and with enough it reports none missing. -/
def Takes (Holds : σ → Nat → Prop) (count : Nat) (act : Act σ α) : Prop :=
  ∀ s available, Holds s available →
    (available < count → act s = .error (.stackUnderflow count available) s) ∧
    (count ≤ available → ∀ fault t, act s = .error fault t → ¬ fault.Underflow)

variable {Holds : σ → Nat → Prop} {count : Nat}

theorem Sated.takes
    {act : Act σ α}
    (hact : Sated act) :
    Takes Holds 0 act := by
  intro s available _
  exact ⟨fun hlt => absurd hlt (Nat.not_lt_zero _), fun _ => hact s⟩

theorem takes_bind
    {act : Act σ α} {next : α → Act σ β}
    (hact : Takes Holds count act)
    (hnext : ∀ a, Sated (next a)) :
    Takes Holds count (act >>= next) := by
  intro s available hholds
  obtain ⟨hshort, henough⟩ := hact s available hholds
  refine ⟨fun hlt => bind_error (hshort hlt), ?_⟩
  intro hle fault u h
  cases hs : act s with
  | ok a t =>
      rw [bind_ok hs] at h
      exact hnext a t fault u h
  | error fault' t =>
      rw [bind_error hs] at h
      injection h with hfault _
      rw [← hfault]
      exact henough hle fault' t hs

end Takes

end Act

section Parts

open Act

theorem Source.ending_sated
    (s : Source) :
    ¬ s.ending.Underflow := by
  unfold ending
  cases s.failure with
  | none =>
      exact id
  | some flaw =>
      exact id

theorem Source.readUnit_sated :
    Sated readUnit := by
  intro s fault t h
  unfold readUnit at h
  split at h
  · injection h with hfault _
    rw [← hfault]
    exact s.ending_sated
  · contradiction

theorem Source.readInteger_sated :
    Sated readInteger := by
  intro s fault t h
  unfold readInteger at h
  dsimp only at h
  split at h
  · injection h with hfault _
    rw [← hfault]
    exact s.ending_sated
  · split at h
    · contradiction
    · rename_i fault' hparse
      injection h with hfault _
      obtain ⟨text, rfl⟩ := Befunge.parseToken_error hparse
      rw [← hfault]
      exact id

theorem Sink.put_sated
    (bytes : List UInt8) (text : String) :
    Sated (put bytes text) := by
  intro sink fault sink' h
  rw [Befunge.put_error h]
  exact id

theorem Extent.locateFrom_sated
    {sizes : List Nat} {xs : List Int64} {axis index : Nat} {fault : Fault}
    (h : locateFrom axis index sizes xs = .error fault) :
    ¬ fault.Underflow := by
  induction sizes generalizing xs axis index with
  | nil =>
      simp [locateFrom] at h
  | cons size sizes ih =>
      cases xs with
      | nil =>
          simp [locateFrom] at h
      | cons x xs =>
          unfold locateFrom at h
          split at h
          · exact ih h
          · rw [← Except.error.inj h]
            exact id

variable {C : Type} {fault : Fault}

theorem Torus.read_sated
    {t : Torus C} {c : Coord}
    (h : t.read c = .error fault) :
    ¬ fault.Underflow := by
  have hlocate : t.extent.locate c = .error fault := read_eq_error_iff.1 h
  unfold Extent.locate at hlocate
  split at hlocate
  · exact Extent.locateFrom_sated hlocate
  · rw [← Except.error.inj hlocate]
    exact id

theorem Sparse.read_sated
    {s : Sparse C} {c : Coord}
    (h : s.read c = .error fault) :
    ¬ fault.Underflow := by
  rw [read_eq, map_eq_error_iff] at h
  unfold check at h
  split at h
  · rw [← Except.error.inj h]
    exact id
  · split at h
    · contradiction
    · rw [← Except.error.inj h]
      exact id

theorem Space.read_sated
    {s : Space C} {c : Coord}
    (h : s.read c = .error fault) :
    ¬ fault.Underflow := by
  induction s with
  | ground g =>
      cases g with
      | torus t =>
          exact Torus.read_sated h
      | sparse p =>
          exact Sparse.read_sated h
  | overlay backing layers ih =>
      unfold read at h
      split at h
      · contradiction
      · exact ih h

theorem Direction.step_sated
    {d : Direction} {c : Coord}
    (h : d.step c = .error fault) :
    ¬ fault.Underflow := by
  unfold step at h
  split at h
  · contradiction
  · rw [← Except.error.inj h]
    exact id

theorem Sparse.move_sated
    {s : Sparse C} {c : Coord} {d : Direction}
    (h : s.move c d = .error fault) :
    ¬ fault.Underflow := by
  unfold move at h
  cases hstep : d.step c with
  | error fault' =>
      rw [hstep] at h
      rw [← Except.error.inj h]
      exact Direction.step_sated hstep
  | ok next =>
      rw [hstep] at h
      contradiction

theorem Torus.move_sated
    {t : Torus C} {c : Coord} {d : Direction}
    (h : t.move c d = .error fault) :
    ¬ fault.Underflow := by
  unfold move at h
  split at h
  · rw [← Except.error.inj h]
    exact id
  · cases hstep : d.step c with
    | error fault' =>
        rw [hstep] at h
        rw [← Except.error.inj h]
        exact Direction.step_sated hstep
    | ok next =>
        rw [hstep] at h
        change (if next.dims = t.dims then _ else _) = _ at h
        split at h
        · contradiction
        · rw [← Except.error.inj h]
          exact id

theorem Space.move_sated
    {s : Space C} {c : Coord} {d : Direction}
    (h : s.move c d = .error fault) :
    ¬ fault.Underflow := by
  unfold move at h
  generalize s.base = g at h
  cases g with
  | torus t =>
      exact Torus.move_sated h
  | sparse p =>
      exact Sparse.move_sated h

end Parts

namespace Stack

open Act

/-- A stack of a number of values. -/
def Holds (stack : Stack) (available : Nat) : Prop :=
  stack.length = available

variable {α : Type}

theorem push_sated
    (value : Int32) :
    Sated (push value) := by
  intro stack fault stack' h
  contradiction

theorem pop_takes :
    Takes Holds 1 pop := by
  rintro stack _ rfl
  cases stack with
  | nil =>
      exact ⟨fun _ => rfl, fun hle => absurd hle (by simp)⟩
  | cons top rest =>
      exact ⟨fun hlt => absurd hlt (by simp), fun _ fault stack' h => by contradiction⟩

theorem peek_takes :
    Takes Holds 1 peek := by
  rintro stack _ rfl
  cases stack with
  | nil =>
      exact ⟨fun _ => rfl, fun hle => absurd hle (by simp)⟩
  | cons top rest =>
      exact ⟨fun hlt => absurd hlt (by simp), fun _ fault stack' h => by contradiction⟩

theorem popTwo_takes :
    Takes Holds 2 popTwo := by
  rintro stack _ rfl
  match stack with
  | [] =>
      exact ⟨fun _ => rfl, fun hle => absurd hle (by simp)⟩
  | [_] =>
      exact ⟨fun _ => rfl, fun hle => absurd hle (by simp)⟩
  | top :: second :: rest =>
      exact ⟨fun hlt => absurd hlt (by simp), fun _ fault stack' h => by contradiction⟩

theorem binary_takes
    {op : Int32 → Int32 → Except Fault Int32}
    (hop : ∀ left right fault, op left right = .error fault → ¬ fault.Underflow) :
    Takes Holds 2 (binary op) := by
  refine takes_bind popTwo_takes ?_
  rintro ⟨left, right⟩
  have hask : Sated (Act.ofExcept (op left right) : Act Stack Int32) :=
    sated_ask fun _ => hop left right
  exact sated_bind hask push_sated

end Stack

namespace Befunge

open Focus Act

variable {α : Type}

section Effects

/-- A pointer with a stack of a number of values. -/
def Holds (f : Focus) (available : Nat) : Prop :=
  ∃ stack, f.ip.state.get stackKey = .ok stack ∧ stack.length = available

theorem restack_self
    {ip : Ip} {stack : Stack}
    (h : ip.state.get stackKey = .ok stack) :
    restack stack ip = ip := by
  unfold restack
  rw [Bag.insert_self h]

theorem onStack_eq
    {f : Focus} {stack : Stack}
    (hstack : f.ip.state.get stackKey = .ok stack)
    (act : Act Stack α) :
    onStack act f =
      match act stack with
      | .ok a stack' => .ok a { f with ip := restack stack' f.ip }
      | .error fault stack' => .error fault { f with ip := restack stack' f.ip } := by
  unfold onStack onState zoom Bag.update
  rw [hstack]
  dsimp only
  cases act stack with
  | ok a stack' =>
      rfl
  | error fault stack' =>
      rfl

/-- An action on a stack that was just put there. -/
theorem onStack_restack
    (f : Focus) (stack : Stack)
    (act : Act Stack α) :
    onStack act { f with ip := restack stack f.ip } =
      match act stack with
      | .ok a stack' => .ok a { f with ip := restack stack' f.ip }
      | .error fault stack' => .error fault { f with ip := restack stack' f.ip } := by
  rw [onStack_eq (f := { f with ip := restack stack f.ip }) (Bag.get_insert_self _ _ _)]
  simp only [restack_restack]

/-- An action on the stack counts the operands of the pointer. -/
theorem onStack_takes
    {count : Nat} {act : Act Stack α}
    (hact : Takes Stack.Holds count act) :
    Takes Holds count (onStack act) := by
  rintro f _ ⟨stack, hstack, rfl⟩
  obtain ⟨hshort, henough⟩ := hact stack stack.length rfl
  rw [onStack_eq hstack]
  constructor
  · intro hlt
    rw [hshort hlt]
    dsimp only
    rw [restack_self hstack]
  · intro hle fault g h
    cases hs : act stack with
    | ok a stack' =>
        rw [hs] at h
        contradiction
    | error fault' stack' =>
        rw [hs] at h
        injection h with hfault _
        rw [← hfault]
        exact henough hle fault' stack' hs

theorem onStack_sated
    {act : Act Stack α}
    (hact : Sated act) :
    Sated (onStack act) :=
  sated_zoom (sated_update stackKey hact)

theorem skip_sated :
    Sated skip := by
  intro f fault g h
  unfold skip at h
  split at h
  · contradiction
  · rename_i fault' hmove
    injection h with hfault _
    rw [← hfault]
    exact Space.move_sated hmove

theorem look_sated
    (c : Coord) :
    Sated (look c) :=
  sated_ask fun _ _ => Space.read_sated

theorem mark_sated
    (c : Coord) (cell : UInt8) :
    Sated (mark c cell) := by
  intro f fault g h
  unfold mark at h
  split at h
  · contradiction
  · rename_i fault' hwrite
    injection h with hfault _
    rw [← hfault]
    exact Space.read_sated (Space.write_eq_error_iff.1 hwrite)

theorem flushOutput_sated :
    Sated flushOutput := by
  intro f fault g h
  rcases flushOutput_cases f with
    ⟨_, hflush⟩ | ⟨_, _, ⟨_, _, hflush⟩ | ⟨_, hflush⟩⟩
  · rw [hflush] at h
    contradiction
  · rw [hflush] at h
    contradiction
  · rw [hflush] at h
    injection h with hfault _
    rw [← hfault]
    exact id

theorem accept_sated
    {read : Act Source Int32}
    (hread : Sated read) :
    Sated (accept read) := by
  refine sated_bind flushOutput_sated ?_
  intro _
  refine sated_bind (sated_zoom (sated_update inputKey hread)) ?_
  intro value
  exact onStack_sated (Stack.push_sated value)

/-- Number of operands that a command takes. -/
def Command.operands : Command → Nat
  | .not | .horizontalIf | .verticalIf | .duplicate | .discard
  | .outputNumber | .outputChar => 1
  | .add | .subtract | .multiply | .divide _ | .greater | .swap | .get => 2
  | .put => 3
  | .push _ | .go _ | .random | .stringMode | .bridge
  | .inputNumber | .inputChar | .halt | .nop => 0

/-- All commands but one count their operands before they take any. -/
theorem effect_takes
    {command : Command}
    (hput : command ≠ .put) :
    Takes Holds command.operands (effect command) := by
  have htotal :
      ∀ {op : Int32 → Int32 → Int32} (left right : Int32) (fault : Fault),
        (.ok (op left right) : Except Fault Int32) = .error fault → ¬ fault.Underflow := by
    intro op left right fault h
    contradiction
  cases command with
  | push value =>
      exact (onStack_sated (Stack.push_sated value)).takes
  | add | subtract | multiply | greater =>
      exact onStack_takes (Stack.binary_takes htotal)
  | divide division =>
      refine onStack_takes (Stack.binary_takes ?_)
      intro left right fault h
      rw [divide_error h]
      exact id
  | not =>
      exact onStack_takes (takes_bind Stack.pop_takes fun _ => Stack.push_sated _)
  | go direction =>
      exact (sated_modify _).takes
  | random =>
      refine (sated_bind (sated_zoom (sated_update randomKey ?_)) fun _ => sated_modify _).takes
      intro generator fault generator' h
      contradiction
  | horizontalIf | verticalIf =>
      exact takes_bind (onStack_takes Stack.pop_takes) fun _ => sated_modify _
  | stringMode =>
      exact (sated_zoom (sated_update stringModeKey (sated_modify _))).takes
  | duplicate =>
      exact onStack_takes (takes_bind Stack.peek_takes Stack.push_sated)
  | swap =>
      refine onStack_takes (takes_bind Stack.popTwo_takes ?_)
      rintro ⟨second, top⟩
      exact sated_bind (Stack.push_sated top) fun _ => Stack.push_sated second
  | discard =>
      refine onStack_takes ?_
      have hdiscard : discard Stack.pop = (Stack.pop >>= fun _ => pure ()) := by
        funext stack
        cases stack <;> rfl
      rw [hdiscard]
      exact takes_bind Stack.pop_takes fun _ => sated_pure ()
  | outputNumber | outputChar =>
      refine takes_bind (onStack_takes Stack.pop_takes) ?_
      intro value
      exact sated_zoom (sated_update outputKey (Sink.put_sated _ _))
  | bridge =>
      exact skip_sated.takes
  | get =>
      change Takes _ _ fetch
      rw [fetch_eq]
      refine takes_bind (onStack_takes Stack.popTwo_takes) ?_
      rintro ⟨x, y⟩
      refine sated_bind (look_sated _) ?_
      intro cell
      exact onStack_sated (Stack.push_sated _)
  | put =>
      contradiction
  | inputNumber =>
      exact (accept_sated Source.readInteger_sated).takes
  | inputChar =>
      refine (accept_sated (sated_bind Source.readUnit_sated ?_)).takes
      exact fun _ => sated_pure _
  | halt | nop =>
      exact (sated_pure ()).takes

end Effects

section Writes

variable {f g : Focus} {stack : Stack}

theorem store_short
    (hstack : f.ip.state.get stackKey = .ok stack)
    (hlt : stack.length < 2) :
    store f = .error (.stackUnderflow 2 stack.length) f := by
  rw [store_eq]
  exact bind_error ((onStack_takes Stack.popTwo_takes f _ ⟨stack, hstack, rfl⟩).1 hlt)

theorem store_bind
    {x y : Int32}
    (h : onStack Stack.popTwo f = .ok (x, y) g) :
    store f = (onStack Stack.pop >>= fun value => mark (address x y) (toCell value)) g := by
  rw [store_eq, bind_ok h]

/-- With an address and no value, the value alone is missed, and the address is gone. -/
theorem store_address
    (hstack : f.ip.state.get stackKey = .ok stack)
    (hlength : stack.length = 2) :
    store f = .error (.stackUnderflow 1 0) { f with ip := restack [] f.ip } := by
  obtain ⟨y, x, rfl⟩ := List.length_eq_two.1 hlength
  have hpopTwo : onStack Stack.popTwo f = .ok (x, y) { f with ip := restack [] f.ip } :=
    onStack_eq hstack Stack.popTwo
  have hpop :
      onStack Stack.pop { f with ip := restack [] f.ip } =
        .error (.stackUnderflow 1 0) { f with ip := restack [] f.ip } :=
    onStack_restack f [] Stack.pop
  rw [store_bind hpopTwo, bind_error hpop]

theorem store_enough
    {fault : Fault}
    (hstack : f.ip.state.get stackKey = .ok stack)
    (hlength : 3 ≤ stack.length)
    (h : store f = .error fault g) :
    ¬ fault.Underflow := by
  match stack, hstack, hlength with
  | y :: x :: value :: below, hstack, _ =>
      have hpopTwo :
          onStack Stack.popTwo f = .ok (x, y) { f with ip := restack (value :: below) f.ip } :=
        onStack_eq hstack Stack.popTwo
      have hpop :
          onStack Stack.pop { f with ip := restack (value :: below) f.ip } =
            .ok value { f with ip := restack below f.ip } :=
        onStack_restack f (value :: below) Stack.pop
      rw [store_bind hpopTwo, bind_ok hpop] at h
      exact mark_sated _ _ _ _ _ h

end Writes

section Execution

variable {m : Machine UInt8} {index : Nat} {ip : Ip} {stack : Stack}

theorem execute_error_iff
    {command : Command} {fault : Fault} {m' : Machine UInt8}
    (hip : m.ips[index]? = some ip) :
    execute command index m = .error fault m' ↔
      ∃ g, effect command ⟨ip, m.space, m.shared⟩ = .error fault g ∧ m' = m.seat index g := by
  rw [execute_seated command hip]
  constructor
  · intro h
    cases hperform : perform command ⟨ip, m.space, m.shared⟩ with
    | ok decision g =>
        rw [hperform] at h
        contradiction
    | error fault' g =>
        rw [hperform] at h
        injection h with hfault hm
        rw [← hfault]
        exact ⟨g, perform_error hperform, hm.symm⟩
  · rintro ⟨g, heffect, rfl⟩
    unfold perform
    rw [bind_error heffect]
    rfl

/-- Missing operands are reported by a command that finds fewer than it takes, and by no other.  The
report gives both numbers, and the machine is as before.  Only a write counts otherwise: an address
comes first, and if it is all there is, it is lost and the value alone is missed. -/
theorem execute_underflow
    (command : Command)
    (hip : m.ips[index]? = some ip)
    (hstack : ip.state.get stackKey = .ok stack) :
    ((∃ needed available m',
        execute command index m = .error (.stackUnderflow needed available) m') ↔
      stack.length < command.operands) ∧
    (command ≠ .put → stack.length < command.operands →
      execute command index m = .error (.stackUnderflow command.operands stack.length) m) ∧
    (command = .put → stack.length < 2 →
      execute command index m = .error (.stackUnderflow 2 stack.length) m) ∧
    (command = .put → stack.length = 2 →
      execute command index m =
        .error (.stackUnderflow 1 0)
          (m.seat index ⟨restack [] ip, m.space, m.shared⟩)) := by
  let f : Focus := ⟨ip, m.space, m.shared⟩
  have hunmoved :
      ∀ {fault}, effect command f = .error fault f → execute command index m = .error fault m :=
    fun heffect => (execute_error_iff hip).2 ⟨f, heffect, (Machine.seat_self hip).symm⟩
  have hshort :
      command ≠ .put → stack.length < command.operands →
        execute command index m = .error (.stackUnderflow command.operands stack.length) m :=
    fun hput hlt => hunmoved ((effect_takes hput f _ ⟨stack, hstack, rfl⟩).1 hlt)
  have hfew :
      command = .put → stack.length < 2 →
        execute command index m = .error (.stackUnderflow 2 stack.length) m := by
    rintro rfl hlt
    exact hunmoved (store_short hstack hlt)
  have haddress :
      command = .put → stack.length = 2 →
        execute command index m =
          .error (.stackUnderflow 1 0) (m.seat index ⟨restack [] ip, m.space, m.shared⟩) := by
    rintro rfl hlength
    exact (execute_error_iff hip).2 ⟨_, store_address (f := f) hstack hlength, rfl⟩
  refine ⟨⟨?_, ?_⟩, hshort, hfew, haddress⟩
  · rintro ⟨needed, available, m', h⟩
    obtain ⟨g, heffect, _⟩ := (execute_error_iff hip).1 h
    by_contra hle
    have henough : command.operands ≤ stack.length := Nat.le_of_not_lt hle
    by_cases hput : command = .put
    · subst hput
      exact store_enough (f := f) hstack henough heffect trivial
    · exact (effect_takes hput f _ ⟨stack, hstack, rfl⟩).2 henough _ g heffect trivial
  · intro hlt
    by_cases hput : command = .put
    · subst hput
      change stack.length < 3 at hlt
      by_cases htwo : stack.length < 2
      · exact ⟨_, _, _, hfew rfl htwo⟩
      · exact ⟨_, _, _, haddress rfl (by omega)⟩
    · exact ⟨_, _, _, hshort hput hlt⟩

/-- A machine with one pointer that holds the given operands. -/
def holder (stack : Stack) : Machine UInt8 where
  space := .ground (.torus Torus.shortRing)
  ips := [{
    id := 1
    position := .planar 0 0
    direction := .east
    state := Bag.empty.insert stackKey stack }]
  shared := .empty
  supply := { nextId := 2, dice := .loaded }

theorem execute_underflow_add :
    execute .add 0 (holder [5]) = .error (.stackUnderflow 2 1) (holder [5]) :=
  (execute_underflow .add (show (holder [5]).ips[0]? = some _ from rfl)
    (Bag.get_insert_self _ _ _)).2.1 (by decide) (by decide)

/-- A write of two operands does not say that three are needed and two are there, and takes both. -/
theorem put_takes_address :
    execute .put 0 (holder [8, 7]) = .error (.stackUnderflow 1 0) (holder []) ∧
    execute .put 0 (holder [8, 7]) ≠ .error (.stackUnderflow 3 2) (holder [8, 7]) := by
  have hput : execute .put 0 (holder [8, 7]) = .error (.stackUnderflow 1 0) (holder []) := by
    refine (execute_error_iff rfl).2 ⟨_, store_address (Bag.get_insert_self _ _ _) rfl, ?_⟩
    simp [holder, Machine.seat, restack, Bag.insert_insert]
  refine ⟨hput, ?_⟩
  rw [hput]
  intro h
  injection h with hfault _
  contradiction

end Execution

end Befunge

end FungeTrace
