import FungeTrace.Proofs.Underflow

/-!
# Quotients and remainders

Dividing a 32-bit value by another one that is not zero gives a quotient toward zero and a remainder
with the sign of the dividend.  Multiplication and addition restore the dividend from them.

One quotient does not fit into 32 bits: the least value divided by minus one.  It wraps around to
the least value, and so does the product that is taken of it, so the dividend is restored all the
same.  `quotient_mul_add_remainder` needs no case for it, since quotient, product and sum are all
taken modulo 2 ^ 32.

* `Turns` says what commands executed one after the other make of a stack, for every pointer that
  holds it.  A command that works on the stack alone is put in front by `turns_onStack`.
* `turns_division` states the four commands together.
-/

namespace FungeTrace

section Words

variable {a b : Int32}

/-- Quotients go toward zero.  Only one wraps around. -/
theorem toInt_quotient
    (a b : Int32) :
    (a / b).toInt =
      if a = Int32.minValue ∧ b = -1 then Int32.minValue.toInt else a.toInt.tdiv b.toInt := by
  by_cases ha : a = Int32.minValue
  · by_cases hb : b = -1
    · rw [if_pos ⟨ha, hb⟩, ha, hb, Int32.minValue_div_neg_one]
    · rw [if_neg fun h => hb h.2, Int32.toInt_div_of_ne_right a b hb]
  · rw [if_neg fun h => ha h.1, Int32.toInt_div_of_ne_left a b ha]

theorem quotient_mul_add_remainder
    (a b : Int32) :
    a / b * b + a % b = a := by
  apply Int32.toInt_inj.1
  calc
    (a / b * b + a % b).toInt
        = (a.toInt.tdiv b.toInt * b.toInt + a.toInt.tmod b.toInt).bmod (2 ^ 32) := by
      rw [Int32.toInt_add, Int32.toInt_mul, Int32.toInt_div, Int32.toInt_mod, Int.bmod_mul_bmod,
        Int.bmod_add_bmod]
    _ = a.toInt.bmod (2 ^ 32) := by rw [Int.tdiv_mul_add_tmod]
    _ = a.toInt := Int32.toInt_bmod a

theorem sign_remainder
    (a b : Int32) :
    a % b = 0 ∨ (a % b).toInt.sign = a.toInt.sign := by
  have hsign := Int.sign_tmod a.toInt b.toInt
  rw [← Int32.toInt_mod] at hsign
  by_cases hdvd : b.toInt ∣ a.toInt
  · rw [if_pos hdvd, Int.sign_eq_zero_iff_zero] at hsign
    exact .inl (Int32.toInt_inj.1 hsign)
  · rw [if_neg hdvd] at hsign
    exact .inr hsign

theorem natAbs_remainder_lt
    (hb : b ≠ 0) :
    (a % b).toInt.natAbs < b.toInt.natAbs := by
  have hpos : 0 < b.toInt.natAbs := by
    rw [Int.natAbs_pos]
    intro hzero
    exact hb (Int32.toInt_inj.1 hzero)
  rw [Int32.toInt_mod, Int.natAbs_tmod]
  exact Nat.mod_lt _ hpos

end Words

namespace Stack

theorem binary_ok
    {op : Int32 → Int32 → Except Fault Int32} {a b c : Int32}
    (hop : op a b = .ok c)
    (below : Stack) :
    binary op (b :: a :: below) = .ok () (c :: below) := by
  have hpop : popTwo (b :: a :: below) = .ok (a, b) below := rfl
  have hvalue : (Act.ofExcept (op a b) : Act Stack Int32) below = .ok c below := by
    rw [hop]
    rfl
  unfold binary
  rw [Act.bind_ok hpop]
  dsimp only
  rw [Act.bind_ok hvalue]
  rfl

end Stack

namespace Befunge

open Focus Act

/-- Executes commands one after the other, as long as none of them halts the program. -/
def executeAll (index : Nat) : List Command → Act (Machine UInt8) (Decision UInt8)
  | [] => pure .proceed
  | command :: commands => do
    match ← execute command index with
    | .proceed => executeAll index commands
    | .halt result => return .halt result

theorem executeAll_singleton
    (command : Command) (index : Nat) :
    executeAll index [command] = execute command index := by
  funext m
  unfold executeAll
  cases h : execute command index m with
  | ok decision m' =>
      rw [bind_ok h]
      cases decision <;> rfl
  | error fault m' =>
      rw [bind_error h]

/-- Commands turn one stack into another: whichever pointer of whatever machine executes them, none
fails, the program goes on, and nothing but that pointer's stack is different. -/
def Turns (commands : List Command) (stack stack' : Stack) : Prop :=
  ∀ (m : Machine UInt8) (index : Nat) (ip : Ip),
    m.ips[index]? = some ip →
    ip.state.get stackKey = .ok stack →
      executeAll index commands m =
        .ok .proceed (m.seat index ⟨restack stack' ip, m.space, m.shared⟩)

section Sequences

variable {command : Command} {commands : List Command} {stack stack₁ stack₂ below : Stack}

theorem execute_onStack
    {m : Machine UInt8} {index : Nat} {ip : Ip} {act : Act Stack Unit}
    (heffect : effect command = onStack act)
    (hhalt : command ≠ .halt)
    (hact : act stack = .ok () stack₁)
    (hip : m.ips[index]? = some ip)
    (hstack : ip.state.get stackKey = .ok stack) :
    execute command index m =
      .ok .proceed (m.seat index ⟨restack stack₁ ip, m.space, m.shared⟩) := by
  let f : Focus := ⟨ip, m.space, m.shared⟩
  have hdone : effect command f = .ok () { f with ip := restack stack₁ f.ip } := by
    rw [heffect, onStack_eq (f := f) hstack, hact]
  have hperform : perform command f = .ok .proceed { f with ip := restack stack₁ f.ip } := by
    unfold perform
    rw [bind_ok hdone, if_neg hhalt]
    rfl
  rw [execute_seated command hip, hperform]
  rfl

theorem turns_nil
    (stack : Stack) :
    Turns [] stack stack := by
  intro m index ip hip hstack
  rw [restack_self hstack, Machine.seat_self hip]
  rfl

/-- A command on the stack comes first. -/
theorem turns_onStack
    {act : Act Stack Unit}
    (heffect : effect command = onStack act)
    (hhalt : command ≠ .halt)
    (hact : act stack = .ok () stack₁)
    (hrest : Turns commands stack₁ stack₂) :
    Turns (command :: commands) stack stack₂ := by
  intro m index ip hip hstack
  have hfirst := execute_onStack heffect hhalt hact hip hstack
  obtain ⟨hlt, _⟩ := List.getElem?_eq_some_iff.1 hip
  -- The other commands find the same pointer at the same place, with the new stack.
  have hrest := hrest (m.seat index ⟨restack stack₁ ip, m.space, m.shared⟩) index
    (restack stack₁ ip) (by simp [Machine.seat, hlt]) (Bag.get_insert_self _ _ _)
  unfold executeAll
  rw [bind_ok hfirst]
  dsimp only
  rw [hrest, restack_restack]
  simp [Machine.seat]

theorem turns_binary
    {op : Int32 → Int32 → Except Fault Int32} {a b c : Int32}
    (heffect : effect command = onStack (Stack.binary op))
    (hhalt : command ≠ .halt)
    (hop : op a b = .ok c)
    (hrest : Turns commands (c :: below) stack₂) :
    Turns (command :: commands) (b :: a :: below) stack₂ :=
  turns_onStack heffect hhalt (Stack.binary_ok hop below) hrest

end Sequences

/-- Division by a value that is not zero gives a quotient and a remainder, whatever lies below.  The
remainder is smaller than the divisor and has the sign of the dividend, and the quotient goes toward
zero, but for the one that wraps around.  Product and sum restore the dividend, with the remainder
on top of the product or below its factors. -/
theorem turns_division
    {b : Int32}
    (hb : b ≠ 0)
    (a : Int32) (below : Stack) :
    ∃ q r p : Int32,
      Turns [.divide .quotient] (b :: a :: below) (q :: below) ∧
      Turns [.divide .remainder] (b :: a :: below) (r :: below) ∧
      (r = 0 ∨ r.toInt.sign = a.toInt.sign) ∧
      r.toInt.natAbs < b.toInt.natAbs ∧
      Turns [.multiply] (b :: q :: below) (p :: below) ∧
      Turns [.add] (r :: p :: below) (a :: below) ∧
      Turns [.multiply, .add] (b :: q :: r :: below) (a :: below) ∧
      q.toInt =
        if a = Int32.minValue ∧ b = -1 then Int32.minValue.toInt else a.toInt.tdiv b.toInt := by
  have hrestored := quotient_mul_add_remainder a b
  have hswapped : a % b + a / b * b = a := by
    rw [Int32.add_comm, hrestored]
  refine
    ⟨a / b, a % b, a / b * b, ?_, ?_, sign_remainder a b, natAbs_remainder_lt hb, ?_, ?_, ?_,
      toInt_quotient a b⟩
  · exact turns_binary rfl (by decide) (if_neg hb) (turns_nil _)
  · exact turns_binary rfl (by decide) (if_neg hb) (turns_nil _)
  · exact turns_binary rfl (by decide) rfl (turns_nil _)
  · exact turns_binary rfl (by decide) (congrArg Except.ok hrestored) (turns_nil _)
  · refine turns_binary rfl (by decide) rfl ?_
    exact turns_binary rfl (by decide) (congrArg Except.ok hswapped) (turns_nil _)

/-- The least value divided by minus one: the quotient wraps around, the remainder is zero, and the
dividend is restored. -/
theorem turns_division_least :
    (-1 : Int32) ≠ 0 ∧
    Turns [.divide .quotient] [-1, Int32.minValue] [Int32.minValue] ∧
    Turns [.divide .remainder] [-1, Int32.minValue] [0] ∧
    Turns [.multiply, .add] [-1, Int32.minValue, 0] [Int32.minValue] ∧
    execute (.divide .quotient) 0 (holder [-1, Int32.minValue]) =
      .ok .proceed (holder [Int32.minValue]) := by
  have hb : (-1 : Int32) ≠ 0 := by decide
  obtain ⟨q, r, p, hquotient, hremainder, -, hsmall, -, -, hrestored, hq⟩ :=
    turns_division hb Int32.minValue []
  obtain rfl : q = Int32.minValue := Int32.toInt_inj.1 (hq.trans (if_pos ⟨rfl, rfl⟩))
  obtain rfl : r = 0 := by
    refine Int32.toInt_inj.1 (Int.natAbs_eq_zero.1 ?_)
    change r.toInt.natAbs < 1 at hsmall
    omega
  refine ⟨hb, hquotient, hremainder, hrestored, ?_⟩
  rw [← executeAll_singleton,
    hquotient (holder [-1, Int32.minValue]) 0 _ rfl (Bag.get_insert_self _ _ _)]
  simp [holder, Machine.seat, restack, Bag.insert_insert]

end Befunge

end FungeTrace
