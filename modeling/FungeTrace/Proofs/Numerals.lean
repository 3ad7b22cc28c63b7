import FungeTrace.Proofs.Encoding
import FungeTrace.Text.Decimal
import Mathlib.Data.Nat.Digits.Defs

/-!
# Numerals

A numeral is one or more ASCII digits, with or without a sign in front: `Numeral` is the grammar, with
the value that each numeral has.  The parser of signed tokens accepts exactly the numerals, and those
of 32 bits if their value is in range (`int32?_decode`).  It looks at decoded text, and bytes beyond
ASCII are no obstacle, since they never decode to a sign or a digit.

The text of a number is a numeral of that number: `numeral_int32`.
-/

namespace FungeTrace
namespace Decimal

/-- One or more ASCII digits. -/
def Digits (bytes : List UInt8) : Prop :=
  bytes ≠ [] ∧ ∀ byte ∈ bytes, 48 ≤ byte.toNat ∧ byte.toNat ≤ 57

/-- The value of digits, the most significant of them first. -/
def magnitude (digits : List UInt8) : Nat :=
  Nat.ofDigits 10 (digits.reverse.map fun digit => digit.toNat - 48)

/-- Digits behind an optional sign, with their value. -/
inductive Numeral : List UInt8 → Int → Prop
  | plain
      {digits : List UInt8}
      (h : Digits digits) :
      Numeral digits (magnitude digits)
  | plus
      {digits : List UInt8}
      (h : Digits digits) :
      Numeral (43 :: digits) (magnitude digits)
  | minus
      {digits : List UInt8}
      (h : Digits digits) :
      Numeral (45 :: digits) (-(magnitude digits : Int))

section Characters

theorem digit?_eq_some_iff
    {c : Char} {n : Nat} :
    digit? c = some n ↔ c.isDigit = true ∧ n = c.toNat - 48 := by
  have hdigit : c.isDigit = true ↔ '0' ≤ c ∧ c ≤ '9' := by
    simp only [Char.isDigit, Bool.and_eq_true, decide_eq_true_eq]
    exact Iff.rfl
  unfold digit?
  rw [hdigit]
  split
  · rename_i hc
    simp [hc, eq_comm]
  · rename_i hc
    simp [hc]

theorem digitsFrom_eq_some_iff
    {chars : List Char} {acc n : Nat} :
    digitsFrom acc chars = some n ↔
      (∀ c ∈ chars, c.isDigit = true) ∧ n = Nat.ofDigitChars 10 chars acc := by
  induction chars generalizing acc with
  | nil =>
      rw [digitsFrom, Nat.ofDigitChars_nil, Option.some.injEq]
      simp only [List.not_mem_nil, false_implies, implies_true, true_and]
      exact eq_comm
  | cons c rest ih =>
      rw [digitsFrom]
      change (digit? c).bind (fun d => digitsFrom (acc * 10 + d) rest) = some n ↔ _
      rw [Option.bind_eq_some_iff]
      constructor
      · rintro ⟨d, hd, hrest⟩
        obtain ⟨hc, rfl⟩ := digit?_eq_some_iff.1 hd
        obtain ⟨hdigits, rfl⟩ := ih.1 hrest
        refine ⟨?_, ?_⟩
        · intro e he
          rcases List.mem_cons.1 he with rfl | he
          · exact hc
          · exact hdigits e he
        · rw [Nat.ofDigitChars_cons, Nat.mul_comm]
          rfl
      · rintro ⟨hdigits, rfl⟩
        refine ⟨c.toNat - 48, digit?_eq_some_iff.2 ⟨hdigits c List.mem_cons_self, rfl⟩, ih.2 ?_⟩
        refine ⟨fun e he => hdigits e (List.mem_cons_of_mem c he), ?_⟩
        rw [Nat.ofDigitChars_cons, Nat.mul_comm]
        rfl

theorem natural?_eq_some_iff
    {chars : List Char} {n : Nat} :
    natural? chars = some n ↔
      chars ≠ [] ∧ (∀ c ∈ chars, c.isDigit = true) ∧ n = Nat.ofDigitChars 10 chars 0 := by
  cases chars with
  | nil =>
      simp [natural?]
  | cons c rest =>
      rw [natural?, digitsFrom_eq_some_iff]
      · simp
      · simp

theorem signed?_minus
    {rest : List Char} {n : Int} :
    signed? ('-' :: rest) = some n ↔ ∃ m : Nat, natural? rest = some m ∧ -(m : Int) = n := by
  simp [signed?, Option.bind_eq_some_iff]

theorem signed?_plus
    {rest : List Char} {n : Int} :
    signed? ('+' :: rest) = some n ↔ ∃ m : Nat, natural? rest = some m ∧ (m : Int) = n := by
  simp [signed?, unsigned?, Option.bind_eq_some_iff]

/-- A token whose first character is no sign is read as digits. -/
theorem signed?_unsigned
    {c : Char} {rest : List Char} {n : Int}
    (hminus : c ≠ '-')
    (hplus : c ≠ '+') :
    signed? (c :: rest) = some n ↔
      ∃ m : Nat, natural? (c :: rest) = some m ∧ (m : Int) = n := by
  have hunsigned : unsigned? (c :: rest) = natural? (c :: rest) := by
    unfold unsigned?
    split
    · rename_i heq
      exact absurd (List.cons.inj heq).1 hplus
    · rfl
  unfold signed?
  split
  · rename_i heq
    exact absurd (List.cons.inj heq).1 hminus
  · simp [hunsigned, Option.bind_eq_some_iff]

/-- Only ASCII text is a number. -/
theorem ascii_of_signed?
    {chars : List Char} {n : Int}
    (h : signed? chars = some n) :
    ∀ c ∈ chars, c.toNat < 128 := by
  have hnatural : ∀ {digits : List Char} {m : Nat}, natural? digits = some m →
      ∀ c ∈ digits, c.toNat < 128 := by
    intro digits m hm c hc
    exact Spells.toNat_lt_of_isDigit ((natural?_eq_some_iff.1 hm).2.1 c hc)
  cases chars with
  | nil =>
      contradiction
  | cons first rest =>
      have hfirst : ∀ {m : Nat}, natural? rest = some m → first.toNat < 128 →
          ∀ c ∈ first :: rest, c.toNat < 128 := by
        intro m hm hascii c hc
        rcases List.mem_cons.1 hc with rfl | hc
        · exact hascii
        · exact hnatural hm c hc
      by_cases hminus : first = '-'
      · subst hminus
        obtain ⟨m, hm, _⟩ := signed?_minus.1 h
        exact hfirst hm (by decide)
      · by_cases hplus : first = '+'
        · subst hplus
          obtain ⟨m, hm, _⟩ := signed?_plus.1 h
          exact hfirst hm (by decide)
        · obtain ⟨m, hm, _⟩ := (signed?_unsigned hminus hplus).1 h
          exact hnatural hm

end Characters

section Tokens

theorem shown_inj
    {byte byte' : UInt8} :
    shown byte = shown byte' ↔ byte = byte' := by
  constructor
  · intro h
    apply UInt8.toNat_inj.1
    rw [← Utf8.toNat_shown, ← Utf8.toNat_shown, h]
  · intro h
    rw [h]

theorem isDigit_shown
    {byte : UInt8} :
    (shown byte).isDigit = true ↔ 48 ≤ byte.toNat ∧ byte.toNat ≤ 57 := by
  have hval : (shown byte).val.toNat = byte.toNat := Utf8.toNat_shown byte
  simp only [Char.isDigit, Bool.and_eq_true, decide_eq_true_eq, ge_iff_le,
    UInt32.le_iff_toNat_le, hval]
  exact Iff.rfl

theorem ofDigitChars_shown
    (bytes : List UInt8) :
    Nat.ofDigitChars 10 (bytes.map shown) 0 = magnitude bytes := by
  rw [magnitude, Nat.ofDigits_eq_foldr, List.map_reverse, List.foldr_reverse,
    Nat.ofDigitChars_eq_foldl, List.foldl_map, List.foldl_map]
  congr 1
  funext value byte
  rw [Utf8.toNat_shown, Nat.cast_id, Nat.add_comm]
  rfl

theorem natural?_shown
    {bytes : List UInt8} {n : Nat} :
    natural? (bytes.map shown) = some n ↔ Digits bytes ∧ n = magnitude bytes := by
  rw [natural?_eq_some_iff, ofDigitChars_shown, Digits]
  simp only [List.mem_map, forall_exists_index, and_imp, forall_apply_eq_imp_iff₂, isDigit_shown,
    ne_eq, List.map_eq_nil_iff, and_assoc]

theorem Digits.head
    {byte : UInt8} {rest : List UInt8}
    (h : Digits (byte :: rest)) :
    48 ≤ byte.toNat ∧ byte.toNat ≤ 57 :=
  h.2 byte List.mem_cons_self

theorem shown_ne
    {byte byte' : UInt8}
    (h : byte ≠ byte') :
    shown byte ≠ shown byte' :=
  mt shown_inj.1 h

/-- The parser accepts the numerals and gives their values. -/
theorem signed?_shown
    {bytes : List UInt8} {n : Int} :
    signed? (bytes.map shown) = some n ↔ Numeral bytes n := by
  constructor
  · intro h
    cases bytes with
    | nil =>
        contradiction
    | cons byte rest =>
        by_cases hminus : byte = 45
        · subst hminus
          obtain ⟨m, hm, rfl⟩ := signed?_minus.1 h
          obtain ⟨hdigits, rfl⟩ := natural?_shown.1 hm
          exact .minus hdigits
        · by_cases hplus : byte = 43
          · subst hplus
            obtain ⟨m, hm, rfl⟩ := signed?_plus.1 h
            obtain ⟨hdigits, rfl⟩ := natural?_shown.1 hm
            exact .plus hdigits
          · obtain ⟨m, hm, rfl⟩ := (signed?_unsigned (shown_ne hminus) (shown_ne hplus)).1 h
            rw [← List.map_cons] at hm
            obtain ⟨hdigits, rfl⟩ := natural?_shown.1 hm
            exact .plain hdigits
  · intro h
    cases h with
    | plain hdigits =>
        obtain ⟨byte, rest, rfl⟩ := List.exists_cons_of_ne_nil hdigits.1
        have hbyte := hdigits.head
        have hminus : byte ≠ 45 := by
          rintro rfl
          contradiction
        have hplus : byte ≠ 43 := by
          rintro rfl
          contradiction
        exact (signed?_unsigned (shown_ne hminus) (shown_ne hplus)).2
          ⟨_, natural?_shown.2 ⟨hdigits, rfl⟩, rfl⟩
    | plus hdigits =>
        exact signed?_plus.2 ⟨_, natural?_shown.2 ⟨hdigits, rfl⟩, rfl⟩
    | minus hdigits =>
        exact signed?_minus.2 ⟨_, natural?_shown.2 ⟨hdigits, rfl⟩, rfl⟩

theorem Numeral.value_unique
    {bytes : List UInt8} {n m : Int}
    (hn : Numeral bytes n)
    (hm : Numeral bytes m) :
    n = m := by
  have h := signed?_shown.2 hn
  rw [signed?_shown.2 hm] at h
  exact (Option.some.inj h).symm

theorem Numeral.ne_nil
    {bytes : List UInt8} {n : Int}
    (h : Numeral bytes n) :
    bytes ≠ [] := by
  cases h with
  | plain hdigits =>
      exact hdigits.1
  | plus =>
      exact List.cons_ne_nil _ _
  | minus =>
      exact List.cons_ne_nil _ _

theorem Numeral.visible
    {bytes : List UInt8} {n : Int}
    (h : Numeral bytes n) :
    ∀ byte ∈ bytes, 32 < byte.toNat := by
  have hdigits :
      ∀ {digits : List UInt8}, Digits digits → ∀ byte ∈ digits, 32 < byte.toNat := by
    intro digits hdigits byte hbyte
    have := hdigits.2 byte hbyte
    omega
  intro byte hbyte
  cases h with
  | plain h =>
      exact hdigits h byte hbyte
  | plus h =>
      rcases List.mem_cons.1 hbyte with rfl | hbyte
      · decide
      · exact hdigits h byte hbyte
  | minus h =>
      rcases List.mem_cons.1 hbyte with rfl | hbyte
      · decide
      · exact hdigits h byte hbyte

theorem Numeral.ascii
    {bytes : List UInt8} {n : Int}
    (h : Numeral bytes n) :
    ∀ byte ∈ bytes, byte.toNat < 128 := by
  intro byte hbyte
  have := ascii_of_signed? (signed?_shown.2 h) _ (List.mem_map_of_mem hbyte)
  rwa [Utf8.toNat_shown] at this

/-- Decoding a token before it is parsed makes no other token a numeral. -/
theorem signed?_decode
    {bytes : List UInt8} {n : Int} :
    signed? (Utf8.decode bytes).toList = some n ↔ Numeral bytes n := by
  rw [Utf8.decode, String.toList_ofList]
  constructor
  · intro h
    have hascii : ∀ byte ∈ bytes, byte.toNat < 128 := by
      intro byte hbyte
      by_contra hbeyond
      obtain ⟨c, hc, hlarge⟩ :=
        (Utf8.reading_decodeFrom bytes).1.exists_beyond hbyte (Nat.le_of_not_lt hbeyond)
      exact absurd (ascii_of_signed? h c hc) (Nat.not_lt.2 hlarge)
    rw [Utf8.decodeFrom_ascii hascii] at h
    exact signed?_shown.1 h
  · intro h
    rw [Utf8.decodeFrom_ascii h.ascii]
    exact signed?_shown.2 h

/-- A token is read as a number of 32 bits if it is a numeral of that number. -/
theorem int32?_decode
    {bytes : List UInt8} {value : Int32} :
    int32? (Utf8.decode bytes) = some value ↔ Numeral bytes value.toInt := by
  unfold int32?
  change (signed? _).bind _ = _ ↔ _
  rw [Option.bind_eq_some_iff, ← signed?_decode]
  constructor
  · rintro ⟨n, hn, hvalue⟩
    split at hvalue
    · rename_i hrange
      obtain rfl := Option.some.inj hvalue
      rw [Int32.toInt_ofInt_of_le hrange.1 hrange.2]
      exact hn
    · contradiction
  · intro h
    refine ⟨value.toInt, h, ?_⟩
    rw [if_pos ⟨value.le_toInt, value.toInt_lt⟩, Int32.ofInt_toInt]

end Tokens

section Texts

theorem natural?_repr
    (m : Nat) :
    natural? m.repr.toList = some m := by
  rw [natural?_eq_some_iff, Nat.toList_repr]
  refine ⟨Nat.toDigits_ne_nil, ?_, ?_⟩
  · intro c hc
    exact Nat.isDigit_of_mem_toDigits (by decide) (by decide) hc
  · rw [Nat.ofDigitChars_toDigits (by decide) (by decide)]

/-- The decimal digits of a number have the value of the number. -/
theorem digits_repr
    (m : Nat) :
    Digits (Utf8.encode m.repr) ∧ m = magnitude (Utf8.encode m.repr) := by
  have hascii : ∀ c ∈ m.repr.toList, c.toNat < 128 := by
    intro c hc
    exact Spells.toNat_lt_of_isDigit ((natural?_eq_some_iff.1 (natural?_repr m)).2.1 c hc)
  have hspells : m.repr.toList = (Utf8.encode m.repr).map shown := Spells.ascii hascii
  rw [← natural?_shown, ← hspells, natural?_repr]

/-- A number is written as a numeral of its own. -/
theorem numeral_int32
    (value : Int32) :
    Numeral (Utf8.encode (int32 value)) value.toInt := by
  unfold int32
  generalize value.toInt = n
  rw [Int.toString_eq_repr, Int.repr_eq_if]
  split
  · rename_i hn
    obtain ⟨hdigits, hvalue⟩ := digits_repr n.toNat
    have hplain := Numeral.plain hdigits
    rwa [← hvalue, Int.toNat_of_nonneg hn] at hplain
  · rename_i hn
    obtain ⟨hdigits, hvalue⟩ := digits_repr (-n).toNat
    have hminus := Numeral.minus hdigits
    have hsign : Utf8.encode "-" = [45] := by
      rw [Spells.encode_eq_flatMap]
      decide
    rw [← hvalue, Int.toNat_of_nonneg (by omega), Int.neg_neg] at hminus
    rw [Utf8.encode_append, hsign]
    exact hminus

end Texts

end Decimal
end FungeTrace
