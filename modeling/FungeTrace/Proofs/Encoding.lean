import FungeTrace.Proofs.Spelling
import Mathlib.Data.List.Basic
import Mathlib.Tactic.SplitIfs

/-!
# Texts and their bytes

A byte below 128 stands for the character of its code, and in no longer character is there such a
byte: `toNat_of_mem_encodeChar`.  A text can therefore be cut at a character by cutting its bytes.

Decoding is lenient.  The bytes of a character are read as that character
(`decodeFrom_encodeChar`), and of other bytes the longest pieces that only begin a character are
replaced, one by one (`Reading`).  That the decoder does so, though it looks at one byte at a time, is
`reading_decodeFrom`: what it remembers of a character under way stands for the bytes read of it
(`Pending.After`).

No byte from 128 up passes for something else.  Whatever it is read as, proper or replaced, is beyond
ASCII: `Reading.exists_beyond`.
-/

namespace FungeTrace
namespace Utf8

theorem encode_ofList
    (chars : List Char) :
    encode (String.ofList chars) = chars.flatMap String.utf8EncodeChar := by
  rw [Spells.encode_eq_flatMap, String.toList_ofList]

theorem encode_append
    (text text' : String) :
    encode (text ++ text') = encode text ++ encode text' := by
  simp only [Spells.encode_eq_flatMap, String.toList_append, List.flatMap_append]

/-- An ASCII byte of a character is the whole of it. -/
theorem toNat_of_mem_encodeChar
    {c : Char} {byte : UInt8}
    (hmem : byte ∈ String.utf8EncodeChar c)
    (hbyte : byte.toNat < 128) :
    c.toNat = byte.toNat := by
  unfold String.utf8EncodeChar at hmem
  dsimp only at hmem
  split_ifs at hmem with h1 h2 h3
  · obtain rfl : byte = UInt8.ofNat c.val.toNat := by simpa using hmem
    rw [UInt8.toNat_ofNat']
    change c.val.toNat = _
    omega
  all_goals
    -- Every byte of a longer character has its top bit set.
    simp only [List.mem_cons, List.not_mem_nil, or_false] at hmem
    rcases hmem with rfl | rfl | rfl | rfl <;>
      · rw [UInt8.toNat_ofNat'] at hbyte
        omega

theorem toNat_ofNat
    {v : Nat}
    (h : v.isValidChar) :
    (Char.ofNat v).val.toNat = v := by
  unfold Char.ofNat
  rw [dif_pos h]
  rfl

theorem toNat_shown
    (byte : UInt8) :
    (shown byte).toNat = byte.toNat :=
  toNat_ofNat (.inl (Nat.lt_trans byte.toNat_lt (by decide)))

/-- A byte below 128 is the whole of a character. -/
theorem encodeChar_shown
    {byte : UInt8}
    (h : byte.toNat < 128) :
    String.utf8EncodeChar (shown byte) = [byte] := by
  rw [Spells.utf8EncodeChar_ascii (by rwa [toNat_shown]), toNat_shown, UInt8.ofNat_toNat]

section Decoding

/-- What a byte in the middle of a character does. -/
theorem feed_inner
    {bits low high after : Nat} {byte : UInt8}
    (hlow : low ≤ byte.toNat)
    (hhigh : byte.toNat ≤ high) :
    feed (some ⟨bits, low, high, after + 1⟩) byte =
      ([], some ⟨bits * 64 + byte.toNat % 64, 0x80, 0xBF, after⟩) := by
  simp [feed, hlow, hhigh]

/-- What the last byte of a character does. -/
theorem feed_final
    {bits low high : Nat} {byte : UInt8}
    (hlow : low ≤ byte.toNat)
    (hhigh : byte.toNat ≤ high) :
    feed (some ⟨bits, low, high, 0⟩) byte =
      ([Char.ofNat (bits * 64 + byte.toNat % 64)], none) := by
  simp [feed, hlow, hhigh]

theorem feed_more
    {byte : UInt8} {p : Pending}
    (h : lead byte = .more p) :
    feed none byte = ([], some p) := by
  simp [feed, h]

theorem toNat_continuation
    (n : Nat) :
    (UInt8.ofNat (n % 64 + 0x80)).toNat = n % 64 + 0x80 := by
  rw [UInt8.toNat_ofNat']
  omega

theorem lead_of_two
    {v : Nat}
    (hlow : 0x80 ≤ v)
    (hhigh : v < 0x800) :
    lead (UInt8.ofNat (v / 64 % 0x20 + 0xC0)) = .more ⟨v / 64, 0x80, 0xBF, 0⟩ := by
  have hbyte : (UInt8.ofNat (v / 64 % 0x20 + 0xC0)).toNat = v / 64 + 0xC0 := by
    rw [UInt8.toNat_ofNat']
    omega
  simp only [lead, hbyte]
  rw [if_neg (by omega), if_neg (by omega), if_pos (by omega), Nat.add_sub_cancel]

/-- The second of three bytes is within the bounds that the first one sets.  They are narrower where
a shorter form exists and where the surrogates are. -/
theorem lead_of_three
    {v : Nat}
    (hlow : 0x800 ≤ v)
    (hhigh : v < 0x10000)
    (hvalid : v < 0xD800 ∨ 0xDFFF < v) :
    ∃ low high,
      lead (UInt8.ofNat (v / 4096 % 0x10 + 0xE0)) = .more ⟨v / 4096, low, high, 1⟩ ∧
      low ≤ v / 64 % 64 + 0x80 ∧
      v / 64 % 64 + 0x80 ≤ high := by
  have hbyte : (UInt8.ofNat (v / 4096 % 0x10 + 0xE0)).toNat = v / 4096 + 0xE0 := by
    rw [UInt8.toNat_ofNat']
    omega
  simp only [lead, hbyte]
  rw [if_neg (by omega), if_neg (by omega), if_neg (by omega)]
  split_ifs with hfirst hsurrogate
  · exact ⟨_, _, by rw [show v / 4096 = 0 by omega], by omega, by omega⟩
  · exact ⟨_, _, by rw [show v / 4096 = 0xD by omega], by omega, by omega⟩
  · exact ⟨_, _, by rw [Nat.add_sub_cancel], by omega, by omega⟩
  all_goals omega

/-- The second of four bytes is within the bounds that the first one sets.  They are narrower where
a shorter form exists and where the characters end. -/
theorem lead_of_four
    {v : Nat}
    (hlow : 0x10000 ≤ v)
    (hhigh : v < 0x110000) :
    ∃ low high,
      lead (UInt8.ofNat (v / 262144 % 0x08 + 0xF0)) = .more ⟨v / 262144, low, high, 2⟩ ∧
      low ≤ v / 4096 % 64 + 0x80 ∧
      v / 4096 % 64 + 0x80 ≤ high := by
  have hbyte : (UInt8.ofNat (v / 262144 % 0x08 + 0xF0)).toNat = v / 262144 + 0xF0 := by
    rw [UInt8.toNat_ofNat']
    omega
  simp only [lead, hbyte]
  rw [if_neg (by omega), if_neg (by omega), if_neg (by omega), if_neg (by omega),
    if_neg (by omega), if_neg (by omega)]
  split_ifs with hfirst hinner hlast
  · exact ⟨_, _, by rw [show v / 262144 = 0 by omega], by omega, by omega⟩
  · exact ⟨_, _, by rw [Nat.add_sub_cancel], by omega, by omega⟩
  · exact ⟨_, _, by rw [show v / 262144 = 4 by omega], by omega, by omega⟩
  · omega

/-- The bytes of a character are read as that character. -/
theorem decodeFrom_encodeChar
    (c : Char) (rest : List UInt8) :
    decodeFrom none (String.utf8EncodeChar c ++ rest) = c :: decodeFrom none rest := by
  have hvalid : c.val.toNat < 0xD800 ∨ 0xDFFF < c.val.toNat ∧ c.val.toNat < 0x110000 := c.valid
  have hc : Char.ofNat c.val.toNat = c := Char.ofNat_toNat c
  unfold String.utf8EncodeChar
  dsimp only
  generalize c.val.toNat = v at hvalid hc ⊢
  split_ifs with h1 h2 h3
  · have hbyte : (UInt8.ofNat v).toNat = v := by
      rw [UInt8.toNat_ofNat']
      omega
    have hlead : lead (UInt8.ofNat v) = .whole c := by
      simp only [lead, hbyte, hc]
      rw [if_pos (by omega)]
    simp [decodeFrom, feed, hlead]
  · have hlead := lead_of_two (v := v) (by omega) (by omega)
    have hvalue : v / 64 * 64 + (v % 64 + 0x80) % 64 = v := by
      omega
    have hlast := toNat_continuation v
    simp only [List.cons_append, List.nil_append, decodeFrom, feed_more hlead]
    rw [feed_final (by omega) (by omega), hlast, hvalue, hc]
    rfl
  · obtain ⟨low, high, hlead, hlow, hhigh⟩ :=
      lead_of_three (v := v) (by omega) (by omega) (by omega)
    have hvalue :
        (v / 4096 * 64 + (v / 64 % 64 + 0x80) % 64) * 64 + (v % 64 + 0x80) % 64 = v := by
      omega
    have hinner := toNat_continuation (v / 64)
    have hlast := toNat_continuation v
    simp only [List.cons_append, List.nil_append, decodeFrom, feed_more hlead]
    rw [feed_inner (by omega) (by omega)]
    dsimp only
    rw [feed_final (by omega) (by omega), hinner, hlast, hvalue, hc]
    rfl
  · obtain ⟨low, high, hlead, hlow, hhigh⟩ := lead_of_four (v := v) (by omega) (by omega)
    have hvalue :
        ((v / 262144 * 64 + (v / 4096 % 64 + 0x80) % 64) * 64 + (v / 64 % 64 + 0x80) % 64) * 64 +
          (v % 64 + 0x80) % 64 = v := by
      omega
    have hsecond := toNat_continuation (v / 4096)
    have hinner := toNat_continuation (v / 64)
    have hlast := toNat_continuation v
    simp only [List.cons_append, List.nil_append, decodeFrom, feed_more hlead]
    rw [feed_inner (by omega) (by omega)]
    dsimp only
    rw [feed_inner (by omega) (by omega)]
    dsimp only
    rw [feed_final (by omega) (by omega), hsecond, hinner, hlast, hvalue, hc]
    rfl

end Decoding

theorem decodeFrom_ascii_cons
    {byte : UInt8}
    (hbyte : byte.toNat < 128)
    (rest : List UInt8) :
    decodeFrom none (byte :: rest) = shown byte :: decodeFrom none rest := by
  have hread := decodeFrom_encodeChar (shown byte) rest
  rwa [encodeChar_shown hbyte] at hread

/-- ASCII bytes are read one by one. -/
theorem decodeFrom_ascii
    {bytes : List UInt8}
    (h : ∀ byte ∈ bytes, byte.toNat < 128) :
    decodeFrom none bytes = bytes.map shown := by
  induction bytes with
  | nil =>
      rfl
  | cons byte rest ih =>
      rw [decodeFrom_ascii_cons (h byte List.mem_cons_self), List.map_cons,
        ih fun b hb => h b (List.mem_cons_of_mem _ hb)]

section Replacing

/-- Bytes that some character begins with. -/
def Begins (piece : List UInt8) : Prop :=
  ∃ c, piece <+: String.utf8EncodeChar c

/-- The characters that bytes are read as.  Where the bytes go on with a character, it is that one.
Where they go on with none, the replacement character stands for the longest piece that a character
begins with, or for a single byte if no character begins with it. -/
inductive Reading : List UInt8 → List Char → Prop
  | done :
      Reading [] []
  | character
      (c : Char) {rest : List UInt8} {chars : List Char}
      (h : Reading rest chars) :
      Reading (String.utf8EncodeChar c ++ rest) (c :: chars)
  | flaw
      {piece rest : List UInt8} {chars : List Char}
      (hnone : ∀ c, ¬ String.utf8EncodeChar c <+: piece ++ rest)
      (hpiece : piece ≠ [] ∧ Begins piece ∨ piece.length = 1)
      (hlongest : ∀ byte, rest.head? = some byte → ¬ Begins (piece ++ [byte]))
      (h : Reading rest chars) :
      Reading (piece ++ rest) (replacement :: chars)

/-- The bytes that complete a character under way. -/
structure Pending.Fits (p : Pending) (byte : UInt8) (more : List UInt8) : Prop where
  low : p.low ≤ byte.toNat
  high : byte.toNat ≤ p.high
  count : more.length = p.after
  inner : ∀ b ∈ more, 0x80 ≤ b.toNat ∧ b.toNat ≤ 0xBF

/-- The character under way after the bytes of `piece`. -/
structure Pending.After (p : Pending) (piece : List UInt8) : Prop where
  begun : piece ≠ []
  silent : ∀ rest, decodeFrom none (piece ++ rest) = decodeFrom (some p) rest
  bounds : 0x80 ≤ p.low ∧ p.low ≤ p.high ∧ p.high ≤ 0xBF
  closes : ∀ byte more, p.Fits byte more → ∃ c, String.utf8EncodeChar c = piece ++ byte :: more

theorem exists_encodeChar_two
    {b₀ b₁ : UInt8}
    (h₀ : 0xC2 ≤ b₀.toNat ∧ b₀.toNat < 0xE0)
    (h₁ : 0x80 ≤ b₁.toNat ∧ b₁.toNat ≤ 0xBF) :
    ∃ c, String.utf8EncodeChar c = [b₀, b₁] := by
  obtain ⟨v, hv⟩ : ∃ v, v = (b₀.toNat - 0xC0) * 64 + b₁.toNat % 64 := ⟨_, rfl⟩
  refine ⟨Char.ofNat v, ?_⟩
  unfold String.utf8EncodeChar
  rw [toNat_ofNat (by unfold Nat.isValidChar; omega)]
  dsimp only
  rw [if_neg (by omega), if_pos (by omega)]
  simp only [List.cons.injEq, and_true, ← UInt8.toNat_inj, UInt8.toNat_ofNat']
  omega

theorem exists_encodeChar_three
    {b₀ b₁ b₂ : UInt8}
    (h₀ : 0xE0 ≤ b₀.toNat ∧ b₀.toNat < 0xF0)
    (h₁ : 0x80 ≤ b₁.toNat ∧ b₁.toNat ≤ 0xBF)
    (hlong : b₀.toNat = 0xE0 → 0xA0 ≤ b₁.toNat)
    (hsurrogate : b₀.toNat = 0xED → b₁.toNat ≤ 0x9F)
    (h₂ : 0x80 ≤ b₂.toNat ∧ b₂.toNat ≤ 0xBF) :
    ∃ c, String.utf8EncodeChar c = [b₀, b₁, b₂] := by
  obtain ⟨v, hv⟩ : ∃ v, v = ((b₀.toNat - 0xE0) * 64 + b₁.toNat % 64) * 64 + b₂.toNat % 64 :=
    ⟨_, rfl⟩
  refine ⟨Char.ofNat v, ?_⟩
  unfold String.utf8EncodeChar
  rw [toNat_ofNat (by unfold Nat.isValidChar; omega)]
  dsimp only
  rw [if_neg (by omega), if_neg (by omega), if_pos (by omega)]
  simp only [List.cons.injEq, and_true, ← UInt8.toNat_inj, UInt8.toNat_ofNat']
  omega

theorem exists_encodeChar_four
    {b₀ b₁ b₂ b₃ : UInt8}
    (h₀ : 0xF0 ≤ b₀.toNat ∧ b₀.toNat ≤ 0xF4)
    (h₁ : 0x80 ≤ b₁.toNat ∧ b₁.toNat ≤ 0xBF)
    (hlong : b₀.toNat = 0xF0 → 0x90 ≤ b₁.toNat)
    (hlast : b₀.toNat = 0xF4 → b₁.toNat ≤ 0x8F)
    (h₂ : 0x80 ≤ b₂.toNat ∧ b₂.toNat ≤ 0xBF)
    (h₃ : 0x80 ≤ b₃.toNat ∧ b₃.toNat ≤ 0xBF) :
    ∃ c, String.utf8EncodeChar c = [b₀, b₁, b₂, b₃] := by
  obtain ⟨v, hv⟩ :
      ∃ v, v = (((b₀.toNat - 0xF0) * 64 + b₁.toNat % 64) * 64 + b₂.toNat % 64) * 64 +
        b₃.toNat % 64 := ⟨_, rfl⟩
  refine ⟨Char.ofNat v, ?_⟩
  unfold String.utf8EncodeChar
  rw [toNat_ofNat (by unfold Nat.isValidChar; omega)]
  dsimp only
  rw [if_neg (by omega), if_neg (by omega), if_neg (by omega)]
  simp only [List.cons.injEq, and_true, ← UInt8.toNat_inj, UInt8.toNat_ofNat']
  omega

/-- The first bytes of longer characters.  The bounds of the second byte are narrower where a shorter
form exists, where the surrogates are and where the characters end. -/
theorem lead_eq_more
    {byte : UInt8} {p : Pending}
    (h : lead byte = .more p) :
    0x80 ≤ p.low ∧ p.low ≤ p.high ∧ p.high ≤ 0xBF ∧
      (p.after = 0 ∧ 0xC2 ≤ byte.toNat ∧ byte.toNat < 0xE0 ∨
        p.after = 1 ∧ (0xE0 ≤ byte.toNat ∧ byte.toNat < 0xF0) ∧
          (byte.toNat = 0xE0 → 0xA0 ≤ p.low) ∧ (byte.toNat = 0xED → p.high ≤ 0x9F) ∨
        p.after = 2 ∧ (0xF0 ≤ byte.toNat ∧ byte.toNat ≤ 0xF4) ∧
          (byte.toNat = 0xF0 → 0x90 ≤ p.low) ∧ (byte.toNat = 0xF4 → p.high ≤ 0x8F)) := by
  unfold lead at h
  dsimp only at h
  -- The ranges of first bytes from the lowest up, as the decoder tries them.
  iterate 2
    rcases ite_eq_iff.1 h with ⟨_, h⟩ | ⟨_, h⟩
    · contradiction
  iterate 7
    rcases ite_eq_iff.1 h with ⟨_, h⟩ | ⟨_, h⟩
    · obtain rfl := Lead.more.inj h
      dsimp only
      omega
  contradiction

theorem lead_eq_whole
    {byte : UInt8} {c : Char}
    (h : lead byte = .whole c) :
    byte.toNat < 128 := by
  unfold lead at h
  dsimp only at h
  rcases ite_eq_iff.1 h with ⟨hascii, _⟩ | ⟨_, h⟩
  · exact hascii
  iterate 8
    rcases ite_eq_iff.1 h with ⟨_, h⟩ | ⟨_, h⟩
    · contradiction
  contradiction

theorem after_lead
    {byte : UInt8} {p : Pending}
    (h : lead byte = .more p) :
    p.After [byte] := by
  obtain ⟨hlow, hle, hhigh, hform⟩ := lead_eq_more h
  refine ⟨List.cons_ne_nil _ _, ?_, ⟨hlow, hle, hhigh⟩, ?_⟩
  · intro rest
    simp only [List.cons_append, List.nil_append, decodeFrom, feed_more h]
  · intro second more hfits
    have hsecond : 0x80 ≤ second.toNat ∧ second.toNat ≤ 0xBF :=
      ⟨Nat.le_trans hlow hfits.low, Nat.le_trans hfits.high hhigh⟩
    rcases hform with ⟨hafter, hbyte⟩ | ⟨hafter, hbyte, hlong, hsurrogate⟩ |
      ⟨hafter, hbyte, hlong, hlast⟩
    · obtain rfl : more = [] := List.length_eq_zero_iff.1 (hfits.count.trans hafter)
      exact exists_encodeChar_two hbyte hsecond
    · obtain ⟨third, rfl⟩ := List.length_eq_one_iff.1 (hfits.count.trans hafter)
      exact exists_encodeChar_three hbyte hsecond
        (fun heq => Nat.le_trans (hlong heq) hfits.low)
        (fun heq => Nat.le_trans hfits.high (hsurrogate heq)) (hfits.inner third (by simp))
    · obtain ⟨third, fourth, rfl⟩ := List.length_eq_two.1 (hfits.count.trans hafter)
      exact exists_encodeChar_four hbyte hsecond
        (fun heq => Nat.le_trans (hlong heq) hfits.low)
        (fun heq => Nat.le_trans hfits.high (hlast heq)) (hfits.inner third (by simp))
        (hfits.inner fourth (by simp))

theorem decodeFrom_invalid
    {byte : UInt8}
    (h : lead byte = .invalid)
    (rest : List UInt8) :
    decodeFrom none (byte :: rest) = replacement :: decodeFrom none rest := by
  simp [decodeFrom, feed, h]

/-- A character under way is read as something, completed or not. -/
theorem decodeFrom_some_ne_nil
    (p : Pending) (bytes : List UInt8) :
    decodeFrom (some p) bytes ≠ [] := by
  induction bytes generalizing p with
  | nil =>
      simp [decodeFrom]
  | cons byte rest ih =>
      by_cases hnext : p.low ≤ byte.toNat ∧ byte.toNat ≤ p.high
      · obtain ⟨bits, low, high, after⟩ := p
        cases after with
        | zero =>
            simp [decodeFrom, feed_final hnext.1 hnext.2]
        | succ after =>
            simp only [decodeFrom, feed_inner hnext.1 hnext.2]
            exact ih _
      · simp [decodeFrom, feed, hnext]

theorem decodeFrom_ne_nil
    {bytes : List UInt8}
    (h : bytes ≠ []) :
    decodeFrom none bytes ≠ [] := by
  obtain ⟨byte, rest, rfl⟩ := List.exists_cons_of_ne_nil h
  cases hlead : lead byte with
  | whole c =>
      simp [decodeFrom, feed, hlead]
  | more p =>
      simp only [decodeFrom, feed_more hlead]
      exact decodeFrom_some_ne_nil p rest
  | invalid =>
      simp [decodeFrom, feed, hlead]

section Flaws

variable {p : Pending} {piece : List UInt8}

/-- A byte that does not go on with the character under way is looked at afresh. -/
theorem decodeFrom_break
    {byte : UInt8}
    (h : ¬ (p.low ≤ byte.toNat ∧ byte.toNat ≤ p.high))
    (rest : List UInt8) :
    decodeFrom (some p) (byte :: rest) = replacement :: decodeFrom none (byte :: rest) := by
  simp [decodeFrom, feed, h]

/-- What is read as one character and more is not the encoding of a character. -/
theorem encodeChar_ne
    {first : Char} {bytes more : List UInt8}
    (h : decodeFrom none bytes = first :: decodeFrom none more)
    (hne : more ≠ [])
    (c : Char) :
    String.utf8EncodeChar c ≠ bytes := by
  rintro rfl
  have hread := decodeFrom_encodeChar c []
  rw [List.append_nil, h] at hread
  exact decodeFrom_ne_nil hne (List.cons.inj hread).2

theorem Pending.After.inner
    {bits low high after : Nat} {byte : UInt8}
    (h : Pending.After ⟨bits, low, high, after + 1⟩ piece)
    (hlow : low ≤ byte.toNat)
    (hhigh : byte.toNat ≤ high) :
    Pending.After ⟨bits * 64 + byte.toNat % 64, 0x80, 0xBF, after⟩ (piece ++ [byte]) := by
  refine ⟨by simp, ?_, by dsimp only; omega, ?_⟩
  · intro rest
    rw [List.append_assoc, h.silent]
    simp only [List.cons_append, List.nil_append, decodeFrom, feed_inner hlow hhigh]
  · intro next more hfits
    have hfits' : Pending.Fits ⟨bits, low, high, after + 1⟩ byte (next :: more) := by
      refine ⟨hlow, hhigh, congrArg Nat.succ hfits.count, ?_⟩
      intro b hb
      rcases List.mem_cons.1 hb with rfl | hb
      · exact ⟨hfits.low, hfits.high⟩
      · exact hfits.inner b hb
    obtain ⟨c, hc⟩ := h.closes byte (next :: more) hfits'
    exact ⟨c, by rw [hc, List.append_assoc]; rfl⟩

theorem Pending.After.final
    {bits low high : Nat} {byte : UInt8}
    (h : Pending.After ⟨bits, low, high, 0⟩ piece)
    (hlow : low ≤ byte.toNat)
    (hhigh : byte.toNat ≤ high) :
    String.utf8EncodeChar (Char.ofNat (bits * 64 + byte.toNat % 64)) = piece ++ [byte] := by
  obtain ⟨c, hc⟩ := h.closes byte [] ⟨hlow, hhigh, rfl, by simp⟩
  have hread := decodeFrom_encodeChar c []
  rw [List.append_nil, hc, h.silent] at hread
  simp only [decodeFrom, feed_final hlow hhigh] at hread
  obtain rfl : Char.ofNat (bits * 64 + byte.toNat % 64) = c := (List.cons.inj hread).1
  exact hc

/-- A character under way can be completed. -/
theorem Pending.After.exists_character
    (h : p.After piece) :
    ∃ c byte more, String.utf8EncodeChar c = piece ++ byte :: more := by
  obtain ⟨hlow, hle, hhigh⟩ := h.bounds
  have hbyte : (UInt8.ofNat p.low).toNat = p.low := by
    rw [UInt8.toNat_ofNat']
    omega
  have hfits : p.Fits (UInt8.ofNat p.low) (List.replicate p.after 0x80) := by
    refine ⟨by omega, by omega, List.length_replicate, ?_⟩
    intro b hb
    obtain rfl := List.eq_of_mem_replicate hb
    decide
  obtain ⟨c, hc⟩ := h.closes _ _ hfits
  exact ⟨c, _, _, hc⟩

theorem Pending.After.not_begins
    {byte : UInt8}
    (h : p.After piece)
    (hbyte : ¬ (p.low ≤ byte.toNat ∧ byte.toNat ≤ p.high)) :
    ¬ Begins (piece ++ [byte]) := by
  rintro ⟨c, tail, hc⟩
  have hread :
      decodeFrom none (piece ++ [byte] ++ tail) =
        replacement :: decodeFrom none (byte :: tail) := by
    rw [List.append_assoc, h.silent]
    exact decodeFrom_break hbyte tail
  exact encodeChar_ne hread (List.cons_ne_nil _ _) c hc.symm

/-- No character is over within what another one begins with. -/
theorem Pending.After.not_over
    (h : p.After piece)
    (c : Char) :
    ¬ String.utf8EncodeChar c <+: piece := by
  rintro ⟨more, rfl⟩
  obtain ⟨c', byte, tail, hc'⟩ := h.exists_character
  rw [List.append_assoc] at hc'
  exact encodeChar_ne (decodeFrom_encodeChar c _) (by simp) c' hc'

theorem Pending.After.not_within
    {rest : List UInt8}
    (h : p.After piece)
    (hrest : ∀ byte, rest.head? = some byte → ¬ (p.low ≤ byte.toNat ∧ byte.toNat ≤ p.high))
    (c : Char) :
    ¬ String.utf8EncodeChar c <+: piece ++ rest := by
  intro hc
  rcases List.prefix_or_prefix_of_prefix hc (List.prefix_append piece rest) with hover | hgoes
  · exact h.not_over c hover
  · obtain ⟨tail, htail⟩ := hgoes
    cases tail with
    | nil =>
        rw [List.append_nil] at htail
        exact h.not_over c (htail ▸ List.prefix_rfl)
    | cons byte tail =>
        obtain ⟨left, hleft⟩ := hc
        rw [← htail, List.append_assoc, List.append_cancel_left_eq] at hleft
        refine h.not_begins (hrest byte ?_) ⟨c, tail, by rw [List.append_assoc, ← htail]; rfl⟩
        rw [← hleft]
        rfl

end Flaws

theorem not_begins_of_invalid
    {byte : UInt8}
    (h : lead byte = .invalid) :
    ¬ Begins [byte] := by
  rintro ⟨c, tail, hc⟩
  cases tail with
  | nil =>
      -- The replacement character itself has more bytes.
      have hread := decodeFrom_encodeChar c []
      rw [List.append_nil, ← hc, List.append_nil, decodeFrom_invalid h] at hread
      obtain rfl : replacement = c := (List.cons.inj hread).1
      have hcount : 1 ≠ (String.utf8EncodeChar replacement).length := by decide
      exact hcount (congrArg List.length hc)
  | cons next tail =>
      exact encodeChar_ne (decodeFrom_invalid h (next :: tail)) (List.cons_ne_nil _ _) c hc.symm

theorem begins_first
    {c : Char} {byte : UInt8} {rest : List UInt8}
    (h : String.utf8EncodeChar c <+: byte :: rest) :
    Begins [byte] := by
  rcases List.prefix_cons_iff.1 h with hnil | ⟨tail, htail, -⟩
  · have hread := decodeFrom_encodeChar c []
    rw [hnil] at hread
    contradiction
  · exact ⟨c, tail, htail.symm⟩

theorem reading_invalid
    {byte : UInt8} {rest : List UInt8} {chars : List Char}
    (h : lead byte = .invalid)
    (hrest : Reading rest chars) :
    Reading (byte :: rest) (replacement :: chars) := by
  have hnone := not_begins_of_invalid h
  have hlongest : ∀ next, rest.head? = some next → ¬ Begins ([byte] ++ [next]) := by
    rintro next - ⟨c, tail, hc⟩
    exact hnone ⟨c, next :: tail, hc⟩
  exact .flaw (fun c hc => hnone (begins_first hc)) (.inr rfl) hlongest hrest

theorem Pending.After.reading_flaw
    {p : Pending} {piece rest : List UInt8} {chars : List Char}
    (h : p.After piece)
    (hnext : ∀ byte, rest.head? = some byte → ¬ (p.low ≤ byte.toNat ∧ byte.toNat ≤ p.high))
    (hrest : Reading rest chars) :
    Reading (piece ++ rest) (replacement :: chars) := by
  obtain ⟨c, byte, more, hc⟩ := h.exists_character
  exact .flaw (h.not_within hnext) (.inl ⟨h.begun, c, byte :: more, hc.symm⟩)
    (fun byte hbyte => h.not_begins (hnext byte hbyte)) hrest

/-- The decoder reads as `Reading` says, at a fresh byte and within a character. -/
theorem reading_decodeFrom
    (bytes : List UInt8) :
    Reading bytes (decodeFrom none bytes) ∧
      ∀ p piece, Pending.After p piece →
        Reading (piece ++ bytes) (decodeFrom (some p) bytes) := by
  induction bytes with
  | nil =>
      exact ⟨.done, fun p piece h => h.reading_flaw (by simp) .done⟩
  | cons byte rest ih =>
      obtain ⟨hfresh, hunder⟩ := ih
      have hnone : Reading (byte :: rest) (decodeFrom none (byte :: rest)) := by
        cases hlead : lead byte with
        | whole c =>
            have hascii := lead_eq_whole hlead
            have hread := Reading.character (shown byte) hfresh
            rw [decodeFrom_ascii_cons hascii]
            rwa [encodeChar_shown hascii] at hread
        | more p =>
            have hafter := after_lead hlead
            have hread := hunder p [byte] hafter
            rwa [← hafter.silent] at hread
        | invalid =>
            rw [decodeFrom_invalid hlead]
            exact reading_invalid hlead hfresh
      refine ⟨hnone, ?_⟩
      intro p piece h
      by_cases hnext : p.low ≤ byte.toNat ∧ byte.toNat ≤ p.high
      · obtain ⟨bits, low, high, after⟩ := p
        cases after with
        | zero =>
            have hread := Reading.character (Char.ofNat (bits * 64 + byte.toNat % 64)) hfresh
            rw [h.final hnext.1 hnext.2, List.append_assoc] at hread
            simp only [decodeFrom, feed_final hnext.1 hnext.2]
            exact hread
        | succ after =>
            have hread := hunder _ _ (h.inner hnext.1 hnext.2)
            rw [List.append_assoc] at hread
            simp only [decodeFrom, feed_inner hnext.1 hnext.2]
            exact hread
      · rw [decodeFrom_break hnext]
        refine h.reading_flaw ?_ hnone
        intro b hb
        obtain rfl := Option.some.inj hb
        exact hnext

/-- A byte from 128 up leaves its mark on the text. -/
theorem Reading.exists_beyond
    {bytes : List UInt8} {chars : List Char} {byte : UInt8}
    (h : Reading bytes chars)
    (hmem : byte ∈ bytes)
    (hbyte : 128 ≤ byte.toNat) :
    ∃ c ∈ chars, 128 ≤ c.toNat := by
  induction h with
  | done =>
      contradiction
  | character c _ ih =>
      rcases List.mem_append.1 hmem with hc | hrest
      · refine ⟨c, List.mem_cons_self, ?_⟩
        by_contra hlt
        rw [Spells.utf8EncodeChar_ascii (Nat.lt_of_not_le hlt), List.mem_singleton] at hc
        rw [hc, UInt8.toNat_ofNat'] at hbyte
        omega
      · obtain ⟨c', hc', hbeyond⟩ := ih hrest
        exact ⟨c', List.mem_cons_of_mem _ hc', hbeyond⟩
  | flaw =>
      exact ⟨replacement, List.mem_cons_self, by decide⟩

end Replacing

end Utf8
end FungeTrace
