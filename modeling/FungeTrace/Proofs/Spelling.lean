import FungeTrace.Stream.Sink

/-!
# Texts and the bytes they stand for

A terminal shows every byte as the character of that code.  A text spells a list of bytes if it is
what a terminal shows for them.  What a program can print is always shown so: a single byte, and a
number, whose decimal text has ASCII characters only.
-/

namespace FungeTrace

/-- The character that a byte is shown as. -/
def shown (byte : UInt8) : Char := Char.ofNat byte.toNat

/-- Whether a text is what a terminal shows for some bytes. -/
def Spells (bytes : List UInt8) (text : String) : Prop :=
  text.toList = bytes.map shown

namespace Spells

theorem append
    {bytes bytes' : List UInt8} {text text' : String}
    (h : Spells bytes text)
    (h' : Spells bytes' text') :
    Spells (bytes ++ bytes') (text ++ text') := by
  unfold Spells at *
  rw [String.toList_append, List.map_append, h, h']

theorem nil :
    Spells [] "" := by
  rfl

theorem unit
    (byte : UInt8) :
    Spells [byte] (Sink.unitText byte) := by
  simp [Spells, Sink.unitText, shown]

/-- An ASCII character is encoded as its code. -/
theorem utf8EncodeChar_ascii
    {c : Char}
    (hc : c.toNat < 128) :
    String.utf8EncodeChar c = [UInt8.ofNat c.toNat] := by
  have hsize : c.utf8Size = 1 := by
    rw [Char.utf8Size_eq_one_iff]
    rw [UInt32.le_iff_toNat_le]
    exact Nat.le_of_lt_succ hc
  rw [String.utf8EncodeChar_eq_singleton hsize]
  congr 1

theorem shown_ofNat
    {c : Char}
    (hc : c.toNat < 128) :
    shown (UInt8.ofNat c.toNat) = c := by
  have hmod : c.toNat % 256 = c.toNat :=
    Nat.mod_eq_of_lt (by omega)
  simp [shown, hmod]

/-- The bytes that the array-to-list loop has still to visit are those from its position on. -/
theorem toList_loop
    (bytes : ByteArray) (i : Nat) (seen : List UInt8) :
    ByteArray.toList.loop bytes i seen =
      seen.reverse ++ bytes.data.toList.drop i := by
  fun_induction ByteArray.toList.loop bytes i seen with
  | case1 i seen hi ih =>
      have hlt : i < bytes.data.toList.length := by
        simpa using hi
      have hget : bytes.get! i = bytes.data.toList[i] := by
        simp [ByteArray.get!, hi]
      rw [ih, List.drop_eq_getElem_cons hlt, hget]
      simp
  | case2 i seen hi =>
      have hle : bytes.data.toList.length ≤ i := by
        simpa using hi
      simp [List.drop_eq_nil_of_le hle]

theorem encode_eq_flatMap
    (text : String) :
    Utf8.encode text = text.toList.flatMap String.utf8EncodeChar := by
  have hbytes :
      text.toUTF8.data.toList = text.toList.flatMap String.utf8EncodeChar := by
    rw [String.toUTF8_eq_toByteArray, ← String.utf8Encode_toList]
    simp [List.utf8Encode]
  unfold Utf8.encode ByteArray.toList
  rw [toList_loop, hbytes]
  rfl

/-- An ASCII text spells its own encoding. -/
theorem ascii
    {text : String}
    (htext : ∀ c ∈ text.toList, c.toNat < 128) :
    Spells (Utf8.encode text) text := by
  unfold Spells
  rw [encode_eq_flatMap]
  generalize text.toList = chars at htext
  induction chars with
  | nil =>
      rfl
  | cons c rest ih =>
      have hc : c.toNat < 128 :=
        htext c List.mem_cons_self
      have hrest : ∀ d ∈ rest, d.toNat < 128 := by
        intro d hd
        exact htext d (List.mem_cons_of_mem c hd)
      rw [List.flatMap_cons, List.map_append, ← ih hrest]
      rw [utf8EncodeChar_ascii hc]
      simp [shown_ofNat hc]

theorem toNat_lt_of_isDigit
    {c : Char}
    (hc : c.isDigit = true) :
    c.toNat < 128 := by
  simp only [Char.isDigit, Bool.and_eq_true, decide_eq_true_eq] at hc
  have h9 : c.toNat ≤ 57 := UInt32.le_iff_toNat_le.1 hc.2
  omega

/-- A number is written in digits, after a sign if it is negative, with a blank behind. -/
theorem mem_numberText
    {value : Int32} {c : Char}
    (hc : c ∈ (Sink.numberText value).toList) :
    c.isDigit = true ∨ c = '-' ∨ c = ' ' := by
  unfold Sink.numberText Decimal.int32 at hc
  rw [String.toList_append, List.mem_append] at hc
  rcases hc with hc | hc
  · rw [Int.toString_eq_repr, Int.repr_eq_if] at hc
    have hdigit :
        ∀ n : Nat, c ∈ n.repr.toList → c.isDigit = true := by
      intro n hn
      rw [Nat.toList_repr] at hn
      exact Nat.isDigit_of_mem_toDigits (by decide) (by decide) hn
    split at hc
    · exact .inl (hdigit _ hc)
    · rw [String.toList_append, List.mem_append] at hc
      rcases hc with hsign | hc
      · exact .inr (.inl (by simpa using hsign))
      · exact .inl (hdigit _ hc)
  · right
    right
    simpa using hc

theorem number
    (value : Int32) :
    Spells (Utf8.encode (Sink.numberText value)) (Sink.numberText value) := by
  apply ascii
  intro c hc
  rcases mem_numberText hc with hdigit | rfl | rfl
  · exact toNat_lt_of_isDigit hdigit
  · decide
  · decide

end Spells
end FungeTrace
