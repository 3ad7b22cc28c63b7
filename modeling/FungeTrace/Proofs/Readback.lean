import FungeTrace.Proofs.Mirror
import FungeTrace.Proofs.Tokens

/-!
# Numbers written and read back

A number is written as a numeral and a blank.  The blank ends the token, so numbers that were written
one after another are tokens one after another, and reading them gives the numbers back.  Nothing is
left but the last blank, and one more read finds the end of input: `answers_numbers`.

A writer and a terminal are given the same text (`forM_writer`, `forM_terminal`), so the bytes to read
are the same, wherever the numbers were written to.
-/

namespace FungeTrace

open Decimal Act

namespace Sink

/-- The text of numbers written one after another. -/
def numbersText : List Int32 → String
  | [] => ""
  | value :: values => numberText value ++ numbersText values

theorem encode_numbersText_nil :
    Utf8.encode (numbersText []) = [] := by
  rw [Spells.encode_eq_flatMap]
  rfl

theorem encode_numbersText_cons
    (value : Int32) (values : List Int32) :
    Utf8.encode (numbersText (value :: values)) =
      Utf8.encode (int32 value) ++ 32 :: Utf8.encode (numbersText values) := by
  have hblank : Utf8.encode " " = [32] := by
    rw [Spells.encode_eq_flatMap]
    rfl
  rw [numbersText, numberText, Utf8.encode_append, Utf8.encode_append, hblank, List.append_assoc]
  rfl

section Writing

/-- One number to a writer. -/
theorem writeNumber_writer
    {w : Writer}
    (hlimit : w.limit = none)
    (value : Int32) :
    writeNumber value (.writer w) =
      .ok () (.writer
        { w with recent := (Utf8.encode (numberText value)).reverse ++ w.recent }) := by
  rw [writeNumber, put, Writer.writeAll_unlimited hlimit]

theorem forM_writer
    {w : Writer}
    (hlimit : w.limit = none)
    (values : List Int32) :
    values.forM writeNumber (.writer w) =
      .ok () (.writer
        { w with recent := (Utf8.encode (numbersText values)).reverse ++ w.recent }) := by
  induction values generalizing w with
  | nil =>
      rw [encode_numbersText_nil]
      rfl
  | cons value values ih =>
      have hrest := ih (w := { w with
        recent := (Utf8.encode (numberText value)).reverse ++ w.recent }) hlimit
      change (writeNumber value >>= fun _ => values.forM writeNumber) _ = _
      rw [bind_ok (writeNumber_writer hlimit value), hrest, numbersText, Utf8.encode_append,
        List.reverse_append, List.append_assoc]

theorem forM_terminal
    (t : Terminal) (tick : Nat) (values : List Int32) :
    ∃ t', values.forM writeNumber (.terminal t tick) = .ok () (.terminal t' tick) ∧
      t'.contents = t.contents ++ numbersText values := by
  induction values generalizing t with
  | nil =>
      refine ⟨t, rfl, ?_⟩
      rw [numbersText, String.append_empty]
  | cons value values ih =>
      obtain ⟨t', hwrite, hcontents⟩ := ih (t.print (numberText value) tick)
      refine ⟨t', hwrite, ?_⟩
      rw [hcontents, Terminal.contents_print, String.append_assoc]
      rfl

end Writing

end Sink

namespace Source

section Reading

theorem solid_of_numeral
    {token : List UInt8} {n : Int}
    (h : Numeral token n) :
    ∀ byte ∈ token, byte ∉ whitespace := by
  intro byte hbyte hmem
  have hblank : byte.toNat ≤ 32 := by
    simp only [whitespace, List.mem_cons, List.not_mem_nil, or_false] at hmem
    rcases hmem with rfl | rfl | rfl | rfl | rfl | rfl <;> decide
  have hvisible := h.visible byte hbyte
  omega

/-- A numeral between whitespace is the first token. -/
theorem firstToken_numeral
    {blanks token : List UInt8} {n : Int}
    (hblanks : ∀ byte ∈ blanks, byte ∈ whitespace)
    (htoken : Numeral token n)
    (rest : List UInt8) :
    FirstToken (blanks ++ (token ++ 32 :: rest)) blanks token (32 :: rest) := by
  refine ⟨(List.append_assoc _ _ _).symm, hblanks, solid_of_numeral htoken, ?_, ?_⟩
  · obtain ⟨first, others, rfl⟩ := List.exists_cons_of_ne_nil htoken.ne_nil
    intro byte hbyte
    obtain rfl := Option.some.inj hbyte
    exact solid_of_numeral htoken _ List.mem_cons_self
  · intro byte hbyte
    obtain rfl := Option.some.inj hbyte
    exact List.mem_cons_self

theorem answers_numbers
    (values : List Int32) {blanks : List UInt8}
    (hblanks : ∀ byte ∈ blanks, byte ∈ whitespace) :
    answers (List.replicate (values.length + 1) .integer)
        ⟨blanks ++ Utf8.encode (Sink.numbersText values), none⟩ =
      (values.map (fun value => .ok (.inr value)) ++ [.error .unexpectedEof], ⟨[], none⟩) := by
  induction values generalizing blanks with
  | nil =>
      have htoken : FirstToken (blanks ++ []) blanks [] [] :=
        ⟨by simp, hblanks, by simp, by simp, by simp⟩
      obtain ⟨reply, hreply, hread⟩ := readInteger_of_firstToken htoken
      obtain rfl := hreply.reply_of_nil
      rw [Sink.encode_numbersText_nil]
      exact answers_cons (answer_integer hread) []
  | cons value values ih =>
      -- The blank behind this number is the whitespace before the next.
      have hnumeral := numeral_int32 value
      have htoken := firstToken_numeral hblanks hnumeral (Utf8.encode (Sink.numbersText values))
      obtain ⟨reply, hreply, hread⟩ := readInteger_of_firstToken htoken
      obtain rfl := hreply.reply_ok_iff.2 hnumeral
      have hblank : ∀ byte ∈ [(32 : UInt8)], byte ∈ whitespace := by
        intro byte hbyte
        rw [List.mem_singleton.1 hbyte]
        exact List.mem_cons_self
      rw [Sink.encode_numbersText_cons, List.length_cons, List.replicate_succ,
        answers_cons (answer_integer hread)]
      have hrest := ih hblank
      rw [List.singleton_append] at hrest
      rw [hrest]
      rfl

end Reading

/-- Numbers written to a writer or to a terminal give the same bytes, and these are read as the same
numbers, with nothing after them. -/
theorem numbers_read_back
    (values : List Int32) (tick : Nat) :
    ∃ (w : Writer) (t : Terminal),
      values.forM Sink.writeNumber (.writer {}) = .ok () (.writer w) ∧
      values.forM Sink.writeNumber (.terminal .empty tick) = .ok () (.terminal t tick) ∧
      Utf8.encode t.contents = w.bytes ∧
      answers (List.replicate (values.length + 1) .integer) ⟨w.bytes, none⟩ =
        (values.map (fun value => .ok (.inr value)) ++ [.error .unexpectedEof], ⟨[], none⟩) := by
  obtain ⟨t, hterminal, hcontents⟩ := Sink.forM_terminal .empty tick values
  have hwriter := Sink.forM_writer (w := {}) rfl values
  have hbytes :
      Writer.bytes { recent := (Utf8.encode (Sink.numbersText values)).reverse ++ [] } =
        Utf8.encode (Sink.numbersText values) := by
    rw [Writer.bytes, List.append_nil, List.reverse_reverse]
  refine ⟨_, t, hwriter, hterminal, ?_, ?_⟩
  · rw [hcontents, Terminal.contents_empty, String.empty_append, hbytes]
  · have hnone : ∀ byte ∈ ([] : List UInt8), byte ∈ whitespace := by
      simp
    rw [hbytes]
    exact answers_numbers values hnone

end Source
end FungeTrace
