import FungeTrace.Proofs.Numerals
import FungeTrace.Stream.Source
import Mathlib.Data.List.TakeWhile

/-!
# Reading tokens

Input is cut at its first token: the whitespace before it, the token itself, and the rest, which is
empty or begins with whitespace (`FirstToken`).  Reading a number uses up the first two and leaves the
rest, whether the token is a number or not: `readInteger_of_firstToken`.

A program may mix such reads with reads of single bytes.  Each of them uses up a part of the input,
and these parts follow each other from the beginning of the input to what is left: `answers_consume`.
-/

namespace FungeTrace
namespace Source

open Decimal

section Cutting

/-- Blank, tab, line feed, carriage return, vertical tab and form feed. -/
def whitespace : List UInt8 := [32, 9, 10, 13, 11, 12]

theorem isBlank_iff
    {byte : UInt8} :
    isBlank byte = true ↔ byte ∈ whitespace := by
  simp only [isBlank, whitespace, Bool.or_eq_true, beq_iff_eq, Bool.and_eq_true, decide_eq_true_eq,
    List.mem_cons, List.not_mem_nil, or_false, UInt8.le_iff_toNat_le, ← UInt8.toNat_inj]
  change byte.toNat = 32 ∨ 9 ≤ byte.toNat ∧ byte.toNat ≤ 13 ↔
    byte.toNat = 32 ∨ byte.toNat = 9 ∨ byte.toNat = 10 ∨ byte.toNat = 13 ∨ byte.toNat = 11 ∨
      byte.toNat = 12
  omega

/-- The first token of some input, with all whitespace before it and the rest behind it.  Without a
token the input is whitespace only. -/
structure FirstToken (bytes blanks token rest : List UInt8) : Prop where
  split : bytes = blanks ++ token ++ rest
  blank : ∀ byte ∈ blanks, byte ∈ whitespace
  solid : ∀ byte ∈ token, byte ∉ whitespace
  begins : ∀ byte, (token ++ rest).head? = some byte → byte ∉ whitespace
  ends : ∀ byte, rest.head? = some byte → byte ∈ whitespace

theorem dropWhile_of_head?
    {p : UInt8 → Bool} {bytes : List UInt8}
    (h : ∀ byte, bytes.head? = some byte → p byte = false) :
    bytes.dropWhile p = bytes ∧ bytes.takeWhile p = [] := by
  cases bytes with
  | nil =>
      exact ⟨rfl, rfl⟩
  | cons byte rest =>
      simp [h byte rfl]

variable {bytes blanks token rest : List UInt8}

/-- The scanner finds the first token. -/
theorem FirstToken.scan
    (h : FirstToken bytes blanks token rest) :
    bytes.dropWhile isBlank = token ++ rest ∧
      (token ++ rest).takeWhile (!isBlank ·) = token ∧
      (token ++ rest).dropWhile (!isBlank ·) = rest := by
  have hblanks : ∀ byte ∈ blanks, isBlank byte = true := fun byte hbyte =>
    isBlank_iff.2 (h.blank byte hbyte)
  have htoken : ∀ byte ∈ token, (!isBlank byte) = true := by
    intro byte hbyte
    have := mt isBlank_iff.1 (h.solid byte hbyte)
    simpa using this
  have hbegins : ∀ byte, (token ++ rest).head? = some byte → isBlank byte = false := by
    intro byte hbyte
    have := mt isBlank_iff.1 (h.begins byte hbyte)
    simpa using this
  have hends : ∀ byte, rest.head? = some byte → (!isBlank byte) = false := by
    intro byte hbyte
    simpa using isBlank_iff.2 (h.ends byte hbyte)
  obtain ⟨hdrop, htake⟩ := dropWhile_of_head? hends
  refine ⟨?_, ?_, ?_⟩
  · rw [h.split, List.append_assoc, List.dropWhile_append_of_pos hblanks]
    exact (dropWhile_of_head? hbegins).1
  · rw [List.takeWhile_append_of_pos htoken, htake, List.append_nil]
  · rw [List.dropWhile_append_of_pos htoken, hdrop]

theorem FirstToken.rest_eq_nil
    (h : FirstToken bytes blanks [] rest) :
    rest = [] := by
  cases rest with
  | nil =>
      rfl
  | cons byte rest =>
      exact absurd (h.ends byte rfl) (h.begins byte rfl)

/-- All input can be cut at its first token. -/
theorem exists_firstToken
    (bytes : List UInt8) :
    ∃ blanks token rest, FirstToken bytes blanks token rest := by
  refine ⟨bytes.takeWhile isBlank, (bytes.dropWhile isBlank).takeWhile (!isBlank ·),
    (bytes.dropWhile isBlank).dropWhile (!isBlank ·), ?_, ?_, ?_, ?_, ?_⟩
  · rw [List.append_assoc, List.takeWhile_append_dropWhile, List.takeWhile_append_dropWhile]
  · intro byte hbyte
    exact isBlank_iff.1 (List.mem_takeWhile_imp hbyte)
  · intro byte hbyte
    have := List.mem_takeWhile_imp hbyte
    rw [← isBlank_iff]
    simpa using this
  · intro byte hbyte
    rw [List.takeWhile_append_dropWhile] at hbyte
    have := List.head?_dropWhile_not isBlank bytes
    rw [hbyte] at this
    rw [← isBlank_iff]
    simpa using this
  · intro byte hbyte
    have := List.head?_dropWhile_not (!isBlank ·) (bytes.dropWhile isBlank)
    rw [hbyte] at this
    rw [← isBlank_iff]
    simpa using this

end Cutting

section Numbers

/-- What becomes of a token that is read as a number. -/
inductive Verdict : List UInt8 → Except Fault Int32 → Prop
  | missing :
      Verdict [] (.error .unexpectedEof)
  | number
      {token : List UInt8} {value : Int32}
      (h : Numeral token value.toInt) :
      Verdict token (.ok value)
  | malformed
      {token : List UInt8} {chars : List Char}
      (hne : token ≠ [])
      (h : ∀ n, Numeral token n → n < -2 ^ 31 ∨ 2 ^ 31 ≤ n)
      (hchars : Utf8.Reading token chars) :
      Verdict token (.error (.inputFormat (String.ofList chars)))

section Exclusive

variable {token : List UInt8} {reply : Except Fault Int32}

theorem in_range
    (value : Int32) :
    ¬ (value.toInt < -2 ^ 31 ∨ 2 ^ 31 ≤ value.toInt) := by
  have hlow := value.le_toInt
  have hhigh := value.toInt_lt
  omega

theorem Verdict.reply_of_nil
    (h : Verdict [] reply) :
    reply = .error .unexpectedEof := by
  cases h with
  | missing =>
      rfl
  | number h =>
      exact absurd rfl h.ne_nil
  | malformed hne =>
      contradiction

/-- A number is given for its numerals only. -/
theorem Verdict.reply_ok_iff
    {value : Int32}
    (h : Verdict token reply) :
    reply = .ok value ↔ Numeral token value.toInt := by
  constructor
  · rintro rfl
    cases h with
    | number h =>
        exact h
  · intro hvalue
    cases h with
    | missing =>
        exact absurd rfl hvalue.ne_nil
    | number h =>
        rw [Int32.toInt_inj.1 (h.value_unique hvalue)]
    | malformed _ h =>
        exact absurd (h _ hvalue) (in_range value)

theorem Verdict.reply_of_none
    (h : Verdict token reply)
    (hne : token ≠ [])
    (hnone : ∀ n, Numeral token n → n < -2 ^ 31 ∨ 2 ^ 31 ≤ n) :
    ∃ chars, Utf8.Reading token chars ∧ reply = .error (.inputFormat (String.ofList chars)) := by
  cases h with
  | missing =>
      contradiction
  | number h =>
      exact absurd (hnone _ h) (in_range _)
  | malformed _ _ hchars =>
      exact ⟨_, hchars, rfl⟩

end Exclusive

/-- A number that does not fit 32 bits is none for the reader. -/
theorem out_of_range
    {token : List UInt8}
    (h : ∀ value : Int32, ¬ Numeral token value.toInt) :
    ∀ n, Numeral token n → n < -2 ^ 31 ∨ 2 ^ 31 ≤ n := by
  intro n hn
  by_contra hrange
  have hlow : -2 ^ 31 ≤ n := by omega
  have hhigh : n < 2 ^ 31 := by omega
  apply h (Int32.ofInt n)
  rwa [Int32.toInt_ofInt_of_le hlow hhigh]

theorem verdict_parseToken
    {token : List UInt8}
    (hne : token ≠ []) :
    Verdict token (parseToken token) := by
  unfold parseToken
  dsimp only
  split
  · rename_i value hvalue
    exact .number (int32?_decode.1 hvalue)
  · rename_i hnone
    refine .malformed hne (out_of_range ?_) (Utf8.reading_decodeFrom token).1
    intro value hvalue
    rw [int32?_decode.2 hvalue] at hnone
    contradiction

/-- A read of a number uses up the first token and no more, whatever the token is. -/
theorem readInteger_of_firstToken
    {bytes blanks token rest : List UInt8}
    (h : FirstToken bytes blanks token rest) :
    ∃ reply, Verdict token reply ∧
      readInteger ⟨bytes, none⟩ = Act.ofExcept reply ⟨rest, none⟩ := by
  obtain ⟨hdrop, htoken, hrest⟩ := h.scan
  unfold readInteger
  dsimp only
  rw [hdrop, htoken, hrest]
  cases token with
  | nil =>
      exact ⟨_, .missing, rfl⟩
  | cons first token =>
      refine ⟨_, verdict_parseToken (List.cons_ne_nil first token), ?_⟩
      have hnone : (false || rest.isEmpty && (none : Option StreamFlaw).isSome) = false := by
        rw [Option.isSome_none, Bool.and_false, Bool.or_false]
      rw [List.isEmpty_cons, hnone, if_neg Bool.false_ne_true]
      cases parseToken (first :: token) <;> rfl

end Numbers

section Mixes

/-- What a program asks of its input. -/
inductive Request where
  | unit
  | integer

/-- Reads what is asked for. -/
def Request.answer : Request → Act Source (UInt8 ⊕ Int32)
  | unit => Sum.inl <$> readUnit
  | integer => Sum.inr <$> readInteger

/-- Reads one thing after another.  A failed read is not the end: reading goes on where it stopped. -/
def answers : List Request → Source → List (Except Fault (UInt8 ⊕ Int32)) × Source
  | [], s => ([], s)
  | request :: requests, s =>
    match request.answer s with
    | .ok reply s =>
      let (replies, left) := answers requests s
      (.ok reply :: replies, left)
    | .error fault s =>
      let (replies, left) := answers requests s
      (.error fault :: replies, left)

theorem answers_cons
    {request : Request} {s s' : Source} {reply : Except Fault (UInt8 ⊕ Int32)}
    (h : request.answer s = Act.ofExcept reply s')
    (requests : List Request) :
    answers (request :: requests) s =
      (reply :: (answers requests s').1, (answers requests s').2) := by
  rw [answers, h]
  cases reply <;> rfl

/-- What a read uses up of the input, what it gives, and what it leaves. -/
inductive Uses :
    Request → List UInt8 → List UInt8 → Except Fault (UInt8 ⊕ Int32) → List UInt8 → Prop
  | unit
      (byte : UInt8) (rest : List UInt8) :
      Uses .unit (byte :: rest) [byte] (.ok (.inl byte)) rest
  | drained :
      Uses .unit [] [] (.error .unexpectedEof) []
  | integer
      {bytes blanks token rest : List UInt8} {reply : Except Fault Int32}
      (htoken : FirstToken bytes blanks token rest)
      (hreply : Verdict token reply) :
      Uses .integer bytes (blanks ++ token) (reply.map .inr) rest

/-- What reads use up one after another, each from where the one before it stopped. -/
inductive Consumes :
    List Request → List UInt8 → List (List UInt8) → List (Except Fault (UInt8 ⊕ Int32)) →
      List UInt8 → Prop
  | done
      (bytes : List UInt8) :
      Consumes [] bytes [] [] bytes
  | next
      {request : Request} {requests : List Request}
      {bytes used rest left : List UInt8} {parts : List (List UInt8)}
      {reply : Except Fault (UInt8 ⊕ Int32)} {replies : List (Except Fault (UInt8 ⊕ Int32))}
      (first : Uses request bytes used reply rest)
      (others : Consumes requests rest parts replies left) :
      Consumes (request :: requests) bytes (used :: parts) (reply :: replies) left

theorem Uses.split
    {request : Request} {bytes used rest : List UInt8} {reply : Except Fault (UInt8 ⊕ Int32)}
    (h : Uses request bytes used reply rest) :
    bytes = used ++ rest := by
  cases h with
  | unit byte rest =>
      rfl
  | drained =>
      rfl
  | integer htoken hreply =>
      exact htoken.split

/-- The parts make up the input from its beginning on, with no gap and no overlap. -/
theorem Consumes.split
    {requests : List Request} {bytes left : List UInt8} {parts : List (List UInt8)}
    {replies : List (Except Fault (UInt8 ⊕ Int32))}
    (h : Consumes requests bytes parts replies left) :
    bytes = parts.flatten ++ left := by
  induction h with
  | done bytes =>
      rfl
  | next first others ih =>
      rw [first.split, ih, List.flatten_cons, List.append_assoc]

theorem answer_integer
    {s s' : Source} {reply : Except Fault Int32}
    (h : readInteger s = Act.ofExcept reply s') :
    Request.integer.answer s = Act.ofExcept (reply.map .inr) s' := by
  change EStateM.map Sum.inr readInteger s = _
  rw [EStateM.map, h]
  cases reply <;> rfl

/-- One read. -/
theorem uses_answer
    (request : Request) (bytes : List UInt8) :
    ∃ used reply rest, Uses request bytes used reply rest ∧
      request.answer ⟨bytes, none⟩ = Act.ofExcept reply ⟨rest, none⟩ := by
  cases request with
  | unit =>
      cases bytes with
      | nil =>
          exact ⟨_, _, _, .drained, rfl⟩
      | cons byte rest =>
          exact ⟨_, _, _, .unit byte rest, rfl⟩
  | integer =>
      obtain ⟨blanks, token, rest, htoken⟩ := exists_firstToken bytes
      obtain ⟨reply, hreply, hread⟩ := readInteger_of_firstToken htoken
      exact ⟨_, _, _, .integer htoken hreply, answer_integer hread⟩

/-- Any number of reads. -/
theorem answers_consume
    (requests : List Request) (bytes : List UInt8) :
    ∃ parts replies left, Consumes requests bytes parts replies left ∧
      answers requests ⟨bytes, none⟩ = (replies, ⟨left, none⟩) := by
  induction requests generalizing bytes with
  | nil =>
      exact ⟨[], [], bytes, .done bytes, rfl⟩
  | cons request requests ih =>
      obtain ⟨used, reply, rest, huses, hanswer⟩ := uses_answer request bytes
      obtain ⟨parts, replies, left, hconsumes, hanswers⟩ := ih rest
      refine ⟨used :: parts, reply :: replies, left, .next huses hconsumes, ?_⟩
      rw [answers_cons hanswer, hanswers]

end Mixes

/-- Reads of numbers and bytes.  All input begins with a token, between whitespace that comes before it
and a rest that whitespace begins.  A number is read from the token: it fails at the end of input if
there is none, gives the number that the token is a numeral of, and fails with the text of the token
if there is no such number of 32 bits.  It leaves the rest, so reads of any kind in any order use up
the input from left to right. -/
theorem reads_tokens
    (bytes : List UInt8) :
    (∃ blanks token rest, FirstToken bytes blanks token rest ∧
      (token = [] →
        rest = [] ∧ readInteger ⟨bytes, none⟩ = .error .unexpectedEof ⟨[], none⟩) ∧
      (token ≠ [] →
        (∀ value,
          readInteger ⟨bytes, none⟩ = .ok value ⟨rest, none⟩ ↔ Numeral token value.toInt) ∧
        ((∀ n, Numeral token n → n < -2 ^ 31 ∨ 2 ^ 31 ≤ n) →
          ∃ chars, Utf8.Reading token chars ∧
            readInteger ⟨bytes, none⟩ =
              .error (.inputFormat (String.ofList chars)) ⟨rest, none⟩))) ∧
      ∀ requests, ∃ parts replies left,
        answers requests ⟨bytes, none⟩ = (replies, ⟨left, none⟩) ∧
          Consumes requests bytes parts replies left ∧
          bytes = parts.flatten ++ left := by
  constructor
  · obtain ⟨blanks, token, rest, htoken⟩ := exists_firstToken bytes
    obtain ⟨reply, hreply, hread⟩ := readInteger_of_firstToken htoken
    refine ⟨blanks, token, rest, htoken, ?_, ?_⟩
    · rintro rfl
      obtain rfl := htoken.rest_eq_nil
      obtain rfl := hreply.reply_of_nil
      exact ⟨rfl, hread⟩
    · intro hne
      rw [hread]
      refine ⟨?_, ?_⟩
      · intro value
        rw [← hreply.reply_ok_iff]
        cases reply <;> simp [Act.ofExcept]
      · intro hnone
        obtain ⟨chars, hchars, rfl⟩ := hreply.reply_of_none hne hnone
        exact ⟨chars, hchars, rfl⟩
  · intro requests
    obtain ⟨parts, replies, left, hconsumes, hanswers⟩ := answers_consume requests bytes
    exact ⟨parts, replies, left, hanswers, hconsumes, hconsumes.split⟩

end Source
end FungeTrace
