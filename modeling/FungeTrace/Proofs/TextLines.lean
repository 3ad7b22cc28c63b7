import FungeTrace.Proofs.Encoding
import FungeTrace.Text.Lines
import Mathlib.Data.List.Basic

/-!
# Lines of texts

The lines of a text are the pieces between its newlines.  One carriage return directly before a
newline belongs to the newline, and an empty piece behind the last newline is no line: `ofText`.
Cutting the bytes of a text gives the bytes of these lines, whatever other characters there are:
`ofBytes_encode`.

A text without carriage returns may be edited at the ends of its lines.  The lines stay the same with
a carriage return before every newline (`ofText_withReturns`) and with a newline behind the last line
(`ofText_append_newline`).  Blanks at the end of a line are added to that line only
(`ofText_append_blanks`).
-/

namespace FungeTrace
namespace Lines

section Texts

/-- A piece without one carriage return at its end. -/
def chop (piece : List Char) : List Char :=
  if piece.getLast? = some '\r' then piece.dropLast else piece

/-- The lines among the pieces of a text.  No newline follows the last piece: it keeps its end, and
is no line if it is empty. -/
def ofCut (pieces : List (List Char)) : List (List Char) :=
  pieces.dropLast.map chop ++ pieces.getLast?.toList.filter (· ≠ [])

/-- The lines of a text, each as its bytes. -/
def ofText (source : String) : List (List UInt8) :=
  (ofCut (source.toList.splitOn '\n')).map fun line => Utf8.encode (String.ofList line)

theorem ofCut_append
    (ps : List (List Char)) {qs : List (List Char)}
    (hqs : qs ≠ []) :
    ofCut (ps ++ qs) = ps.map chop ++ ofCut qs := by
  unfold ofCut
  rw [List.dropLast_append_of_ne_nil hqs, List.getLast?_append_of_ne_nil ps hqs, List.map_append,
    List.append_assoc]

theorem ofCut_cons
    (p : List Char) {qs : List (List Char)}
    (hqs : qs ≠ []) :
    ofCut (p :: qs) = chop p :: ofCut qs :=
  ofCut_append [p] hqs

theorem ofCut_singleton
    (last : List Char) :
    ofCut [last] = if last = [] then [] else [last] := by
  by_cases h : last = []
  · simp [ofCut, h]
  · simp [ofCut, h]

theorem chop_of_not_mem
    {piece : List Char}
    (h : '\r' ∉ piece) :
    chop piece = piece := by
  unfold chop
  rw [if_neg]
  intro hlast
  exact h (List.mem_of_getLast? hlast)

theorem chop_append_return
    (piece : List Char) :
    chop (piece ++ ['\r']) = piece := by
  simp [chop]

end Texts

section Bytes

theorem pieces_ne_nil
    (separator : UInt8) (bytes : List UInt8) :
    pieces separator bytes ≠ [] := by
  cases bytes with
  | nil =>
      simp [pieces]
  | cons byte rest =>
      unfold pieces
      split
      · simp
      · split
        · simp
        · simp

/-- Bytes without a separator go to the first piece. -/
theorem pieces_append
    {separator : UInt8} {bytes : List UInt8}
    (h : separator ∉ bytes)
    (rest : List UInt8) :
    pieces separator (bytes ++ rest) = (pieces separator rest).modifyHead (bytes ++ ·) := by
  induction bytes with
  | nil =>
      rw [List.nil_append]
      cases pieces separator rest <;> rfl
  | cons byte bytes ih =>
      simp only [List.mem_cons, not_or] at h
      obtain ⟨hbyte, hbytes⟩ := h
      rw [List.cons_append, pieces, if_neg (Ne.symm hbyte), ih hbytes]
      cases hpieces : pieces separator rest with
      | nil =>
          exact absurd hpieces (pieces_ne_nil separator rest)
      | cons piece others =>
          rfl

theorem newline_not_mem_encodeChar
    {c : Char}
    (hc : c ≠ '\n') :
    newline ∉ String.utf8EncodeChar c := by
  intro hmem
  have hcode := Utf8.toNat_of_mem_encodeChar hmem (by decide)
  exact hc (Char.toNat_inj.1 hcode)

/-- Cutting the bytes of some characters at newlines cuts the characters there. -/
theorem pieces_flatMap
    (chars : List Char) :
    pieces newline (chars.flatMap String.utf8EncodeChar) =
      (chars.splitOn '\n').map (·.flatMap String.utf8EncodeChar) := by
  induction chars with
  | nil =>
      simp [pieces]
  | cons c chars ih =>
      rw [List.flatMap_cons, List.splitOn_cons_eq_if_modifyHead]
      by_cases hc : c = '\n'
      · subst hc
        have hbytes : String.utf8EncodeChar '\n' = [newline] := by decide
        rw [hbytes, List.singleton_append, pieces, if_pos rfl, ih]
        rfl
      · rw [pieces_append (newline_not_mem_encodeChar hc), ih, if_neg (by simpa using hc)]
        cases chars.splitOn '\n' <;> rfl

theorem getLast?_encodeChar_eq_return
    {c : Char} :
    (String.utf8EncodeChar c).getLast? = some carriageReturn ↔ c = '\r' := by
  constructor
  · intro h
    have hcode := Utf8.toNat_of_mem_encodeChar (List.mem_of_getLast? h) (by decide)
    exact Char.toNat_inj.1 hcode
  · rintro rfl
    decide

theorem trimReturn_flatMap
    (piece : List Char) :
    trimReturn (piece.flatMap String.utf8EncodeChar) =
      (chop piece).flatMap String.utf8EncodeChar := by
  rcases List.eq_nil_or_concat' piece with rfl | ⟨init, c, rfl⟩
  · rfl
  · have hlast :
        ((init ++ [c]).flatMap String.utf8EncodeChar).getLast? =
          (String.utf8EncodeChar c).getLast? := by
      rw [List.flatMap_append, List.flatMap_singleton,
        List.getLast?_append_of_ne_nil _ String.utf8EncodeChar_ne_nil]
    by_cases hc : c = '\r'
    · subst hc
      rw [chop_append_return, trimReturn, if_pos (hlast.trans (by decide)), List.flatMap_append]
      have hbytes : ['\r'].flatMap String.utf8EncodeChar = [carriageReturn] := by decide
      rw [hbytes, List.dropLast_concat]
    · have hchop : chop (init ++ [c]) = init ++ [c] := by
        simp [chop, hc]
      rw [hchop, trimReturn, if_neg]
      rw [hlast, getLast?_encodeChar_eq_return]
      exact hc

theorem ofPieces_map
    (ps : List (List Char)) :
    ofPieces (ps.map (·.flatMap String.utf8EncodeChar)) =
      (ofCut ps).map (·.flatMap String.utf8EncodeChar) := by
  induction ps with
  | nil =>
      rfl
  | cons p ps ih =>
      cases ps with
      | nil =>
          rw [ofCut_singleton]
          by_cases hp : p = []
          · subst hp
            rfl
          · have hbytes : p.flatMap String.utf8EncodeChar ≠ [] := by
              obtain ⟨c, rest, rfl⟩ := List.exists_cons_of_ne_nil hp
              simp [String.utf8EncodeChar_ne_nil]
            simp [ofPieces, hp, hbytes]
      | cons q ps =>
          rw [ofCut_cons p (List.cons_ne_nil q ps), List.map_cons, List.map_cons, List.map_cons,
            ofPieces, trimReturn_flatMap, ← ih, List.map_cons]
          intro h
          simp at h

/-- The lines of a text can be found by cutting its bytes. -/
theorem ofBytes_encode
    (source : String) :
    ofBytes (Utf8.encode source) = ofText source := by
  unfold ofBytes ofText
  rw [Spells.encode_eq_flatMap, pieces_flatMap, ofPieces_map]
  congr 1
  funext line
  rw [Utf8.encode_ofList]

end Bytes

section Edits

theorem mem_of_mem_splitOn
    {a x : Char} {xs piece : List Char}
    (hpiece : piece ∈ xs.splitOn a)
    (hx : x ∈ piece) :
    x ∈ xs := by
  induction xs generalizing piece with
  | nil =>
      obtain rfl : piece = [] := by simpa using hpiece
      contradiction
  | cons y xs ih =>
      rw [List.splitOn_cons_eq_if_modifyHead] at hpiece
      split at hpiece
      · rcases List.mem_cons.1 hpiece with rfl | hpiece
        · contradiction
        · exact List.mem_cons_of_mem y (ih hpiece hx)
      · obtain ⟨first, others, hsplit⟩ :=
          List.exists_cons_of_ne_nil (List.splitOn_ne_nil a xs)
        rw [hsplit] at ih hpiece
        rcases List.mem_cons.1 hpiece with rfl | hpiece
        · rcases List.mem_cons.1 hx with rfl | hx
          · exact List.mem_cons_self
          · exact List.mem_cons_of_mem y (ih List.mem_cons_self hx)
        · exact List.mem_cons_of_mem y (ih (List.mem_cons_of_mem _ hpiece) hx)

/-- The last piece of some characters, with the pieces before it: what is appended without a
separator goes there. -/
def LastPiece (a : Char) (xs : List Char) (top : List (List Char)) (line : List Char) : Prop :=
  ∀ ys, a ∉ ys → (xs ++ ys).splitOn a = top ++ [line ++ ys]

theorem LastPiece.splitOn_eq
    {a : Char} {xs line : List Char} {top : List (List Char)}
    (h : LastPiece a xs top line) :
    xs.splitOn a = top ++ [line] := by
  simpa using h [] List.not_mem_nil

theorem LastPiece.not_mem
    {a x : Char} {xs line : List Char} {top : List (List Char)}
    (h : LastPiece a xs top line)
    (hx : x ∉ xs) :
    x ∉ line := by
  have hline : line ∈ xs.splitOn a := by
    rw [h.splitOn_eq]
    simp
  intro hmem
  exact hx (mem_of_mem_splitOn hline hmem)

theorem exists_lastPiece
    (a : Char) (xs : List Char) :
    ∃ top line, LastPiece a xs top line := by
  induction xs with
  | nil =>
      refine ⟨[], [], ?_⟩
      intro ys hys
      simpa using List.splitOn_eq_singleton hys
  | cons x xs ih =>
      obtain ⟨top, line, h⟩ := ih
      by_cases hx : x = a
      · refine ⟨[] :: top, line, ?_⟩
        intro ys hys
        rw [List.cons_append, List.splitOn_cons_eq_if_modifyHead, if_pos (by simpa using hx),
          h ys hys, List.cons_append]
      · have hcons : ∀ ys, a ∉ ys →
            (x :: xs ++ ys).splitOn a = (top ++ [line ++ ys]).modifyHead (x :: ·) := by
          intro ys hys
          rw [List.cons_append, List.splitOn_cons_eq_if_modifyHead, if_neg (by simpa using hx),
            h ys hys]
        cases top with
        | nil =>
            exact ⟨[], x :: line, hcons⟩
        | cons piece top =>
            exact ⟨(x :: piece) :: top, line, hcons⟩

/-- The last piece of a text that does not end in a separator is not empty. -/
theorem exists_lastPiece_ne_nil
    {a c : Char} {xs : List Char}
    (hlast : xs.getLast? = some c)
    (hc : c ≠ a) :
    ∃ top line, line ≠ [] ∧ LastPiece a xs top line := by
  obtain ⟨init, rfl⟩ := List.getLast?_eq_some_iff.1 hlast
  obtain ⟨top, line, h⟩ := exists_lastPiece a init
  refine ⟨top, line ++ [c], by simp, ?_⟩
  intro ys hys
  have hcys : a ∉ c :: ys := by
    simp [hys, Ne.symm hc]
  simpa using h (c :: ys) hcys

/-- A text with a carriage return put before every newline. -/
def withReturns (source : String) : String :=
  String.ofList (source.toList.flatMap fun c => if c = '\n' then ['\r', '\n'] else [c])

/-- Pieces with a carriage return put at the end of all but the last. -/
def returned : List (List Char) → List (List Char)
  | [] => []
  | [last] => [last]
  | piece :: rest => (piece ++ ['\r']) :: returned rest

theorem returned_cons
    (piece : List Char) {rest : List (List Char)}
    (hrest : rest ≠ []) :
    returned (piece :: rest) = (piece ++ ['\r']) :: returned rest := by
  cases rest with
  | nil =>
      contradiction
  | cons next rest =>
      rfl

theorem splitOn_withReturns
    (chars : List Char) :
    (chars.flatMap fun c => if c = '\n' then ['\r', '\n'] else [c]).splitOn '\n' =
      returned (chars.splitOn '\n') := by
  induction chars with
  | nil =>
      simp [returned]
  | cons c chars ih =>
      rw [List.flatMap_cons, List.splitOn_cons_eq_if_modifyHead]
      by_cases hc : c = '\n'
      · have hne := List.splitOn_ne_nil '\n' chars
        simp [hc, List.splitOn_cons_eq_if_modifyHead, ih, returned_cons [] hne]
      · have hbeq : ¬ (c == '\n') = true := by simpa using hc
        rw [if_neg hc, List.singleton_append, List.splitOn_cons_eq_if_modifyHead, ih, if_neg hbeq,
          if_neg hbeq]
        -- The character goes to the first piece, whether that is the last one or not.
        rcases chars.splitOn '\n' with _ | ⟨first, _ | ⟨next, others⟩⟩ <;> rfl

theorem ofCut_returned
    {ps : List (List Char)}
    (h : ∀ p ∈ ps, '\r' ∉ p) :
    ofCut (returned ps) = ofCut ps := by
  induction ps with
  | nil =>
      rfl
  | cons p ps ih =>
      cases ps with
      | nil =>
          rfl
      | cons q ps =>
          have hreturned : returned (q :: ps) ≠ [] := by
            cases ps <;> simp [returned]
          have hp := chop_of_not_mem (h p List.mem_cons_self)
          have hrest := ih fun r hr => h r (List.mem_cons_of_mem p hr)
          rw [returned_cons p (List.cons_ne_nil q ps), ofCut_cons _ hreturned, hrest,
            ofCut_cons p (List.cons_ne_nil q ps), chop_append_return, hp]

/-- Newlines may be written with a carriage return. -/
theorem ofText_withReturns
    {source : String}
    (h : '\r' ∉ source.toList) :
    ofText (withReturns source) = ofText source := by
  unfold ofText withReturns
  rw [String.toList_ofList, splitOn_withReturns, ofCut_returned]
  intro p hp hmem
  exact h (mem_of_mem_splitOn hp hmem)

/-- Whether a line of the text `before ++ after` ends between the two. -/
def LineEnd (before after : String) : Prop :=
  after.toList.head? = some '\n' ∨
    after = "" ∧ ∃ c, before.toList.getLast? = some c ∧ c ≠ '\n'

/-- A text of blanks. -/
def blanks (n : Nat) : String := String.ofList (List.replicate n ' ')

theorem encode_append_blanks
    (text : String) (n : Nat) :
    Utf8.encode (text ++ String.ofList (List.replicate n ' ')) =
      Utf8.encode text ++ List.replicate n 32 := by
  have hblank : String.utf8EncodeChar ' ' = [32] := by decide
  rw [Utf8.encode_append, Utf8.encode_ofList]
  congr 1
  induction n with
  | zero =>
      rfl
  | succ n ih =>
      rw [List.replicate_succ, List.replicate_succ, List.flatMap_cons, hblank, ih]
      rfl

/-- Blanks at the end of a line are added to the bytes of that line. -/
theorem ofText_append_blanks
    {before after : String}
    (hreturn : '\r' ∉ before.toList)
    (hend : LineEnd before after)
    (n : Nat) :
    ∃ top line bottom,
      ofText (before ++ after) = top ++ line :: bottom ∧
      ofText (before ++ blanks n ++ after) = top ++ (line ++ List.replicate n 32) :: bottom := by
  have hblanks : '\n' ∉ List.replicate n ' ' := by
    simp
  rcases hend with hnewline | ⟨rfl, c, hc, hcn⟩
  · -- Behind the newline the pieces of the rest of the text go on.
    obtain ⟨rest, hrest⟩ := List.head?_eq_some_iff.1 hnewline
    obtain ⟨top, line, hlast⟩ := exists_lastPiece '\n' before.toList
    have hline := hlast.not_mem hreturn
    have hpadded : '\r' ∉ line ++ List.replicate n ' ' := by
      simp [hline]
    refine ⟨(top.map chop).map fun l => Utf8.encode (String.ofList l),
      Utf8.encode (String.ofList line),
      (ofCut (rest.splitOn '\n')).map fun l => Utf8.encode (String.ofList l), ?_, ?_⟩
    · have hpieces : (before ++ after).toList.splitOn '\n' =
          top ++ [line] ++ rest.splitOn '\n' := by
        rw [String.toList_append, hrest, List.splitOn_append_cons_self, hlast.splitOn_eq]
      rw [ofText, hpieces, ofCut_append _ (List.splitOn_ne_nil _ _)]
      simp [chop_of_not_mem hline]
    · have hpieces : (before ++ blanks n ++ after).toList.splitOn '\n' =
          top ++ [line ++ List.replicate n ' '] ++ rest.splitOn '\n' := by
        rw [String.toList_append, String.toList_append, blanks, String.toList_ofList, hrest,
          List.splitOn_append_cons_self, hlast _ hblanks]
      rw [ofText, hpieces, ofCut_append _ (List.splitOn_ne_nil _ _)]
      simp [chop_of_not_mem hpadded, encode_append_blanks]
  · obtain ⟨top, line, hne, hlast⟩ := exists_lastPiece_ne_nil hc hcn
    refine ⟨(top.map chop).map fun l => Utf8.encode (String.ofList l),
      Utf8.encode (String.ofList line), [], ?_, ?_⟩
    · have hpieces : (before ++ "").toList.splitOn '\n' = top ++ [line] := by
        simpa using hlast.splitOn_eq
      rw [ofText, hpieces, ofCut_append _ (by simp), ofCut_singleton, if_neg hne]
      simp
    · have hpieces : (before ++ blanks n ++ "").toList.splitOn '\n' =
          top ++ [line ++ List.replicate n ' '] := by
        simpa [blanks] using hlast _ hblanks
      rw [ofText, hpieces, ofCut_append _ (by simp), ofCut_singleton, if_neg (by simp [hne])]
      simp [encode_append_blanks]

/-- A newline behind the last line adds no line. -/
theorem ofText_append_newline
    {source : String} {c : Char}
    (hreturn : '\r' ∉ source.toList)
    (hlast : source.toList.getLast? = some c)
    (hc : c ≠ '\n') :
    ofText (source ++ "\n") = ofText source := by
  obtain ⟨top, line, hne, hpiece⟩ := exists_lastPiece_ne_nil hlast hc
  have hline := hpiece.not_mem hreturn
  have hpieces : (source ++ "\n").toList.splitOn '\n' = top ++ [line] ++ [[]] := by
    have htoList : (source ++ "\n").toList = source.toList ++ '\n' :: [] := by
      simp
    rw [htoList, List.splitOn_append_cons_self, hpiece.splitOn_eq, List.splitOn_nil]
  have hcut : ofCut (top ++ [line] ++ [[]]) = ofCut (top ++ [line]) := by
    rw [ofCut_append _ (by simp), ofCut_append _ (by simp), ofCut_singleton, ofCut_singleton,
      if_neg hne]
    simp [chop_of_not_mem hline]
  rw [ofText, ofText, hpieces, hpiece.splitOn_eq, hcut]

end Edits

end Lines
end FungeTrace
