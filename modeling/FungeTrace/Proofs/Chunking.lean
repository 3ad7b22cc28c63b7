import FungeTrace.Proofs.Mirror
import Mathlib.Data.List.Basic
import Mathlib.Data.List.Induction

/-!
# Output in pieces

A terminal does not show how its output was cut into prints.  A print begins a new line if all lines
so far are finished, and continues the last one otherwise: `lines_print`.  So all lines but the last
end in a newline (`finished_printAll`), and cutting them at newlines one by one gives the same rows as
cutting all output at once: `output_of_finished`.

As long as no print is empty, a line is begun by the print that supplied its first character, and has
the tick of that print: `dated_printAll`.
-/

namespace FungeTrace
namespace Terminal

section Rows

/-- The pieces of a text without an empty one at the end. -/
def settled (pieces : List (List Char)) : List (List Char) :=
  if pieces.getLast? = some [] then pieces.dropLast else pieces

theorem settled_append
    (ps : List (List Char)) {qs : List (List Char)}
    (hqs : qs ≠ []) :
    settled (ps ++ qs) = ps ++ settled qs := by
  simp only [settled, List.getLast?_append_of_ne_nil ps hqs]
  split
  · exact List.dropLast_append_of_ne_nil hqs
  · rfl

theorem cut_eq_splitOn
    (chars : List Char) :
    cut chars = chars.splitOn '\n' := by
  induction chars with
  | nil =>
      rfl
  | cons c chars ih =>
      rw [cut, ih, List.splitOn_cons_eq_if_modifyHead]
      by_cases hc : c = '\n'
      · simp [hc]
      · obtain ⟨piece, others, hpieces⟩ :=
          List.exists_cons_of_ne_nil (List.splitOn_ne_nil '\n' chars)
        simp [hc, hpieces]

theorem rows_eq_settled
    (text : String) :
    rows text = (settled (text.toList.splitOn '\n')).map String.ofList := by
  have hlast (pieces : List (List Char)) :
      pieces.getLast?.any (·.isEmpty) = true ↔ pieces.getLast? = some [] := by
    cases pieces.getLast? <;> simp
  simp only [rows, cut_eq_splitOn, settled, hlast]

theorem rows_empty :
    rows "" = [] := by
  rfl

/-- What follows a newline is cut into rows of its own. -/
theorem rows_append
    {text : String}
    (htext : text.endsWith '\n' = true)
    (more : String) :
    rows (text ++ more) = rows text ++ rows more := by
  obtain ⟨front, rfl⟩ := String.endsWith_char_iff_exists_append.1 htext
  simp only [rows_eq_settled, String.toList_append, String.toList_singleton, List.append_assoc,
    List.singleton_append, List.splitOn_append_cons_self, List.splitOn_nil]
  rw [settled_append _ (List.splitOn_ne_nil '\n' _), settled_append _ (List.cons_ne_nil _ _)]
  simp [settled]

end Rows

section Prints

/-- Prints one after another, each a text and the tick it is put down to. -/
def printAll (t : Terminal) (prints : List (String × Nat)) : Terminal :=
  prints.foldl (fun t print => t.print print.1 print.2) t

theorem printAll_concat
    (t : Terminal) (prints : List (String × Nat)) (print : String × Nat) :
    t.printAll (prints ++ [print]) = (t.printAll prints).print print.1 print.2 := by
  simp [printAll]

theorem contents_printAll
    (t : Terminal) (prints : List (String × Nat)) :
    (t.printAll prints).contents = t.contents ++ String.join (prints.map Prod.fst) := by
  induction prints using List.reverseRecOn with
  | nil =>
      simp [printAll]
  | append_singleton prints print ih =>
      rw [printAll_concat, contents_print, ih]
      simp [String.append_assoc]

/-- All lines but the last end in a newline. -/
def Finished (t : Terminal) : Prop :=
  ∀ line ∈ t.lines.dropLast, line.text.endsWith '\n' = true

/-- A print begins a new line behind finished ones, or continues the last line. -/
theorem lines_print
    {t : Terminal}
    (ht : t.Finished)
    (text : String) (tick : Nat) :
    ((∀ line ∈ t.lines, line.text.endsWith '\n' = true) ∧
      (t.print text tick).lines = t.lines ++ [⟨text, tick⟩]) ∨
    ∃ earlier last,
      t.lines = earlier ++ [last] ∧
      (t.print text tick).lines = earlier ++ [{ last with text := last.text ++ text }] := by
  obtain ⟨recent⟩ := t
  cases recent with
  | nil =>
      exact .inl ⟨by simp [lines], rfl⟩
  | cons last earlier =>
      have hlines : lines ⟨last :: earlier⟩ = earlier.reverse ++ [last] := by
        simp [lines]
      by_cases hlast : last.text.endsWith '\n' = true
      · refine .inl ⟨?_, by simp [print, hlast, lines]⟩
        intro line hline
        rw [hlines, List.mem_append, List.mem_singleton] at hline
        rcases hline with hline | rfl
        · apply ht
          rw [hlines, List.dropLast_concat]
          exact hline
        · exact hlast
      · exact .inr ⟨earlier.reverse, last, hlines, by simp [print, hlast, lines]⟩

theorem finished_print
    {t : Terminal}
    (ht : t.Finished)
    (text : String) (tick : Nat) :
    (t.print text tick).Finished := by
  intro line hline
  rcases lines_print ht text tick with ⟨hall, hlines⟩ | ⟨earlier, last, hbefore, hlines⟩
  · rw [hlines, List.dropLast_concat] at hline
    exact hall line hline
  · rw [hlines, List.dropLast_concat] at hline
    apply ht
    rw [hbefore, List.dropLast_concat]
    exact hline

theorem finished_printAll
    (prints : List (String × Nat)) :
    (empty.printAll prints).Finished := by
  induction prints using List.reverseRecOn with
  | nil =>
      simp [printAll, Finished, empty, lines]
  | append_singleton prints print ih =>
      rw [printAll_concat]
      exact finished_print ih print.1 print.2

theorem flatMap_rows
    {lines : List OutputLine}
    (h : ∀ line ∈ lines.dropLast, line.text.endsWith '\n' = true) :
    lines.flatMap (fun line => rows line.text) = rows (String.join (lines.map (·.text))) := by
  induction lines with
  | nil =>
      exact rows_empty.symm
  | cons line lines ih =>
      cases lines with
      | nil =>
          simp
      | cons next others =>
          have hline : line.text.endsWith '\n' = true := h line (by simp)
          have hrest := ih fun other hother => h other (by simp [hother])
          rw [List.flatMap_cons, hrest, ← rows_append hline, ← String.join_cons, ← List.map_cons]

/-- The rows of finished lines are the rows of all output. -/
theorem output_of_finished
    {t : Terminal}
    (ht : t.Finished) :
    t.output = rows t.contents :=
  flatMap_rows ht

end Prints

section Ticks

/-- The place in the whole of some texts at which text number `i` begins. -/
def beginning (texts : List String) (i : Nat) : Nat := (String.join (texts.take i)).length

theorem beginning_mono
    (texts : List String) {i j : Nat}
    (h : i ≤ j) :
    beginning texts i ≤ beginning texts j := by
  have htake : texts.take j = texts.take i ++ (texts.drop i).take (j - i) := by
    rw [← List.take_add, Nat.add_sub_cancel' h]
  simp only [beginning, htake, String.join_append, String.length_append]
  omega

theorem beginning_append
    {texts : List String} {i : Nat}
    (h : i ≤ texts.length)
    (more : List String) :
    beginning (texts ++ more) i = beginning texts i := by
  simp only [beginning, List.take_append_of_le_length h]

theorem beginning_length
    (texts : List String) :
    beginning texts texts.length = (String.join texts).length := by
  simp only [beginning, List.take_length]

/-- The character at a place of all output came with a print of this tick. -/
def Supplied (prints : List (String × Nat)) (place tick : Nat) : Prop :=
  ∃ k text,
    prints[k]? = some (text, tick) ∧
    beginning (prints.map Prod.fst) k ≤ place ∧
    place < beginning (prints.map Prod.fst) (k + 1)

theorem Supplied.append
    {prints : List (String × Nat)} {place tick : Nat}
    (h : Supplied prints place tick)
    (more : List (String × Nat)) :
    Supplied (prints ++ more) place tick := by
  obtain ⟨k, text, hprint, hfrom, hto⟩ := h
  have hk : k < prints.length := (List.getElem?_eq_some_iff.1 hprint).1
  refine ⟨k, text, ?_, ?_, ?_⟩
  · rw [List.getElem?_append_left hk, hprint]
  · rw [List.map_append, beginning_append (by simp; omega)]
    exact hfrom
  · rw [List.map_append, beginning_append (by simp; omega)]
    exact hto

/-- The last of some prints supplies the character at which it begins. -/
theorem supplied_last
    (prints : List (String × Nat)) {text : String}
    (htext : text ≠ "")
    (tick : Nat) :
    Supplied (prints ++ [(text, tick)]) (String.join (prints.map Prod.fst)).length tick := by
  have hpos : 0 < text.length := by
    rw [Nat.pos_iff_ne_zero]
    simpa using htext
  refine ⟨prints.length, text, by simp, ?_, ?_⟩
  · rw [List.map_append, beginning_append (by simp)]
    simpa using Nat.le_of_eq (beginning_length (prints.map Prod.fst))
  · have hall := beginning_length ((prints ++ [(text, tick)]).map Prod.fst)
    simp only [List.length_map, List.length_append, List.length_singleton] at hall
    rw [hall]
    simp [String.length_append, hpos]

/-- Later places were supplied by later prints. -/
theorem Supplied.le
    {prints : List (String × Nat)} {place place' tick tick' : Nat}
    (hsorted : (prints.map Prod.snd).Pairwise (· ≤ ·))
    (h : Supplied prints place tick)
    (h' : Supplied prints place' tick')
    (hplace : place ≤ place') :
    tick ≤ tick' := by
  obtain ⟨k, text, hprint, hfrom, hto⟩ := h
  obtain ⟨k', text', hprint', hfrom', hto'⟩ := h'
  have hle : k ≤ k' := by
    by_contra hlt
    have hmono := beginning_mono (prints.map Prod.fst) (show k' + 1 ≤ k by omega)
    omega
  rcases Nat.eq_or_lt_of_le hle with rfl | hlt
  · rw [hprint] at hprint'
    simp only [Option.some.injEq, Prod.mk.injEq] at hprint'
    exact Nat.le_of_eq hprint'.2
  · obtain ⟨hk, hget⟩ := List.getElem?_eq_some_iff.1 hprint
    obtain ⟨hk', hget'⟩ := List.getElem?_eq_some_iff.1 hprint'
    have hpair := List.pairwise_iff_getElem.1 hsorted k k' (by simpa) (by simpa) hlt
    simpa [hget, hget'] using hpair

/-- Every line has a first character, and the tick of the print that supplied it. -/
def Dated (prints : List (String × Nat)) (t : Terminal) : Prop :=
  ∀ i line, t.lines[i]? = some line →
    line.text ≠ "" ∧ Supplied prints (beginning (t.lines.map (·.text)) i) line.tick

theorem dated_print
    {prints : List (String × Nat)} {t : Terminal} {text : String}
    (ht : t.Finished)
    (hcontents : t.contents = String.join (prints.map Prod.fst))
    (hdated : Dated prints t)
    (htext : text ≠ "")
    (tick : Nat) :
    Dated (prints ++ [(text, tick)]) (t.print text tick) := by
  intro i line hline
  rcases lines_print ht text tick with ⟨-, hlines⟩ | ⟨earlier, last, hbefore, hlines⟩
  · rw [hlines] at hline ⊢
    rcases Nat.lt_or_ge i t.lines.length with hi | hi
    · rw [List.getElem?_append_left hi] at hline
      obtain ⟨hne, hsupplied⟩ := hdated i line hline
      refine ⟨hne, ?_⟩
      rw [List.map_append, beginning_append (by simp; omega)]
      exact hsupplied.append _
    · -- The new line begins where all earlier output ends.
      rw [List.getElem?_append_right hi, List.getElem?_singleton] at hline
      obtain ⟨hzero, rfl⟩ : i - t.lines.length = 0 ∧ ⟨text, tick⟩ = line := by
        simpa using hline
      obtain rfl : i = t.lines.length := by omega
      refine ⟨htext, ?_⟩
      have hplace : beginning (t.lines.map (·.text)) t.lines.length = t.contents.length := by
        rw [contents, ← beginning_length, List.length_map]
      rw [List.map_append, beginning_append (by simp), hplace, hcontents]
      exact supplied_last prints htext tick
  · have hi : i ≤ earlier.length := by
      have hlt := (List.getElem?_eq_some_iff.1 hline).1
      rw [hlines, List.length_append, List.length_singleton] at hlt
      omega
    -- The last line got longer, so it still begins where it did.
    have hplace :
        beginning ((t.print text tick).lines.map (·.text)) i =
          beginning (t.lines.map (·.text)) i := by
      rw [hlines, hbefore, List.map_append, List.map_append, beginning_append (by simpa using hi),
        beginning_append (by simpa using hi)]
    rw [hplace]
    rw [hlines] at hline
    rcases Nat.lt_or_eq_of_le hi with hlt | rfl
    · rw [List.getElem?_append_left hlt] at hline
      obtain ⟨hne, hsupplied⟩ := hdated i line (by
        rw [hbefore, List.getElem?_append_left hlt]
        exact hline)
      exact ⟨hne, hsupplied.append _⟩
    · obtain rfl : { last with text := last.text ++ text } = line := by
        simpa using hline
      obtain ⟨hne, hsupplied⟩ := hdated earlier.length last (by simp [hbefore])
      refine ⟨?_, hsupplied.append _⟩
      simp [hne]

theorem dated_printAll
    {prints : List (String × Nat)}
    (htexts : ∀ text ∈ prints.map Prod.fst, text ≠ "") :
    Dated prints (empty.printAll prints) := by
  induction prints using List.reverseRecOn with
  | nil =>
      intro i line hline
      simp [printAll, empty, lines] at hline
  | append_singleton prints print ih =>
      have hdated := ih fun text htext => htexts text (by
        rw [List.map_append]
        exact List.mem_append_left _ htext)
      have hcontents := contents_printAll empty prints
      rw [contents_empty, String.empty_append] at hcontents
      rw [printAll_concat]
      exact dated_print (finished_printAll prints) hcontents hdated
        (htexts print.1 (by simp)) print.2

theorem Dated.sorted
    {prints : List (String × Nat)} {t : Terminal}
    (hdated : Dated prints t)
    (hsorted : (prints.map Prod.snd).Pairwise (· ≤ ·)) :
    (t.lines.map (·.tick)).Pairwise (· ≤ ·) := by
  rw [List.pairwise_map, List.pairwise_iff_getElem]
  intro i j hi hj hij
  obtain ⟨-, hfirst⟩ := hdated i t.lines[i] (List.getElem?_eq_getElem hi)
  obtain ⟨-, hsecond⟩ := hdated j t.lines[j] (List.getElem?_eq_getElem hj)
  exact hfirst.le hsorted hsecond (beginning_mono _ (Nat.le_of_lt hij))

end Ticks

/-- Output does not depend on how it was cut into prints: the lines make up the printed texts, end in
newlines but for the last, and give the rows of all output cut at once.  Without empty prints every
line has the tick of the print that supplied its first character. -/
theorem printAll_rows
    (prints : List (String × Nat)) :
    (empty.printAll prints).contents = String.join (prints.map Prod.fst) ∧
    (∀ line ∈ (empty.printAll prints).lines.dropLast, line.text.endsWith '\n' = true) ∧
    (empty.printAll prints).output =
      (settled ((empty.printAll prints).contents.toList.splitOn '\n')).map String.ofList ∧
    (∀ prints', String.join (prints'.map Prod.fst) = String.join (prints.map Prod.fst) →
      (empty.printAll prints').output = (empty.printAll prints).output) ∧
    ((∀ text ∈ prints.map Prod.fst, text ≠ "") →
      (∀ i line, (empty.printAll prints).lines[i]? = some line →
        line.text ≠ "" ∧
        Supplied prints (beginning ((empty.printAll prints).lines.map (·.text)) i) line.tick) ∧
      ((prints.map Prod.snd).Pairwise (· ≤ ·) →
        ((empty.printAll prints).lines.map (·.tick)).Pairwise (· ≤ ·))) := by
  have hcontents (prints : List (String × Nat)) :
      (empty.printAll prints).contents = String.join (prints.map Prod.fst) := by
    rw [contents_printAll, contents_empty, String.empty_append]
  have houtput (prints : List (String × Nat)) := output_of_finished (finished_printAll prints)
  refine ⟨hcontents prints, finished_printAll prints, ?_, ?_, ?_⟩
  · rw [houtput, rows_eq_settled]
  · intro prints' hsame
    rw [houtput, houtput, hcontents, hcontents, hsame]
  · intro htexts
    have hdated := dated_printAll htexts
    exact ⟨hdated, hdated.sorted⟩

/-- Three prints make two lines, dated by the first and the last of them, and two rows.  So do other
prints of the same output, whatever lines they make. -/
theorem printAll_rows_numbers :
    (∀ text ∈ ["10 ", "20 \n", "A"], text ≠ "") ∧
    [1, 2, 3].Pairwise (· ≤ ·) ∧
    (empty.printAll [("10 ", 1), ("20 \n", 2), ("A", 3)]).lines =
      [⟨"10 20 \n", 1⟩, ⟨"A", 3⟩] ∧
    (empty.printAll [("10 ", 1), ("20 \n", 2), ("A", 3)]).output = ["10 20 ", "A"] ∧
    (empty.printAll [("10 20", 1), (" \nA", 2)]).output = ["10 20 ", "A"] ∧
    ((empty.printAll [("10 ", 1), ("20 \n", 2), ("A", 3)]).lines.map (·.tick)).Pairwise (· ≤ ·) ∧
    Supplied [("10 ", 1), ("20 \n", 2), ("A", 3)] 7 3 := by
  obtain ⟨hcontents, -, houtput, hcuts, hticks⟩ :=
    printAll_rows [("10 ", 1), ("20 \n", 2), ("A", 3)]
  obtain ⟨hdated, hsorted⟩ := hticks (by decide)
  have hlines :
      (empty.printAll [("10 ", 1), ("20 \n", 2), ("A", 3)]).lines =
        [⟨"10 20 \n", 1⟩, ⟨"A", 3⟩] := by
    decide +kernel
  have hrows :
      (empty.printAll [("10 ", 1), ("20 \n", 2), ("A", 3)]).output = ["10 20 ", "A"] := by
    rw [houtput, hcontents]
    decide +kernel
  have hsupplied := (hdated 1 ⟨"A", 3⟩ (by rw [hlines]; rfl)).2
  rw [hlines] at hsupplied
  exact
    ⟨by decide, by decide, hlines, hrows, (hcuts _ (by decide +kernel)).trans hrows,
      hsorted (by decide), hsupplied⟩

end Terminal
end FungeTrace
