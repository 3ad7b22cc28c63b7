import FungeTrace.Proofs.Rendering
import FungeTrace.View.Screen

/-!
# Paragraphs on the screen

Plain characters take one column each, so a row of plain text is cut into clusters of one character:
`TextRow.glyphs_of_plain`.  A paragraph draws such rows character by character.  Row `i` goes to row
`i` of its area, its character number `n` to column `n`, and what would go beyond the area is left
out: `Screen.tile?_writeRows`.  So the screen is a faithful renderer: `Screen.faithful`.
-/

namespace FungeTrace

section Text

namespace Columns

theorem covers_of_lt
    (first : Nat) {code : Nat}
    (h : code < first)
    (last : Nat) (rest : List (Nat × Nat)) :
    Ranges.covers code ((first, last) :: rest) = false := by
  simp [Ranges.covers, Nat.not_le.2 h]

/-- Plain characters are of the lower planes, and none of them is a newline or a soft hyphen. -/
theorem lower_of_plain
    {c : Char}
    (h : TextRow.IsPlain c) :
    c.toNat < 0x300 ∧ c.toNat ≠ 0xAD ∧ c ≠ '\n' := by
  rcases h with ⟨hlow, hhigh⟩ | rfl
  · refine ⟨by omega, by omega, ?_⟩
    rintro rfl
    exact absurd hlow (by decide)
  · exact ⟨by decide, by decide, by decide⟩

theorem not_extending_of_plain
    {c : Char}
    (h : TextRow.IsPlain c) :
    isExtending c = false :=
  covers_of_lt 0x300 (lower_of_plain h).1 _ _

theorem not_ignorable_of_plain
    {c : Char}
    (h : TextRow.IsPlain c) :
    isIgnorable c = false := by
  obtain ⟨hlow, hhyphen, hnewline⟩ := lower_of_plain h
  have hrest : Ranges.covers c.toNat ignorable.tail = false :=
    covers_of_lt 0x605 (by omega) _ _
  have hcovers :
      Ranges.covers c.toNat ignorable =
        (decide (0xAD ≤ c.toNat) &&
          (decide (c.toNat ≤ 0xAD) || Ranges.covers c.toNat ignorable.tail)) :=
    rfl
  rw [isIgnorable, hcovers, hrest]
  simp [hnewline]
  omega

theorem not_wide_of_plain
    {c : Char}
    (h : TextRow.IsPlain c) :
    isWide c = false :=
  covers_of_lt 0x1100 (Nat.lt_trans (lower_of_plain h).1 (by decide)) _ _

theorem ofChar_of_plain
    {c : Char}
    (h : TextRow.IsPlain c) :
    ofChar c = 1 := by
  simp [ofChar, not_extending_of_plain h, not_ignorable_of_plain h, not_wide_of_plain h]

end Columns

namespace Cluster

/-- The cluster of one plain character. -/
def single (c : Char) : Cluster := { text := String.singleton c, columns := 1 }

theorem groups_of_plain
    {chars : List Char}
    (h : ∀ c ∈ chars, TextRow.IsPlain c) :
    groups chars = chars.map fun c => [c] := by
  induction chars with
  | nil =>
      rfl
  | cons c chars ih =>
      rw [groups, ih fun d hd => h d (List.mem_cons_of_mem c hd)]
      cases chars with
      | nil =>
          rfl
      | cons next chars =>
          have hnext : TextRow.IsPlain next := h next (by simp)
          have hapart : joined c next = false := by
            simp [joined, Columns.not_extending_of_plain hnext, (Columns.lower_of_plain hnext).2.2]
          simp [hapart]

theorem ofString_of_plain
    {text : String}
    (h : ∀ c ∈ text.toList, TextRow.IsPlain c) :
    ofString text = text.toList.map single := by
  rw [ofString, groups_of_plain h, List.map_map]
  apply List.map_congr_left
  intro c hc
  have hcolumns : Columns.ofChars [c] = 1 := Columns.ofChar_of_plain (h c hc)
  rw [Function.comp_apply, ofChars, hcolumns]
  rfl

end Cluster

namespace TextRow

theorem glyphs_of_plain
    {row : TextRow}
    (h : row.Plain) :
    row.glyphs = row.letters.map fun letter => (Cluster.single letter.1, letter.2) := by
  induction row with
  | nil =>
      rfl
  | cons span row ih =>
      have hrow := ih fun other hother => h other (List.mem_cons_of_mem span hother)
      rw [glyphs, letters, List.flatMap_cons, List.flatMap_cons, List.map_append,
        Cluster.ofString_of_plain (h span List.mem_cons_self), List.map_map, List.map_map]
      exact congrArg _ hrow

theorem columns_of_mem_glyphs
    {row : TextRow} {mark : Cluster × Style}
    (h : row.Plain)
    (hmark : mark ∈ row.glyphs) :
    mark.1.columns = 1 := by
  rw [glyphs_of_plain h] at hmark
  obtain ⟨letter, -, rfl⟩ := List.mem_map.1 hmark
  rfl

end TextRow

end Text

namespace Screen

section Tiles

/-- Two screens of one size. -/
structure Congruent (s s' : Screen) : Prop where
  width : s'.width = s.width
  height : s'.height = s.height

theorem congruent_refl
    (s : Screen) :
    Congruent s s :=
  ⟨rfl, rfl⟩

theorem Congruent.trans
    {s s' s'' : Screen}
    (h : Congruent s s')
    (h' : Congruent s' s'') :
    Congruent s s'' :=
  ⟨h'.width.trans h.width, h'.height.trans h.height⟩

theorem congruent_foldl
    {α : Type} {f : Screen → α → Screen}
    (hf : ∀ s a, Congruent s (f s a))
    (as : List α) (s : Screen) :
    Congruent s (as.foldl f s) := by
  induction as generalizing s with
  | nil =>
      exact congruent_refl s
  | cons a as ih =>
      exact (hf s a).trans (ih (f s a))

theorem congruent_alter
    (s : Screen) (x y : Nat) (f : Tile → Tile) :
    Congruent s (s.alter x y f) := by
  rw [alter]
  split
  · exact ⟨rfl, rfl⟩
  · exact congruent_refl s

theorem congruent_put
    (s : Screen) (x y : Nat) (glyph : String) (style : Style) :
    Congruent s (s.put x y glyph style) :=
  congruent_alter s x y _

theorem congruent_write
    (s : Screen) (x y right : Nat) (marks : List (Cluster × Style)) :
    Congruent s (s.write x y right marks) := by
  induction marks generalizing s x with
  | nil =>
      exact congruent_refl s
  | cons mark marks ih =>
      rw [write]
      split
      · exact (congruent_put s _ _ _ _).trans (ih _ _)
      · exact congruent_refl s

theorem congruent_frame
    (s : Screen) (a : Area) (title : String) (style : Style) :
    Congruent s (s.frame a title style) := by
  rw [frame]
  split
  · exact congruent_refl s
  · have hpair (x y x' y' : Nat) (glyph : String) (s : Screen) :
        Congruent s ((s.put x y glyph style).put x' y' glyph style) :=
      (congruent_put s x y glyph style).trans (congruent_put _ x' y' glyph style)
    -- the sides row by row and column by column, then the corners, then the title
    refine Congruent.trans ?_ (congruent_write _ _ _ _ _)
    refine Congruent.trans ?_ (congruent_put _ _ _ _ _)
    refine Congruent.trans ?_ (congruent_put _ _ _ _ _)
    refine Congruent.trans ?_ (congruent_put _ _ _ _ _)
    refine Congruent.trans ?_ (congruent_put _ _ _ _ _)
    refine Congruent.trans ?_ (congruent_foldl (fun s x => hpair _ _ _ _ _ s) _ _)
    exact congruent_foldl (fun s y => hpair _ _ _ _ _ s) _ _

theorem eq_of_index
    {width x x' y y' : Nat}
    (hx : x < width)
    (hx' : x' < width)
    (h : y * width + x = y' * width + x') :
    x = x' ∧ y = y' := by
  have hpos : 0 < width := Nat.zero_lt_of_lt hx
  have hcolumn := congrArg (· % width) h
  have hrow := congrArg (· / width) h
  simp only [Nat.mul_add_mod', Nat.mod_eq_of_lt hx, Nat.mod_eq_of_lt hx'] at hcolumn
  simp only [Nat.mul_comm _ width, Nat.mul_add_div hpos, Nat.div_eq_of_lt hx,
    Nat.div_eq_of_lt hx', Nat.add_zero] at hrow
  exact ⟨hcolumn, hrow⟩

theorem exists_tile
    {s : Screen} {x y : Nat}
    (hx : x < s.width)
    (hy : y < s.height) :
    ∃ tile, s.tile? x y = some tile := by
  have hindex : y * s.width + x < s.tiles.size := by
    calc
      y * s.width + x < y * s.width + s.width := Nat.add_lt_add_left hx _
      _ = (y + 1) * s.width := (Nat.succ_mul y s.width).symm
      _ ≤ s.height * s.width := Nat.mul_le_mul_right _ hy
      _ = s.tiles.size := by rw [s.size_tiles, Nat.mul_comm]
  exact ⟨s.tiles[y * s.width + x], by rw [tile?, if_pos hx, Array.getElem?_eq_getElem hindex]⟩

theorem inside_of_tile?
    {s : Screen} {x y : Nat} {tile : Tile}
    (h : s.tile? x y = some tile) :
    x < s.width ∧ y < s.height := by
  rw [tile?] at h
  split at h
  · rename_i hx
    refine ⟨hx, ?_⟩
    have hindex := (Array.getElem?_eq_some_iff.1 h).1
    rw [s.size_tiles, Nat.mul_comm s.width] at hindex
    have hrow : y * s.width < s.height * s.width := by omega
    exact Nat.lt_of_mul_lt_mul_right hrow
  · contradiction

theorem tile?_alter_self
    {s : Screen} {x y : Nat}
    (hx : x < s.width)
    (hy : y < s.height)
    (f : Tile → Tile) :
    (s.alter x y f).tile? x y = (s.tile? x y).map f := by
  rw [alter, if_pos ⟨hx, hy⟩]
  simp [tile?, hx, Array.getElem?_modify]

/-- Altering a tile leaves all others as they are. -/
theorem tile?_alter_of_ne
    {x y x' y' : Nat}
    (h : x' ≠ x ∨ y' ≠ y)
    (s : Screen) (f : Tile → Tile) :
    (s.alter x y f).tile? x' y' = s.tile? x' y' := by
  rw [alter]
  split
  · rename_i hinside
    by_cases hx' : x' < s.width
    · have hindex : y * s.width + x ≠ y' * s.width + x' := by
        intro hsame
        obtain ⟨rfl, rfl⟩ := eq_of_index hinside.1 hx' hsame
        rcases h with h | h <;> exact h rfl
      simp [tile?, hx', Array.getElem?_modify, hindex]
    · simp [tile?, hx']
  · rfl

end Tiles

section Rows

/-- A tile with a cluster drawn in its place. -/
def stamp (mark : Cluster × Style) (tile : Tile) : Tile :=
  { tile.paint mark.2 with glyph := mark.1.text }

theorem tile?_write_of_ne
    {x y x' y' : Nat}
    (h : y' ≠ y ∨ x' < x)
    (s : Screen) (right : Nat) (marks : List (Cluster × Style)) :
    (s.write x y right marks).tile? x' y' = s.tile? x' y' := by
  induction marks generalizing s x with
  | nil =>
      rfl
  | cons mark marks ih =>
      rw [write]
      split
      · rw [ih (by omega), put, tile?_alter_of_ne (by omega)]
      · rfl

/-- Clusters of one column are drawn one tile after another, up to the right edge. -/
theorem tile?_write
    {s : Screen} {x y right n : Nat} {marks : List (Cluster × Style)} {mark : Cluster × Style}
    (hnarrow : ∀ mark ∈ marks, mark.1.columns = 1)
    (hmark : marks[n]? = some mark)
    (hn : x + n < right)
    (hright : right ≤ s.width)
    (hy : y < s.height) :
    (s.write x y right marks).tile? (x + n) y = (s.tile? (x + n) y).map (stamp mark) := by
  induction marks generalizing s x n with
  | nil =>
      simp at hmark
  | cons first marks ih =>
      have hone : first.1.columns = 1 := hnarrow first List.mem_cons_self
      have hsize := congruent_put s x y first.1.text first.2
      rw [write, hone, if_pos (by omega)]
      cases n with
      | zero =>
          obtain rfl : first = mark := by simpa using hmark
          rw [tile?_write_of_ne (by omega), put, Nat.add_zero,
            tile?_alter_self (by omega) hy]
          rfl
      | succ n =>
          have hrest := ih (s := s.put x y first.1.text first.2) (x := x + 1) (n := n)
            (fun other hother => hnarrow other (List.mem_cons_of_mem first hother))
            (by simpa using hmark) (by omega) (by rw [hsize.width]; exact hright)
            (by rw [hsize.height]; exact hy)
          rw [show x + 1 + n = x + (n + 1) by omega] at hrest
          rw [hrest, put, tile?_alter_of_ne (by omega)]

theorem congruent_writeRow
    (s : Screen) (a : Area) (y indent : Nat) (row : TextRow) :
    Congruent s (s.writeRow a y indent row) := by
  rw [writeRow]
  split
  · exact congruent_write _ _ _ _ _
  · exact congruent_refl s

/-- The screen reaches over an area. -/
structure Holds (s : Screen) (a : Area) : Prop where
  right : a.right ≤ s.width
  bottom : a.bottom ≤ s.height

theorem Congruent.holds
    {s s' : Screen} {a : Area}
    (h : Congruent s s')
    (hs : s.Holds a) :
    s'.Holds a where
  right := by
    rw [h.width]
    exact hs.right
  bottom := by
    rw [h.height]
    exact hs.bottom

theorem Holds.inner
    {s : Screen} {a : Area}
    (h : s.Holds a)
    (hwidth : 2 ≤ a.width)
    (hheight : 2 ≤ a.height) :
    s.Holds a.inner where
  right := by
    have hright : a.left + a.width ≤ s.width := h.right
    change a.left + 1 + (a.width - 2) ≤ s.width
    omega
  bottom := by
    have hbottom : a.top + a.height ≤ s.height := h.bottom
    change a.top + 1 + (a.height - 2) ≤ s.height
    omega

theorem Holds.exists_tile
    {s : Screen} {a : Area} {n i : Nat}
    (h : s.Holds a)
    (hn : n < a.width)
    (hi : i < a.height) :
    ∃ tile, s.tile? (a.left + n) (a.top + i) = some tile := by
  have hright : a.left + a.width ≤ s.width := h.right
  have hbottom : a.top + a.height ≤ s.height := h.bottom
  exact Screen.exists_tile (by omega) (by omega)

/-- A row of plain text is drawn letter by letter, as far as the area reaches. -/
theorem tile?_writeRow
    {s : Screen} {a : Area} {row : TextRow} {y n : Nat} {letter : Char × Style}
    (hs : s.Holds a)
    (hrow : row.Plain)
    (hletter : row.letters[n]? = some letter)
    (hn : n < a.width)
    (hy : y < a.height) :
    (s.writeRow a y 0 row).tile? (a.left + n) (a.top + y) =
      (s.tile? (a.left + n) (a.top + y)).map (stamp (Cluster.single letter.1, letter.2)) := by
  have hright := hs.right
  have hbottom := hs.bottom
  have hfits : 1 ≤ a.width := by omega
  rw [writeRow]
  dsimp only
  rw [List.filter_eq_self.2, if_pos hy, Nat.add_zero]
  · apply tile?_write
    · intro mark hmark
      exact TextRow.columns_of_mem_glyphs hrow hmark
    · rw [TextRow.glyphs_of_plain hrow, List.getElem?_map, hletter]
      rfl
    · exact Nat.add_lt_add_left hn a.left
    · exact hright
    · exact Nat.lt_of_lt_of_le (Nat.add_lt_add_left hy a.top) hbottom
  · -- no cluster of a plain row is left out
    intro mark hmark
    simp [TextRow.columns_of_mem_glyphs hrow hmark, hfits]

theorem tile?_writeRow_of_ne
    {y y' : Nat} {a : Area}
    (h : y' ≠ a.top + y)
    (s : Screen) (x' indent : Nat) (row : TextRow) :
    (s.writeRow a y indent row).tile? x' y' = s.tile? x' y' := by
  rw [writeRow]
  dsimp only
  split
  · exact tile?_write_of_ne (.inl h) _ _ _
  · rfl

/-- Rows that are drawn from row `k` of an area on leave the rows above as they are. -/
theorem tile?_foldl_writeRow_of_lt
    {a : Area} {k y' : Nat}
    (h : y' < a.top + k)
    (s : Screen) (x' : Nat) (rows : List TextRow) :
    ((rows.zipIdx k).foldl (fun s (row, y) => s.writeRow a y 0 row) s).tile? x' y' =
      s.tile? x' y' := by
  induction rows generalizing s k with
  | nil =>
      rfl
  | cons row rows ih =>
      rw [List.zipIdx_cons, List.foldl_cons, ih (by omega),
        tile?_writeRow_of_ne (by omega)]

theorem tile?_foldl_writeRow
    {s : Screen} {a : Area} {rows : List TextRow} {row : TextRow}
    {k i n : Nat} {letter : Char × Style}
    (hs : s.Holds a)
    (hplain : row.Plain)
    (hrow : rows[i]? = some row)
    (hletter : row.letters[n]? = some letter)
    (hn : n < a.width)
    (hi : k + i < a.height) :
    ((rows.zipIdx k).foldl (fun s (row, y) => s.writeRow a y 0 row) s).tile?
        (a.left + n) (a.top + (k + i)) =
      (s.tile? (a.left + n) (a.top + (k + i))).map (stamp (Cluster.single letter.1, letter.2)) := by
  induction rows generalizing s k i with
  | nil =>
      simp at hrow
  | cons first rows ih =>
      rw [List.zipIdx_cons, List.foldl_cons]
      cases i with
      | zero =>
          obtain rfl : first = row := by simpa using hrow
          rw [tile?_foldl_writeRow_of_lt (by omega)]
          exact tile?_writeRow hs hplain hletter hn hi
      | succ i =>
          have hrest := ih (s := s.writeRow a k 0 first) (k := k + 1) (i := i)
            ((congruent_writeRow s a k 0 first).holds hs) (by simpa using hrow) (by omega)
          rw [show k + 1 + i = k + (i + 1) by omega] at hrest
          rw [hrest, tile?_writeRow_of_ne (by omega)]

/-- Row `i` of a paragraph is drawn in row `i` of the area, its letter `n` in column `n`. -/
theorem tile?_writeRows
    {s : Screen} {a : Area} {rows : List TextRow} {row : TextRow}
    {i n : Nat} {letter : Char × Style}
    (hs : s.Holds a)
    (hplain : row.Plain)
    (hrow : rows[i]? = some row)
    (hletter : row.letters[n]? = some letter)
    (hn : n < a.width)
    (hi : i < a.height) :
    (s.writeRows a rows).tile? (a.left + n) (a.top + i) =
      (s.tile? (a.left + n) (a.top + i)).map (stamp (Cluster.single letter.1, letter.2)) := by
  have hfold := tile?_foldl_writeRow (k := 0) hs hplain hrow hletter hn (by omega)
  rwa [Nat.zero_add] at hfold

end Rows

section Widgets

theorem congruent_paint
    (s : Screen) (a : Area) (style : Style) :
    Congruent s (s.paint a style) :=
  congruent_foldl (fun _ _ => congruent_foldl (fun _ _ => congruent_alter _ _ _ _) _ _) _ _

/-- Screens as a renderer sees them. -/
def renderer : Renderer Screen where
  draw := draw
  tile? := tile?

theorem holds_of_renderer
    {s : Screen} {a : Area}
    (h : renderer.Holds s a)
    (hwidth : 0 < a.width)
    (hheight : 0 < a.height) :
    s.Holds a := by
  obtain ⟨tile, htile⟩ :=
    h (a.right - 1) (a.bottom - 1) (by rw [Area.right]; omega) (by rw [Area.right]; omega)
      (by rw [Area.bottom]; omega) (by rw [Area.bottom]; omega)
  obtain ⟨hx, hy⟩ := inside_of_tile? htile
  exact ⟨by omega, by omega⟩

theorem holds_blank
    (width height : Nat) :
    renderer.Holds (blank width height) (blank width height).area := by
  intro x y _ hx _ hy
  have hwidth : x < width := by
    simpa [Area.right, area, blank] using hx
  have hheight : y < height := by
    simpa [Area.bottom, area, blank] using hy
  exact exists_tile hwidth hheight

/-- The screen draws bordered paragraphs letter by letter. -/
theorem faithful :
    renderer.Faithful where
  paragraph := by
    intro screen a rows row i n letter title border style hholds hrow hplain hletter hn hi
    have hscreen := holds_of_renderer hholds (by omega) (by omega)
    let framed := (screen.paint a style).frame a title border
    have hframed : Congruent screen framed :=
      (congruent_paint screen a style).trans (congruent_frame _ a title border)
    have hinner := (hframed.holds hscreen).inner (by omega) (by omega)
    obtain ⟨tile, htile⟩ := hinner.exists_tile (n := n) (i := i) hn hi
    have hdraw := tile?_writeRows hinner hplain hrow hletter hn hi
    rw [htile, Option.map_some] at hdraw
    refine ⟨stamp (Cluster.single letter.1, letter.2) tile, hdraw, rfl, ?_⟩
    intro color hcolor
    change letter.2.background.getD _ = _
    rw [hcolor, Option.getD_some]

end Widgets

end Screen
end FungeTrace
