import FungeTrace.Befunge.Program
import FungeTrace.Proofs.LastWrite
import FungeTrace.Proofs.TextLines

/-!
# Loaded programs

A source text is laid out on a grid, one line to a row, one byte to a cell.  The grid is as large as
the lines need and at least 80 by 25; cells that no line reaches are blank.

* The grid of a text depends on its lines alone: `load_eq_plane`.
* It is the grid that results from one of blanks when the bytes of the lines are written to it one
  after another, blanks left out: `writeAll_strokes`.
* Edits at the ends of lines that keep the size of the grid keep the grid: `load_congr`.
-/

namespace FungeTrace

variable {C : Type}

namespace Extent

theorem ofSizes_pair
    {width height : Nat}
    (hwidth : 0 < width ∧ width < 0x8000000000000000)
    (hheight : 0 < height ∧ height < 0x8000000000000000)
    (hcount : width * height < 0x10000000000000000) :
    ∃ e, ofSizes [width, height] = .ok e := by
  have hflaw : flaw? [width, height] = none := by
    simp only [flaw?, flawFrom, Nat.one_mul]
    rw [if_neg (by omega), if_neg (by omega), if_neg (by omega), if_neg (by omega),
      if_neg (by omega), if_neg (by omega)]
  unfold ofSizes
  split
  · rename_i flaw hsome
    rw [hflaw] at hsome
    contradiction
  · exact ⟨_, rfl⟩

end Extent

namespace Torus

section Rows

theorem longest_cons
    (row : List C) (rows : List (List C)) :
    longest (row :: rows) = max row.length (longest rows) := by
  have hfold : ∀ (rows : List (List C)) (n : Nat),
      rows.foldl (fun n row => max n row.length) n =
        max n (rows.foldl (fun n row => max n row.length) 0) := by
    intro rows
    induction rows with
    | nil =>
        simp
    | cons row rows ih =>
        intro n
        rw [List.foldl_cons, List.foldl_cons, ih, ih (max 0 row.length)]
        omega
  rw [longest, List.foldl_cons, hfold, Nat.zero_max]
  rfl

theorem longest_append
    (rows rows' : List (List C)) :
    longest (rows ++ rows') = max (longest rows) (longest rows') := by
  induction rows with
  | nil =>
      exact (Nat.zero_max _).symm
  | cons row rows ih =>
      rw [List.cons_append, longest_cons, longest_cons, ih]
      omega

theorem longest_eq_max?
    (rows : List (List C)) :
    longest rows = (rows.map List.length).max?.getD 0 := by
  induction rows with
  | nil =>
      rfl
  | cons row rows ih =>
      rw [longest_cons, ih, List.map_cons, List.max?_cons]
      cases (rows.map List.length).max? <;> simp

theorem length_le_longest
    {row : List C} {rows : List (List C)}
    (h : row ∈ rows) :
    row.length ≤ longest rows := by
  induction rows with
  | nil =>
      contradiction
  | cons first rows ih =>
      rw [longest_cons]
      rcases List.mem_cons.1 h with rfl | h
      · omega
      · have := ih h
        omega

end Rows

section Planes

variable {width height x y : Nat} {t : Torus C}

theorem indexOf_planar
    (hsizes : t.sizes = [width, height])
    (hx : x < width)
    (hy : y < height) :
    t.indexOf (.planar (Int64.ofNat x) (Int64.ofNat y)) = .ok (x * height + y) := by
  have hbounds := t.extent.bounds
  change ∀ n ∈ t.sizes, _ at hbounds
  rw [hsizes] at hbounds
  have hwidth := hbounds width (by simp)
  have hheight := hbounds height (by simp)
  have hxInt : (Int64.ofNat x).toInt = x := Int64.toInt_ofNat_of_lt (by omega)
  have hyInt : (Int64.ofNat y).toInt = y := Int64.toInt_ofNat_of_lt (by omega)
  have hdims : (Coord.planar (Int64.ofNat x) (Int64.ofNat y)).dims = t.extent.dims :=
    (dims_of_sizes hsizes).symm
  rw [indexOf, Extent.locate, if_pos hdims]
  change Extent.locateFrom 0 0 t.sizes _ = _
  rw [hsizes]
  simp [Extent.locateFrom, Coord.planar, hxInt, hyInt, hx, hy]

/-- The coordinates of a plane are its columns and rows. -/
theorem exists_planar
    {c : Coord} {i : Nat}
    (hsizes : t.sizes = [width, height])
    (hc : t.indexOf c = .ok i) :
    ∃ x y, x < width ∧ y < height ∧ c = .planar (Int64.ofNat x) (Int64.ofNat y) := by
  have hring : List.Forall₂ Extent.InRing t.sizes c.components := Extent.locate_ok_iff.1 ⟨i, hc⟩
  rw [hsizes] at hring
  obtain ⟨components⟩ := c
  cases hring with
  | @cons _ a _ as ha hrest =>
      cases hrest with
      | @cons _ b _ bs hb hnil =>
          cases hnil
          obtain ⟨ha₀, ha⟩ := ha
          obtain ⟨hb₀, hb⟩ := hb
          have hofNat : ∀ z : Int64, 0 ≤ z.toInt → Int64.ofNat z.toInt.toNat = z := by
            intro z hz
            have hlt := z.toInt_lt
            apply Int64.toInt_inj.1
            rw [Int64.toInt_ofNat_of_lt (by omega)]
            omega
          refine ⟨a.toInt.toNat, b.toInt.toNat, by omega, by omega, ?_⟩
          rw [hofNat a ha₀, hofNat b hb₀]
          rfl

theorem exists_plane
    (hwidth : 0 < width ∧ width < 0x8000000000000000)
    (hheight : 0 < height ∧ height < 0x8000000000000000)
    (hcount : width * height < 0x10000000000000000)
    (cell : Nat → Nat → C) :
    ∃ t, plane width height cell = .ok t := by
  obtain ⟨e, he⟩ := Extent.ofSizes_pair hwidth hheight hcount
  unfold plane
  rw [he]
  exact ⟨_, rfl⟩

theorem exists_filled
    (hwidth : 0 < width ∧ width < 0x8000000000000000)
    (hheight : 0 < height ∧ height < 0x8000000000000000)
    (hcount : width * height < 0x10000000000000000)
    (fill : C) :
    ∃ t, filled [width, height] fill = .ok t := by
  obtain ⟨e, he⟩ := Extent.ofSizes_pair hwidth hheight hcount
  unfold filled
  rw [he]
  exact ⟨_, rfl⟩

/-- What a plane is made of. -/
theorem plane_ok
    {cell : Nat → Nat → C}
    (h : plane width height cell = .ok t) :
    t.sizes = [width, height] ∧
      ∀ i, i < t.cells.size → t.cells[i]? = some (cell (i / height) (i % height)) := by
  unfold plane at h
  cases he : Extent.ofSizes [width, height] with
  | error fault =>
      rw [he] at h
      contradiction
  | ok e =>
      rw [he] at h
      obtain rfl := Except.ok.inj h
      refine ⟨Extent.sizes_of_ofSizes he, ?_⟩
      intro i hi
      simpa [Array.getElem?_ofFn] using hi

/-- A plane shows in column `x` of row `y` what was asked for. -/
theorem read_of_plane
    {cell : Nat → Nat → C}
    (h : plane width height cell = .ok t)
    (hx : x < width)
    (hy : y < height) :
    t.read (.planar (Int64.ofNat x) (Int64.ofNat y)) = .ok (cell x y) := by
  obtain ⟨hsizes, hcells⟩ := plane_ok h
  have hindex := indexOf_planar hsizes hx hy
  have hdiv : (x * height + y) / height = x := by
    rw [Nat.mul_comm, Nat.mul_add_div (by omega), Nat.div_eq_of_lt hy, Nat.add_zero]
  have hmod : (x * height + y) % height = y := by
    rw [Nat.mul_comm, Nat.mul_add_mod, Nat.mod_eq_of_lt hy]
  refine read_eq_ok_iff.2 ⟨_, hindex, ?_⟩
  rw [hcells _ (indexOf_lt hindex), hdiv, hmod]

theorem filled_ok
    {sizes : List Nat} {fill : C}
    (h : filled sizes fill = .ok t) :
    t.sizes = sizes ∧ ∀ c i, t.indexOf c = .ok i → t.read c = .ok fill := by
  unfold filled at h
  cases he : Extent.ofSizes sizes with
  | error fault =>
      rw [he] at h
      contradiction
  | ok e =>
      rw [he] at h
      obtain rfl := Except.ok.inj h
      refine ⟨Extent.sizes_of_ofSizes he, ?_⟩
      intro c i hi
      refine read_eq_ok_iff.2 ⟨i, hi, ?_⟩
      simpa [Array.getElem?_replicate] using indexOf_lt hi

end Planes

end Torus

namespace Befunge

open Lines

section Grids

/-- The byte in column `x` of line `y`, or a blank if there is none. -/
def byteAt (lines : List (List UInt8)) (x y : Nat) : UInt8 :=
  (lines[y]?.bind (·[x]?)).getD 32

/-- Number of columns that a text needs: its longest line, but at least 80. -/
def columns (source : String) : Nat :=
  max 80 (((ofText source).map List.length).max?.getD 0)

/-- Number of rows that a text needs: one for each line, but at least 25. -/
def rowCount (source : String) : Nat :=
  max 25 (ofText source).length

/-- The grid of a text is made of its lines. -/
theorem load_eq_plane
    (source : String) :
    load source = Torus.plane (columns source) (rowCount source) (byteAt (ofText source)) := by
  have hcells :
      Torus.cellOfRows (((ofText source).map List.toArray).toArray) blank =
        byteAt (ofText source) := by
    funext x y
    simp only [Torus.cellOfRows, byteAt, blank, List.getElem?_toArray, List.getElem?_map]
    cases (ofText source)[y]? <;> simp
  unfold load Torus.ofRows
  dsimp only
  rw [ofBytes_encode, hcells, Torus.longest_eq_max?, columns, rowCount, gridWidth, gridHeight,
    Nat.max_comm, Nat.max_comm 25]

/-- Texts with grids of one size and the same bytes in them have the same grid. -/
theorem load_congr
    {source source' : String}
    (hcolumns : columns source' = columns source)
    (hrows : rowCount source' = rowCount source)
    (hbytes : byteAt (ofText source') = byteAt (ofText source)) :
    load source' = load source := by
  rw [load_eq_plane, load_eq_plane, hcolumns, hrows, hbytes]

theorem load_of_lines
    {source source' : String}
    (h : ofText source' = ofText source) :
    load source' = load source := by
  apply load_congr
  · rw [columns, columns, h]
  · rw [rowCount, rowCount, h]
  · rw [h]

end Grids

section Strokes

/-- The writes that lay lines out: their bytes in reading order, blanks left out. -/
def strokes (lines : List (List UInt8)) : List (Coord × UInt8) :=
  lines.zipIdx.flatMap fun row =>
    (row.1.zipIdx.filter (·.1 ≠ 32)).map fun byte =>
      (.planar (Int64.ofNat byte.2) (Int64.ofNat row.2), byte.1)

theorem mem_strokes
    {lines : List (List UInt8)} {write : Coord × UInt8} :
    write ∈ strokes lines ↔
      ∃ x y row,
        lines[y]? = some row ∧
        row[x]? = some write.2 ∧
        write.2 ≠ 32 ∧
        write.1 = .planar (Int64.ofNat x) (Int64.ofNat y) := by
  simp only [strokes, List.mem_flatMap, List.mem_map, List.mem_filter, Prod.exists,
    List.mem_zipIdx_iff_getElem?, decide_eq_true_eq]
  constructor
  · rintro ⟨row, y, hrow, byte, x, ⟨hbyte, hblank⟩, rfl⟩
    exact ⟨x, y, row, hrow, hbyte, hblank, rfl⟩
  · rintro ⟨x, y, row, hrow, hbyte, hblank, hc⟩
    exact ⟨row, y, hrow, write.2, x, ⟨hbyte, hblank⟩, Prod.ext hc.symm rfl⟩

theorem byteAt_of_getElem?
    {lines : List (List UInt8)} {row : List UInt8} {x y : Nat} {byte : UInt8}
    (hrow : lines[y]? = some row)
    (hbyte : row[x]? = some byte) :
    byteAt lines x y = byte := by
  simp [byteAt, hrow, hbyte]

theorem exists_byte_of_byteAt
    {lines : List (List UInt8)} {x y : Nat}
    (h : byteAt lines x y ≠ 32) :
    ∃ row, lines[y]? = some row ∧ row[x]? = some (byteAt lines x y) := by
  cases hrow : lines[y]? with
  | none =>
      simp [byteAt, hrow] at h
  | some row =>
      cases hbyte : row[x]? with
      | none =>
          simp [byteAt, hrow, hbyte] at h
      | some byte =>
          exact ⟨row, rfl, by rw [byteAt_of_getElem? hrow hbyte, hbyte]⟩

variable {lines : List (List UInt8)} {width height : Nat}

/-- Strokes go to cells of every grid that is large enough for the lines. -/
theorem stroke_within
    {write : Coord × UInt8}
    (hwidth : Torus.longest lines ≤ width)
    (hheight : lines.length ≤ height)
    (h : write ∈ strokes lines) :
    ∃ x y,
      x < width ∧
      y < height ∧
      write.1 = .planar (Int64.ofNat x) (Int64.ofNat y) ∧
      byteAt lines x y = write.2 := by
  obtain ⟨x, y, row, hrow, hbyte, _, hc⟩ := mem_strokes.1 h
  have hy : y < lines.length := (List.getElem?_eq_some_iff.1 hrow).1
  have hx : x < row.length := (List.getElem?_eq_some_iff.1 hbyte).1
  have hlongest := Torus.length_le_longest (List.mem_of_getElem? hrow)
  exact ⟨x, y, by omega, by omega, hc, byteAt_of_getElem? hrow hbyte⟩

theorem planar_inj
    {x y x' y' : Nat}
    (hx : x < 0x8000000000000000)
    (hy : y < 0x8000000000000000)
    (hx' : x' < 0x8000000000000000)
    (hy' : y' < 0x8000000000000000)
    (h : Coord.planar (Int64.ofNat x) (Int64.ofNat y) =
      Coord.planar (Int64.ofNat x') (Int64.ofNat y')) :
    x = x' ∧ y = y' := by
  simp only [Coord.planar, Coord.mk.injEq, List.cons.injEq, and_true] at h
  have hxs := congrArg Int64.toInt h.1
  have hys := congrArg Int64.toInt h.2
  rw [Int64.toInt_ofNat_of_lt (by omega), Int64.toInt_ofNat_of_lt (by omega)] at hxs hys
  omega

/-- The last stroke to a cell leaves there what the lines have in that place. -/
theorem lastWritten_strokes
    {x y : Nat}
    (hwidth : Torus.longest lines ≤ width ∧ width < 0x8000000000000000)
    (hheight : lines.length ≤ height ∧ height < 0x8000000000000000)
    (hx : x < width)
    (hy : y < height) :
    (lastWritten (.planar (Int64.ofNat x) (Int64.ofNat y)) (strokes lines)).getD 32 =
      byteAt lines x y := by
  cases hlast : lastWritten (.planar (Int64.ofNat x) (Int64.ofNat y)) (strokes lines) with
  | some byte =>
      obtain ⟨x', y', hx', hy', hc, hbyte⟩ :=
        stroke_within hwidth.1 hheight.1 (mem_of_lastWritten hlast)
      obtain ⟨rfl, rfl⟩ := planar_inj (by omega) (by omega) (by omega) (by omega) hc
      exact hbyte.symm
  | none =>
      by_contra hne
      have hbyte : byteAt lines x y ≠ 32 := fun h => hne h.symm
      obtain ⟨row, hrow, hget⟩ := exists_byte_of_byteAt hbyte
      have hmem :
          (Coord.planar (Int64.ofNat x) (Int64.ofNat y), byteAt lines x y) ∈ strokes lines :=
        mem_strokes.2 ⟨x, y, row, hrow, hget, hbyte, rfl⟩
      have hsome := isSome_lastWritten.2 (List.mem_map_of_mem hmem)
      rw [hlast] at hsome
      contradiction

/-- Lines can be laid out by writing their bytes, blanks left out, to a grid of blanks. -/
theorem writeAll_strokes
    {t b : Torus UInt8}
    (ht : Torus.plane width height (byteAt lines) = .ok t)
    (hb : Torus.filled [width, height] 32 = .ok b)
    (hwidth : Torus.longest lines ≤ width)
    (hheight : lines.length ≤ height) :
    (Ground.torus b).accepted (strokes lines) = strokes lines ∧
      (Ground.torus b).writeAll (strokes lines) = .torus t := by
  obtain ⟨htsizes, _⟩ := Torus.plane_ok ht
  obtain ⟨hbsizes, hblank⟩ := Torus.filled_ok hb
  have hextent : b.extent = t.extent := Extent.eq_of_sizes (hbsizes.trans htsizes.symm)
  have hindex : ∀ c, b.indexOf c = t.indexOf c := by
    intro c
    rw [Torus.indexOf, Torus.indexOf, hextent]
  have hbounds := t.extent.bounds
  change ∀ n ∈ t.sizes, _ at hbounds
  rw [htsizes] at hbounds
  have hwidth' := hbounds width (by simp)
  have hheight' := hbounds height (by simp)
  have haccepted : (Ground.torus b).accepted (strokes lines) = strokes lines := by
    apply Ground.accepted_of_readable
    intro write hwrite
    obtain ⟨x, y, hx, hy, hc, _⟩ := stroke_within hwidth hheight hwrite
    rw [hc]
    exact ⟨32, hblank _ _ (Torus.indexOf_planar hbsizes hx hy)⟩
  refine ⟨haccepted, Ground.eq_of_held ?_ ?_⟩
  · rw [Ground.writeAll_frame]
    exact congrArg Sum.inl hextent
  · intro c
    rw [Ground.writeAll_held, haccepted]
    cases hc : t.indexOf c with
    | ok i =>
        obtain ⟨x, y, hx, hy, rfl⟩ := Torus.exists_planar htsizes hc
        have hlast := lastWritten_strokes ⟨hwidth, hwidth'.2⟩ ⟨hheight, hheight'.2⟩ hx hy
        simp only [Ground.held?, Torus.read_of_plane ht hx hy, ← hlast,
          hblank _ _ ((hindex _).trans hc)]
        cases lastWritten (.planar (Int64.ofNat x) (Int64.ofNat y)) (strokes lines) <;> rfl
    | error fault =>
        have hnone : lastWritten c (strokes lines) = none := by
          cases hlast : lastWritten c (strokes lines) with
          | none =>
              rfl
          | some byte =>
              obtain ⟨x, y, hx, hy, rfl, _⟩ :=
                stroke_within hwidth hheight (mem_of_lastWritten hlast)
              rw [Torus.indexOf_planar htsizes hx hy] at hc
              contradiction
        rw [hnone]
        simp only [Ground.held?]
        rw [Torus.read_eq_error_iff.2 hc, Torus.read_eq_error_iff.2 ((hindex c).trans hc)]

end Strokes

section Edits

theorem byteAt_append_blanks
    (top : List (List UInt8)) (line : List UInt8) (bottom : List (List UInt8)) (n : Nat) :
    byteAt (top ++ (line ++ List.replicate n 32) :: bottom) = byteAt (top ++ line :: bottom) := by
  funext x y
  unfold byteAt
  rw [List.getElem?_append, List.getElem?_append]
  split
  · rfl
  · cases y - top.length with
    | succ k =>
        rfl
    | zero =>
        simp only [List.getElem?_cons_zero, Option.bind_some]
        rw [List.getElem?_append]
        split
        · rfl
        · rename_i hx
          rw [List.getElem?_eq_none (Nat.le_of_not_lt hx), List.getElem?_replicate]
          split <;> rfl

/-- Blanks at the end of a line show only if they widen the grid. -/
theorem load_append_blanks
    {before after : String} {n : Nat}
    (hreturn : '\r' ∉ before.toList)
    (hend : LineEnd before after)
    (hcolumns : columns (before ++ blanks n ++ after) ≤ columns (before ++ after)) :
    load (before ++ blanks n ++ after) = load (before ++ after) := by
  obtain ⟨top, line, bottom, hlines, hpadded⟩ := ofText_append_blanks hreturn hend n
  apply load_congr
  · refine Nat.le_antisymm hcolumns ?_
    unfold columns
    rw [hlines, hpadded, ← Torus.longest_eq_max?, ← Torus.longest_eq_max?, Torus.longest_append,
      Torus.longest_append, Torus.longest_cons, Torus.longest_cons, List.length_append]
    omega
  · rw [rowCount, rowCount, hlines, hpadded, List.length_append, List.length_append,
      List.length_cons, List.length_cons]
  · rw [hlines, hpadded, byteAt_append_blanks]

end Edits

/-- A program is laid out exactly as its text.  If the number of cells fits 64 bits, the grid has a
column for each byte of the longest line and a row for each line, and at least 80 and 25 of them.
Each cell holds the byte of its line, or a blank where the line does not reach; it is what writing
the bytes other than blanks one by one to a grid of blanks would give.

So for a text without carriage returns the grid stays the same when each newline gets a carriage
return before it, when blanks are put at the end of a line but do not widen the grid, and when a
newline is put behind a last line that is not empty, or taken away there. -/
theorem load_layout :
    (∀ source, columns source * rowCount source < 2 ^ 64 →
      ∃ t,
        load source = .ok t ∧
        t.sizes = [columns source, rowCount source] ∧
        (∀ x y, x < columns source → y < rowCount source →
          t.read (.planar (Int64.ofNat x) (Int64.ofNat y)) = .ok (byteAt (ofText source) x y)) ∧
        ∃ b,
          Torus.filled [columns source, rowCount source] 32 = .ok b ∧
          (Ground.torus b).accepted (strokes (ofText source)) = strokes (ofText source) ∧
          (Ground.torus b).writeAll (strokes (ofText source)) = .torus t) ∧
    (∀ source, '\r' ∉ source.toList →
      load (withReturns source) = load source) ∧
    (∀ before after n, '\r' ∉ (before ++ after).toList →
      LineEnd before after →
      columns (before ++ blanks n ++ after) ≤ columns (before ++ after) →
        load (before ++ blanks n ++ after) = load (before ++ after)) ∧
    (∀ source c, '\r' ∉ source.toList →
      source.toList.getLast? = some c →
      c ≠ '\n' →
        load (source ++ "\n") = load source) := by
  refine ⟨?_, ?_, ?_, ?_⟩
  · intro source hcount
    have hcolumns : 80 ≤ columns source := Nat.le_max_left _ _
    have hrows : 25 ≤ rowCount source := Nat.le_max_left _ _
    -- With that many columns and rows, neither alone can exceed what a coordinate reaches.
    have hwidth : columns source < 0x8000000000000000 := by
      have := Nat.mul_le_mul_left (columns source) hrows
      omega
    have hheight : rowCount source < 0x8000000000000000 := by
      have := Nat.mul_le_mul_right (rowCount source) hcolumns
      omega
    obtain ⟨t, ht⟩ :=
      Torus.exists_plane ⟨by omega, hwidth⟩ ⟨by omega, hheight⟩ hcount (byteAt (ofText source))
    obtain ⟨b, hb⟩ :=
      Torus.exists_filled ⟨by omega, hwidth⟩ ⟨by omega, hheight⟩ hcount (32 : UInt8)
    have hlongest : Torus.longest (ofText source) ≤ columns source := by
      rw [columns, Torus.longest_eq_max?]
      exact Nat.le_max_right _ _
    refine ⟨t, (load_eq_plane source).trans ht, (Torus.plane_ok ht).1, ?_, b, hb,
      writeAll_strokes ht hb hlongest (Nat.le_max_right _ _)⟩
    intro x y hx hy
    exact Torus.read_of_plane ht hx hy
  · intro source hreturn
    exact load_of_lines (ofText_withReturns hreturn)
  · intro before after n hreturn
    apply load_append_blanks
    intro hmem
    apply hreturn
    rw [String.toList_append]
    exact List.mem_append_left _ hmem
  · intro source c hreturn hlast hc
    exact load_of_lines (ofText_append_newline hreturn hlast hc)

theorem load_layout_accented :
    ∃ t,
      load "v\n>\u00e9@" = .ok t ∧
      t.sizes = [80, 25] ∧
      t.read (.planar 2 1) = .ok 169 ∧
      t.read (.planar 1 0) = .ok 32 ∧
      load "v\r\n>\u00e9@" = .ok t ∧
      load "v  \n>\u00e9@" = .ok t ∧
      load "v\n>\u00e9@\n" = .ok t := by
  obtain ⟨hlaid, hreturns, hblanks, hnewline⟩ := load_layout
  have hlines : ofText "v\n>\u00e9@" = [[118], [62, 195, 169, 64]] := by
    simp only [ofText, Utf8.encode_ofList]
    decide
  have hlines' : ofText "v  \n>\u00e9@" = [[118, 32, 32], [62, 195, 169, 64]] := by
    simp only [ofText, Utf8.encode_ofList]
    decide
  have hcolumns : columns "v\n>\u00e9@" = 80 := by
    rw [columns, hlines]
    rfl
  have hrows : rowCount "v\n>\u00e9@" = 25 := by
    rw [rowCount, hlines]
    rfl
  obtain ⟨t, ht, hsizes, hread, _⟩ := hlaid "v\n>\u00e9@" (by rw [hcolumns, hrows]; decide)
  rw [hlines, hcolumns, hrows] at hread
  refine ⟨t, ht, ?_, hread 2 1 (by decide) (by decide), hread 1 0 (by decide) (by decide),
    ?_, ?_, ?_⟩
  · rw [hsizes, hcolumns, hrows]
  · rw [← ht, ← hreturns "v\n>\u00e9@" (by decide)]
    rfl
  · rw [← ht]
    refine hblanks "v" "\n>\u00e9@" 2 (by decide) (.inl (by decide)) ?_
    change columns "v  \n>\u00e9@" ≤ columns "v\n>\u00e9@"
    rw [columns, columns, hlines, hlines']
    decide
  · rw [← ht]
    exact hnewline "v\n>\u00e9@" '@' (by decide) (by decide) (by decide)

end Befunge

end FungeTrace
