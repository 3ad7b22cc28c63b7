import FungeTrace.Proofs.Canvas
import FungeTrace.Proofs.Encoding
import FungeTrace.View.GridPane

/-!
# The window of the grid pane

The window of the grid pane follows the active pointer, so the pointer's cell is in one of the rows
that the pane draws: `GridPane.contains_scrollTo`.  In front of the cells stands the row number with
a blank behind it.  The pane allows four columns for them, as many as three digits need.

From row 1000 on the number takes more columns than that, and the cells at the right edge of the
window are cut off.  `GridPane.Contains.shows_iff` says which cells are inside the borders, and
`GridPane.marked_draw` that the active pointer's cell is marked on the screen if it is among them.
-/

namespace FungeTrace

namespace Scroll

/-- A window that follows a target contains it, wherever the window was before. -/
theorem follow_spec
    {target visible total : Nat}
    (hvisible : 1 ≤ visible)
    (htarget : target < total)
    (offset : Nat) :
    follow offset target visible total ≤ target ∧
      target < follow offset target visible total + visible := by
  rw [follow]
  split
  · omega
  · split <;> omega

end Scroll

namespace Decimal

theorem length_padLeft
    (width : Nat) (text : String) :
    (padLeft width text).length = max width text.length := by
  rw [padLeft, String.length_append, String.length_ofList, List.length_replicate]
  omega

end Decimal

namespace IpView

/-- The pointer stands in column `x` of row `y` of a grid. -/
structure On (ip : IpView) (grid : Picture) (x y : Nat) : Prop where
  column : (ip.position.get? 0).map Int64.toInt = some (x : Int)
  row : (ip.position.get? 1).map Int64.toInt = some (y : Int)
  column_lt : x < grid.width
  row_lt : y < grid.height

theorem component_eq
    {component : Option Int64} {n : Nat}
    (h : component.map Int64.toInt = some (n : Int)) :
    component = some (Int64.ofNat n) := by
  obtain ⟨value, rfl, hvalue⟩ := Option.map_eq_some_iff.1 h
  rw [← Int64.ofInt_toInt value, hvalue]
  rfl

theorem place_eq
    {component : Option Int64} {n : Nat}
    (h : component.map Int64.toInt = some (n : Int)) :
    GridPane.place component = n := by
  obtain ⟨value, rfl, hvalue⟩ := Option.map_eq_some_iff.1 h
  rw [GridPane.place, Option.getD_some, hvalue, Int.toNat_natCast]

theorem On.standsAt
    {ip : IpView} {grid : Picture} {x y : Nat}
    (h : ip.On grid x y) :
    ip.standsAt x y = true := by
  rw [IpView.standsAt, component_eq h.column, component_eq h.row]
  simp

end IpView

namespace Snapshot

theorem mem_ips_of_active
    {s : Snapshot} {ip : IpView}
    (h : s.active = some ip) :
    ip ∈ s.ips := by
  rcases Option.or_eq_some_iff.1 h with hfound | ⟨-, hfirst⟩
  · obtain ⟨id, -, hfind⟩ := Option.bind_eq_some_iff.1 hfound
    exact List.mem_of_find?_eq_some hfind
  · exact List.mem_of_head? hfirst

end Snapshot

namespace GridPane

section Rows

/-- The span that stands for a cell. -/
def cellSpan (s : Snapshot) (x y : Nat) : Span :=
  let cell := (s.grid.cell? x y).getD Befunge.blank
  ⟨String.singleton (glyph cell), cellStyle cell (s.ipsAt x y) s.active⟩

/-- A row number and the blank behind it. -/
def numberText (y : Nat) : String := Decimal.padLeft 3 (toString y) ++ " "

/-- The columns of a row number and the blank behind it. -/
def numberWidth (y : Nat) : Nat := max 3 (toString y).length + 1

theorem numberWidth_of_lt
    {y : Nat}
    (h : y < 1000) :
    numberWidth y = gutter := by
  have hdigits : (toString y).length ≤ 3 := (Nat.length_repr_le_iff (by decide)).2 h
  rw [numberWidth, gutter]
  omega

/-- Digits and blanks are plain. -/
theorem plain_of_mem_numberText
    {y : Nat} {c : Char}
    (h : c ∈ (numberText y).toList) :
    TextRow.IsPlain c := by
  have hblank : TextRow.IsPlain ' ' := .inl ⟨by decide, by decide⟩
  rw [numberText, Decimal.padLeft, String.toList_append, String.toList_append, List.mem_append,
    List.mem_append] at h
  rcases h with (hpad | hdigit) | hlast
  · rw [String.toList_ofList] at hpad
    rw [List.eq_of_mem_replicate hpad]
    exact hblank
  · have hc : c.isDigit = true := by
      rw [show (toString y).toList = Nat.toDigits 10 y from Nat.toList_repr] at hdigit
      exact Nat.isDigit_of_mem_toDigits (by decide) (by decide) hdigit
    obtain ⟨hlow, hhigh⟩ := Char.isDigit_iff_toNat.1 hc
    exact .inl ⟨Nat.le_trans (by decide) hlow, Nat.lt_of_le_of_lt hhigh (by decide)⟩
  · obtain rfl : c = ' ' := by simpa using hlast
    exact hblank

theorem isPrintable_iff
    (cell : UInt8) :
    isPrintable cell = true ↔ 32 ≤ cell.toNat ∧ cell.toNat < 127 := by
  simp [isPrintable, UInt8.le_iff_toNat_le, UInt8.lt_iff_toNat_lt]

/-- Visible ASCII characters, blanks and the dot that stands for all other cells are plain. -/
theorem plain_glyph
    (cell : UInt8) :
    TextRow.IsPlain (glyph cell) := by
  rw [glyph]
  split
  · rename_i hprintable
    obtain ⟨hlow, hhigh⟩ := (isPrintable_iff cell).1 hprintable
    have hcode : (Char.ofNat cell.toNat).toNat = cell.toNat :=
      Utf8.toNat_ofNat (.inl (by omega))
    exact .inl ⟨by omega, by omega⟩
  · exact .inr rfl

theorem plain_gridRow
    (s : Snapshot) (first last y : Nat) :
    (gridRow s first last y).Plain := by
  intro span hspan c hc
  rcases List.mem_cons.1 hspan with rfl | hcell
  · exact plain_of_mem_numberText hc
  · obtain ⟨x, -, rfl⟩ := List.mem_map.1 hcell
    dsimp only at hc
    rw [String.toList_singleton, List.mem_singleton] at hc
    rw [hc]
    exact plain_glyph _

theorem gridRow_eq
    (s : Snapshot) (first last y : Nat) :
    gridRow s first last y =
      ⟨numberText y, Theme.ink Theme.comment⟩ :: (interval first last).map (cellSpan s · y) :=
  rfl

theorem getElem?_interval
    {first last i : Nat}
    (h : first + i < last) :
    (interval first last)[i]? = some (first + i) := by
  rw [interval, List.getElem?_range' (by omega), Nat.one_mul]

/-- A row up to a cell. -/
theorem take_gridRow
    {first last x : Nat}
    (hfirst : first ≤ x)
    (hlast : x < last)
    (s : Snapshot) (y : Nat) :
    (gridRow s first last y).take (x - first + 2) = gridRow s first (x + 1) y := by
  have htake : (interval first last).take (x - first + 1) = interval first (x + 1) := by
    rw [interval, interval, List.take_range'_of_length_ge (by omega),
      show x + 1 - first = x - first + 1 by omega]
  rw [gridRow_eq, List.take_succ_cons, ← List.map_take, htake, ← gridRow_eq]

theorem length_numberText
    (y : Nat) :
    (numberText y).toList.length = numberWidth y := by
  rw [numberText, String.length_toList, String.length_append, Decimal.length_padLeft]
  rfl

theorem letters_gridRow
    (s : Snapshot) (first last y : Nat) :
    (gridRow s first last y).letters =
      (numberText y).toList.map (·, Theme.ink Theme.comment) ++
        (interval first last).map fun x =>
          (glyph ((s.grid.cell? x y).getD Befunge.blank), (cellSpan s x y).style) := by
  rw [gridRow_eq, TextRow.letters, List.flatMap_cons, List.flatMap_map]
  simp only [cellSpan, String.toList_singleton, List.map_cons, List.map_nil]
  rw [← List.map_eq_flatMap]

theorem length_letters_gridRow
    (s : Snapshot) (first last y : Nat) :
    (gridRow s first last y).letters.length = numberWidth y + (last - first) := by
  rw [letters_gridRow, List.length_append, List.length_map, List.length_map, length_numberText,
    interval, List.length_range']

end Rows

section Window

/-- The cell in column `x` of row `y` is in a row of the window, and the pane has a row for it. -/
structure Drawn (a : Area) (s : Snapshot) (w : GridScroll) (x y : Nat) (row : TextRow) : Prop where
  left : w.x ≤ x
  top : w.y ≤ y
  shown : (rows a s w)[y - w.y]? = some row
  cell : row[x - w.x + 1]? = some (cellSpan s x y)
  bottom : y - w.y < a.height - 2

/-- The letters of a row up to the one of a cell, which counts too.  They are plain, so each of
them takes a column: `plain_gridRow`. -/
def reach (w : GridScroll) (x : Nat) (row : TextRow) : Nat :=
  (TextRow.letters (row.take (x - w.x + 2))).length

/-- The cell in column `x` of row `y` is drawn inside the borders. -/
def Shows (a : Area) (s : Snapshot) (w : GridScroll) (x y : Nat) : Prop :=
  ∃ row, Drawn a s w x y row ∧ reach w x row ≤ a.width - 2

/-- A window of the size that the pane allows for contains column `x` of row `y`. -/
structure Contains (a : Area) (w : GridScroll) (x y : Nat) : Prop where
  left : w.x ≤ x
  right : x - w.x < a.width - 6
  top : w.y ≤ y
  bottom : y - w.y < a.height - 2

variable {a : Area} {s : Snapshot} {w : GridScroll} {ip : IpView} {x y : Nat}

/-- Wherever the window was, it follows the active pointer. -/
theorem contains_scrollTo
    (hactive : s.active = some ip)
    (hon : ip.On s.grid x y)
    (hwidth : 7 ≤ a.width)
    (hheight : 3 ≤ a.height)
    (scroll : GridScroll) :
    Contains a (scrollTo a s scroll) x y := by
  have hcolumns : visibleWidth a = a.width - 6 := by
    rw [visibleWidth, gutter]
    omega
  have hrows : visibleHeight a = a.height - 2 := by
    rw [visibleHeight]
    omega
  have hx := Scroll.follow_spec (show 1 ≤ a.width - 6 by omega) hon.column_lt scroll.x
  have hy := Scroll.follow_spec (show 1 ≤ a.height - 2 by omega) hon.row_lt scroll.y
  rw [scrollTo, hactive]
  dsimp only
  rw [IpView.place_eq hon.column, IpView.place_eq hon.row, hcolumns, hrows]
  exact ⟨hx.1, by dsimp only; omega, hy.1, by dsimp only; omega⟩

/-- The row of a window that shows row `y` of the grid. -/
def rowOf (a : Area) (s : Snapshot) (w : GridScroll) (y : Nat) : TextRow :=
  gridRow s w.x (min (w.x + visibleWidth a) s.grid.width) y

theorem Contains.lt_right
    (h : Contains a w x y)
    (hx : x < s.grid.width) :
    x < min (w.x + visibleWidth a) s.grid.width := by
  have hright := h.right
  rw [visibleWidth, gutter]
  omega

theorem Contains.getElem?_rows
    (h : Contains a w x y)
    (hy : y < s.grid.height) :
    (rows a s w)[y - w.y]? = some (rowOf a s w y) := by
  have hbottom := h.bottom
  have hheight : y < w.y + visibleHeight a := by
    rw [visibleHeight]
    omega
  rw [rows, List.getElem?_map, getElem?_interval (by have := h.top; omega), Option.map_some,
    Nat.add_sub_cancel' h.top]
  rfl

theorem Contains.drawn
    (h : Contains a w x y)
    (hx : x < s.grid.width)
    (hy : y < s.grid.height) :
    Drawn a s w x y (rowOf a s w y) where
  left := h.left
  top := h.top
  shown := h.getElem?_rows hy
  cell := by
    have hright := h.lt_right hx
    have hleft := h.left
    rw [rowOf, gridRow_eq, List.getElem?_cons_succ, List.getElem?_map,
      getElem?_interval (by omega), Option.map_some, Nat.add_sub_cancel' hleft]
  bottom := h.bottom

/-- In front of a cell are the row number and the cells from the left edge of the window on. -/
theorem Contains.reach_eq
    (h : Contains a w x y)
    (hx : x < s.grid.width) :
    reach w x (rowOf a s w y) = numberWidth y + (x + 1 - w.x) := by
  rw [reach, rowOf, take_gridRow h.left (h.lt_right hx), length_letters_gridRow]

theorem Contains.shows_iff
    (h : Contains a w x y)
    (hx : x < s.grid.width)
    (hy : y < s.grid.height) :
    Shows a s w x y ↔ numberWidth y + (x + 1 - w.x) ≤ a.width - 2 := by
  constructor
  · rintro ⟨row, hdrawn, hreach⟩
    obtain rfl : rowOf a s w y = row :=
      Option.some.inj ((h.getElem?_rows hy).symm.trans hdrawn.shown)
    rwa [h.reach_eq hx] at hreach
  · intro hfits
    exact ⟨rowOf a s w y, h.drawn hx hy, by rwa [h.reach_eq hx]⟩

end Window

section Marks

variable {σ : Type} {a : Area} {s : Snapshot} {w : GridScroll} {ip : IpView} {x y : Nat}

/-- The tile of a cell on a screen has its glyph and is marked as the active pointer's. -/
def Marked (r : Renderer σ) (screen : σ) (a : Area) (s : Snapshot) (w : GridScroll) (x y : Nat) :
    Prop :=
  ∃ tile,
    r.tile? screen (a.left + numberWidth y + (x + 1 - w.x)) (a.top + 1 + (y - w.y)) = some tile ∧
    tile.glyph = String.singleton (glyph ((s.grid.cell? x y).getD Befunge.blank)) ∧
    tile.background = Theme.activePointer

theorem background_cellSpan
    (hactive : s.active = some ip)
    (hon : ip.On s.grid x y) :
    (cellSpan s x y).style.background = some Theme.activePointer := by
  have hhere : ip ∈ s.ipsAt x y :=
    List.mem_filter.2 ⟨Snapshot.mem_ips_of_active hactive, hon.standsAt⟩
  have hany : (s.ipsAt x y).any (fun other => some other.id == s.active.map (·.id)) = true := by
    rw [List.any_eq_true]
    exact ⟨ip, hhere, by simp [hactive]⟩
  have hnone : (s.ipsAt x y).isEmpty = false := by
    rw [List.isEmpty_eq_false_iff]
    exact List.ne_nil_of_mem hhere
  rw [cellSpan]
  dsimp only
  rw [cellStyle, hnone, hany]
  rfl

theorem letter_rowOf
    (h : Contains a w x y)
    (hx : x < s.grid.width) :
    (rowOf a s w y).letters[numberWidth y + (x - w.x)]? =
      some (glyph ((s.grid.cell? x y).getD Befunge.blank), (cellSpan s x y).style) := by
  have hright := h.lt_right hx
  have hleft := h.left
  have hnumber :
      ((numberText y).toList.map (·, Theme.ink Theme.comment)).length = numberWidth y := by
    rw [List.length_map, length_numberText]
  rw [rowOf, letters_gridRow, List.getElem?_append_right (by omega), hnumber,
    Nat.add_sub_cancel_left, List.getElem?_map,
    getElem?_interval (by omega), Option.map_some, Nat.add_sub_cancel' hleft]

/-- Whoever draws the pane faithfully marks the active pointer's cell. -/
theorem marked_draw
    {r : Renderer σ} {screen : σ}
    (hr : r.Faithful)
    (hactive : s.active = some ip)
    (hon : ip.On s.grid x y)
    (hscreen : r.Holds screen a)
    (focused : Bool) (scroll : GridScroll)
    (h : Contains a (scrollTo a s scroll) x y)
    (hfits : numberWidth y + (x + 1 - (scrollTo a s scroll).x) ≤ a.width - 2) :
    Marked r (r.draw screen a (draw a s focused scroll).1) a s (scrollTo a s scroll) x y := by
  have hleft := h.left
  obtain ⟨tile, htile, hglyph, hbackground⟩ :=
    hr.paragraph (title s) (Theme.border focused) {} hscreen (h.getElem?_rows hon.row_lt)
      (plain_gridRow s _ _ y) (letter_rowOf h hon.column_lt) (by omega) h.bottom
  have hcolumn :
      a.left + numberWidth y + (x + 1 - (scrollTo a s scroll).x) =
        a.left + 1 + (numberWidth y + (x - (scrollTo a s scroll).x)) := by
    omega
  refine ⟨tile, ?_, hglyph, hbackground _ (background_cellSpan hactive hon)⟩
  rw [hcolumn]
  exact htile

end Marks

/-- The cell of the active pointer is in one of the rows that the pane draws.  It is inside the
borders if the row number leaves enough columns, as a number of three digits does, and then it is
marked on any screen that the pane is drawn on. -/
theorem draw_shows_active
    {a : Area} {s : Snapshot} {ip : IpView} {x y : Nat}
    (hactive : s.active = some ip)
    (hon : ip.On s.grid x y)
    (hwidth : 7 ≤ a.width)
    (hheight : 3 ≤ a.height)
    (focused : Bool) (scroll : GridScroll) :
    let drawn := draw a s focused scroll
    (∃ row, Drawn a s drawn.2 x y row) ∧
    (Shows a s drawn.2 x y ↔ numberWidth y + (x + 1 - drawn.2.x) ≤ a.width - 2) ∧
    (y < 1000 → Shows a s drawn.2 x y) ∧
    ∀ {σ : Type} (r : Renderer σ),
      r.Faithful →
      ∀ screen, r.Holds screen a → Shows a s drawn.2 x y →
        Marked r (r.draw screen a drawn.1) a s drawn.2 x y := by
  have hcontains := contains_scrollTo hactive hon hwidth hheight scroll
  have hshows := hcontains.shows_iff hon.column_lt hon.row_lt
  refine ⟨⟨_, hcontains.drawn hon.column_lt hon.row_lt⟩, hshows, ?_, ?_⟩
  · intro hrow
    have hright := hcontains.right
    refine hshows.2 ?_
    rw [numberWidth_of_lt hrow, gutter]
    omega
  · intro σ r hr screen hscreen hshown
    exact marked_draw hr hactive hon hscreen focused scroll hcontains (hshows.1 hshown)

/-- The only pointer of a run, heading east. -/
def walker (x y : Nat) : IpView where
  id := 1
  position := .planar (Int64.ofNat x) (Int64.ofNat y)
  direction := .east
  stack := []
  stringMode := false

/-- A blank grid with a pointer in column `x` of row `y`. -/
def walk (width height x y : Nat) : Snapshot where
  tick := 0
  phase := .launch
  current := some 1
  grid := { width, height, cells := Array.replicate (width * height) Befunge.blank }
  ips := [walker x y]
  terminal := .empty

/-- A screen with six columns and a row inside its border. -/
def narrow : Screen := Screen.blank 8 3

/-- A pointer in the last cell of a grid of the usual size is shown on a narrow screen. -/
theorem draw_shows_active_corner :
    (walk 80 25 79 24).active = some (walker 79 24) ∧
    (walker 79 24).On (walk 80 25 79 24).grid 79 24 ∧
    Screen.renderer.Faithful ∧
    let drawn := draw narrow.area (walk 80 25 79 24) false {}
    Marked Screen.renderer (Screen.renderer.draw narrow narrow.area drawn.1) narrow.area
      (walk 80 25 79 24) drawn.2 79 24 := by
  have hon : (walker 79 24).On (walk 80 25 79 24).grid 79 24 :=
    ⟨by decide, by decide, by decide, by decide⟩
  obtain ⟨-, -, hshows, hmarked⟩ :=
    draw_shows_active (a := narrow.area) (s := walk 80 25 79 24) rfl hon (by decide) (by decide)
      false {}
  refine ⟨rfl, hon, Screen.faithful, ?_⟩
  exact hmarked _ Screen.faithful narrow (Screen.holds_blank 8 3) (hshows (by decide))

/-- A pointer in row 1000 of a grid of two columns is cut off: the row number takes five of the six
columns, and the pointer's cell would be in the seventh. -/
theorem draw_loses_active :
    7 ≤ narrow.area.width ∧ 3 ≤ narrow.area.height ∧
    (walk 2 1001 1 1000).active = some (walker 1 1000) ∧
    (walker 1 1000).On (walk 2 1001 1 1000).grid 1 1000 ∧
    let drawn := draw narrow.area (walk 2 1001 1 1000) false {}
    ¬ Shows narrow.area (walk 2 1001 1 1000) drawn.2 1 1000 ∧
    ∀ tile ∈ (narrow.draw narrow.area drawn.1).tiles, tile.background ≠ Theme.activePointer := by
  have hon : (walker 1 1000).On (walk 2 1001 1 1000).grid 1 1000 :=
    ⟨by decide, by decide, by decide, by decide⟩
  have hcontains := contains_scrollTo (a := narrow.area) (s := walk 2 1001 1 1000) rfl hon
    (by decide) (by decide) {}
  refine ⟨by decide, by decide, rfl, hon, ?_, by decide +kernel⟩
  intro hshows
  have hfits := (hcontains.shows_iff hon.column_lt hon.row_lt).1 hshows
  exact absurd hfits (by decide +kernel)

end GridPane
end FungeTrace
