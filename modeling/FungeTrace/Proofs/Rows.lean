import FungeTrace.Debug.Snapshot
import FungeTrace.Proofs.Plane

/-!
# Captured rows

The cells of a plane are captured by two nested loops that read one cell after the other and stop at
the first that cannot be read.  In a plane all of them can be read, so the loops come to their end:
`captureRow_eq` and `captureCells_eq` say what they have put down then.

The torus keeps its cells column by column and an overlay keeps them in layers, so the captured rows
are an arrangement of their own.  `getElem?_flatten` finds a cell among them again, and
`ofSpace_of_plane` says that it is the cell that the space reads there.
-/

namespace FungeTrace
namespace Picture

variable {space : Space UInt8} {width height : Nat}

section Loops

/-- The cells of one row, behind those of the rows before it. -/
theorem captureRow_eq
    {y : Nat} {row : Nat → UInt8}
    (hread : ∀ x, x < width →
      space.read (.planar (Int64.ofNat x) (Int64.ofNat y)) = .ok (row x))
    (cells : Array UInt8) :
    captureRow space width cells y = .ok (cells ++ ((List.range width).map row).toArray) := by
  rw [captureRow]
  induction width with
  | zero =>
      rw [List.range_zero, List.map_nil, Array.append_empty]
      rfl
  | succ width ih =>
      have hbefore := ih fun x hx => hread x (Nat.lt_succ_of_lt hx)
      rw [List.range_succ, List.foldlM_append, hbefore]
      simp only [List.foldlM_cons, List.foldlM_nil, hread width (Nat.lt_succ_self width)]
      simp [Bind.bind, Except.bind, pure, Except.pure]

/-- All rows, one behind the other. -/
theorem captureCells_eq
    {cell : Nat → Nat → UInt8}
    (hread : ∀ x y, x < width → y < height →
      space.read (.planar (Int64.ofNat x) (Int64.ofNat y)) = .ok (cell x y)) :
    captureCells space width height =
      .ok ((List.range height).map fun y => (List.range width).map (cell · y)).flatten.toArray := by
  rw [captureCells]
  generalize width * height = capacity
  induction height with
  | zero =>
      rfl
  | succ height ih =>
      have hbefore := ih fun x y hx hy => hread x y hx (Nat.lt_succ_of_lt hy)
      have hrow :=
        captureRow_eq (fun x hx => hread x height hx (Nat.lt_succ_self height))
          ((List.range height).map fun y => (List.range width).map (cell · y)).flatten.toArray
      rw [List.range_succ, List.foldlM_append, hbefore]
      simp only [List.foldlM_cons, List.foldlM_nil, Bind.bind, Except.bind, hrow]
      simp [pure, Except.pure]

end Loops

section Entries

/-- In a list of rows of one width, the entry of a column of a row. -/
theorem getElem?_flatten
    {α : Type} {rows : List (List α)} {width x : Nat}
    (hrows : ∀ row ∈ rows, row.length = width)
    (hx : x < width)
    (y : Nat) :
    rows.flatten[y * width + x]? = rows[y]?.bind (·[x]?) := by
  induction rows generalizing y with
  | nil =>
      simp
  | cons row rows ih =>
      have hrow : row.length = width := hrows row List.mem_cons_self
      rw [List.flatten_cons]
      cases y with
      | zero =>
          rw [Nat.zero_mul, Nat.zero_add, List.getElem?_append_left (by omega)]
          rfl
      | succ y =>
          have hskip : (y + 1) * width + x - row.length = y * width + x := by
            rw [hrow, Nat.succ_mul]
            omega
          rw [List.getElem?_append_right (by rw [hrow, Nat.succ_mul]; omega), hskip,
            ih (fun other hother => hrows other (List.mem_cons_of_mem _ hother)) y]
          rfl

theorem cell?_of_inside
    (p : Picture) {x y : Nat}
    (hx : x < p.width)
    (hy : y < p.height) :
    p.cell? x y = p.cells[y * p.width + x]? := by
  rw [cell?, if_pos ⟨hx, hy⟩]

theorem cell?_of_outside
    (p : Picture) {x y : Nat}
    (h : ¬ (x < p.width ∧ y < p.height)) :
    p.cell? x y = none := by
  rw [cell?, if_neg h]

end Entries

/-- A picture can be taken of every plane, and has the cells that the space reads. -/
theorem ofSpace_of_plane
    (hplane : space.shape.plane? = some (width, height)) :
    ∃ grid,
      ofSpace space = .ok grid ∧
      grid.width = width ∧
      grid.height = height ∧
      grid.cells.size = width * height ∧
      ∀ x y, x < width → y < height →
        ∃ cell,
          space.read (.planar (Int64.ofNat x) (Int64.ofNat y)) = .ok cell ∧
          grid.cells[y * width + x]? = some cell := by
  have hreads :
      ∀ x y, ∃ cell, x < width → y < height →
        space.read (.planar (Int64.ofNat x) (Int64.ofNat y)) = .ok cell := by
    intro x y
    by_cases hinside : x < width ∧ y < height
    · obtain ⟨cell, hcell⟩ :=
        Space.read_of_contains (Space.contains_planar hplane hinside.1 hinside.2)
      exact ⟨cell, fun _ _ => hcell⟩
    · exact ⟨0, fun hx hy => absurd ⟨hx, hy⟩ hinside⟩
  choose cell hread using hreads
  let rows := (List.range height).map fun y => (List.range width).map (cell · y)
  have hrows : ∀ row ∈ rows, row.length = width := by
    intro row hrow
    obtain ⟨y, -, rfl⟩ := List.mem_map.1 hrow
    simp
  refine ⟨⟨width, height, rows.flatten.toArray⟩, ?_, rfl, rfl, ?_, ?_⟩
  · rw [ofSpace, hplane]
    dsimp only
    rw [captureCells_eq hread]
    rfl
  · simp [rows, List.length_flatten, Function.comp_def, Nat.mul_comm]
  · intro x y hx hy
    refine ⟨cell x y, hread x y hx hy, ?_⟩
    rw [List.getElem?_toArray, getElem?_flatten hrows hx]
    simp [rows, hx, hy]

end Picture
end FungeTrace
