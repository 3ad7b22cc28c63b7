import FungeTrace.Space.Direction

/-!
# Toroidal spaces

Every axis of a torus is a ring of fixed size.  The cells stand in one array in row-major order,
the last axis varying fastest, so their number is the product of the sizes.

A torus carries the facts that its constructors check: it has an axis, every size is positive and
fits a coordinate component, and the number of cells fits 64 bits.  `Extent.locate_lt` shows that
an accepted coordinate addresses the array in bounds.
-/

namespace FungeTrace

namespace Extent

/-- Number of cells of a torus with rings of the given sizes. -/
def cellCount : List Nat → Nat
  | [] => 1
  | size :: sizes => size * cellCount sizes

end Extent

/-- Sizes of the rings of a torus. -/
structure Extent where
  sizes : List Nat
  ne_nil : sizes ≠ []
  bounds : ∀ n ∈ sizes, 0 < n ∧ n < 0x8000000000000000
  cellCount_lt : Extent.cellCount sizes < 0x10000000000000000

namespace Extent

section Construction

/-- The first flaw met while the sizes are multiplied to `count` from left to right. -/
def flawFrom (count : Nat) : List Nat → Option ShapeFlaw
  | [] => none
  | size :: rest =>
    if size = 0 then some .emptyAxis
    else if 0x8000000000000000 ≤ size then some .axisTooLong
    else if 0x10000000000000000 ≤ count * size then some .tooManyCells
    else flawFrom (count * size) rest

/-- The flaw of a list of sizes, if it has one. -/
def flaw? : List Nat → Option ShapeFlaw
  | [] => some .noToroidalAxis
  | sizes => flawFrom 1 sizes

theorem bounds_of_flawFrom {count : Nat} {sizes : List Nat}
    (h : flawFrom count sizes = none) :
    ∀ n ∈ sizes, 0 < n ∧ n < 0x8000000000000000 := by
  induction sizes generalizing count with
  | nil => simp
  | cons size rest ih =>
      unfold flawFrom at h
      split at h
      · contradiction
      · split at h
        · contradiction
        · split at h
          · contradiction
          · intro n hn
            rcases List.mem_cons.1 hn with rfl | hn
            · omega
            · exact ih h n hn

theorem cellCount_lt_of_flawFrom {count : Nat} {sizes : List Nat}
    (hcount : count < 0x10000000000000000)
    (h : flawFrom count sizes = none) :
    count * cellCount sizes < 0x10000000000000000 := by
  induction sizes generalizing count with
  | nil => simpa [cellCount] using hcount
  | cons size rest ih =>
      unfold flawFrom at h
      split at h
      · contradiction
      · split at h
        · contradiction
        · split at h
          · contradiction
          · rw [cellCount, ← Nat.mul_assoc]
            exact ih (by omega) h

theorem ne_nil_of_flaw {sizes : List Nat}
    (h : flaw? sizes = none) :
    sizes ≠ [] := by
  rintro rfl
  simp [flaw?] at h

theorem flawFrom_of_flaw {sizes : List Nat}
    (h : flaw? sizes = none) :
    flawFrom 1 sizes = none := by
  cases sizes with
  | nil => rfl
  | cons size rest => exact h

/-- The extent with the given sizes, or the first flaw among them. -/
def ofSizes (sizes : List Nat) : Except Fault Extent :=
  match h : flaw? sizes with
  | some flaw => .error (.invalidShape flaw)
  | none =>
    .ok {
      sizes := sizes
      ne_nil := ne_nil_of_flaw h
      bounds := bounds_of_flawFrom (flawFrom_of_flaw h)
      cellCount_lt := by
        have := cellCount_lt_of_flawFrom (by decide) (flawFrom_of_flaw h)
        simpa using this }

end Construction

section Addressing

/-- Number of axes. -/
def dims (e : Extent) : Nat := e.sizes.length

/-- Number of cells. -/
def count (e : Extent) : Nat := cellCount e.sizes

/-- Continues a row-major index over the remaining axes, the first of which is number `axis`. -/
def locateFrom (axis index : Nat) : List Nat → List Int64 → Except Fault Nat
  | size :: sizes, x :: xs =>
    if 0 ≤ x.toInt ∧ x.toInt < size then
      locateFrom (axis + 1) (index * size + x.toInt.toNat) sizes xs
    else
      .error (.indexOutOfRange axis x size)
  | _, _ => .ok index

/-- Row-major index of a coordinate.  The first component outside its ring is the fault. -/
def locate (e : Extent) (c : Coord) : Except Fault Nat :=
  if c.dims = e.dims then locateFrom 0 0 e.sizes c.components
  else .error (.dimensionMismatch e.dims c.dims)

theorem locateFrom_lt {sizes : List Nat} {xs : List Int64} {axis index i : Nat}
    (hlen : xs.length = sizes.length)
    (h : locateFrom axis index sizes xs = .ok i) :
    i < (index + 1) * cellCount sizes := by
  induction sizes generalizing xs axis index with
  | nil =>
      cases xs with
      | nil =>
          simp only [locateFrom, Except.ok.injEq] at h
          simp [cellCount, h]
      | cons x xs => simp at hlen
  | cons size sizes ih =>
      cases xs with
      | nil => simp at hlen
      | cons x xs =>
          simp only [locateFrom] at h
          split at h
          · rename_i hx
            have hi := ih (by simpa using hlen) h
            have hle : index * size + x.toInt.toNat + 1 ≤ (index + 1) * size := by
              rw [Nat.add_mul, Nat.one_mul]
              omega
            calc
              i < (index * size + x.toInt.toNat + 1) * cellCount sizes := hi
              _ ≤ (index + 1) * size * cellCount sizes := Nat.mul_le_mul_right _ hle
              _ = (index + 1) * cellCount (size :: sizes) := by
                rw [cellCount, Nat.mul_assoc]
          · contradiction

/-- An accepted coordinate addresses one of the cells. -/
theorem locate_lt {e : Extent} {c : Coord} {i : Nat}
    (h : e.locate c = .ok i) :
    i < e.count := by
  unfold locate at h
  split at h
  · rename_i hdims
    have := locateFrom_lt hdims h
    simpa [count] using this
  · contradiction

end Addressing

end Extent

/-- A space of fixed size whose axes wrap around. -/
structure Torus (C : Type) where
  extent : Extent
  /-- The cells in row-major order. -/
  cells : Array C
  size_cells : cells.size = extent.count

namespace Torus

variable {C : Type}

/-- A torus with every cell set to `fill`. -/
def filled (sizes : List Nat) (fill : C) : Except Fault (Torus C) := do
  let extent ← Extent.ofSizes sizes
  return { extent, cells := Array.replicate extent.count fill, size_cells := by simp }

/-- A torus over row-major cells, whose number has to be right. -/
def ofCells (sizes : List Nat) (cells : Array C) : Except Fault (Torus C) := do
  let extent ← Extent.ofSizes sizes
  if h : cells.size = extent.count then
    return { extent, cells, size_cells := h }
  else
    throw (.invalidShape (.wrongCellCount cells.size extent.count))

/-- A plane with `cell x y` in column `x` of row `y`. -/
def plane (width height : Nat) (cell : Nat → Nat → C) : Except Fault (Torus C) := do
  let extent ← Extent.ofSizes [width, height]
  return {
    extent
    cells := Array.ofFn fun i : Fin extent.count => cell (i / height) (i % height)
    size_cells := by simp }

/-- The cell in column `x` of row `y`, or `blank` where the rows do not reach. -/
def cellOfRows (rows : Array (Array C)) (blank : C) (x y : Nat) : C :=
  (rows[y]?.bind (·[x]?)).getD blank

/-- A plane of the given size with rows laid out from the upper left. -/
def ofRows (width height : Nat) (rows : List (List C)) (blank : C) : Except Fault (Torus C) :=
  let rows := (rows.map List.toArray).toArray
  plane width height (cellOfRows rows blank)

/-- Length of the longest row. -/
def longest (rows : List (List C)) : Nat := rows.foldl (fun n row => max n row.length) 0

/-- Sizes of the rings. -/
def sizes (t : Torus C) : List Nat := t.extent.sizes

/-- Number of axes. -/
def dims (t : Torus C) : Nat := t.extent.dims

/-- Row-major index of a coordinate. -/
def indexOf (t : Torus C) (c : Coord) : Except Fault Nat := t.extent.locate c

theorem indexOf_lt {t : Torus C} {c : Coord} {i : Nat}
    (h : t.indexOf c = .ok i) :
    i < t.cells.size :=
  t.size_cells ▸ Extent.locate_lt h

/-- The cell at a coordinate. -/
def read (t : Torus C) (c : Coord) : Except Fault C :=
  match h : t.indexOf c with
  | .ok i =>
    have := indexOf_lt h
    .ok t.cells[i]
  | .error f => .error f

/-- The torus with one cell replaced. -/
def write (t : Torus C) (c : Coord) (cell : C) : Except Fault (Torus C) :=
  match t.indexOf c with
  | .ok i =>
    .ok { t with
      cells := t.cells.setIfInBounds i cell
      size_cells := by simp [t.size_cells] }
  | .error f => .error f

/-- Whether `c` addresses a cell. -/
def contains (t : Torus C) (c : Coord) : Bool :=
  match t.indexOf c with
  | .ok _ => true
  | .error _ => false

/-- Axis steps of the right arity are the steps a torus takes, from anywhere. -/
def allows (t : Torus C) (d : Direction) : Bool :=
  d.axis?.isSome && d.dims == t.dims

/-- One axis step, each component reduced to its ring. -/
def move (t : Torus C) (c : Coord) (d : Direction) : Except Fault Coord := do
  if d.axis?.isNone then
    throw (.invalidDirection .notAxisStep)
  let next ← d.step c
  if next.dims = t.dims then
    return ⟨List.zipWith (fun (x : Int64) (size : Nat) => Int64.ofInt (x.toInt % size))
      next.components t.sizes⟩
  else
    throw (.dimensionMismatch t.dims next.dims)

/-- Coordinate of the first cell. -/
def origin (t : Torus C) : Coord := Coord.origin t.dims

/-- The positive step along axis 0. -/
def heading (t : Torus C) : Direction :=
  .axis t.dims 0 true (List.length_pos_iff.2 t.extent.ne_nil)

/-- Equality of sizes and of all cells. -/
def same [BEq C] (t u : Torus C) : Bool := t.sizes == u.sizes && t.cells == u.cells

end Torus

end FungeTrace
