import FungeTrace.Proofs.Store
import Mathlib.Algebra.Group.Nat.Defs

/-!
# Row-major addressing

The cells of a torus stand in one array.  A coordinate is read as a numeral whose digits are its
components, each to the base of its own ring, and the value of the numeral is the place of the cell.

* On the way to its value a numeral only grows (`le_of_mem_scanl`), so that the check on the number
  of cells, made once when a torus is built, keeps every value on the way within 64 bits.
* Every place of the array has a numeral, which `digits` finds by division: `locate_digits`.  No
  place has two: `Extent.locate_injective`.
* A refused coordinate of the right arity is blamed on its first component outside its ring:
  `locateFrom_eq_error_iff`.

`Torus.Built` says which tori there are: what the constructors make of a list of sizes, and what
writes make of that.  `Torus.indexOf_bijective` puts the facts together for all of them.
-/

namespace FungeTrace

variable {C : Type}

namespace Extent

section Numerals

/-- Takes one more axis into an index: its component is the last digit. -/
def appendDigit (index : Nat) (axis : Nat × Int64) : Nat :=
  index * axis.1 + axis.2.toInt.toNat

/-- The index of a coordinate axis by axis, from zero to its value. -/
def runningIndices (sizes : List Nat) (c : Coord) : List Nat :=
  (sizes.zip c.components).scanl appendDigit 0

/-- The components of the cell at a place: the digits of the place, to the bases `sizes`. -/
def digits : List Nat → Nat → List Int64
  | [], _ => []
  | _ :: sizes, i =>
    Int64.ofNat (i / cellCount sizes) :: digits sizes (i % cellCount sizes)

theorem cellCount_eq_prod
    (sizes : List Nat) :
    cellCount sizes = sizes.prod := by
  induction sizes with
  | nil =>
      rfl
  | cons size sizes ih =>
      rw [cellCount, ih, List.prod_cons]

variable {sizes : List Nat} {xs : List Int64} {axis index i : Nat}

theorem of_locateFrom_cons
    {size : Nat} {x : Int64}
    (h : locateFrom axis index (size :: sizes) (x :: xs) = .ok i) :
    InRing size x ∧
      locateFrom (axis + 1) (appendDigit index (size, x)) sizes xs = .ok i := by
  unfold locateFrom at h
  split at h
  · rename_i hx
    exact ⟨hx, h⟩
  · contradiction

theorem locateFrom_eq_foldl
    (h : locateFrom axis index sizes xs = .ok i) :
    (sizes.zip xs).foldl appendDigit index = i := by
  induction sizes generalizing xs axis index with
  | nil =>
      exact Except.ok.inj h
  | cons size sizes ih =>
      cases xs with
      | nil =>
          exact Except.ok.inj h
      | cons x xs =>
          exact ih (of_locateFrom_cons h).2

theorem le_appendDigit
    {size : Nat} {x : Int64}
    (hx : InRing size x)
    (index : Nat) :
    index ≤ appendDigit index (size, x) := by
  obtain ⟨hnonneg, hlt⟩ := hx
  calc
    index ≤ index * size := Nat.le_mul_of_pos_right index (by omega)
    _ ≤ index * size + x.toInt.toNat := Nat.le_add_right _ _

/-- An index on the way does not exceed the index at the end. -/
theorem le_of_mem_scanl
    {v : Nat}
    (h : locateFrom axis index sizes xs = .ok i)
    (hv : v ∈ (sizes.zip xs).scanl appendDigit index) :
    v ≤ i := by
  induction sizes generalizing xs axis index v with
  | nil =>
      obtain rfl : v = index := by simpa using hv
      exact Nat.le_of_eq (Except.ok.inj h)
  | cons size sizes ih =>
      cases xs with
      | nil =>
          obtain rfl : v = index := by simpa using hv
          exact Nat.le_of_eq (Except.ok.inj h)
      | cons x xs =>
          obtain ⟨hx, hrest⟩ := of_locateFrom_cons h
          rw [List.zip_cons_cons, List.scanl_cons, List.mem_cons] at hv
          rcases hv with rfl | hv
          · have hnext : appendDigit v (size, x) ∈
                (sizes.zip xs).scanl appendDigit (appendDigit v (size, x)) := by
              cases sizes.zip xs <;> simp
            exact Nat.le_trans (le_appendDigit hx v) (ih hrest hnext)
          · exact ih hrest hv

/-- The digits of a place are read as that place. -/
theorem locateFrom_digits
    (hsizes : ∀ n ∈ sizes, 0 < n ∧ n < 0x8000000000000000)
    (hi : i < cellCount sizes)
    (axis index : Nat) :
    locateFrom axis index sizes (digits sizes i) = .ok (index * cellCount sizes + i) := by
  induction sizes generalizing i axis index with
  | nil =>
      have hzero : i = 0 := by
        simpa [cellCount] using hi
      simp [locateFrom, cellCount, hzero]
  | cons size sizes ih =>
      have hcount : 0 < cellCount sizes := by
        apply Nat.pos_of_ne_zero
        intro hzero
        simp [cellCount, hzero] at hi
      have hdigit : i / cellCount sizes < size := by
        apply Nat.div_lt_of_lt_mul
        rwa [Nat.mul_comm]
      obtain ⟨_, hsize⟩ := hsizes size List.mem_cons_self
      have hvalue : (Int64.ofNat (i / cellCount sizes)).toInt = (i / cellCount sizes : Nat) :=
        Int64.toInt_ofNat_of_lt (by omega)
      have hring :
          0 ≤ (Int64.ofNat (i / cellCount sizes)).toInt ∧
            (Int64.ofNat (i / cellCount sizes)).toInt < size := by
        rw [hvalue]
        exact ⟨Int.natCast_nonneg _, Int.ofNat_lt.2 hdigit⟩
      have hrest :=
        ih (fun n hn => hsizes n (List.mem_cons_of_mem size hn)) (Nat.mod_lt i hcount)
          (axis + 1) (index * size + i / cellCount sizes)
      rw [digits, locateFrom, if_pos hring, hvalue, Int.toNat_natCast, hrest]
      congr 1
      calc
        (index * size + i / cellCount sizes) * cellCount sizes + i % cellCount sizes
            = index * (size * cellCount sizes) +
                (i / cellCount sizes * cellCount sizes + i % cellCount sizes) := by
          rw [Nat.add_mul, Nat.mul_assoc, Nat.add_assoc]
        _ = index * cellCount (size :: sizes) + i := by
          rw [Nat.div_add_mod', cellCount]

theorem length_digits
    (sizes : List Nat) (i : Nat) :
    (digits sizes i).length = sizes.length := by
  induction sizes generalizing i with
  | nil =>
      rfl
  | cons size sizes ih =>
      rw [digits, List.length_cons, List.length_cons, ih]

/-- Every place is the place of a coordinate. -/
theorem locate_digits
    {e : Extent}
    (hi : i < e.count) :
    e.locate ⟨digits e.sizes i⟩ = .ok i := by
  have hdims : Coord.dims ⟨digits e.sizes i⟩ = e.dims := length_digits e.sizes i
  rw [locate, if_pos hdims, locateFrom_digits e.bounds hi 0 0, Nat.zero_mul, Nat.zero_add]

end Numerals

/-- A component that lies outside its ring, behind components that all lie in theirs. -/
structure FirstOutside
    (sizes : List Nat) (xs : List Int64)
    (axis : Nat) (x : Int64) (size : Nat) : Prop where
  component : xs[axis]? = some x
  ring : sizes[axis]? = some size
  outside : ¬ InRing size x
  before : ∀ j < axis, ∀ y n, xs[j]? = some y → sizes[j]? = some n → InRing n y

section Refusals

variable {size : Nat} {sizes : List Nat} {x : Int64} {xs : List Int64}

theorem firstOutside_zero
    (h : ¬ InRing size x) :
    FirstOutside (size :: sizes) (x :: xs) 0 x size where
  component := rfl
  ring := rfl
  outside := h
  before := by simp

theorem firstOutside_succ
    {axis : Nat} {y : Int64} {n : Nat}
    (hx : InRing size x) :
    FirstOutside (size :: sizes) (x :: xs) (axis + 1) y n ↔ FirstOutside sizes xs axis y n := by
  constructor
  · rintro ⟨hy, hn, houtside, hbefore⟩
    refine ⟨by simpa using hy, by simpa using hn, houtside, ?_⟩
    intro j hj z m hz hm
    exact hbefore (j + 1) (by omega) z m (by simpa using hz) (by simpa using hm)
  · rintro ⟨hy, hn, houtside, hbefore⟩
    refine ⟨by simpa using hy, by simpa using hn, houtside, ?_⟩
    intro j hj z m hz hm
    cases j with
    | zero =>
        simp only [List.getElem?_cons_zero, Option.some.injEq] at hz hm
        rwa [← hz, ← hm]
    | succ j =>
        exact hbefore j (by omega) z m (by simpa using hz) (by simpa using hm)

/-- The axis that a refusal names is the first one with a component outside its ring. -/
theorem locateFrom_eq_error_iff
    {axis index : Nat} {fault : Fault} :
    locateFrom axis index sizes xs = .error fault ↔
      ∃ k x size, FirstOutside sizes xs k x size ∧ fault = .indexOutOfRange (axis + k) x size := by
  induction sizes generalizing xs axis index with
  | nil =>
      constructor
      · intro h
        cases xs <;> contradiction
      · rintro ⟨k, x, size, ⟨_, hring, _, _⟩, _⟩
        simp at hring
  | cons size sizes ih =>
      cases xs with
      | nil =>
          constructor
          · intro h
            contradiction
          · rintro ⟨k, x, size, ⟨hcomponent, _, _, _⟩, _⟩
            simp at hcomponent
      | cons x xs =>
          by_cases hx : InRing size x
          · have hx' : 0 ≤ x.toInt ∧ x.toInt < size := hx
            rw [locateFrom, if_pos hx', ih]
            constructor
            · rintro ⟨k, y, n, hfirst, rfl⟩
              exact ⟨k + 1, y, n, (firstOutside_succ hx).2 hfirst, by rw [Nat.add_right_comm,
                Nat.add_assoc]⟩
            · rintro ⟨k, y, n, hfirst, rfl⟩
              cases k with
              | zero =>
                  obtain ⟨hy, hn, houtside, _⟩ := hfirst
                  simp only [List.getElem?_cons_zero, Option.some.injEq] at hy hn
                  rw [← hy, ← hn] at houtside
                  exact absurd hx houtside
              | succ k =>
                  refine ⟨k, y, n, (firstOutside_succ hx).1 hfirst, ?_⟩
                  rw [Nat.add_right_comm, Nat.add_assoc]
          · have hx' : ¬ (0 ≤ x.toInt ∧ x.toInt < size) := hx
            rw [locateFrom, if_neg hx', Except.error.injEq]
            constructor
            · rintro rfl
              exact ⟨0, x, size, firstOutside_zero hx, rfl⟩
            · rintro ⟨k, y, n, ⟨hy, hn, _, hbefore⟩, rfl⟩
              cases k with
              | zero =>
                  simp only [List.getElem?_cons_zero, Option.some.injEq] at hy hn
                  rw [hy, hn, Nat.add_zero]
              | succ k =>
                  exact absurd (hbefore 0 (by omega) x size rfl rfl) hx

end Refusals

end Extent

namespace Torus

open Extent

/-- The tori of given sizes: those that the constructors accept, and what writes make of them.  A
refused write leaves a torus as it is. -/
inductive Built (sizes : List Nat) : Torus C → Prop
  | filled
      {fill : C} {t : Torus C}
      (h : Torus.filled sizes fill = .ok t) :
      Built sizes t
  | ofCells
      {cells : Array C} {t : Torus C}
      (h : Torus.ofCells sizes cells = .ok t) :
      Built sizes t
  | write
      {t t' : Torus C} {c : Coord} {cell : C}
      (ht : Built sizes t)
      (h : t.write c cell = .ok t') :
      Built sizes t'

section Construction

variable {sizes : List Nat} {t : Torus C}

theorem Built.sizes_eq
    (h : Built sizes t) :
    t.extent.sizes = sizes := by
  induction h with
  | filled h =>
      unfold Torus.filled at h
      cases hextent : Extent.ofSizes sizes with
      | error fault =>
          rw [hextent] at h
          contradiction
      | ok extent =>
          rw [hextent] at h
          rw [← Except.ok.inj h]
          exact sizes_of_ofSizes hextent
  | @ofCells cells t h =>
      unfold Torus.ofCells at h
      cases hextent : Extent.ofSizes sizes with
      | error fault =>
          rw [hextent] at h
          contradiction
      | ok extent =>
          rw [hextent] at h
          change (if h : cells.size = extent.count then _ else _) = _ at h
          split at h
          · rw [← Except.ok.inj h]
            exact sizes_of_ofSizes hextent
          · contradiction
  | write _ h ih =>
      rw [write_extent h, ih]

end Construction

/-- Row-major addressing is a bijection.  In a torus of given sizes, however it was built and
whatever was written since, the array has as many cells as the product of the sizes.  A coordinate
has an index exactly if it has the right arity and each component lies in its ring.  Its index is
computed within 64 bits and lies in the array; no two coordinates share an index, and every place of
the array is one.  Otherwise the fault is about the arity, or it names the first component outside
its ring. -/
theorem indexOf_bijective
    {sizes : List Nat} {t : Torus C}
    (h : Built sizes t) :
    t.cells.size = sizes.prod ∧
    (∀ c, (∃ i, t.indexOf c = .ok i) ↔ List.Forall₂ InRing sizes c.components) ∧
    (∀ c i, t.indexOf c = .ok i →
      (runningIndices sizes c).getLast? = some i ∧
      (∀ v ∈ runningIndices sizes c, v < 2 ^ 64) ∧
      i < t.cells.size) ∧
    (∀ c d i, t.indexOf c = .ok i → t.indexOf d = .ok i → c = d) ∧
    (∀ i, i < t.cells.size → ∃ c, t.indexOf c = .ok i) ∧
    (∀ c, c.dims ≠ sizes.length →
      t.indexOf c = .error (.dimensionMismatch sizes.length c.dims)) ∧
    (∀ c, c.dims = sizes.length → ∀ fault,
      t.indexOf c = .error fault ↔
        ∃ axis x size,
          FirstOutside sizes c.components axis x size ∧
          fault = .indexOutOfRange axis x size) := by
  obtain rfl := h.sizes_eq
  refine ⟨?_, fun c => locate_ok_iff, ?_, fun c d i => locate_injective, ?_, ?_, ?_⟩
  · rw [t.size_cells, Extent.count, cellCount_eq_prod]
  · intro c i hi
    have hlt := indexOf_lt hi
    have hfrom : locateFrom 0 0 t.extent.sizes c.components = .ok i := by
      unfold indexOf locate at hi
      split at hi
      · exact hi
      · contradiction
    refine ⟨?_, ?_, hlt⟩
    · rw [runningIndices, List.getLast?_scanl, locateFrom_eq_foldl hfrom]
    · intro v hv
      calc
        v ≤ i := le_of_mem_scanl hfrom hv
        _ < t.cells.size := hlt
        _ = t.extent.count := t.size_cells
        _ < 2 ^ 64 := t.extent.cellCount_lt
  · intro i hi
    rw [t.size_cells] at hi
    exact ⟨_, locate_digits hi⟩
  · intro c hdims
    exact if_neg hdims
  · intro c hdims fault
    have hlocate : t.indexOf c = locateFrom 0 0 t.extent.sizes c.components := if_pos hdims
    rw [hlocate, locateFrom_eq_error_iff]
    simp only [Nat.zero_add]

/-- A block of two by three by four cells one of which was written, and a torus with more cells than
a signed component can count. -/
theorem indexOf_bijective_long :
    (∃ t : Torus UInt8,
      Built [2, 3, 4] t ∧
      t.cells.size = 24 ∧
      t.indexOf ⟨[1, 0, 2]⟩ = .ok 14 ∧
      (∀ c, t.indexOf c = .ok 14 → c = ⟨[1, 0, 2]⟩) ∧
      t.cells[14]? = some 64 ∧
      t.indexOf ⟨[0, 3, 9]⟩ = .error (.indexOutOfRange 1 3 3) ∧
      t.indexOf (.planar 0 0) = .error (.dimensionMismatch 3 2)) ∧
    ∃ t : Torus UInt8,
      Built [0x4000000000000000, 3] t ∧
      t.cells.size = 0xC000000000000000 ∧
      t.indexOf (.planar 0x3FFFFFFFFFFFFFFF 2) = .ok 0xBFFFFFFFFFFFFFFF ∧
      (∀ c, t.indexOf c = .ok 0xBFFFFFFFFFFFFFFF → c = .planar 0x3FFFFFFFFFFFFFFF 2) ∧
      t.indexOf (.planar 0 3) = .error (.indexOutOfRange 1 3 3) := by
  constructor
  · obtain ⟨b, hb⟩ : ∃ b, Torus.filled [2, 3, 4] (32 : UInt8) = .ok b := ⟨_, rfl⟩
    obtain ⟨t, ht, hcell⟩ :
        ∃ t, b.write ⟨[1, 0, 2]⟩ 64 = .ok t ∧ t.cells[14]? = some 64 := by
      obtain rfl := Except.ok.inj hb
      exact ⟨_, rfl, rfl⟩
    have hbuilt : Built [2, 3, 4] t := .write (.filled hb) ht
    obtain ⟨hsize, haddressed, hindex, hinjective, _, hmismatch, hrefused⟩ :=
      indexOf_bijective hbuilt
    obtain ⟨i, hi⟩ :=
      (haddressed ⟨[1, 0, 2]⟩).2
        (.cons ⟨by decide, by decide⟩
          (.cons ⟨by decide, by decide⟩ (.cons ⟨by decide, by decide⟩ .nil)))
    obtain rfl : 14 = i := Option.some.inj (hindex _ i hi).1
    have hfirst : FirstOutside [2, 3, 4] [0, 3, 9] 1 3 3 := by
      refine (firstOutside_succ ⟨by decide, by decide⟩).2 (firstOutside_zero ?_)
      rintro ⟨_, hlt⟩
      contradiction
    exact ⟨t, hbuilt, hsize, hi, fun c hc => hinjective c _ _ hc hi, hcell,
      (hrefused ⟨[0, 3, 9]⟩ rfl _).2 ⟨1, 3, 3, hfirst, rfl⟩, hmismatch _ (by decide)⟩
  · obtain ⟨t, ht⟩ : ∃ t, Torus.filled [0x4000000000000000, 3] (32 : UInt8) = .ok t := ⟨_, rfl⟩
    have hbuilt : Built [0x4000000000000000, 3] t := .filled ht
    obtain ⟨hsize, haddressed, hindex, hinjective, _, _, hrefused⟩ := indexOf_bijective hbuilt
    obtain ⟨i, hi⟩ :=
      (haddressed (.planar 0x3FFFFFFFFFFFFFFF 2)).2
        (.cons ⟨by decide, by decide⟩ (.cons ⟨by decide, by decide⟩ .nil))
    obtain rfl : 0xBFFFFFFFFFFFFFFF = i := Option.some.inj (hindex _ i hi).1
    have hfirst :
        FirstOutside [0x4000000000000000, 3] (Coord.planar 0 3).components 1 3 3 := by
      refine (firstOutside_succ ⟨by decide, by decide⟩).2 (firstOutside_zero ?_)
      rintro ⟨_, hlt⟩
      contradiction
    exact ⟨t, hbuilt, hsize, hi, fun c hc => hinjective c _ _ hc hi,
      (hrefused (.planar 0 3) rfl _).2 ⟨1, 3, 3, hfirst, rfl⟩⟩

end Torus

end FungeTrace
