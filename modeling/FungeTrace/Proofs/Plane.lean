import FungeTrace.Space.Layered
import Mathlib.Data.List.Forall2

/-!
# Coordinates inside a space

A coordinate belongs to a torus if each component lies in its ring.  Such coordinates can be read,
also through overlays, and every step that a torus allows leads from one of them to another.  A
write changes cells only: what belongs to a space, which steps it allows and where they lead stay as
they are.

A space has a plane if it stands on a torus with two axes.  There an address of two components is
refused for one reason only, that a component lies outside its ring.
-/

namespace FungeTrace

variable {C : Type}

namespace Extent

/-- A component that lies in a ring. -/
def InRing (size : Nat) (x : Int64) : Prop :=
  0 ≤ x.toInt ∧ x.toInt < size

theorem sizes_of_ofSizes
    {sizes : List Nat} {e : Extent}
    (h : ofSizes sizes = .ok e) :
    e.sizes = sizes := by
  unfold ofSizes at h
  split at h
  · contradiction
  · rw [← Except.ok.inj h]

theorem locateFrom_of_inRing
    {sizes : List Nat} {xs : List Int64}
    (h : List.Forall₂ InRing sizes xs)
    (axis index : Nat) :
    ∃ i, locateFrom axis index sizes xs = .ok i := by
  induction h generalizing axis index with
  | nil =>
      exact ⟨index, rfl⟩
  | @cons size x _ _ hx _ ih =>
      have hx' : 0 ≤ x.toInt ∧ x.toInt < size := hx
      unfold locateFrom
      rw [if_pos hx']
      exact ih _ _

theorem inRing_of_locateFrom
    {sizes : List Nat} {xs : List Int64} {axis index i : Nat}
    (hlen : xs.length = sizes.length)
    (h : locateFrom axis index sizes xs = .ok i) :
    List.Forall₂ InRing sizes xs := by
  induction sizes generalizing xs axis index with
  | nil =>
      cases xs with
      | nil =>
          exact .nil
      | cons x xs =>
          simp at hlen
  | cons size sizes ih =>
      cases xs with
      | nil =>
          simp at hlen
      | cons x xs =>
          unfold locateFrom at h
          split at h
          · rename_i hx
            exact .cons hx (ih (by simpa using hlen) h)
          · contradiction

theorem locateFrom_error
    {sizes : List Nat} {xs : List Int64} {axis index : Nat} {fault : Fault}
    (h : locateFrom axis index sizes xs = .error fault) :
    ∃ axis' x size, fault = .indexOutOfRange axis' x size := by
  induction sizes generalizing xs axis index with
  | nil =>
      cases xs <;> contradiction
  | cons size sizes ih =>
      cases xs with
      | nil =>
          contradiction
      | cons x xs =>
          unfold locateFrom at h
          split at h
          · exact ih h
          · simp only [Except.error.injEq] at h
            exact ⟨axis, x, size, h.symm⟩

/-- The coordinates that address a cell. -/
theorem locate_ok_iff
    {e : Extent} {c : Coord} :
    (∃ i, e.locate c = .ok i) ↔ List.Forall₂ InRing e.sizes c.components := by
  unfold locate
  constructor
  · rintro ⟨i, h⟩
    split at h
    · rename_i hdims
      exact inRing_of_locateFrom hdims h
    · contradiction
  · intro h
    have hdims : c.dims = e.dims := h.length_eq.symm
    rw [if_pos hdims]
    exact locateFrom_of_inRing h 0 0

theorem locate_error_of_dims
    {e : Extent} {c : Coord} {fault : Fault}
    (hdims : c.dims = e.dims)
    (h : e.locate c = .error fault) :
    ∃ axis x size, fault = .indexOutOfRange axis x size := by
  unfold locate at h
  rw [if_pos hdims] at h
  exact locateFrom_error h

end Extent

namespace Torus

variable {t : Torus C} {c : Coord}

theorem dims_of_sizes
    {width height : Nat}
    (h : t.sizes = [width, height]) :
    t.dims = 2 := by
  change t.sizes.length = 2
  rw [h]
  rfl

theorem contains_iff :
    t.contains c = true ↔ List.Forall₂ Extent.InRing t.sizes c.components := by
  have hlocate := Extent.locate_ok_iff (e := t.extent) (c := c)
  refine Iff.trans ?_ hlocate
  unfold contains indexOf
  cases t.extent.locate c with
  | ok i =>
      simp
  | error fault =>
      simp

theorem read_ok
    {i : Nat}
    (h : t.indexOf c = .ok i) :
    ∃ cell, t.read c = .ok cell := by
  unfold read
  split
  · exact ⟨_, rfl⟩
  · rename_i fault hfault
    rw [h] at hfault
    contradiction

theorem read_error
    {fault : Fault}
    (h : t.read c = .error fault) :
    t.indexOf c = .error fault := by
  unfold read at h
  split at h
  · contradiction
  · rename_i fault' hfault
    simp only [Except.error.injEq] at h
    rw [hfault, h]

theorem read_of_contains
    (h : t.contains c = true) :
    ∃ cell, t.read c = .ok cell := by
  obtain ⟨i, hi⟩ := Extent.locate_ok_iff.2 (contains_iff.1 h)
  exact read_ok hi

theorem write_error
    {cell : C} {fault : Fault}
    (h : t.write c cell = .error fault) :
    t.indexOf c = .error fault := by
  unfold write at h
  split at h
  · contradiction
  · rename_i fault' hfault
    simp only [Except.error.injEq] at h
    rw [hfault, h]

theorem write_extent
    {cell : C} {t' : Torus C}
    (h : t.write c cell = .ok t') :
    t'.extent = t.extent := by
  unfold write at h
  split at h
  · simp only [Except.ok.injEq] at h
    rw [← h]
  · contradiction

theorem inRing_reduced
    {size : Nat}
    (hsize : 0 < size ∧ size < 0x8000000000000000)
    (x : Int64) :
    Extent.InRing size (Int64.ofInt (x.toInt % size)) := by
  have hnonneg : 0 ≤ x.toInt % (size : Int) :=
    Int.emod_nonneg _ (by omega)
  have hlt : x.toInt % (size : Int) < size :=
    Int.emod_lt_of_pos _ (by omega)
  have hvalue : (Int64.ofInt (x.toInt % size)).toInt = x.toInt % size :=
    Int64.toInt_ofInt_of_le (by omega) (by omega)
  unfold Extent.InRing
  rw [hvalue]
  exact ⟨hnonneg, hlt⟩

theorem inRing_zipWith
    {sizes : List Nat} {xs : List Int64}
    (hlen : xs.length = sizes.length)
    (hsizes : ∀ n ∈ sizes, 0 < n ∧ n < 0x8000000000000000) :
    List.Forall₂ Extent.InRing sizes
      (List.zipWith (fun (x : Int64) (size : Nat) => Int64.ofInt (x.toInt % size)) xs sizes) := by
  induction sizes generalizing xs with
  | nil =>
      simp
  | cons size sizes ih =>
      cases xs with
      | nil =>
          simp at hlen
      | cons x xs =>
          rw [List.zipWith_cons_cons]
          refine .cons (inRing_reduced (hsizes size List.mem_cons_self) x) ?_
          refine ih (by simpa using hlen) ?_
          intro n hn
          exact hsizes n (List.mem_cons_of_mem size hn)

/-- An allowed step from a coordinate of the right arity leads to a cell. -/
theorem move_of_allows
    {d : Direction}
    (hallows : t.allows d = true)
    (hdims : c.dims = t.dims) :
    ∃ c', t.move c d = .ok c' ∧ t.contains c' = true := by
  unfold allows at hallows
  rw [Bool.and_eq_true, beq_iff_eq] at hallows
  obtain ⟨haxis, hd⟩ := hallows
  let next : Coord := ⟨c.components.mapIdx fun i x => x + d.component i⟩
  have hstep : d.step c = .ok next := by
    unfold Direction.step
    rw [if_pos (hdims.trans hd.symm)]
  have hnext : next.dims = t.dims := by
    change (c.components.mapIdx _).length = _
    rw [List.length_mapIdx]
    exact hdims
  have hnone : d.axis?.isNone = false := by
    simpa using haxis
  refine
    ⟨⟨List.zipWith (fun (x : Int64) (size : Nat) => Int64.ofInt (x.toInt % size))
      next.components t.sizes⟩, ?_, ?_⟩
  · unfold move
    simp only [hnone, hstep]
    change (if next.dims = t.dims then _ else _) = _
    rw [if_pos hnext]
    rfl
  · rw [contains_iff]
    exact inRing_zipWith hnext t.extent.bounds

/-- A ring of two cells: a digit and the command to halt. -/
def shortRing : Torus UInt8 where
  extent := {
    sizes := [2, 1]
    ne_nil := by decide
    bounds := by decide
    cellCount_lt := by decide }
  cells := #[49, 64]
  size_cells := rfl

end Torus

namespace Space

variable {s s' : Space C} {c : Coord}

theorem read_of_contains
    (h : s.contains c = true) :
    ∃ cell, s.read c = .ok cell := by
  induction s with
  | ground g =>
      cases g with
      | torus t =>
          exact Torus.read_of_contains h
      | sparse p =>
          change p.contains c = true at h
          unfold Sparse.contains at h
          cases hcheck : p.check c with
          | ok _ =>
              exact ⟨p.cells[c]?.getD p.blank, by
                simp [read, Ground.read, Sparse.read, hcheck, bind, Except.bind, pure, Except.pure]⟩
          | error fault =>
              rw [hcheck] at h
              contradiction
  | overlay backing layers ih =>
      unfold read
      cases layers.findSome? (·[c]?) with
      | some cell =>
          exact ⟨cell, rfl⟩
      | none =>
          exact ih h

theorem writeLayers_length
    {cell : C} {layers layers' : List (Layer C)}
    (h : writeLayers c cell layers = some layers') :
    layers'.length = layers.length := by
  induction layers generalizing layers' with
  | nil =>
      contradiction
  | cons layer below ih =>
      unfold writeLayers at h
      split at h
      · simp only [Option.some.injEq] at h
        rw [← h]
        rfl
      · obtain ⟨below', hbelow, rfl⟩ := Option.map_eq_some_iff.1 h
        simp [ih hbelow]

/-- A write changes cells and not the structure of a space. -/
theorem write_shape
    {cell : C}
    (h : s.write c cell = .ok s') :
    s'.shape = s.shape := by
  induction s generalizing s' with
  | ground g =>
      cases g with
      | torus t =>
          change (Space.ground <$> (Ground.torus <$> t.write c cell)) = .ok s' at h
          cases hwrite : t.write c cell with
          | error fault =>
              rw [hwrite] at h
              contradiction
          | ok t' =>
              rw [hwrite] at h
              obtain rfl : Space.ground (.torus t') = s' := Except.ok.inj h
              simp [shape, Ground.shape, Torus.sizes, Torus.write_extent hwrite]
      | sparse p =>
          change (Space.ground <$> (Ground.sparse <$> p.write c cell)) = .ok s' at h
          unfold Sparse.write at h
          cases hcheck : p.check c with
          | error fault =>
              rw [hcheck] at h
              contradiction
          | ok _ =>
              rw [hcheck] at h
              obtain rfl := Except.ok.inj h
              rfl
  | overlay backing layers ih =>
      unfold write at h
      split at h
      · rename_i layers' hlayers
        obtain rfl := Except.ok.inj h
        simp [shape, writeLayers_length hlayers]
      · cases hwrite : backing.write c cell with
        | error fault =>
            rw [hwrite] at h
            contradiction
        | ok backing' =>
            rw [hwrite] at h
            obtain rfl : overlay backing' layers = s' := Except.ok.inj h
            simp [shape, ih hwrite]

section Planes

variable {width height : Nat}

theorem shape_base
    (s : Space C) :
    s.shape.base = s.base.shape := by
  induction s with
  | ground g =>
      cases g with
      | torus t =>
          rfl
      | sparse p =>
          rfl
  | overlay backing layers ih =>
      exact ih

/-- A space has a plane if and only if it stands on a torus with two axes. -/
theorem plane?_eq_some_iff :
    s.shape.plane? = some (width, height) ↔
      ∃ t, s.base = .torus t ∧ t.sizes = [width, height] := by
  unfold Shape.plane?
  rw [shape_base]
  constructor
  · intro h
    cases hbase : s.base with
    | torus t =>
        rw [hbase] at h
        refine ⟨t, rfl, ?_⟩
        split at h
        · rename_i hsizes
          simp only [Ground.shape, Shape.toroidal.injEq] at hsizes
          simp only [Option.some.injEq, Prod.mk.injEq] at h
          rw [hsizes, h.1, h.2]
        · contradiction
    | sparse p =>
        rw [hbase] at h
        contradiction
  · rintro ⟨t, hbase, hsizes⟩
    rw [hbase]
    simp [Ground.shape, hsizes]

theorem contains_iff_of_plane
    (hplane : s.shape.plane? = some (width, height)) :
    s.contains c = true ↔ List.Forall₂ Extent.InRing [width, height] c.components := by
  obtain ⟨t, hbase, hsizes⟩ := plane?_eq_some_iff.1 hplane
  unfold contains
  rw [hbase, ← hsizes]
  exact Torus.contains_iff

theorem plane_bounds
    (hplane : s.shape.plane? = some (width, height)) :
    (0 < width ∧ width < 0x8000000000000000) ∧
      (0 < height ∧ height < 0x8000000000000000) := by
  obtain ⟨t, _, hsizes⟩ := plane?_eq_some_iff.1 hplane
  have hbounds := t.extent.bounds
  change ∀ n ∈ t.sizes, _ at hbounds
  rw [hsizes] at hbounds
  exact ⟨hbounds width (by simp), hbounds height (by simp)⟩

/-- Column and row numbers within the plane address a cell. -/
theorem contains_planar
    {x y : Nat}
    (hplane : s.shape.plane? = some (width, height))
    (hx : x < width)
    (hy : y < height) :
    s.contains (.planar (Int64.ofNat x) (Int64.ofNat y)) = true := by
  obtain ⟨hwidth, hheight⟩ := plane_bounds hplane
  have hring :
      ∀ n size : Nat, n < size → size < 0x8000000000000000 →
        Extent.InRing size (Int64.ofNat n) := by
    intro n size hn hsize
    unfold Extent.InRing
    rw [Int64.toInt_ofNat_of_lt (by omega)]
    omega
  rw [contains_iff_of_plane hplane]
  exact .cons (hring x width hx hwidth.2) (.cons (hring y height hy hheight.2) .nil)

theorem contains_origin
    (hplane : s.shape.plane? = some (width, height)) :
    s.contains s.origin = true := by
  obtain ⟨hwidth, hheight⟩ := plane_bounds hplane
  obtain ⟨t, hbase, hsizes⟩ := plane?_eq_some_iff.1 hplane
  have horigin : s.origin = .planar (Int64.ofNat 0) (Int64.ofNat 0) := by
    unfold origin
    rw [hbase]
    change Coord.origin t.dims = _
    rw [Torus.dims_of_sizes hsizes]
    rfl
  rw [horigin]
  exact contains_planar hplane hwidth.1 hheight.1

theorem heading_of_plane
    (hplane : s.shape.plane? = some (width, height)) :
    s.heading = .east := by
  obtain ⟨t, hbase, hsizes⟩ := plane?_eq_some_iff.1 hplane
  unfold heading
  rw [hbase]
  change t.heading = .east
  simp only [Torus.heading, Torus.dims_of_sizes hsizes]
  rfl

/-- The axis steps of the plane lead from cell to cell. -/
theorem move_of_plane
    {d : Direction}
    (hplane : s.shape.plane? = some (width, height))
    (haxis : d.axis?.isSome = true)
    (hdims : d.dims = 2)
    (hc : s.contains c = true) :
    ∃ c', s.move c d = .ok c' ∧ s.contains c' = true := by
  obtain ⟨t, hbase, hsizes⟩ := plane?_eq_some_iff.1 hplane
  have htwo := Torus.dims_of_sizes hsizes
  have hallows : t.allows d = true := by
    simp [Torus.allows, haxis, hdims, htwo]
  have hcdims : c.dims = t.dims := by
    have hlength := ((contains_iff_of_plane hplane).1 hc).length_eq
    rw [htwo]
    exact hlength.symm
  have hmove := Torus.move_of_allows hallows hcdims
  unfold move contains
  rw [hbase]
  exact hmove

theorem locate_error_of_plane
    {t : Torus C} {x y : Int64} {fault : Fault}
    (hsizes : t.sizes = [width, height])
    (h : t.indexOf (.planar x y) = .error fault) :
    ∃ axis index size, fault = .indexOutOfRange axis index size := by
  refine Extent.locate_error_of_dims ?_ h
  exact (Torus.dims_of_sizes hsizes).symm

/-- An address of the plane can be refused only because a component is outside its ring. -/
theorem read_error_of_plane
    {x y : Int64} {fault : Fault}
    (hplane : s.shape.plane? = some (width, height))
    (h : s.read (.planar x y) = .error fault) :
    ∃ axis index size, fault = .indexOutOfRange axis index size := by
  obtain ⟨t, hbase, hsizes⟩ := plane?_eq_some_iff.1 hplane
  clear hplane
  induction s with
  | ground g =>
      obtain rfl : g = .torus t := hbase
      exact locate_error_of_plane hsizes (Torus.read_error h)
  | overlay backing layers ih =>
      unfold read at h
      split at h
      · contradiction
      · exact ih h hbase

theorem write_error_of_plane
    {x y : Int64} {cell : C} {fault : Fault}
    (hplane : s.shape.plane? = some (width, height))
    (h : s.write (.planar x y) cell = .error fault) :
    ∃ axis index size, fault = .indexOutOfRange axis index size := by
  obtain ⟨t, hbase, hsizes⟩ := plane?_eq_some_iff.1 hplane
  clear hplane
  induction s with
  | ground g =>
      obtain rfl : g = .torus t := hbase
      change (Space.ground <$> (Ground.torus <$> t.write _ cell)) = .error fault at h
      cases hwrite : t.write (.planar x y) cell with
      | ok t' =>
          rw [hwrite] at h
          contradiction
      | error fault' =>
          rw [hwrite] at h
          obtain rfl : fault' = fault := Except.error.inj h
          exact locate_error_of_plane hsizes (Torus.write_error hwrite)
  | overlay backing layers ih =>
      unfold write at h
      split at h
      · contradiction
      · cases hwrite : backing.write (.planar x y) cell with
        | ok backing' =>
            rw [hwrite] at h
            contradiction
        | error fault' =>
            rw [hwrite] at h
            obtain rfl : fault' = fault := Except.error.inj h
            exact ih hwrite hbase

end Planes

end Space

end FungeTrace
