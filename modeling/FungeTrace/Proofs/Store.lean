import FungeTrace.Engine.Machine
import FungeTrace.Proofs.Plane

/-!
# Lawful stores

A space is a store of cells by coordinate, however it keeps them: in an array, in a map with a blank
cell, or in layers over another space.  Reading and writing obey one contract.

* A coordinate can be written if and only if it can be read, and both are refused for one reason:
  `Space.write_eq_error_iff`.
* A written cell reads back, and every other coordinate reads as before: `Space.write_stored`.  For
  a torus this rests on the row-major index, which tells coordinates apart.
* A write changes nothing but cells.  What belongs to a space, which steps it allows and where they
  lead is settled by the shape of its ground: `Space.parallel_of_base`.
-/

namespace FungeTrace

variable {C : Type}

/-- What storing a cell at `c` does to reading: the cell reads back, and every other coordinate
reads as before. -/
structure Stored
    (c : Coord) (cell : C)
    (before after : Coord → Except Fault C) : Prop where
  self : after c = .ok cell
  other : ∀ d, d ≠ c → after d = before d

section Results

variable {α β : Type} {f : α → β} {x : Except Fault α}

theorem of_map_ok
    {b : β}
    (h : f <$> x = .ok b) :
    ∃ a, x = .ok a ∧ f a = b := by
  cases x with
  | ok a =>
      exact ⟨a, rfl, Except.ok.inj h⟩
  | error fault =>
      contradiction

theorem map_eq_error_iff
    {fault : Fault} :
    f <$> x = .error fault ↔ x = .error fault := by
  cases x with
  | ok a =>
      constructor <;> intro h <;> contradiction
  | error fault' =>
      constructor
      · intro h
        rw [Except.error.inj h]
      · intro h
        rw [h]
        rfl

end Results

namespace Extent

/-- Two components in a ring and two indices of the rows before it are told apart by one number. -/
theorem digit_injective
    {size index index' : Nat} {x y : Int64}
    (hx : InRing size x)
    (hy : InRing size y)
    (h : index * size + x.toInt.toNat = index' * size + y.toInt.toNat) :
    index = index' ∧ x = y := by
  obtain ⟨hx₀, hxs⟩ := hx
  obtain ⟨hy₀, hys⟩ := hy
  have hpos : 0 < size := by omega
  have hrow : ∀ row digit : Nat, digit < size → (row * size + digit) / size = row := by
    intro row digit hdigit
    rw [Nat.mul_comm, Nat.mul_add_div hpos, Nat.div_eq_of_lt hdigit, Nat.add_zero]
  have hindex : index = index' := by
    rw [← hrow index x.toInt.toNat (by omega), h, hrow index' y.toInt.toNat (by omega)]
  subst hindex
  refine ⟨rfl, Int64.toInt_inj.1 ?_⟩
  omega

theorem locateFrom_injective
    {sizes : List Nat} {xs ys : List Int64} {axis axis' index index' i : Nat}
    (hxs : xs.length = sizes.length)
    (hys : ys.length = sizes.length)
    (hx : locateFrom axis index sizes xs = .ok i)
    (hy : locateFrom axis' index' sizes ys = .ok i) :
    index = index' ∧ xs = ys := by
  -- The index of the rows so far is an argument of the recursion: it is compared on the last axis,
  -- and from there back each axis gives up its digit.
  induction sizes generalizing xs ys axis axis' index index' with
  | nil =>
      obtain rfl := List.length_eq_zero_iff.1 hxs
      obtain rfl := List.length_eq_zero_iff.1 hys
      simp only [locateFrom, Except.ok.injEq] at hx hy
      exact ⟨hx.trans hy.symm, rfl⟩
  | cons size sizes ih =>
      cases xs with
      | nil =>
          simp at hxs
      | cons x xs =>
          cases ys with
          | nil =>
              simp at hys
          | cons y ys =>
              simp only [locateFrom] at hx hy
              split at hx
              · rename_i hxr
                split at hy
                · rename_i hyr
                  obtain ⟨hsum, rfl⟩ := ih (by simpa using hxs) (by simpa using hys) hx hy
                  obtain ⟨rfl, rfl⟩ := digit_injective hxr hyr hsum
                  exact ⟨rfl, rfl⟩
                · contradiction
              · contradiction

theorem eq_of_sizes
    {e e' : Extent}
    (h : e'.sizes = e.sizes) :
    e' = e := by
  cases e
  cases e'
  cases h
  rfl

/-- No two coordinates share a cell. -/
theorem locate_injective
    {e : Extent} {c d : Coord} {i : Nat}
    (hc : e.locate c = .ok i)
    (hd : e.locate d = .ok i) :
    c = d := by
  unfold locate at hc hd
  split at hc
  · rename_i hcdims
    split at hd
    · rename_i hddims
      have hcomponents := (locateFrom_injective hcdims hddims hc hd).2
      cases c
      cases d
      exact congrArg Coord.mk hcomponents
    · contradiction
  · contradiction

end Extent

namespace Torus

variable {t t' : Torus C} {c : Coord} {cell : C}

theorem read_eq_ok_iff :
    t.read c = .ok cell ↔ ∃ i, t.indexOf c = .ok i ∧ t.cells[i]? = some cell := by
  unfold read
  split
  · rename_i i hi
    have hlt := indexOf_lt hi
    simp [hi, hlt]
  · rename_i fault hfault
    simp [hfault]

theorem read_eq_error_iff
    {fault : Fault} :
    t.read c = .error fault ↔ t.indexOf c = .error fault := by
  refine ⟨read_error, ?_⟩
  intro h
  unfold read
  split
  · rename_i i hi
    rw [h] at hi
    contradiction
  · rename_i fault' hfault
    rw [Except.error.inj (hfault.symm.trans h)]

theorem write_eq_error_iff
    {fault : Fault} :
    t.write c cell = .error fault ↔ t.read c = .error fault := by
  rw [read_eq_error_iff]
  refine ⟨write_error, ?_⟩
  intro h
  simp [write, h]

/-- A write keeps the sizes and replaces one element of the array. -/
theorem write_ok
    (h : t.write c cell = .ok t') :
    ∃ i,
      t.indexOf c = .ok i ∧
      t'.extent = t.extent ∧
      t'.cells = t.cells.setIfInBounds i cell := by
  unfold write at h
  split at h
  · rename_i i hi
    obtain rfl := Except.ok.inj h
    exact ⟨i, hi, rfl, rfl⟩
  · contradiction

theorem write_stored
    (h : t.write c cell = .ok t') :
    Stored c cell t.read t'.read := by
  obtain ⟨i, hi, hextent, hcells⟩ := write_ok h
  have hindex : ∀ d, t'.indexOf d = t.indexOf d := by
    intro d
    simp only [indexOf, hextent]
  constructor
  · refine read_eq_ok_iff.2 ⟨i, (hindex c).trans hi, ?_⟩
    simp [hcells, indexOf_lt hi]
  · intro d hd
    cases hj : t.indexOf d with
    | error fault =>
        rw [read_eq_error_iff.2 hj]
        exact read_eq_error_iff.2 ((hindex d).trans hj)
    | ok j =>
        have hij : i ≠ j := by
          rintro rfl
          exact hd (Extent.locate_injective hj hi)
        obtain ⟨value, hvalue⟩ := read_ok hj
        obtain ⟨j', hj', hget⟩ := read_eq_ok_iff.1 hvalue
        obtain rfl := Except.ok.inj (hj.symm.trans hj')
        rw [hvalue]
        refine read_eq_ok_iff.2 ⟨j, (hindex d).trans hj, ?_⟩
        rw [hcells, Array.getElem?_setIfInBounds_ne hij]
        exact hget

end Torus

namespace Sparse

variable {s s' : Sparse C} {c : Coord} {cell : C}

theorem read_eq
    (s : Sparse C) (c : Coord) :
    s.read c = (fun _ => s.cells[c]?.getD s.blank) <$> s.check c := by
  unfold read
  cases s.check c <;> rfl

theorem write_eq
    (s : Sparse C) (c : Coord) (cell : C) :
    s.write c cell = (fun _ => { s with cells := s.cells.insert c cell }) <$> s.check c := by
  unfold write
  cases s.check c <;> rfl

theorem write_eq_error_iff
    {fault : Fault} :
    s.write c cell = .error fault ↔ s.read c = .error fault := by
  rw [read_eq, write_eq, map_eq_error_iff, map_eq_error_iff]

theorem write_stored
    (h : s.write c cell = .ok s') :
    Stored c cell s.read s'.read := by
  rw [write_eq] at h
  obtain ⟨_, hcheck, rfl⟩ := of_map_ok h
  have hsame :
      ∀ d, Sparse.check { s with cells := s.cells.insert c cell } d = s.check d :=
    fun _ => rfl
  constructor
  · rw [read_eq, hsame, hcheck]
    simp
  · intro d hd
    rw [read_eq, read_eq, hsame]
    simp [Std.ExtTreeMap.getElem?_insert, Ne.symm hd]

end Sparse

namespace Ground

variable {g g' : Ground C} {c : Coord} {cell : C}

theorem write_eq_error_iff
    {fault : Fault} :
    g.write c cell = .error fault ↔ g.read c = .error fault := by
  cases g with
  | torus t =>
      exact map_eq_error_iff.trans Torus.write_eq_error_iff
  | sparse s =>
      exact map_eq_error_iff.trans Sparse.write_eq_error_iff

theorem write_stored
    (h : g.write c cell = .ok g') :
    Stored c cell g.read g'.read := by
  cases g with
  | torus t =>
      obtain ⟨t', ht', rfl⟩ := of_map_ok h
      exact Torus.write_stored ht'
  | sparse s =>
      obtain ⟨s', hs', rfl⟩ := of_map_ok h
      exact Sparse.write_stored hs'

end Ground

namespace Space

variable {s s' : Space C} {c : Coord} {cell : C}

section Layers

variable {layers layers' : List (Layer C)}

/-- A new cell at a coordinate that a layer holds adds no coordinate to it. -/
theorem contains_insert_of_contains
    {layer : Layer C}
    (h : layer.contains c = true)
    (d : Coord) :
    (layer.insert c cell).contains d = layer.contains d := by
  by_cases hd : c = d
  · subst hd
    rw [h]
    simp
  · simp [Std.ExtTreeMap.contains_insert, hd]

theorem writeLayers_eq_none_iff :
    writeLayers c cell layers = none ↔ layers.findSome? (·[c]?) = none := by
  induction layers with
  | nil =>
      simp [writeLayers]
  | cons layer below ih =>
      cases hc : layer[c]? with
      | some value =>
          simp [writeLayers, Std.ExtTreeMap.contains_eq_isSome_getElem?, hc]
      | none =>
          simp [writeLayers, Std.ExtTreeMap.contains_eq_isSome_getElem?, hc, ih]

/-- A write to the layers is seen at its own coordinate only. -/
theorem writeLayers_stored
    (h : writeLayers c cell layers = some layers') :
    layers'.findSome? (·[c]?) = some cell ∧
      ∀ d, d ≠ c → layers'.findSome? (·[d]?) = layers.findSome? (·[d]?) := by
  induction layers generalizing layers' with
  | nil =>
      contradiction
  | cons layer below ih =>
      unfold writeLayers at h
      split at h
      · obtain rfl := Option.some.inj h
        constructor
        · simp
        · intro d hd
          simp [List.findSome?_cons, Std.ExtTreeMap.getElem?_insert, Ne.symm hd]
      · rename_i hc
        obtain ⟨below', hbelow, rfl⟩ := Option.map_eq_some_iff.1 h
        obtain ⟨hself, hother⟩ := ih hbelow
        have hnone : layer[c]? = none := by
          rw [Std.ExtTreeMap.contains_eq_isSome_getElem?] at hc
          simpa using hc
        constructor
        · simp [hnone, hself]
        · intro d hd
          simp only [List.findSome?_cons, hother d hd]

end Layers

/-- A space refuses to write what it refuses to read, for the same reason. -/
theorem write_eq_error_iff
    {fault : Fault} :
    s.write c cell = .error fault ↔ s.read c = .error fault := by
  induction s with
  | ground g =>
      exact map_eq_error_iff.trans Ground.write_eq_error_iff
  | overlay backing layers ih =>
      cases hwrite : writeLayers c cell layers with
      | none =>
          have hread := writeLayers_eq_none_iff.1 hwrite
          simp only [write, read, hwrite, hread]
          exact map_eq_error_iff.trans ih
      | some layers' =>
          have hread : layers.findSome? (·[c]?) ≠ none := by
            intro hnone
            rw [writeLayers_eq_none_iff.2 hnone] at hwrite
            contradiction
          obtain ⟨value, hvalue⟩ := Option.ne_none_iff_exists'.1 hread
          simp [write, read, hwrite, hvalue]

/-- A written cell reads back and every other coordinate reads as before. -/
theorem write_stored
    (h : s.write c cell = .ok s') :
    Stored c cell s.read s'.read := by
  induction s generalizing s' with
  | ground g =>
      obtain ⟨g', hg', rfl⟩ := of_map_ok h
      obtain ⟨hself, hother⟩ := Ground.write_stored hg'
      exact ⟨hself, hother⟩
  | overlay backing layers ih =>
      cases hwrite : writeLayers c cell layers with
      | some layers' =>
          obtain ⟨hself, hother⟩ := writeLayers_stored hwrite
          simp only [write, hwrite, Except.ok.injEq] at h
          subst h
          constructor
          · simp only [read, hself]
          · intro d hd
            simp only [read, hother d hd]
      | none =>
          simp only [write, hwrite] at h
          obtain ⟨backing', hbacking, rfl⟩ := of_map_ok h
          obtain ⟨hself, hother⟩ := ih hbacking
          have hread := writeLayers_eq_none_iff.1 hwrite
          constructor
          · simp only [read, hread, hself]
          · intro d hd
            simp only [read, hother d hd]

section Terrain

/-- Two spaces that differ in their cells alone, as far as coordinates and steps are concerned. -/
structure Parallel (s s' : Space C) : Prop where
  dims : s'.dims = s.dims
  contains : ∀ c, s'.contains c = s.contains c
  allows : ∀ d, s'.allows d = s.allows d
  move : ∀ c d, s'.move c d = s.move c d
  origin : s'.origin = s.origin
  heading : s'.heading = s.heading

/-- The shape of the ground settles all questions that are not about cells. -/
theorem parallel_of_base
    (h : s'.base.shape = s.base.shape) :
    Parallel s s' := by
  suffices hground :
      s'.base.dims = s.base.dims ∧
      s'.base.contains = s.base.contains ∧
      s'.base.allows = s.base.allows ∧
      s'.base.move = s.base.move ∧
      s'.base.origin = s.base.origin ∧
      s'.base.heading = s.base.heading by
    obtain ⟨hdims, hcontains, hallows, hmove, horigin, hheading⟩ := hground
    exact {
      dims := hdims
      contains := fun c => congrFun hcontains c
      allows := fun d => congrFun hallows d
      move := fun c d => congrFun (congrFun hmove c) d
      origin := horigin
      heading := hheading }
  generalize s.base = g at h ⊢
  generalize s'.base = g' at h ⊢
  cases g with
  | torus t =>
      cases g' with
      | torus t' =>
          simp only [Ground.shape, Shape.toroidal.injEq] at h
          obtain ⟨extent, cells, size_cells⟩ := t
          obtain ⟨extent', cells', size_cells'⟩ := t'
          obtain rfl := Extent.eq_of_sizes h
          exact ⟨rfl, rfl, rfl, rfl, rfl, rfl⟩
      | sparse p' =>
          contradiction
  | sparse p =>
      cases g' with
      | torus t' =>
          contradiction
      | sparse p' =>
          obtain ⟨dims, precision, blank, cells, dims_pos⟩ := p
          obtain ⟨dims', precision', blank', cells', dims_pos'⟩ := p'
          simp only [Ground.shape, Shape.sparse.injEq] at h
          obtain ⟨rfl, rfl⟩ := h
          exact ⟨rfl, rfl, rfl, rfl, rfl, rfl⟩

theorem parallel_of_shape
    (h : s'.shape = s.shape) :
    Parallel s s' := by
  apply parallel_of_base
  rw [← shape_base, ← shape_base, h]

end Terrain

/-- Every space is a lawful store.  A coordinate can be written if and only if it can be read; if it
cannot, both fail with the same fault and a machine that tried to write is left as it was.  After a
write the cell reads back, all other coordinates read as before, and every question that is not
about cells is answered as before.  The coordinates of the space can all be read. -/
theorem write_lawful
    (s : Space C) (c : Coord) (cell : C) :
    ((∃ s', s.write c cell = .ok s') ↔ ∃ value, s.read c = .ok value) ∧
    (∀ fault, s.write c cell = .error fault ↔ s.read c = .error fault) ∧
    (∀ fault, s.write c cell = .error fault →
      ∀ m : Machine C, m.space = s → Machine.writeCell c cell m = .error fault m) ∧
    (∀ s', s.write c cell = .ok s' →
      s'.read c = .ok cell ∧
      (∀ d, d ≠ c → s'.read d = s.read d) ∧
      s'.shape = s.shape ∧
      Parallel s s') ∧
    (s.contains c = true → ∃ value, s.read c = .ok value) := by
  refine ⟨?_, fun fault => write_eq_error_iff, ?_, ?_, read_of_contains⟩
  · have hfault : ∀ fault, s.write c cell = .error fault ↔ s.read c = .error fault :=
      fun fault => write_eq_error_iff
    cases hwrite : s.write c cell with
    | ok s' =>
        cases hread : s.read c with
        | ok value =>
            simp
        | error fault =>
            rw [(hfault fault).2 hread] at hwrite
            contradiction
    | error fault =>
        simp [(hfault fault).1 hwrite]
  · rintro fault hwrite m rfl
    simp [Machine.writeCell, hwrite]
  · intro s' hwrite
    obtain ⟨hself, hother⟩ := write_stored hwrite
    have hshape := write_shape hwrite
    exact ⟨hself, hother, hshape, parallel_of_shape hshape⟩

/-- A layer covers the second cell of a ring of two; there is no third. -/
theorem write_lawful_overlay :
    (∃ s',
      (Space.overlay (.ground (.torus Torus.shortRing)) [.ofList [(.planar 1 0, 103)]]).write
        (.planar 0 0) 7 = .ok s' ∧
      s'.read (.planar 0 0) = .ok 7 ∧
      s'.read (.planar 1 0) = .ok 103) ∧
    (Space.overlay (.ground (.torus Torus.shortRing)) [.ofList [(.planar 1 0, 103)]]).write
      (.planar 2 0) 7 = .error (.indexOutOfRange 0 2 2) := by
  obtain ⟨hiff, _, _, hstored, hreadable⟩ :=
    write_lawful (.overlay (.ground (.torus Torus.shortRing)) [.ofList [(.planar 1 0, 103)]])
      (.planar 0 0) 7
  obtain ⟨s', hwrite⟩ := hiff.2 (hreadable rfl)
  obtain ⟨hself, hother, _⟩ := hstored s' hwrite
  refine ⟨⟨s', hwrite, hself, ?_⟩, ?_⟩
  · rw [hother _ (by decide)]
    simp [read, Layer.ofList]
  · refine ((write_lawful _ (.planar 2 0) 7).2.1 _).2 ?_
    have hne : Coord.planar 1 0 ≠ Coord.planar 2 0 := by decide
    have hlayers :
        [(Layer.ofList [(.planar 1 0, 103)] : Layer UInt8)].findSome? (·[Coord.planar 2 0]?) =
          none := by
      simp [Layer.ofList, hne]
    rw [read, hlayers]
    rfl

end Space

end FungeTrace
