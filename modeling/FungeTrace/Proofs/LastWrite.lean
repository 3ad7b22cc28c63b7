import FungeTrace.Proofs.Addressing
import Mathlib.Data.List.Dedup
import Mathlib.Data.List.Perm.Subperm

/-!
# The last write counts

A ground takes a row of writes one after another, and a refused one leaves it as it is.  In the end
it keeps at each coordinate the cell that was written there last, or what it kept before, and so it
has no memory of the order of the writes or of those that were written over.

* `Ground.held?` is what a ground keeps at a coordinate and `Ground.frame` what it has besides:
  the two make up the ground (`Ground.eq_of_held`).  For a torus this says that every place of the
  array is the place of a coordinate.
* A write replaces one entry and keeps the frame: `Ground.write_held`, `Ground.write_frame`.
* A row of writes therefore does what its last write to each coordinate does: `Ground.writeAll_view`.

A sparse space counts its entries, a blank cell that was written among them.
-/

namespace FungeTrace

variable {C : Type}

/-- The cell that the last of some writes puts at `c`, if one of them goes there. -/
def lastWritten (c : Coord) (writes : List (Coord × C)) : Option C :=
  (writes.filter (·.1 = c)).getLast?.map (·.2)

theorem lastWritten_cons
    (c : Coord) (write : Coord × C) (rest : List (Coord × C)) :
    lastWritten c (write :: rest) =
      (lastWritten c rest).or (if write.1 = c then some write.2 else none) := by
  unfold lastWritten
  by_cases hc : write.1 = c
  · rw [List.filter_cons_of_pos (by simpa using hc), List.getLast?_cons, if_pos hc]
    cases (rest.filter (·.1 = c)).getLast? <;> rfl
  · rw [List.filter_cons_of_neg (by simpa using hc), if_neg hc, Option.or_none]

theorem isSome_lastWritten
    {c : Coord} {writes : List (Coord × C)} :
    (lastWritten c writes).isSome = true ↔ c ∈ writes.map (·.1) := by
  induction writes with
  | nil =>
      simp [lastWritten]
  | cons write rest ih =>
      rw [lastWritten_cons, Option.isSome_or, Bool.or_eq_true, ih, List.map_cons, List.mem_cons]
      by_cases hc : write.1 = c
      · simp [hc]
      · simp [hc, Ne.symm hc]

theorem mem_of_lastWritten
    {c : Coord} {cell : C} {writes : List (Coord × C)}
    (h : lastWritten c writes = some cell) :
    (c, cell) ∈ writes := by
  obtain ⟨write, hlast, rfl⟩ := Option.map_eq_some_iff.1 h
  have hmem := List.mem_of_getLast? hlast
  rw [List.mem_filter] at hmem
  obtain ⟨hwrite, hc⟩ := hmem
  obtain rfl : write.1 = c := by simpa using hc
  exact hwrite

namespace Torus

/-- A torus is its sizes and what it reads at each coordinate. -/
theorem eq_of_read
    {t u : Torus C}
    (hextent : u.extent = t.extent)
    (hread : ∀ c, (u.read c).toOption = (t.read c).toOption) :
    u = t := by
  have hcells : u.cells = t.cells := by
    refine Array.ext_getElem? fun i => ?_
    by_cases hi : i < t.extent.count
    · -- The cell in place `i` is the one at the coordinate whose digits make up `i`.
      have hplace : ∀ v : Torus C, v.extent = t.extent →
          (v.read ⟨Extent.digits t.extent.sizes i⟩).toOption = v.cells[i]? := by
        intro v hv
        have hlocate : v.indexOf ⟨Extent.digits t.extent.sizes i⟩ = .ok i := by
          rw [indexOf, hv]
          exact Extent.locate_digits hi
        obtain ⟨cell, hcell⟩ := read_ok hlocate
        obtain ⟨j, hj, hget⟩ := read_eq_ok_iff.1 hcell
        obtain rfl := Except.ok.inj (hlocate.symm.trans hj)
        rw [hcell, hget]
        rfl
      rw [← hplace u hextent, ← hplace t rfl]
      exact hread _
    · have hout : ∀ v : Torus C, v.extent = t.extent → v.cells[i]? = none := by
        intro v hv
        rw [Array.getElem?_eq_none_iff, v.size_cells, hv]
        omega
      rw [hout u hextent, hout t rfl]
  cases t
  cases u
  cases hextent
  cases hcells
  rfl

end Torus

namespace Ground

section Views

/-- What a ground keeps at a coordinate: all cells of a torus, and the written ones of a sparse
space. -/
def held? : Ground C → Coord → Option C
  | torus t, c => (t.read c).toOption
  | sparse s, c => s.cells[c]?

/-- What a ground has besides its entries: the sizes of its rings, or its arity, its precision and
its blank cell. -/
def frame : Ground C → Extent ⊕ (Nat × Precision × C)
  | torus t => .inl t.extent
  | sparse s => .inr (s.dims, s.precision, s.blank)

/-- Equality as the two kinds of grounds decide it. -/
def same [BEq C] : Ground C → Ground C → Bool
  | torus t, torus u => t.same u
  | sparse s, sparse p => s.same p
  | _, _ => false

variable {g g' : Ground C} {c : Coord} {cell : C}

/-- Frame and entries make up a ground. -/
theorem eq_of_held
    (hframe : g'.frame = g.frame)
    (hheld : ∀ c, g'.held? c = g.held? c) :
    g' = g := by
  cases g with
  | torus t =>
      cases g' with
      | torus u =>
          rw [Torus.eq_of_read (Sum.inl.inj hframe) hheld]
      | sparse p =>
          contradiction
  | sparse s =>
      cases g' with
      | torus u =>
          contradiction
      | sparse p =>
          have hcells : p.cells = s.cells := Std.ExtTreeMap.ext_getElem? hheld
          obtain ⟨dims, precision, blank, cells, dims_pos⟩ := s
          obtain ⟨dims', precision', blank', cells', dims_pos'⟩ := p
          simp only [frame, Sum.inr.injEq, Prod.mk.injEq] at hframe
          obtain ⟨rfl, rfl, rfl⟩ := hframe
          cases hcells
          rfl

theorem same_self
    [BEq C] [ReflBEq C]
    (g : Ground C) :
    g.same g = true := by
  cases g with
  | torus t =>
      simp [same, Torus.same]
  | sparse s =>
      simp [same, Sparse.same]

theorem write_frame
    (h : g.write c cell = .ok g') :
    g'.frame = g.frame := by
  cases g with
  | torus t =>
      obtain ⟨t', ht', rfl⟩ := of_map_ok h
      exact congrArg Sum.inl (Torus.write_extent ht')
  | sparse s =>
      obtain ⟨s', hs', rfl⟩ := of_map_ok h
      rw [Sparse.write_eq] at hs'
      obtain ⟨_, _, rfl⟩ := of_map_ok hs'
      rfl

theorem write_held
    (h : g.write c cell = .ok g') :
    g'.held? c = some cell ∧ ∀ d, d ≠ c → g'.held? d = g.held? d := by
  cases g with
  | torus t =>
      obtain ⟨t', ht', rfl⟩ := of_map_ok h
      obtain ⟨hself, hother⟩ := Torus.write_stored ht'
      constructor
      · rw [held?, hself]
        rfl
      · intro d hd
        rw [held?, held?, hother d hd]
  | sparse s =>
      obtain ⟨s', hs', rfl⟩ := of_map_ok h
      rw [Sparse.write_eq] at hs'
      obtain ⟨_, _, rfl⟩ := of_map_ok hs'
      constructor
      · simp [held?]
      · intro d hd
        simp [held?, Std.ExtTreeMap.getElem?_insert, Ne.symm hd]

end Views

section Rows

/-- The ground after a row of writes.  A refused write leaves it as it is. -/
def writeAll (g : Ground C) : List (Coord × C) → Ground C
  | [] => g
  | write :: rest =>
    match g.write write.1 write.2 with
    | .ok g' => g'.writeAll rest
    | .error _ => g.writeAll rest

/-- The writes of a row that succeed. -/
def accepted (g : Ground C) : List (Coord × C) → List (Coord × C)
  | [] => []
  | write :: rest =>
    match g.write write.1 write.2 with
    | .ok g' => write :: g'.accepted rest
    | .error _ => g.accepted rest

theorem writeAll_frame
    (g : Ground C) (writes : List (Coord × C)) :
    (g.writeAll writes).frame = g.frame := by
  induction writes generalizing g with
  | nil =>
      rfl
  | cons write rest ih =>
      unfold writeAll
      split
      · rename_i g' hwrite
        rw [ih, write_frame hwrite]
      · exact ih g

/-- Whatever is looked at: if each write is seen at its own coordinate only, then a row of writes is
seen as its last write to each coordinate. -/
theorem writeAll_view
    {β : Type} {view : Ground C → Coord → β} {seen : C → β}
    (hview : ∀ {g g' : Ground C} {c : Coord} {cell : C}, g.write c cell = .ok g' →
      view g' c = seen cell ∧ ∀ d, d ≠ c → view g' d = view g d)
    (g : Ground C) (writes : List (Coord × C)) (c : Coord) :
    view (g.writeAll writes) c =
      match lastWritten c (g.accepted writes) with
      | some cell => seen cell
      | none => view g c := by
  induction writes generalizing g with
  | nil =>
      rfl
  | cons write rest ih =>
      unfold writeAll accepted
      cases hwrite : g.write write.1 write.2 with
      | error fault =>
          exact ih g
      | ok g' =>
          obtain ⟨hself, hother⟩ := hview hwrite
          dsimp only
          rw [ih g', lastWritten_cons]
          cases lastWritten c (g'.accepted rest) with
          | some cell =>
              rfl
          | none =>
              by_cases hc : write.1 = c
              · subst hc
                simpa using hself
              · simpa [hc] using hother c (Ne.symm hc)

theorem writeAll_held
    (g : Ground C) (writes : List (Coord × C)) (c : Coord) :
    (g.writeAll writes).held? c =
      match lastWritten c (g.accepted writes) with
      | some cell => some cell
      | none => g.held? c :=
  writeAll_view write_held g writes c

theorem writeAll_read
    (g : Ground C) (writes : List (Coord × C)) (c : Coord) :
    (g.writeAll writes).read c =
      match lastWritten c (g.accepted writes) with
      | some cell => .ok cell
      | none => g.read c := by
  have hview :
      ∀ {g g' : Ground C} {c : Coord} {cell : C}, g.write c cell = .ok g' →
        g'.read c = .ok cell ∧ ∀ d, d ≠ c → g'.read d = g.read d := by
    intro g g' c cell h
    obtain ⟨hself, hother⟩ := write_stored h
    exact ⟨hself, hother⟩
  exact writeAll_view hview g writes c

/-- Writes to coordinates that can be read all succeed. -/
theorem accepted_of_readable
    {g : Ground C} {writes : List (Coord × C)}
    (h : ∀ write ∈ writes, ∃ value, g.read write.1 = .ok value) :
    g.accepted writes = writes := by
  induction writes generalizing g with
  | nil =>
      rfl
  | cons write rest ih =>
      unfold accepted
      cases hwrite : g.write write.1 write.2 with
      | error fault =>
          obtain ⟨value, hvalue⟩ := h write List.mem_cons_self
          rw [write_eq_error_iff.1 hwrite] at hvalue
          contradiction
      | ok g' =>
          obtain ⟨hself, hother⟩ := write_stored hwrite
          have hrest : ∀ next ∈ rest, ∃ value, g'.read next.1 = .ok value := by
            intro next hnext
            by_cases hc : next.1 = write.1
            · exact ⟨write.2, by rw [hc, hself]⟩
            · rw [hother _ hc]
              exact h next (List.mem_cons_of_mem write hnext)
          exact congrArg (write :: ·) (ih hrest)

/-- Rows of writes that agree on the last write to each coordinate have the same effect. -/
theorem writeAll_congr
    {g : Ground C} {writes writes' : List (Coord × C)}
    (h : ∀ c, lastWritten c (g.accepted writes) = lastWritten c (g.accepted writes')) :
    g.writeAll writes = g.writeAll writes' := by
  apply eq_of_held
  · rw [writeAll_frame, writeAll_frame]
  · intro c
    rw [writeAll_held, writeAll_held, h c]

end Rows

/-- A sparse space in which nothing was written has as many entries as coordinates are written. -/
theorem size_writeAll_of_empty
    {dims : Nat} {precision : Precision} {blank : C} {s : Sparse C}
    (h : Sparse.empty dims precision blank = .ok s)
    (writes : List (Coord × C)) :
    ∃ s',
      (sparse s).writeAll writes = sparse s' ∧
      s'.size = (((sparse s).accepted writes).map (·.1)).dedup.length := by
  have hcells : s.cells = ∅ := by
    unfold Sparse.empty at h
    split at h
    · rw [← Except.ok.inj h]
    · contradiction
  have hframe := writeAll_frame (sparse s) writes
  have hheld := writeAll_held (sparse s) writes
  generalize (sparse s).writeAll writes = after at hframe hheld ⊢
  cases after with
  | torus t =>
      contradiction
  | sparse s' =>
      refine ⟨s', rfl, ?_⟩
      -- The entries stand at the coordinates of the accepted writes, each of them once.
      have hkeys : ∀ c, c ∈ s'.cells.keys ↔ c ∈ ((sparse s).accepted writes).map (·.1) := by
        intro c
        have hc : s'.cells[c]? = lastWritten c ((sparse s).accepted writes) := by
          have := hheld c
          simp only [held?, hcells] at this
          rw [this]
          cases lastWritten c ((sparse s).accepted writes) <;> simp
        rw [Std.ExtTreeMap.mem_keys, Std.ExtTreeMap.mem_iff_isSome_getElem?, hc, isSome_lastWritten]
      have hperm : s'.cells.keys.Perm (((sparse s).accepted writes).map (·.1)).dedup := by
        refine (List.perm_ext_iff_of_nodup Std.ExtTreeMap.nodup_keys (List.nodup_dedup _)).2 ?_
        intro c
        rw [hkeys, List.mem_dedup]
      rw [Sparse.size, ← Std.ExtTreeMap.length_keys, hperm.length_eq]

theorem read_of_empty
    {dims : Nat} {precision : Precision} {blank cell : C} {s : Sparse C} {c : Coord}
    (h : Sparse.empty dims precision blank = .ok s)
    (hread : s.read c = .ok cell) :
    cell = blank := by
  unfold Sparse.empty at h
  split at h
  · obtain rfl := Except.ok.inj h
    rw [Sparse.read_eq] at hread
    obtain ⟨_, _, rfl⟩ := of_map_ok hread
    simp
  · contradiction

/-- Only the last write to each coordinate counts.  Two rows of writes to one torus or sparse space,
refused ones among them, leave equal spaces if for each coordinate the last write that succeeds is
the same in both, or there is none in both.  Every coordinate then reads as it was written last, or
as at first.  In a space with nothing written all coordinates are blank at first, and the number of
its entries is that of the coordinates written, with whatever cell. -/
theorem writeAll_settled
    [BEq C] [ReflBEq C] :
    (∀ (g : Ground C) (writes writes' : List (Coord × C)),
      (∀ c, lastWritten c (g.accepted writes) = lastWritten c (g.accepted writes')) →
        g.writeAll writes = g.writeAll writes' ∧
        (g.writeAll writes).same (g.writeAll writes') = true) ∧
    (∀ (g : Ground C) (writes : List (Coord × C)) (c : Coord),
      (g.writeAll writes).read c =
        match lastWritten c (g.accepted writes) with
        | some cell => .ok cell
        | none => g.read c) ∧
    (∀ (dims : Nat) (precision : Precision) (blank : C) (s : Sparse C),
      Sparse.empty dims precision blank = .ok s →
        (∀ c cell, s.read c = .ok cell → cell = blank) ∧
        ∀ writes, ∃ s',
          (sparse s).writeAll writes = sparse s' ∧
          s'.size = (((sparse s).accepted writes).map (·.1)).dedup.length) := by
  refine ⟨?_, writeAll_read, ?_⟩
  · intro g writes writes' h
    have heq := writeAll_congr h
    refine ⟨heq, ?_⟩
    rw [heq]
    exact same_self _
  · intro dims precision blank s h
    exact ⟨fun c cell => read_of_empty h, size_writeAll_of_empty h⟩

/-- Two rows of writes to a ring of two cells.  The first tries a third cell, which there is not,
and writes one cell twice. -/
theorem writeAll_settled_shortRing :
    ((torus Torus.shortRing).accepted
        [(.planar 0 0, 7), (.planar 2 0, 1), (.planar 1 0, 9), (.planar 0 0, 8)] =
      [(.planar 0 0, 7), (.planar 1 0, 9), (.planar 0 0, 8)]) ∧
    (torus Torus.shortRing).writeAll
        [(.planar 0 0, 7), (.planar 2 0, 1), (.planar 1 0, 9), (.planar 0 0, 8)] =
      (torus Torus.shortRing).writeAll [(.planar 0 0, 8), (.planar 1 0, 9)] ∧
    (∃ s : Sparse UInt8,
      Sparse.empty 1 .i8 0 = .ok s ∧
      ∃ s', (sparse s).writeAll [(⟨[5]⟩, 0), (⟨[128]⟩, 1), (⟨[-128]⟩, 2), (⟨[5]⟩, 3)] = sparse s' ∧
        s'.size = 2) := by
  obtain ⟨hcongr, _, hempty⟩ := writeAll_settled (C := UInt8)
  have haccepted :
      (torus Torus.shortRing).accepted
          [(.planar 0 0, 7), (.planar 2 0, 1), (.planar 1 0, 9), (.planar 0 0, 8)] =
        [(.planar 0 0, 7), (.planar 1 0, 9), (.planar 0 0, 8)] := by
    rfl
  refine ⟨haccepted, ?_, ?_⟩
  · refine (hcongr _ _ _ ?_).1
    intro c
    have haccepted' :
        (torus Torus.shortRing).accepted [(.planar 0 0, 8), (.planar 1 0, 9)] =
          [(.planar 0 0, 8), (.planar 1 0, 9)] := by
      rfl
    have hne : Coord.planar 0 0 ≠ Coord.planar 1 0 := by decide
    rw [haccepted, haccepted']
    simp only [lastWritten_cons]
    by_cases h0 : Coord.planar 0 0 = c
    · subst h0
      simp [lastWritten, hne.symm]
    · by_cases h1 : Coord.planar 1 0 = c
      · simp [lastWritten, h0, h1]
      · simp [lastWritten, h0, h1]
  · obtain ⟨s, hs⟩ : ∃ s : Sparse UInt8, Sparse.empty 1 .i8 0 = .ok s := ⟨_, rfl⟩
    obtain ⟨s', hs', hsize⟩ := (hempty 1 .i8 0 s hs).2
      [(⟨[5]⟩, 0), (⟨[128]⟩, 1), (⟨[-128]⟩, 2), (⟨[5]⟩, 3)]
    refine ⟨s, hs, s', hs', ?_⟩
    rw [hsize]
    obtain rfl := Except.ok.inj hs
    rfl

end Ground

end FungeTrace
