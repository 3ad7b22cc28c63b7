import FungeTrace.Proofs.Movement
import Mathlib.Data.Int.ModEq

/-!
# Repeated movement

Along each axis a ground has room for a number of components, its period there, and no two of them
are congruent modulo the period: `Ground.eq_of_modEq`.  A step adds its displacement modulo the
period, so where a walk ends is a matter of congruences and not of the way it took.

* `Ground.Displaced` relates the ends of a walk by the sum of its displacements.  One step is
  displaced (`Ground.move_displaced`), sums add up (`Displaced.trans`), and congruent sums lead from
  one coordinate to one coordinate (`Displaced.unique`).
* `Space.moveTimes_displaced` says where any number of equal steps leads.  Steps commute because
  their sums do (`Space.move_comm`), and a number of steps that the periods divide leads back
  (`Space.moveTimes_lap`).

A torus counts steps only between its own cells: elsewhere a sum may wrap at 64 bits, and two to the
64 is no multiple of a ring.  A sparse space counts them from everywhere.

`Torus.moveTimes_rotates` and `Sparse.moveTimes_congruent` spell this out for rings and for widths.
-/

namespace FungeTrace

variable {C : Type}

namespace Direction

variable {c c' : Coord} {d : Direction}

theorem toInt_component_axis
    {dims index : Nat} {positive : Bool} {h : index < dims} :
    ((axis dims index positive h).component index).toInt =
      if positive then 1 else -1 := by
  cases positive <;> simp [component]

theorem step_ok
    (h : d.step c = .ok c') :
    c.dims = d.dims ∧ c'.dims = c.dims := by
  unfold step at h
  split at h
  · rename_i hdims
    refine ⟨hdims, ?_⟩
    rw [← Except.ok.inj h]
    exact List.length_mapIdx
  · contradiction

end Direction

theorem Torus.move_ok
    {t : Torus C} {c c' : Coord} {d : Direction}
    (h : t.move c d = .ok c') :
    d.dims = t.dims ∧ c'.dims = t.dims := by
  unfold Torus.move at h
  cases haxis : d.axis?.isNone with
  | true =>
      rw [haxis] at h
      contradiction
  | false =>
      cases hstep : d.step c with
      | error fault =>
          rw [haxis, hstep] at h
          contradiction
      | ok next =>
          rw [haxis, hstep] at h
          change (if next.dims = t.dims then _ else _) = _ at h
          split at h
          · rename_i hdims
            obtain ⟨hcd, hnext⟩ := Direction.step_ok hstep
            have hlength : next.components.length = t.sizes.length := hdims
            refine ⟨by rw [← hcd, ← hnext, hdims], ?_⟩
            rw [← Except.ok.inj h]
            change (List.zipWith _ next.components t.sizes).length = t.sizes.length
            rw [List.length_zipWith, hlength, Nat.min_self]
          · contradiction

theorem Sparse.move_ok
    {s : Sparse C} {c c' : Coord} {d : Direction}
    (h : s.move c d = .ok c') :
    c.dims = d.dims ∧ c'.dims = c.dims := by
  unfold Sparse.move at h
  cases hstep : d.step c with
  | error fault =>
      rw [hstep] at h
      contradiction
  | ok next =>
      rw [hstep] at h
      obtain ⟨hcd, hnext⟩ := Direction.step_ok hstep
      refine ⟨hcd, ?_⟩
      rw [← Except.ok.inj h, ← hnext]
      exact List.length_map _

theorem Precision.modulus_eq
    (p : Precision) :
    (p.modulus : Int) = 2 ^ p.bits := by
  cases p <;> rfl

namespace Ground

variable {g : Ground C} {c c' c'' : Coord} {d : Direction} {i : Nat} {x y : Int64}

/-- How many components a ground has room for along an axis. -/
def period : Ground C → Nat → Nat
  | torus t, i => t.sizes[i]?.getD 1
  | sparse s, _ => s.precision.modulus

/-- The coordinates from which a ground counts steps: on a torus those of its cells, in a sparse
space all of the right arity. -/
def Counts : Ground C → Coord → Prop
  | torus t, c => t.contains c = true
  | sparse s, c => c.dims = s.dims

theorem counts_of_contains
    (h : g.contains c = true) :
    g.Counts c := by
  cases g with
  | torus t =>
      exact h
  | sparse s =>
      exact (contains_iff.1 h).1

theorem Counts.dims
    (h : g.Counts c) :
    c.dims = g.dims := by
  cases g with
  | torus t =>
      exact ((contains_iff (g := .torus t)).1 h).1
  | sparse s =>
      exact h

/-- Components that a ground has room for are told apart by their residues. -/
theorem eq_of_modEq
    (hx : g.Fits i x)
    (hy : g.Fits i y)
    (h : x.toInt ≡ y.toInt [ZMOD g.period i]) :
    x = y := by
  apply Int64.toInt_inj.1
  cases g with
  | torus t =>
      obtain ⟨size, hsize, hxring⟩ := hx
      obtain ⟨size', hsize', hyring⟩ := hy
      obtain rfl := Option.some.inj (hsize.symm.trans hsize')
      have hperiod : (torus t).period i = size := by
        simp [period, hsize]
      rw [hperiod] at h
      calc
        x.toInt = x.toInt % size := (Int.emod_eq_of_lt hxring.1 hxring.2).symm
        _ = y.toInt % size := h
        _ = y.toInt := Int.emod_eq_of_lt hyring.1 hyring.2
  | sparse s =>
      have hreduced :
          ∀ z : Int64, s.precision.contains z = true →
            z.toInt.bmod s.precision.modulus = z.toInt := by
        intro z hz
        obtain ⟨hmodulus, _, _⟩ := s.precision.modulus_bounds
        obtain ⟨hlow, hhigh⟩ := Precision.contains_iff.1 hz
        exact Int.bmod_eq_of_le_mul_two (by omega) (by omega)
      have hmod : x.toInt % s.precision.modulus = y.toInt % s.precision.modulus := h
      calc
        x.toInt = (x.toInt % s.precision.modulus).bmod s.precision.modulus := by
          rw [Int.emod_bmod, hreduced x hx]
        _ = y.toInt := by
          rw [hmod, Int.emod_bmod, hreduced y hy]

/-- A step adds its displacement along every axis, modulo the period. -/
theorem reduce_modEq
    (hallows : g.allows d = true)
    (hc : g.Counts c)
    (hx : c.components[i]? = some x) :
    (g.reduce i (x + d.component i)).toInt ≡
      x.toInt + (d.component i).toInt [ZMOD g.period i] := by
  cases g with
  | torus t =>
      obtain ⟨_, hfits⟩ := (contains_iff (g := .torus t)).1 hc
      obtain ⟨size, hsize, hring⟩ := hfits i x hx
      have hbounds := t.extent.bounds size (List.mem_of_getElem? hsize)
      simp only [allows, Torus.allows, Bool.and_eq_true] at hallows
      simp only [reduce, period, hsize, Option.getD_some]
      rw [Extent.toInt_reduced hbounds,
        hring.toInt_add hbounds.2 (Direction.component_of_axis hallows.1 i)]
      exact Int.mod_modEq _ _
  | sparse s =>
      simp only [reduce, period]
      rw [Precision.toInt_wrap_add]
      exact Int.bmod_emod

/-- A coordinate of the ground that lies `sum` away from another, modulo the periods. -/
structure Displaced
    (g : Ground C) (c c' : Coord) (sum : Nat → Int) : Prop where
  contains : g.contains c' = true
  modEq :
    ∀ i x y,
      c.components[i]? = some x →
      c'.components[i]? = some y →
      y.toInt ≡ x.toInt + sum i [ZMOD g.period i]

section Displacements

variable {sum sum' : Nat → Int}

theorem displaced_refl
    (hc : g.contains c = true) :
    g.Displaced c c fun _ => 0 where
  contains := hc
  modEq := by
    intro i x y hx hy
    obtain rfl := Option.some.inj (hx.symm.trans hy)
    rw [Int.add_zero]

/-- Each component has one that it was displaced to. -/
theorem Displaced.component
    (hdims : c.dims = g.dims)
    (h : g.Displaced c c' sum)
    (hx : c.components[i]? = some x) :
    ∃ y,
      c'.components[i]? = some y ∧
      g.Fits i y ∧
      y.toInt ≡ x.toInt + sum i [ZMOD g.period i] := by
  obtain ⟨hdims', hfits⟩ := contains_iff.1 h.contains
  have hi : i < c'.components.length := by
    obtain ⟨hi, _⟩ := List.getElem?_eq_some_iff.1 hx
    change i < c'.dims
    rw [hdims', ← hdims]
    exact hi
  have hy := List.getElem?_eq_getElem hi
  exact ⟨_, hy, hfits i _ hy, h.modEq i x _ hx hy⟩

theorem Displaced.trans
    (hdims : c.dims = g.dims)
    (h : g.Displaced c c' sum)
    (h' : g.Displaced c' c'' sum') :
    g.Displaced c c'' fun i => sum i + sum' i where
  contains := h'.contains
  modEq := by
    intro i x z hx hz
    obtain ⟨y, hy, _, hmod⟩ := h.component hdims hx
    calc
      z.toInt ≡ y.toInt + sum' i [ZMOD g.period i] := h'.modEq i y z hy hz
      _ ≡ x.toInt + sum i + sum' i [ZMOD g.period i] := hmod.add_right _
      _ = x.toInt + (sum i + sum' i) := Int.add_assoc _ _ _

/-- Congruent sums lead to the same coordinate. -/
theorem Displaced.unique
    (hdims : c.dims = g.dims)
    (h : g.Displaced c c' sum)
    (h' : g.Displaced c c'' sum')
    (hsum : ∀ i, sum i ≡ sum' i [ZMOD g.period i]) :
    c' = c'' := by
  have hlength : c'.components.length = c.components.length :=
    (contains_iff.1 h.contains).1.trans hdims.symm
  have hlength' : c''.components.length = c.components.length :=
    (contains_iff.1 h'.contains).1.trans hdims.symm
  have hcomponents : c'.components = c''.components := by
    refine List.ext_getElem? ?_
    intro i
    cases hx : c.components[i]? with
    | none =>
        have hi := List.getElem?_eq_none_iff.1 hx
        rw [List.getElem?_eq_none (by omega), List.getElem?_eq_none (by omega)]
    | some x =>
        obtain ⟨y, hy, hfits, hmod⟩ := h.component hdims hx
        obtain ⟨y', hy', hfits', hmod'⟩ := h'.component hdims hx
        have hsame : y = y' :=
          eq_of_modEq hfits hfits' ((hmod.trans ((hsum i).add_left _)).trans hmod'.symm)
        rw [hy, hy', hsame]
  cases c'
  cases c''
  exact congrArg Coord.mk hcomponents

theorem move_displaced
    (hallows : g.allows d = true)
    (hd : d.dims = g.dims)
    (hc : g.Counts c) :
    ∃ c',
      g.move c d = .ok c' ∧
      g.Displaced c c' fun i => (d.component i).toInt := by
  refine ⟨_, move_of_allows hallows hd hc.dims, ?_, ?_⟩
  · refine contains_iff.2 ⟨by simpa [Coord.dims] using hc.dims, ?_⟩
    intro i y hy
    obtain ⟨hi, rfl⟩ := List.getElem?_eq_some_iff.1 hy
    simp only [List.getElem_mapIdx]
    refine fits_reduce ?_ _
    rw [← hc.dims]
    simpa [Coord.dims] using hi
  · intro i x y hx hy
    rw [List.getElem?_mapIdx, hx, Option.map_some, Option.some.injEq] at hy
    rw [← hy]
    exact reduce_modEq hallows hc hx

end Displacements

/-- A step that can be taken can be taken again. -/
theorem move_again
    (h : g.move c d = .ok c') :
    ∃ c'', g.move c' d = .ok c'' := by
  cases g with
  | torus t =>
      obtain ⟨hd, hc'⟩ := Torus.move_ok h
      exact ⟨_, move_of_allows (allows_of_move (g := .torus t) hd h) hd hc'⟩
  | sparse s =>
      obtain ⟨hcd, hc'⟩ := Sparse.move_ok h
      have hstep := Direction.step_of_dims (hc'.trans hcd)
      change ∃ c'', s.move c' d = .ok c''
      unfold Sparse.move
      rw [hstep]
      exact ⟨_, rfl⟩

end Ground

namespace Space

open Ground

variable {s : Space C} {c : Coord} {d d' : Direction}

theorem moveTimes_succ
    {c' : Coord}
    (h : s.move c d = .ok c')
    (n : Nat) :
    s.moveTimes d (n + 1) c = s.moveTimes d n c' := by
  rw [moveTimes, h]
  rfl

/-- Where any number of equal steps leads.  No step at all leads to a coordinate of the space only
from there. -/
theorem moveTimes_displaced
    {n : Nat}
    (hallows : s.allows d = true)
    (hd : d.dims = s.dims)
    (hc : s.base.Counts c)
    (hzero : n = 0 → s.contains c = true) :
    ∃ c',
      s.moveTimes d n c = .ok c' ∧
      s.base.Displaced c c' fun i => n * (d.component i).toInt := by
  induction n generalizing c with
  | zero =>
      refine ⟨c, rfl, ?_⟩
      simpa using displaced_refl (hzero rfl)
  | succ n ih =>
      obtain ⟨c₁, hmove, hfirst⟩ := move_displaced hallows hd hc
      obtain ⟨c', htimes, hrest⟩ :=
        ih (counts_of_contains hfirst.contains) fun _ => hfirst.contains
      refine ⟨c', (moveTimes_succ hmove n).trans htimes, ?_⟩
      have hsum := hfirst.trans hc.dims hrest
      have hadd :
          (fun i => (d.component i).toInt + n * (d.component i).toInt) =
            fun i => (n + 1 : Nat) * (d.component i).toInt := by
        funext i
        rw [Int.natCast_succ, Int.add_mul, Int.one_mul, Int.add_comm]
      rwa [hadd] at hsum

/-- Two steps lead to the same coordinate in either order. -/
theorem move_comm
    (hallows : s.allows d = true)
    (hallows' : s.allows d' = true)
    (hd : d.dims = s.dims)
    (hd' : d'.dims = s.dims)
    (hc : s.base.Counts c) :
    ∃ c₁ c₂ c',
      s.move c d = .ok c₁ ∧ s.move c₁ d' = .ok c' ∧
      s.move c d' = .ok c₂ ∧ s.move c₂ d = .ok c' := by
  obtain ⟨c₁, hmove₁, hfirst₁⟩ := move_displaced hallows hd hc
  obtain ⟨c₂, hmove₂, hfirst₂⟩ := move_displaced hallows' hd' hc
  obtain ⟨e₁, hnext₁, hsecond₁⟩ :=
    move_displaced hallows' hd' (counts_of_contains hfirst₁.contains)
  obtain ⟨e₂, hnext₂, hsecond₂⟩ :=
    move_displaced hallows hd (counts_of_contains hfirst₂.contains)
  have hsame : e₁ = e₂ := by
    refine (hfirst₁.trans hc.dims hsecond₁).unique hc.dims (hfirst₂.trans hc.dims hsecond₂) ?_
    intro i
    rw [Int.add_comm]
  subst hsame
  exact ⟨c₁, c₂, e₁, hmove₁, hnext₁, hmove₂, hnext₂⟩

/-- A number of steps leads back if along each axis the period divides what it adds up to. -/
theorem moveTimes_lap
    {n : Nat}
    (hallows : s.allows d = true)
    (hd : d.dims = s.dims)
    (hc : s.contains c = true)
    (hlap : ∀ i, (s.base.period i : Int) ∣ n * (d.component i).toInt) :
    s.moveTimes d n c = .ok c := by
  have hcounts := counts_of_contains hc
  obtain ⟨c', htimes, hdisplaced⟩ := moveTimes_displaced hallows hd hcounts fun _ => hc
  have hback : c' = c := by
    refine hdisplaced.unique hcounts.dims (displaced_refl hc) ?_
    intro i
    exact Int.modEq_zero_iff_dvd.2 (hlap i)
  rw [htimes, hback]

end Space

namespace Torus

open Ground

variable {s : Space C} {t : Torus C} {c : Coord}

theorem allows_axis
    (hs : s.base = .torus t)
    {axis : Nat}
    (haxis : axis < t.dims)
    (positive : Bool) :
    s.allows (.axis t.dims axis positive haxis) = true := by
  simp [Space.allows, Ground.allows, hs, allows, Direction.axis?, Direction.dims]

/-- Movement on a torus is rotation.  On a torus, and on every overlay over one, any number of equal
axis steps from a cell can be taken: the component along that axis goes round its ring, and all
others stay.  A lap is as many steps as the ring has cells, and any two axis steps commute. -/
theorem moveTimes_rotates
    (hs : s.base = .torus t)
    (hc : s.contains c = true)
    {axis size : Nat}
    (haxis : axis < t.dims)
    (hsize : t.sizes[axis]? = some size)
    (positive : Bool) :
    (∀ n : Nat, ∃ c',
      s.moveTimes (.axis t.dims axis positive haxis) n c = .ok c' ∧
      c'.dims = c.dims ∧
      ∀ i x, c.get? i = some x → ∃ y,
        c'.get? i = some y ∧
        y.toInt =
          if i = axis then (x.toInt + (if positive then 1 else -1) * n) % size
          else x.toInt) ∧
    s.moveTimes (.axis t.dims axis positive haxis) size c = .ok c ∧
    (∀ (axis' : Nat) (haxis' : axis' < t.dims) (positive' : Bool), ∃ c₁ c₂ c',
      s.move c (.axis t.dims axis positive haxis) = .ok c₁ ∧
      s.move c₁ (.axis t.dims axis' positive' haxis') = .ok c' ∧
      s.move c (.axis t.dims axis' positive' haxis') = .ok c₂ ∧
      s.move c₂ (.axis t.dims axis positive haxis) = .ok c') := by
  have hdims : s.dims = t.dims := by
    rw [Space.dims, hs]
    rfl
  have hcounts := counts_of_contains hc
  have hallows := allows_axis hs haxis positive
  have hperiod : s.base.period axis = size := by
    simp [hs, period, hsize]
  refine ⟨?_, ?_, ?_⟩
  · intro n
    obtain ⟨c', htimes, hdisplaced⟩ :=
      Space.moveTimes_displaced hallows hdims.symm hcounts fun _ => hc
    have hdims' := (Ground.contains_iff.1 hdisplaced.contains).1
    refine ⟨c', htimes, hdims'.trans hcounts.dims.symm, ?_⟩
    intro i x hx
    obtain ⟨y, hy, hfits, hmod⟩ := hdisplaced.component hcounts.dims hx
    refine ⟨y, hy, ?_⟩
    by_cases h : i = axis
    · subst h
      rw [hs] at hfits
      obtain ⟨size', hsize', hnonneg, hlt⟩ := hfits
      obtain rfl := Option.some.inj (hsize.symm.trans hsize')
      rw [hperiod, Direction.toInt_component_axis, Int.mul_comm] at hmod
      rw [if_pos rfl, ← hmod.eq, Int.emod_eq_of_lt hnonneg hlt]
    · have hstays : y = x := by
        refine eq_of_modEq hfits ((Ground.contains_iff.1 hc).2 i x hx) ?_
        simpa [Direction.component, Ne.symm h] using hmod
      rw [if_neg h, hstays]
  · refine Space.moveTimes_lap hallows hdims.symm hc ?_
    intro i
    by_cases h : axis = i
    · subst h
      rw [hperiod]
      exact Int.dvd_mul_right _ _
    · simp [Direction.component, h]
  · intro axis' haxis' positive'
    exact Space.move_comm hallows (allows_axis hs haxis' positive') hdims.symm hdims.symm hcounts

/-- A torus of three columns and two rows. -/
def smallRings : Torus UInt8 where
  extent := {
    sizes := [3, 2]
    ne_nil := by decide
    bounds := by decide
    cellCount_lt := by decide }
  cells := Array.replicate 6 32
  size_cells := by
    rw [Array.size_replicate]
    rfl

/-- A torus with a ring of the greatest length that a coordinate can count.  No memory holds it. -/
noncomputable def longRings : Torus UInt8 where
  extent := {
    sizes := [2, 0x7FFFFFFFFFFFFFFF]
    ne_nil := by decide
    bounds := by decide
    cellCount_lt := by decide }
  cells := Array.replicate 0xFFFFFFFFFFFFFFFE 32
  size_cells := by
    rw [Array.size_replicate]
    rfl

/-- Five steps west and a lap under an overlay of the small torus; three steps over the end of the
longest ring, and a lap of it. -/
theorem moveTimes_rotates_longRings :
    ((Space.overlay (.ground (.torus smallRings)) [∅]).contains (.planar 1 1) = true ∧
      (∃ c',
        (Space.overlay (.ground (.torus smallRings)) [∅]).moveTimes .west 5 (.planar 1 1) =
          .ok c' ∧
        (∃ x, c'.get? 0 = some x ∧ x.toInt = 2) ∧
        ∃ y, c'.get? 1 = some y ∧ y.toInt = 1) ∧
      (Space.overlay (.ground (.torus smallRings)) [∅]).moveTimes .west 3 (.planar 1 1) =
        .ok (.planar 1 1)) ∧
    (Space.ground (.torus longRings)).contains (.planar 1 0x7FFFFFFFFFFFFFFE) = true ∧
    (∃ c',
      (Space.ground (.torus longRings)).moveTimes .south 3 (.planar 1 0x7FFFFFFFFFFFFFFE) =
        .ok c' ∧
      (∃ y, c'.get? 0 = some y ∧ y.toInt = 1) ∧
      ∃ y, c'.get? 1 = some y ∧ y.toInt = 2) ∧
    (Space.ground (.torus longRings)).moveTimes .south 0x7FFFFFFFFFFFFFFF
        (.planar 1 0x7FFFFFFFFFFFFFFE) =
      .ok (.planar 1 0x7FFFFFFFFFFFFFFE) := by
  constructor
  · have hc :
        (Space.overlay (.ground (.torus smallRings)) [∅]).contains (.planar 1 1) = true := by
      decide
    have haxis : 0 < smallRings.dims := by
      decide
    obtain ⟨htimes, hlap, _⟩ :=
      moveTimes_rotates (s := .overlay (.ground (.torus smallRings)) [∅]) rfl hc haxis rfl false
    obtain ⟨c', hmoved, _, hcomponents⟩ := htimes 5
    exact ⟨hc, ⟨c', hmoved, hcomponents 0 1 rfl, hcomponents 1 1 rfl⟩, hlap⟩
  · have hc :
        (Space.ground (.torus longRings)).contains (.planar 1 0x7FFFFFFFFFFFFFFE) = true := by
      decide
    have haxis : 1 < longRings.dims := by
      decide
    obtain ⟨htimes, hlap, _⟩ :=
      moveTimes_rotates (s := .ground (.torus longRings)) rfl hc haxis rfl true
    obtain ⟨c', hmoved, _, hcomponents⟩ := htimes 3
    exact ⟨hc, ⟨c', hmoved, hcomponents 0 1 rfl, hcomponents 1 0x7FFFFFFFFFFFFFFE rfl⟩, hlap⟩

end Torus

namespace Sparse

open Ground

variable {s : Space C} {p : Sparse C} {c : Coord} {d : Direction}

/-- Movement in a sparse space is addition modulo two to the number of bits.  In a sparse space, and
in every overlay over one, any number of equal steps can be taken from any coordinate of the right
arity, in the space or not.  After the first of them each component is the one value of the width
that is congruent to the sum, so that the coordinate belongs to the space.  Any two steps commute,
and as many steps as the width has values lead back to a coordinate of the space. -/
theorem moveTimes_congruent
    (hs : s.base = .sparse p)
    (hc : c.dims = p.dims)
    (hd : d.dims = p.dims) :
    (∀ n : Nat, 1 ≤ n → ∃ c',
      s.moveTimes d n c = .ok c' ∧
      s.contains c' = true ∧
      c'.dims = c.dims ∧
      ∀ i x, c.get? i = some x → ∀ y,
        c'.get? i = some y ↔
          p.precision.min ≤ y ∧ y ≤ p.precision.max ∧
          y.toInt ≡ x.toInt + n * (d.component i).toInt [ZMOD 2 ^ p.precision.bits]) ∧
    (∀ d' : Direction, d'.dims = p.dims → ∃ c₁ c₂ c',
      s.move c d = .ok c₁ ∧ s.move c₁ d' = .ok c' ∧
      s.move c d' = .ok c₂ ∧ s.move c₂ d = .ok c') ∧
    (s.contains c = true → s.moveTimes d (2 ^ p.precision.bits) c = .ok c) := by
  have hdims : s.dims = p.dims := by
    rw [Space.dims, hs]
    rfl
  have hcounts : s.base.Counts c := by
    rw [hs]
    exact hc
  have hallows : ∀ d', s.allows d' = true := by
    intro d'
    rw [Space.allows, hs]
    rfl
  have hperiod : ∀ i, (s.base.period i : Int) = 2 ^ p.precision.bits := by
    intro i
    rw [hs]
    exact p.precision.modulus_eq
  refine ⟨?_, ?_, ?_⟩
  · intro n hn
    obtain ⟨c', htimes, hdisplaced⟩ :=
      Space.moveTimes_displaced (n := n) (hallows d) (hd.trans hdims.symm) hcounts (by omega)
    have hdims' := (Ground.contains_iff.1 hdisplaced.contains).1
    refine ⟨c', htimes, hdisplaced.contains, hdims'.trans hcounts.dims.symm, ?_⟩
    intro i x hx y
    obtain ⟨z, hz, hfits, hmod⟩ := hdisplaced.component hcounts.dims hx
    have hwidth : p.precision.min ≤ y ∧ y ≤ p.precision.max ↔ s.base.Fits i y := by
      rw [hs]
      simp [Fits, Precision.contains]
    rw [← and_assoc, hwidth, ← hperiod i]
    constructor
    · intro hy
      obtain rfl := Option.some.inj (hz.symm.trans hy)
      exact ⟨hfits, hmod⟩
    · rintro ⟨hfits', hmod'⟩
      rw [eq_of_modEq hfits' hfits (hmod'.trans hmod.symm)]
      exact hz
  · intro d' hd'
    exact Space.move_comm (hallows d) (hallows d') (hd.trans hdims.symm) (hd'.trans hdims.symm)
      hcounts
  · intro hinside
    refine Space.moveTimes_lap (hallows d) (hd.trans hdims.symm) hinside ?_
    intro i
    rw [hperiod]
    push_cast
    exact Int.dvd_mul_right _ _

/-- Two steps from a coordinate outside the space, and a lap from one inside.  Along the second axis
the two displacements add up to zero at 64 bits. -/
theorem moveTimes_congruent_narrow :
    (∃ c',
      Space.narrow.moveTimes (.delta [1, Int64.minValue] (by decide)) 2 (.planar 127 300) =
        .ok c' ∧
      Space.narrow.contains c' = true ∧
      c'.get? 0 = some (-127) ∧
      c'.get? 1 = some 44) ∧
    Space.narrow.contains (.planar 127 300) = false ∧
    Space.narrow.moveTimes (.delta [1, Int64.minValue] (by decide)) 256 (.planar 127 (-128)) =
      .ok (.planar 127 (-128)) := by
  obtain ⟨htimes, _⟩ :=
    moveTimes_congruent (s := Space.narrow) (c := .planar 127 300)
      (d := .delta [1, Int64.minValue] (by decide)) rfl rfl rfl
  obtain ⟨c', hmoved, hinside, _, hcomponents⟩ := htimes 2 (by decide)
  obtain ⟨_, _, hlap⟩ :=
    moveTimes_congruent (s := Space.narrow) (c := .planar 127 (-128))
      (d := .delta [1, Int64.minValue] (by decide)) rfl rfl rfl
  refine ⟨⟨c', hmoved, hinside, ?_, ?_⟩, by decide, hlap (by decide)⟩
  · exact (hcomponents 0 127 rfl (-127)).2 (by decide)
  · exact (hcomponents 1 300 rfl 44).2 (by decide)

end Sparse

end FungeTrace
