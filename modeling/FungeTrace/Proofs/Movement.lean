import FungeTrace.Proofs.Plane
import Mathlib.Algebra.Group.Nat.Defs

/-!
# Movement

A step adds the displacement to a coordinate, component by component and modulo two to the 64; then
the ground reduces every component by a rule of its own: to a ring, or to the values of a width.

* `Ground.contains_iff` and `Ground.move_of_allows` take coordinates and steps apart into axes:
  `Ground.Fits` says which components belong to the ground, and `Ground.reduce` what becomes of a
  component.
* Along each axis a reduced component fits, and taking the displacement back from it gives the
  component it was reduced from: `Ground.reduce_undone`.  On a ring this rests on the step being
  short, for two to the 64 is no multiple of its size; in a width it holds of every displacement,
  for the widths divide two to the 64.
* `Space.move_reversible` puts the axes together again.
-/

namespace FungeTrace

variable {C : Type}

namespace Direction

@[simp] theorem dims_reversed (d : Direction) : d.reversed.dims = d.dims := by
  cases d <;> simp [reversed, dims]

@[simp] theorem axis?_isSome_reversed (d : Direction) :
    d.reversed.axis?.isSome = d.axis?.isSome := by
  cases d <;> rfl

theorem component_reversed
    (d : Direction) (i : Nat) :
    d.reversed.component i = -d.component i := by
  cases d with
  | axis dims index positive index_lt =>
      by_cases hi : index = i
      · cases positive <;> simp [reversed, component, hi]
      · simp [reversed, component, hi]
  | delta components ne_nil =>
      cases hi : components[i]? with
      | none =>
          simp [reversed, component, hi]
      | some x =>
          simp [reversed, component, hi]

/-- An axis step is at most one long along every axis. -/
theorem component_of_axis
    {d : Direction}
    (haxis : d.axis?.isSome = true)
    (i : Nat) :
    -1 ≤ (d.component i).toInt ∧ (d.component i).toInt ≤ 1 := by
  cases d with
  | delta components ne_nil =>
      simp [axis?] at haxis
  | axis dims index positive index_lt =>
      by_cases hi : index = i
      · cases positive <;> simp [component, hi]
      · simp [component, hi]

theorem step_of_dims
    {d : Direction} {c : Coord}
    (h : c.dims = d.dims) :
    d.step c = .ok ⟨c.components.mapIdx fun i x => x + d.component i⟩ := by
  simp [step, h]

end Direction

namespace Extent

section Rings

variable {size : Nat} {x δ : Int64}

theorem toInt_reduced
    (hsize : 0 < size ∧ size < 0x8000000000000000)
    (x : Int64) :
    (Int64.ofInt (x.toInt % size)).toInt = x.toInt % size := by
  have hnonneg : 0 ≤ x.toInt % (size : Int) :=
    Int.emod_nonneg _ (by omega)
  have hlt : x.toInt % (size : Int) < size :=
    Int.emod_lt_of_pos _ (by omega)
  exact Int64.toInt_ofInt_of_le (by omega) (by omega)

/-- A short step from a ring does not overflow. -/
theorem InRing.toInt_add
    (hsize : size < 0x8000000000000000)
    (hx : InRing size x)
    (hδ : -1 ≤ δ.toInt ∧ δ.toInt ≤ 1) :
    (x + δ).toInt = x.toInt + δ.toInt := by
  obtain ⟨hx₀, hxs⟩ := hx
  rw [Int64.toInt_add]
  exact Int.bmod_eq_of_le_mul_two (by omega) (by omega)

/-- A short step along a ring is undone by the opposite step. -/
theorem InRing.undone
    (hsize : 0 < size ∧ size < 0x8000000000000000)
    (hx : InRing size x)
    (hδ : -1 ≤ δ.toInt ∧ δ.toInt ≤ 1) :
    Int64.ofInt ((Int64.ofInt ((x + δ).toInt % size) + -δ).toInt % size) = x := by
  have hneg : (-δ).toInt = -δ.toInt := by
    rw [Int64.toInt_neg]
    exact Int.bmod_eq_of_le_mul_two (by omega) (by omega)
  have hback :
      (Int64.ofInt ((x + δ).toInt % size) + -δ).toInt = (x.toInt + δ.toInt) % size + -δ.toInt := by
    rw [(Torus.inRing_reduced hsize (x + δ)).toInt_add hsize.2 (by omega),
      toInt_reduced hsize, hx.toInt_add hsize.2 hδ, hneg]
  apply Int64.toInt_inj.1
  calc
    (Int64.ofInt ((Int64.ofInt ((x + δ).toInt % size) + -δ).toInt % size)).toInt
        = ((x.toInt + δ.toInt) % size + -δ.toInt) % size := by
      rw [toInt_reduced hsize, hback]
    _ = x.toInt % size := by
      rw [Int.emod_add_emod, Int.add_neg_cancel_right]
    _ = x.toInt := Int.emod_eq_of_lt hx.1 hx.2

end Rings

end Extent

namespace Precision

/-- The number of values of a width divides two to the 64. -/
theorem modulus_dvd
    (p : Precision) :
    p.modulus ∣ 2 ^ 64 := by
  cases p <;> decide

theorem modulus_bounds
    (p : Precision) :
    (p.modulus : Int) = 2 * p.half ∧ 0 < p.half ∧ p.half ≤ 0x8000000000000000 := by
  cases p <;> decide

theorem contains_iff
    {p : Precision} {x : Int64} :
    p.contains x = true ↔ -p.half ≤ x.toInt ∧ x.toInt < p.half := by
  obtain ⟨_, hpos, hle⟩ := p.modulus_bounds
  have hmin : p.min.toInt = -p.half := Int64.toInt_ofInt_of_le (by omega) (by omega)
  have hmax : p.max.toInt = p.half - 1 := Int64.toInt_ofInt_of_le (by omega) (by omega)
  simp only [contains, Bool.and_eq_true, decide_eq_true_eq, Int64.le_iff_toInt_le, hmin, hmax]
  omega

theorem bmod_bounds
    (p : Precision) (x : Int) :
    -p.half ≤ x.bmod p.modulus ∧ x.bmod p.modulus < p.half := by
  obtain ⟨hmodulus, hpos, _⟩ := p.modulus_bounds
  have hlow := Int.le_bmod (x := x) (m := p.modulus) (by omega)
  have hhigh := Int.bmod_lt (x := x) (m := p.modulus) (by omega)
  omega

theorem toInt_wrap
    (p : Precision) (x : Int64) :
    (p.wrap x).toInt = x.toInt.bmod p.modulus := by
  obtain ⟨_, _, hle⟩ := p.modulus_bounds
  obtain ⟨hlow, hhigh⟩ := p.bmod_bounds x.toInt
  exact Int64.toInt_ofInt_of_le (by omega) (by omega)

theorem contains_wrap
    (p : Precision) (x : Int64) :
    p.contains (p.wrap x) = true := by
  rw [contains_iff, toInt_wrap]
  exact p.bmod_bounds x.toInt

/-- Reduction to a width cannot tell whether a sum wrapped at 64 bits. -/
theorem toInt_wrap_add
    (p : Precision) (x δ : Int64) :
    (p.wrap (x + δ)).toInt = (x.toInt + δ.toInt).bmod p.modulus := by
  rw [toInt_wrap, Int64.toInt_add, Int.bmod_bmod_of_dvd p.modulus_dvd]

/-- Any displacement within a width is undone by the opposite one, whose own negation may wrap. -/
theorem wrap_undone
    {p : Precision} {x : Int64}
    (hx : p.contains x = true)
    (δ : Int64) :
    p.wrap (p.wrap (x + δ) + -δ) = x := by
  obtain ⟨hmodulus, _, _⟩ := p.modulus_bounds
  obtain ⟨hlow, hhigh⟩ := contains_iff.1 hx
  have hneg : (-δ).toInt.bmod p.modulus = (-δ.toInt).bmod p.modulus := by
    rw [Int64.toInt_neg, Int.bmod_bmod_of_dvd p.modulus_dvd]
  apply Int64.toInt_inj.1
  calc
    (p.wrap (p.wrap (x + δ) + -δ)).toInt
        = ((x.toInt + δ.toInt).bmod p.modulus + (-δ).toInt.bmod p.modulus).bmod p.modulus := by
      rw [toInt_wrap_add, toInt_wrap_add, Int.add_bmod_bmod]
    _ = x.toInt.bmod p.modulus := by
      rw [hneg, Int.bmod_add_bmod, Int.add_bmod_bmod, Int.add_neg_cancel_right]
    _ = x.toInt := Int.bmod_eq_of_le_mul_two (by omega) (by omega)

end Precision

namespace Ground

variable {g : Ground C} {c : Coord} {d : Direction}

/-- The components that a ground has room for along an axis. -/
def Fits : Ground C → Nat → Int64 → Prop
  | torus t, i, x => ∃ size, t.sizes[i]? = some size ∧ Extent.InRing size x
  | sparse s, _, x => s.precision.contains x = true

/-- What a ground makes of a component along an axis. -/
def reduce : Ground C → Nat → Int64 → Int64
  | torus t, i, x => Int64.ofInt (x.toInt % t.sizes[i]?.getD 1)
  | sparse s, _, x => s.precision.wrap x

/-- A coordinate belongs to a ground if each of its components does. -/
theorem contains_iff :
    g.contains c = true ↔
      c.dims = g.dims ∧ ∀ i x, c.components[i]? = some x → g.Fits i x := by
  cases g with
  | torus t =>
      change t.contains c = true ↔ c.components.length = t.sizes.length ∧ _
      rw [Torus.contains_iff, List.forall₂_iff_get]
      constructor
      · rintro ⟨hlen, hring⟩
        refine ⟨hlen.symm, ?_⟩
        intro i x hx
        obtain ⟨hi, rfl⟩ := List.getElem?_eq_some_iff.1 hx
        exact ⟨t.sizes[i], List.getElem?_eq_getElem (by omega), hring i (by omega) hi⟩
      · rintro ⟨hlen, hfits⟩
        refine ⟨hlen.symm, ?_⟩
        intro i hsize hi
        obtain ⟨size, hget, hring⟩ := hfits i _ (List.getElem?_eq_getElem hi)
        obtain ⟨_, rfl⟩ := List.getElem?_eq_some_iff.1 hget
        exact hring
  | sparse s =>
      change s.contains c = true ↔ c.dims = s.dims ∧ _
      by_cases hdims : c.dims = s.dims
      · have hall :
            s.contains c = true ↔ c.components.all s.precision.contains = true := by
          by_cases hc : c.components.all s.precision.contains = true <;>
            simp [Sparse.contains, Sparse.check, hdims, hc]
        rw [hall, List.all_eq_true]
        constructor
        · intro h
          exact ⟨hdims, fun i x hx => h x (List.mem_of_getElem? hx)⟩
        · rintro ⟨_, h⟩ x hx
          obtain ⟨i, hi⟩ := List.mem_iff_getElem?.1 hx
          exact h i x hi
      · simp [Sparse.contains, Sparse.check, hdims]

/-- An allowed step displaces and reduces each component by itself. -/
theorem move_of_allows
    (hallows : g.allows d = true)
    (hd : d.dims = g.dims)
    (hc : c.dims = g.dims) :
    g.move c d = .ok ⟨c.components.mapIdx fun i x => g.reduce i (x + d.component i)⟩ := by
  have hstep := Direction.step_of_dims (hc.trans hd.symm)
  cases g with
  | torus t =>
      have haxis : d.axis?.isNone = false := by
        simp only [allows, Torus.allows, Bool.and_eq_true] at hallows
        simpa using hallows.1
      have hlen : c.components.length = t.sizes.length := hc
      have hdims :
          Coord.dims ⟨c.components.mapIdx fun i x => x + d.component i⟩ = t.dims :=
        List.length_mapIdx.trans hlen
      change t.move c d = _
      simp only [Torus.move, haxis, hstep, Bool.false_eq_true, if_false]
      change (if Coord.dims _ = t.dims then _ else _) = _
      rw [if_pos hdims]
      refine congrArg (fun xs => Except.ok (Coord.mk xs)) (List.ext_getElem ?_ ?_)
      · simp [hlen]
      · intro i hi hi'
        have hsize : i < t.sizes.length := by
          simp at hi
          omega
        simp [reduce, hsize]
  | sparse s =>
      have hmove :
          s.move c d =
            .ok ⟨(c.components.mapIdx fun i x => x + d.component i).map s.precision.wrap⟩ := by
        simp only [Sparse.move, hstep]
        rfl
      refine hmove.trans (congrArg (fun xs => Except.ok (Coord.mk xs)) (List.ext_getElem ?_ ?_))
      · simp
      · intro i hi hi'
        simp [reduce]

/-- A step of the right arity that is not allowed is refused. -/
theorem allows_of_move
    {c' : Coord}
    (hd : d.dims = g.dims)
    (h : g.move c d = .ok c') :
    g.allows d = true := by
  cases g with
  | torus t =>
      change t.move c d = .ok c' at h
      cases haxis : d.axis?.isNone with
      | true =>
          simp only [Torus.move, haxis] at h
          contradiction
      | false =>
          have hdims : d.dims = t.dims := hd
          simpa [allows, Torus.allows, hdims] using haxis
  | sparse s =>
      rfl

theorem fits_reduce
    {i : Nat}
    (hi : i < g.dims)
    (x : Int64) :
    g.Fits i (g.reduce i x) := by
  cases g with
  | torus t =>
      have hsize : i < t.sizes.length := hi
      refine ⟨t.sizes[i], List.getElem?_eq_getElem hsize, ?_⟩
      simp only [reduce, List.getElem?_eq_getElem hsize, Option.getD_some]
      exact Torus.inRing_reduced (t.extent.bounds _ (List.getElem_mem hsize)) x
  | sparse s =>
      exact s.precision.contains_wrap x

/-- Along every axis, an allowed displacement can be taken back. -/
theorem reduce_undone
    {i : Nat} {x : Int64}
    (hallows : g.allows d = true)
    (hx : g.Fits i x) :
    g.reduce i (g.reduce i (x + d.component i) + -d.component i) = x := by
  cases g with
  | torus t =>
      obtain ⟨size, hsize, hring⟩ := hx
      have hbounds := t.extent.bounds size (List.mem_of_getElem? hsize)
      simp only [allows, Torus.allows, Bool.and_eq_true] at hallows
      simp only [reduce, hsize, Option.getD_some]
      exact hring.undone hbounds (Direction.component_of_axis hallows.1 i)
  | sparse s =>
      exact Precision.wrap_undone hx (d.component i)

theorem allows_reversed
    (g : Ground C) (d : Direction) :
    g.allows d.reversed = g.allows d := by
  cases g with
  | torus t =>
      simp [allows, Torus.allows]
  | sparse s =>
      rfl

end Ground

namespace Space

/-- Movement keeps its contract in every space.  From a coordinate of the space, a displacement of
the space's arity may be taken if and only if taking it succeeds; it leads to a coordinate of the
space again, and from there the opposite displacement leads back. -/
theorem move_reversible
    (s : Space C) {c : Coord} {d : Direction}
    (hc : s.contains c = true)
    (hd : d.dims = s.dims) :
    (s.allows d = true ↔ ∃ c', s.move c d = .ok c') ∧
    ∀ c', s.move c d = .ok c' →
      s.contains c' = true ∧ s.move c' d.reversed = .ok c := by
  obtain ⟨hdims, hfits⟩ := Ground.contains_iff.1 hc
  constructor
  · constructor
    · intro hallows
      exact ⟨_, Ground.move_of_allows hallows hd hdims⟩
    · rintro ⟨c', hmove⟩
      exact Ground.allows_of_move hd hmove
  · intro c' hmove
    have hallows := Ground.allows_of_move hd hmove
    have hlanded := (Ground.move_of_allows hallows hd hdims).symm.trans hmove
    obtain rfl := Except.ok.inj hlanded
    have hdims' :
        Coord.dims ⟨c.components.mapIdx fun i x => s.base.reduce i (x + d.component i)⟩ =
          s.base.dims := by
      simpa [Coord.dims] using hdims
    constructor
    · refine Ground.contains_iff.2 ⟨hdims', ?_⟩
      intro i x hx
      obtain ⟨hi, rfl⟩ := List.getElem?_eq_some_iff.1 hx
      simp only [List.getElem_mapIdx]
      refine Ground.fits_reduce ?_ _
      rw [← hdims']
      exact hi
    · have hback := (Ground.allows_reversed s.base d).trans hallows
      have hd' : d.reversed.dims = s.base.dims := d.dims_reversed.trans hd
      refine (Ground.move_of_allows hback hd' hdims').trans ?_
      refine congrArg (fun xs => Except.ok (Coord.mk xs)) (List.ext_getElem (by simp) ?_)
      intro i hi hi'
      simp only [List.getElem_mapIdx, Direction.component_reversed]
      exact Ground.reduce_undone hallows (hfits i _ (List.getElem?_eq_getElem hi'))

/-- A space of two axes and eight bits under a layer. -/
def narrow : Space UInt8 :=
  .overlay
    (.ground (.sparse { dims := 2, precision := .i8, blank := 0, cells := ∅, dims_pos := Nat.two_pos }))
    [∅]

/-- A displacement across the edge of a width, longer along one axis than any value of the width and
equal there to its own opposite. -/
theorem move_reversible_narrow :
    narrow.contains (.planar 127 (-128)) = true ∧
    (Direction.delta [1, Int64.minValue] (by decide)).dims = narrow.dims ∧
    narrow.move (.planar 127 (-128)) (.delta [1, Int64.minValue] (by decide)) =
      .ok (.planar (-128) (-128)) ∧
    narrow.contains (.planar (-128) (-128)) = true ∧
    narrow.move (.planar (-128) (-128))
        (Direction.delta [1, Int64.minValue] (by decide)).reversed =
      .ok (.planar 127 (-128)) := by
  have hc : narrow.contains (.planar 127 (-128)) = true := by decide
  have hd : (Direction.delta [1, Int64.minValue] (by decide)).dims = narrow.dims := rfl
  have hmove :
      narrow.move (.planar 127 (-128)) (.delta [1, Int64.minValue] (by decide)) =
        .ok (.planar (-128) (-128)) := by
    decide
  obtain ⟨hinside, hback⟩ := (move_reversible narrow hc hd).2 _ hmove
  exact ⟨hc, hd, hmove, hinside, hback⟩

end Space

end FungeTrace
