import FungeTrace.Proofs.Recording
import Mathlib.Data.List.Basic

/-!
# Snapshots as portraits

A snapshot can be taken of a machine if and only if its space stands on a torus with two axes, under
whatever overlays.  It shows the plane cell by cell as the space reads, in rows from left to right,
and the live pointers in the order they run: `capture_portrays`.

Two planes of one size with the same captured cells read alike: `Portrays.read_eq`.
-/

namespace FungeTrace

section Pointers

open Befunge

/-- What is seen of an entry: its value, or `default` if it is missing or of another type. -/
structure Bag.Seen {α : Type} [Storable α] (b : Bag) (key : Key α) (default value : α) : Prop where
  present : ∀ a, b.get key = .ok a → value = a
  absent :
    b.get key = .error (.missingState key.name) ∨
      b.get key = .error (.stateTypeMismatch key.name) → value = default

theorem Bag.seen_getD
    {α : Type} [Storable α] (b : Bag) (key : Key α) (default : α) :
    b.Seen key default ((b.get? key).getD default) where
  present := by
    intro a ha
    rw [get?_of_get ha]
    rfl
  absent := by
    intro h
    rcases h with h | h
    · rw [Bag.get?, h]
      rfl
    · rw [Bag.get?, h]
      rfl

/-- What is seen of a pointer. -/
structure IpView.Likeness (ip : Ip) (view : IpView) : Prop where
  id : view.id = ip.id
  position : view.position = ip.position
  direction : view.direction = ip.direction
  stack : ip.state.Seen stackKey [] view.stack
  stringMode : ip.state.Seen stringModeKey false view.stringMode

theorem IpView.likeness_ofIp
    (ip : Ip) :
    Likeness ip (ofIp ip) where
  id := rfl
  position := rfl
  direction := rfl
  stack := ip.state.seen_getD stackKey []
  stringMode := ip.state.seen_getD stringModeKey false

end Pointers

namespace Shape

theorem plane?_eq_some_iff_base
    {shape : Shape} {width height : Nat} :
    shape.plane? = some (width, height) ↔ shape.base = .toroidal [width, height] := by
  rw [Shape.plane?]
  constructor
  · intro h
    split at h
    · rename_i hbase
      simp only [Option.some.injEq, Prod.mk.injEq] at h
      rw [hbase, h.1, h.2]
    · contradiction
  · intro hbase
    rw [hbase]

end Shape

namespace Snapshot

/-- A snapshot shows a machine: its plane as it reads, and its live pointers in order. -/
structure Portrays (m : Machine UInt8) (s : Snapshot) : Prop where
  plane : m.space.shape.base = .toroidal [s.grid.width, s.grid.height]
  count : s.grid.cells.size = s.grid.width * s.grid.height
  within :
    ∀ x y, x < s.grid.width → y < s.grid.height →
      ∃ cell,
        m.space.read (.planar (Int64.ofNat x) (Int64.ofNat y)) = .ok cell ∧
        s.grid.cells[y * s.grid.width + x]? = some cell ∧
        s.grid.cell? x y = some cell
  outside : ∀ x y, ¬ (x < s.grid.width ∧ y < s.grid.height) → s.grid.cell? x y = none
  pointers : List.Forall₂ IpView.Likeness m.ips s.ips

variable {event : Event} {m : Machine UInt8} {terminal : Terminal} {s : Snapshot}

/-- A snapshot needs a plane and nothing else. -/
theorem capture_ok_iff :
    (∃ s, capture event m terminal = .ok s) ↔
      ∃ width height, m.space.shape.base = .toroidal [width, height] := by
  have hcapture :
      (∃ s, capture event m terminal = .ok s) ↔ ∃ grid, Picture.ofSpace m.space = .ok grid := by
    rw [capture]
    cases Picture.ofSpace m.space with
    | ok grid =>
        exact ⟨fun _ => ⟨grid, rfl⟩, fun _ => ⟨_, rfl⟩⟩
    | error fault =>
        constructor <;> rintro ⟨_, h⟩ <;> contradiction
  rw [hcapture]
  constructor
  · rintro ⟨grid, hgrid⟩
    rw [Picture.ofSpace] at hgrid
    split at hgrid
    · contradiction
    · rename_i width height hplane
      exact ⟨width, height, Shape.plane?_eq_some_iff_base.1 hplane⟩
  · rintro ⟨width, height, hbase⟩
    obtain ⟨grid, hgrid, -⟩ := Picture.ofSpace_of_plane (Shape.plane?_eq_some_iff_base.2 hbase)
    exact ⟨grid, hgrid⟩

theorem portrays_of_capture
    (h : capture event m terminal = .ok s) :
    Portrays m s := by
  obtain ⟨width, height, hbase⟩ := capture_ok_iff.1 ⟨s, h⟩
  obtain ⟨grid, hgrid, rfl, rfl, hcount, hread⟩ :=
    Picture.ofSpace_of_plane (Shape.plane?_eq_some_iff_base.2 hbase)
  rw [capture, hgrid] at h
  obtain rfl := Except.ok.inj h
  exact {
    plane := hbase
    count := hcount
    within := by
      intro x y hx hy
      obtain ⟨cell, hcell, hentry⟩ := hread x y hx hy
      exact ⟨cell, hcell, hentry, (grid.cell?_of_inside hx hy).trans hentry⟩
    outside := fun x y => grid.cell?_of_outside
    pointers := by
      rw [List.forall₂_map_right_iff, List.forall₂_same]
      exact fun ip _ => IpView.likeness_ofIp ip }

/-- Planes of one size with the same rows read alike. -/
theorem Portrays.read_eq
    {m' : Machine UInt8} {s' : Snapshot} {x y : Nat}
    (h : Portrays m s)
    (h' : Portrays m' s')
    (hwidth : s'.grid.width = s.grid.width)
    (hheight : s'.grid.height = s.grid.height)
    (hcells : s'.grid.cells = s.grid.cells)
    (hx : x < s.grid.width)
    (hy : y < s.grid.height) :
    m'.space.read (.planar (Int64.ofNat x) (Int64.ofNat y)) =
      m.space.read (.planar (Int64.ofNat x) (Int64.ofNat y)) := by
  obtain ⟨cell, hread, hcell, -⟩ := h.within x y hx hy
  obtain ⟨cell', hread', hcell', -⟩ :=
    h'.within x y (by rw [hwidth]; exact hx) (by rw [hheight]; exact hy)
  rw [hcells, hwidth, hcell, Option.some.injEq] at hcell'
  rw [hread, hread', hcell']

/-- A snapshot can be taken of machines over a plane only.  It shows the machine, and what two
machines of one size show decides what they read. -/
theorem capture_portrays
    (event : Event) (m : Machine UInt8) (terminal : Terminal) :
    ((∃ s, capture event m terminal = .ok s) ↔
      ∃ width height, m.space.shape.base = .toroidal [width, height]) ∧
    ∀ s, capture event m terminal = .ok s →
      Portrays m s ∧
      ∀ event' m' terminal' s', capture event' m' terminal' = .ok s' →
        s'.grid.width = s.grid.width →
        s'.grid.height = s.grid.height →
        s'.grid.cells = s.grid.cells →
        ∀ x y, x < s.grid.width → y < s.grid.height →
          m'.space.read (.planar (Int64.ofNat x) (Int64.ofNat y)) =
            m.space.read (.planar (Int64.ofNat x) (Int64.ofNat y)) := by
  refine ⟨capture_ok_iff, ?_⟩
  intro s hs
  have hportrays := portrays_of_capture hs
  refine ⟨hportrays, ?_⟩
  intro event' m' terminal' s' hs' hwidth hheight hcells x y hx hy
  exact hportrays.read_eq (portrays_of_capture hs') hwidth hheight hcells hx hy

/-- A layer over the ring of two cells shows through. -/
theorem capture_portrays_overlay :
    ∃ s,
      capture ⟨.launch, 0, none⟩
        { space := .overlay (.ground (.torus Torus.shortRing)) [.ofList [(.planar 1 0, 103)]]
          ips := [⟨1, .planar 0 0, .east, .empty⟩]
          shared := .empty
          supply := { dice := .loaded } } .empty = .ok s ∧
      s.grid.cell? 1 0 = some 103 ∧
      s.grid.cell? 0 1 = none := by
  obtain ⟨hiff, hportrays⟩ := capture_portrays ⟨.launch, 0, none⟩
    { space := .overlay (.ground (.torus Torus.shortRing)) [.ofList [(.planar 1 0, 103)]]
      ips := [⟨1, .planar 0 0, .east, .empty⟩]
      shared := .empty
      supply := { dice := .loaded } } .empty
  obtain ⟨s, hs⟩ := hiff.2 ⟨2, 1, rfl⟩
  obtain ⟨hshows, -⟩ := hportrays s hs
  have hsizes : 2 = s.grid.width ∧ 1 = s.grid.height := by
    simpa [Space.shape, Shape.base, Ground.shape, Torus.sizes, Torus.shortRing] using hshows.plane
  obtain ⟨cell, hread, -, hcell⟩ := hshows.within 1 0 (by omega) (by omega)
  refine ⟨s, hs, ?_, hshows.outside 0 1 (by omega)⟩
  have hlayer : (103 : UInt8) = cell := by
    simpa [Space.read, Layer.ofList, Coord.planar] using hread
  rw [hcell, hlayer]

end Snapshot
end FungeTrace
