import FungeTrace.Proofs.Lone
import FungeTrace.Proofs.Store
import FungeTrace.Space.Change

/-!
# Flattened overlays

An overlay over a torus can be merged into a single torus that shows at every coordinate what the
overlay shows.  A program cannot tell the two apart: it sees a space through reads, writes and
steps, and these are answered alike before and after every write.

* `Space.Lookalike` is the relation between the two spaces and `Space.lookalike_write` its step
  lemma; `Befunge.respects_twins` carries it through every command and `Befunge.strides_agree`
  through runs of any length.
* What the overlay protects is the torus at the bottom.  `Space.Sheltered` says that the layers hold
  the coordinates they held, and that the cells under them are as they were.
-/

namespace FungeTrace

variable {C : Type}

namespace Space

section Masks

/-- Whether some layer above the ground holds a coordinate. -/
def masks : Space C → Coord → Bool
  | ground _, _ => false
  | overlay backing layers, c => layers.any (·.contains c) || backing.masks c

variable {s s' : Space C} {c d : Coord} {cell : C}

/-- Where no layer holds a coordinate, the ground shows through. -/
theorem read_of_not_masked
    (h : s.masks c = false) :
    s.read c = s.base.read c := by
  induction s with
  | ground g =>
      rfl
  | overlay backing layers ih =>
      simp only [masks, Bool.or_eq_false_iff] at h
      have hnone : layers.findSome? (·[c]?) = none := by
        rw [List.findSome?_eq_none_iff]
        intro layer hlayer
        have hempty := List.any_eq_false.1 h.1 layer hlayer
        rw [Std.ExtTreeMap.contains_eq_isSome_getElem?] at hempty
        simpa using hempty
      simp only [read, hnone]
      exact ih h.2

theorem writeLayers_any
    {layers layers' : List (Layer C)}
    (h : writeLayers c cell layers = some layers')
    (d : Coord) :
    layers'.any (·.contains d) = layers.any (·.contains d) := by
  induction layers generalizing layers' with
  | nil =>
      contradiction
  | cons layer below ih =>
      unfold writeLayers at h
      split at h
      · rename_i hc
        obtain rfl := Option.some.inj h
        simp only [List.any_cons, contains_insert_of_contains hc]
      · obtain ⟨below', hbelow, rfl⟩ := Option.map_eq_some_iff.1 h
        simp only [List.any_cons, ih hbelow]

theorem writeLayers_none_any
    {layers : List (Layer C)}
    (h : writeLayers c cell layers = none) :
    layers.any (·.contains c) = false := by
  rw [List.any_eq_false]
  intro layer hlayer
  have hnone := List.findSome?_eq_none_iff.1 (writeLayers_eq_none_iff.1 h) layer hlayer
  rw [Std.ExtTreeMap.contains_eq_isSome_getElem?, hnone]
  simp

/-- No write changes which coordinates the layers hold. -/
theorem write_masks
    (h : s.write c cell = .ok s')
    (d : Coord) :
    s'.masks d = s.masks d := by
  induction s generalizing s' with
  | ground g =>
      obtain ⟨g', _, rfl⟩ := of_map_ok h
      rfl
  | overlay backing layers ih =>
      cases hlayers : writeLayers c cell layers with
      | some layers' =>
          simp only [write, hlayers, Except.ok.injEq] at h
          subst h
          simp only [masks, writeLayers_any hlayers d]
      | none =>
          simp only [write, hlayers] at h
          obtain ⟨backing', hbacking, rfl⟩ := of_map_ok h
          simp only [masks, ih hbacking]

/-- A write reaches the ground at its own coordinate only, and only if no layer holds it. -/
theorem write_base_read
    (h : s.write c cell = .ok s')
    (hd : d ≠ c ∨ s.masks d = true) :
    s'.base.read d = s.base.read d := by
  induction s generalizing s' with
  | ground g =>
      obtain ⟨g', hg', rfl⟩ := of_map_ok h
      rcases hd with hne | hmasked
      · exact (Ground.write_stored hg').other d hne
      · contradiction
  | overlay backing layers ih =>
      cases hlayers : writeLayers c cell layers with
      | some layers' =>
          simp only [write, hlayers, Except.ok.injEq] at h
          subst h
          rfl
      | none =>
          simp only [write, hlayers] at h
          obtain ⟨backing', hbacking, rfl⟩ := of_map_ok h
          change backing'.base.read d = backing.base.read d
          refine ih hbacking ?_
          by_cases hdc : d = c
          · subst hdc
            rcases hd with hne | hmasked
            · exact absurd rfl hne
            · right
              simpa [masks, writeLayers_none_any hlayers] using hmasked
          · exact .inl hdc

/-- A space that writes have made of `s₀`: its layers hold the coordinates they held, and the ground
under them is as it was. -/
structure Sheltered (s₀ s : Space C) : Prop where
  shape : s.shape = s₀.shape
  masks : ∀ c, s.masks c = s₀.masks c
  ground : ∀ c, s₀.masks c = true → s.base.read c = s₀.base.read c

theorem sheltered_refl
    (s : Space C) :
    Sheltered s s :=
  ⟨rfl, fun _ => rfl, fun _ _ => rfl⟩

theorem Sheltered.write
    {s₀ : Space C}
    (hs : Sheltered s₀ s)
    (h : s.write c cell = .ok s') :
    Sheltered s₀ s' where
  shape := (write_shape h).trans hs.shape
  masks d := (write_masks h d).trans (hs.masks d)
  ground d hd := by
    have hmasked : s.masks d = true := by
      rw [hs.masks]
      exact hd
    exact (write_base_read h (.inr hmasked)).trans (hs.ground d hd)

end Masks

section Lookalikes

/-- Two spaces that cannot be told apart: they show the same cells, and steps lead the same way. -/
structure Lookalike (s s' : Space C) : Prop where
  read : ∀ c, s'.read c = s.read c
  parallel : Parallel s s'

variable {s s' : Space C}

/-- Lookalikes refuse the same writes, and those that they take leave lookalikes. -/
theorem lookalike_write
    (h : Lookalike s s')
    (c : Coord) (cell : C) :
    (∃ fault, s.write c cell = .error fault ∧ s'.write c cell = .error fault) ∨
      ∃ t t', s.write c cell = .ok t ∧ s'.write c cell = .ok t' ∧ Lookalike t t' := by
  cases hwrite : s.write c cell with
  | error fault =>
      refine .inl ⟨fault, rfl, ?_⟩
      rw [write_eq_error_iff, h.read, ← write_eq_error_iff, hwrite]
  | ok t =>
      cases hwrite' : s'.write c cell with
      | error fault =>
          have hread : s.read c = .error fault := by
            rw [← h.read]
            exact write_eq_error_iff.1 hwrite'
          rw [write_eq_error_iff.2 hread] at hwrite
          contradiction
      | ok t' =>
          refine .inr ⟨t, t', rfl, rfl, ?_, ?_⟩
          · intro d
            obtain ⟨hself, hother⟩ := write_stored hwrite
            obtain ⟨hself', hother'⟩ := write_stored hwrite'
            by_cases hd : d = c
            · rw [hd, hself, hself']
            · rw [hother d hd, hother' d hd, h.read]
          · have hpar := parallel_of_shape (write_shape hwrite)
            have hpar' := parallel_of_shape (write_shape hwrite')
            exact {
              dims := by rw [hpar'.dims, h.parallel.dims, hpar.dims]
              contains := fun d => by rw [hpar'.contains, h.parallel.contains, hpar.contains]
              allows := fun d => by rw [hpar'.allows, h.parallel.allows, hpar.allows]
              move := fun d e => by rw [hpar'.move, h.parallel.move, hpar.move]
              origin := by rw [hpar'.origin, h.parallel.origin, hpar.origin]
              heading := by rw [hpar'.heading, h.parallel.heading, hpar.heading] }

end Lookalikes

end Space

namespace Extent

/-- The coordinates of a torus are all enumerated. -/
theorem mem_coordinates
    {sizes : List Nat} {xs : List Int64}
    (h : List.Forall₂ InRing sizes xs) :
    xs ∈ coordinates sizes := by
  induction h with
  | nil =>
      simp [coordinates]
  | @cons size x sizes xs hx _ ih =>
      obtain ⟨hnonneg, hlt⟩ := hx
      have hbound := Int64.toInt_lt x
      have hvalue : Int64.ofNat x.toInt.toNat = x := by
        rw [← Int64.toInt_inj, Int64.toInt_ofNat_of_lt (by omega)]
        omega
      simp only [coordinates, List.mem_flatMap, List.mem_range, List.mem_map]
      exact ⟨x.toInt.toNat, by omega, xs, ih, by rw [hvalue]⟩

end Extent

namespace Torus

variable {s : Space C} {t t' : Torus C} {c d : Coord}

theorem contains_of_extent
    (h : t'.extent = t.extent)
    (c : Coord) :
    t'.contains c = t.contains c := by
  simp only [contains, indexOf, h]

/-- What a torus says of coordinates outside it depends on its sizes alone. -/
theorem read_of_not_contains
    (hextent : t'.extent = t.extent)
    (h : t.contains c = false) :
    t'.read c = t.read c := by
  cases hindex : t.indexOf c with
  | ok i =>
      simp [contains, hindex] at h
  | error fault =>
      have hindex' : t'.indexOf c = .error fault := by
        rw [← hindex]
        simp only [indexOf, hextent]
      rw [read_eq_error_iff.2 hindex, read_eq_error_iff.2 hindex']

/-- A torus that shows at each of its coordinates what a space shows there. -/
structure Flattens (t : Torus C) (s : Space C) : Prop where
  shape : s.base.shape = .toroidal t.sizes
  read : ∀ c, t.contains c = true → t.read c = s.read c

/-- The torus with one cell as a space shows it. -/
def touch (s : Space C) (t : Torus C) (c : Coord) : Torus C :=
  (s.read c >>= t.write c).toOption.getD t

theorem touch_reads
    (hread : ∀ c, t.contains c = true → ∃ cell, s.read c = .ok cell) :
    (t.touch s d).extent = t.extent ∧
      ∀ c, t.contains c = true → c = d ∨ t.read c = s.read c →
        (t.touch s d).read c = s.read c := by
  unfold touch
  cases hcell : s.read d with
  | error fault =>
      refine ⟨rfl, ?_⟩
      rintro c hc (rfl | hsame)
      · obtain ⟨cell, hok⟩ := hread c hc
        rw [hok] at hcell
        contradiction
      · exact hsame
  | ok cell =>
      change
        ((t.write d cell).toOption.getD t).extent = t.extent ∧
          ∀ c, t.contains c = true → c = d ∨ t.read c = s.read c →
            ((t.write d cell).toOption.getD t).read c = s.read c
      cases hwrite : t.write d cell with
      | error fault =>
          refine ⟨rfl, ?_⟩
          rintro c hc (rfl | hsame)
          · obtain ⟨value, hok⟩ := read_of_contains hc
            rw [write_eq_error_iff, hok] at hwrite
            contradiction
          · exact hsame
      | ok t' =>
          obtain ⟨hself, hother⟩ := write_stored hwrite
          refine ⟨write_extent hwrite, ?_⟩
          rintro c hc h
          by_cases hcd : c = d
          · subst hcd
            exact hself.trans hcell.symm
          · rcases h with hd | hsame
            · exact absurd hd hcd
            · exact (hother c hcd).trans hsame

/-- The torus with the cells that a space shows at some coordinates. -/
def repainted (s : Space C) (t : Torus C) (coords : List Coord) : Torus C :=
  coords.foldl (fun t c => t.touch s c) t

theorem repainted_reads
    (coords : List Coord)
    (hread : ∀ c, t.contains c = true → ∃ cell, s.read c = .ok cell) :
    (t.repainted s coords).extent = t.extent ∧
      ∀ c, t.contains c = true → c ∈ coords ∨ t.read c = s.read c →
        (t.repainted s coords).read c = s.read c := by
  induction coords generalizing t with
  | nil =>
      simp [repainted]
  | cons d coords ih =>
      obtain ⟨hextent, htouch⟩ := touch_reads (d := d) hread
      have hcontains := contains_of_extent hextent
      have hih := ih (t := t.touch s d) fun c hc => hread c (by rw [← hcontains, hc])
      refine ⟨hih.1.trans hextent, ?_⟩
      intro c hc h
      refine hih.2 c (by rw [hcontains, hc]) ?_
      rcases h with hmem | hsame
      · rcases List.mem_cons.1 hmem with rfl | hrest
        · exact .inr (htouch c hc (.inl rfl))
        · exact .inl hrest
      · exact .inr (htouch c hc (.inr hsame))

/-- Every overlay over a torus can be flattened: its cells are written over those of the torus. -/
theorem repainted_flattens
    (hbase : s.base = .torus t) :
    Flattens (t.repainted s ((Extent.coordinates t.sizes).map Coord.mk)) s := by
  have hread : ∀ c, t.contains c = true → ∃ cell, s.read c = .ok cell := by
    intro c hc
    apply Space.read_of_contains
    rw [Space.contains, hbase]
    exact hc
  obtain ⟨hextent, hcells⟩ :=
    repainted_reads ((Extent.coordinates t.sizes).map Coord.mk) hread
  constructor
  · rw [hbase]
    exact congrArg (fun e : Extent => Shape.toroidal e.sizes) hextent.symm
  · intro c hc
    rw [contains_of_extent hextent] at hc
    refine hcells c hc (.inl ?_)
    exact List.mem_map.2 ⟨c.components, Extent.mem_coordinates (contains_iff.1 hc), rfl⟩

/-- A flattened overlay looks like the overlay, if the layers hold coordinates of the torus only. -/
theorem Flattens.lookalike
    (h : Flattens t s)
    (hlayers : ∀ c, s.masks c = true → s.contains c = true) :
    Space.Lookalike s (.ground (.torus t)) := by
  have hparallel : Space.Parallel s (.ground (.torus t)) :=
    Space.parallel_of_base h.shape.symm
  refine ⟨?_, hparallel⟩
  intro c
  cases hc : t.contains c with
  | true =>
      exact h.read c hc
  | false =>
      have houtside : s.contains c = false := by
        rw [← hparallel.contains]
        exact hc
      have hmasks : s.masks c = false := by
        cases hmasked : s.masks c with
        | false =>
            rfl
        | true =>
            rw [hlayers c hmasked] at houtside
            contradiction
      rw [Space.read_of_not_masked hmasks]
      cases hbase : s.base with
      | sparse p =>
          have hshape := h.shape
          rw [hbase] at hshape
          contradiction
      | torus t₀ =>
          have hshape := h.shape
          rw [hbase] at hshape
          have hextent : t₀.extent = t.extent :=
            Extent.eq_of_sizes (Shape.toroidal.inj hshape)
          exact (read_of_not_contains hextent hc).symm

end Torus

namespace Befunge

open Focus Act

section Twins

/-- Two pointers that differ in the space alone, whose spaces cannot be told apart.  The first space
is what writes have made of `s₀`. -/
structure Twins (s₀ : Space UInt8) (f g : Focus) : Prop where
  ip : g.ip = f.ip
  shared : g.shared = f.shared
  space : Space.Lookalike f.space g.space
  sheltered : Space.Sheltered s₀ f.space

variable {s₀ : Space UInt8} {Q : Fault → Prop}

theorem skip_twins
    (hQ : ∀ fault, Q fault) :
    Agree (Twins s₀) Q skip skip := by
  intro f g h
  unfold skip
  rw [h.ip, h.space.parallel.move]
  cases f.space.move f.ip.position f.ip.direction with
  | ok position =>
      exact .ok () { h with ip := rfl }
  | error fault =>
      exact .error (hQ fault) h

theorem mark_twins
    (hQ : ∀ fault, Q fault)
    (c : Coord) (cell : UInt8) :
    Agree (Twins s₀) Q (mark c cell) (mark c cell) := by
  intro f g h
  unfold mark
  rcases Space.lookalike_write h.space c cell with
    ⟨fault, hwrite, hwrite'⟩ | ⟨t, t', hwrite, hwrite', hlookalike⟩
  · rw [hwrite, hwrite']
    exact .error (hQ fault) h
  · rw [hwrite, hwrite']
    exact .ok () { h with space := hlookalike, sheltered := h.sheltered.write hwrite }

theorem onState_twins
    {α : Type}
    (hQ : ∀ fault, Q fault)
    (act : Act Bag α) :
    Agree (Twins s₀) Q (onState act) (onState act) := by
  refine agree_zoom_alike ?_ ?_ hQ
  · intro f g h
    rw [h.ip]
  · intro f g state h
    exact { h with ip := by rw [h.ip] }

theorem onShared_twins
    {α : Type}
    (hQ : ∀ fault, Q fault)
    (act : Act Bag α) :
    Agree (Twins s₀) Q (onShared act) (onShared act) := by
  refine agree_zoom_alike ?_ ?_ hQ
  · intro f g h
    exact h.shared.symm
  · intro f g shared h
    exact { h with shared := rfl }

theorem flush_twins
    (hQ : ∀ fault, Q fault) :
    Agree (Twins s₀) Q flushOutput flushOutput := by
  intro f g h
  unfold flushOutput
  rw [h.shared]
  cases f.shared.get outputKey with
  | ok sink =>
      exact onShared_twins hQ _ f g h
  | error fault =>
      exact .ok () h

/-- Programs cannot tell lookalikes apart. -/
theorem respects_twins
    (s₀ : Space UInt8) :
    Respects (Twins s₀) (fun _ _ => True) (fun _ => True) where
  operate _ _ _ := onState_twins (fun _ => trivial) _
  choose := onState_twins (fun _ => trivial) _
  toggle := onState_twins (fun _ => trivial) _
  turn _ _ _ := agree_change_alike fun _ _ h => { h with ip := by rw [h.ip] }
  bridge := skip_twins fun _ => trivial
  look _ _ := agree_ask_alike (fun _ _ h => (h.space.read _).symm) fun _ => trivial
  mark _ _ _ := mark_twins (fun _ => trivial) _ _
  print _ _ _ _ _ := onShared_twins (fun _ => trivial) _
  flush _ _ := flush_twins fun _ => trivial
  input _ _ _ _ := onShared_twins (fun _ => trivial) _
  widen _ _ _ := trivial
  underfoot :=
    agree_ask_alike (fun _ _ h => by rw [h.ip, h.space.read]) fun _ => trivial
  inString :=
    agree_ask_alike (fun _ _ h => by rw [h.ip]) fun _ => trivial
  closeString := agree_change_alike fun _ _ h => { h with ip := by rw [h.ip] }
  move := skip_twins fun _ => trivial

end Twins

/-- Runs respect what the primitive actions of commands respect: they take as many strides and end
alike. -/
theorem strides_agree
    {R : Focus → Focus → Prop} {Q : Command → Fault → Prop} {S : Fault → Prop}
    {f g : Focus}
    (h : Respects R Q S)
    (hR : R f g)
    (n : Nat) :
    (strides n g).1 = (strides n f).1 ∧ Alike R S (strides n f).2 (strides n g).2 := by
  induction n generalizing f g with
  | zero =>
      exact ⟨rfl, .ok _ hR⟩
  | succ n ih =>
      have hstride := stride_agree h f g hR
      unfold strides
      generalize stride f = r at hstride ⊢
      generalize stride g = r' at hstride ⊢
      cases hstride with
      | error hS hR' =>
          exact ⟨rfl, .error hS hR'⟩
      | ok decision hR' =>
          cases decision with
          | halt result =>
              exact ⟨rfl, .ok _ hR'⟩
          | proceed =>
              obtain ⟨hcount, halike⟩ := ih hR'
              exact ⟨congrArg (· + 1) hcount, halike⟩

end Befunge

namespace Engine

open Befunge Act

variable {σ : Type}

/-- Two engines that differ in the space alone, the first over what a run has made of `space` and
the second over a torus that shows the same cells.  In the torus at the bottom of the first space,
the cells under the layers are as they were and all others are those that the space shows. -/
structure Merged (space : Space UInt8) (e e' : Engine UInt8 σ) : Prop where
  ips : e'.machine.ips = e.machine.ips
  shared : e'.machine.shared = e.machine.shared
  supply : e'.machine.supply = e.machine.supply
  ticks : e'.ticks = e.ticks
  current : e'.current = e.current
  halted : e'.halted = e.halted
  read : ∀ c, e'.machine.space.read c = e.machine.space.read c
  shape : e.machine.space.shape = space.shape
  masks : ∀ c, e.machine.space.masks c = space.masks c
  ground : ∀ c, space.masks c = true → e.machine.space.base.read c = space.base.read c
  bare : ∀ c, space.masks c = false → e.machine.space.base.read c = e.machine.space.read c

variable {space : Space UInt8} {e e' : Engine UInt8 σ} {f g : Focus} {S : Fault → Prop}

theorem Merged.of_twins
    (h : Twins space f g)
    (hsupply : e'.machine.supply = e.machine.supply)
    (hticks : e'.ticks = e.ticks)
    (hcurrent : e'.current = e.current)
    (hhalted : e'.halted = e.halted) :
    Merged space (e.withFocus f) (e'.withFocus g) where
  ips := congrArg (fun ip => [ip]) h.ip
  shared := h.shared
  supply := hsupply
  ticks := hticks
  current := hcurrent
  halted := hhalted
  read := h.space.read
  shape := h.sheltered.shape
  masks := h.sheltered.masks
  ground := h.sheltered.ground
  bare c hc := by
    have hmasks : f.space.masks c = false := by
      rw [h.sheltered.masks]
      exact hc
    exact (Space.read_of_not_masked hmasks).symm

theorem ran_merged
    {k : Nat} {r r' : EStateM.Result Fault Focus (RunOutcome UInt8)}
    (h : Alike (Twins space) S r r')
    (hsupply : e'.machine.supply = e.machine.supply)
    (hticks : e'.ticks = e.ticks)
    (hcurrent : e'.current = e.current)
    (hhalted : e'.halted = e.halted) :
    Alike (Merged space) S (e.ran (k, r)) (e'.ran (k, r')) := by
  have hcount : e'.ticks + k = e.ticks + k := by
    rw [hticks]
  cases h with
  | error hS htwins =>
      have hid := congrArg (some ∘ Ip.id) htwins.ip
      exact .error hS (.of_twins htwins hsupply hcount hid hhalted)
  | ok outcome htwins =>
      cases outcome with
      | halted result =>
          exact .ok _ (.of_twins htwins hsupply hcount hcurrent rfl)
      | tickLimit =>
          exact .ok _ (.of_twins htwins hsupply hcount hcurrent hhalted)

theorem newIp_of_parallel
    {s s' : Space UInt8}
    (h : Space.Parallel s s')
    (supply : Supply) :
    newIp s' supply = newIp s supply := by
  simp only [newIp, h.origin, h.heading]

theorem twins_of_lookalike
    {s s' : Space UInt8}
    (h : Space.Lookalike s s')
    (shared : Bag) (supply : Supply) :
    Twins s
      { ip := (newIp s supply).1, space := s, shared }
      { ip := (newIp s' supply).1, space := s', shared } where
  ip := by rw [newIp_of_parallel h.parallel]
  shared := rfl
  space := h
  sheltered := Space.sheltered_refl s

/-- A run over layers equals the run on the merged grid.  Over a torus with two axes, and layers at
any depth that hold coordinates of the torus only, there is a torus that shows the same cells; and a
Befunge-93 engine runs over the one as it runs over the other, to the same outcome, pointer, streams
and number of ticks, and to spaces that show the same cells.  The layers keep their writes to
themselves. -/
theorem runFor_flattened
    {t : Torus UInt8}
    (hbase : space.base = .torus t)
    (hdims : t.dims = 2)
    (hlayers : ∀ c, space.masks c = true → space.contains c = true) :
    (∃ flat : Torus UInt8, flat.Flattens space) ∧
    ∀ flat : Torus UInt8, flat.Flattens space →
      ∀ (shared : Bag) (supply : Supply) (memory : σ) (n : Nat),
        ∃ e e' r r',
          start space Befunge.language shared supply memory = .ok e ∧
          start (.ground (.torus flat)) Befunge.language shared supply memory = .ok e' ∧
          e.runFor n = some r ∧
          e'.runFor n = some r' ∧
          Alike (Merged space) (fun _ => True) r r' := by
  refine ⟨⟨_, Torus.repainted_flattens hbase⟩, ?_⟩
  intro flat hflat shared supply memory n
  obtain ⟨width, height, hsizes⟩ : ∃ width height, t.sizes = [width, height] :=
    List.length_eq_two.1 hdims
  have hplane : space.shape.plane? = some (width, height) :=
    Space.plane?_eq_some_iff.2 ⟨t, hbase, hsizes⟩
  have hplane' : (Space.ground (.torus flat)).shape.plane? = some (width, height) := by
    refine Space.plane?_eq_some_iff.2 ⟨flat, rfl, ?_⟩
    have hshape := hflat.shape
    rw [hbase] at hshape
    rw [← Shape.toroidal.inj hshape]
    exact hsizes
  have hlookalike := hflat.lookalike hlayers
  obtain ⟨hcount, halike⟩ :=
    strides_agree (respects_twins space) (twins_of_lookalike hlookalike shared supply) n
  refine
    ⟨_, _, _, _,
      start_of_plane (by rw [hplane]; rfl) shared supply memory,
      start_of_plane (by rw [hplane']; rfl) shared supply memory,
      runFor_fresh space shared supply memory n,
      runFor_fresh (.ground (.torus flat)) shared supply memory n, ?_⟩
  rw [← Prod.eta (strides n { ip := (newIp (.ground (.torus flat)) supply).1, space := _, shared }),
    hcount]
  refine ran_merged halike ?_ rfl rfl rfl
  exact congrArg Prod.snd (newIp_of_parallel hlookalike.parallel supply)

/-- A layer over the ring of two cells replaces the command to halt by one that fails. -/
theorem runFor_flattened_overlay :
    ∃ (flat : Torus UInt8) (e e' : Engine UInt8 Unit)
      (r r' : Reached UInt8 Unit (RunOutcome UInt8)),
      flat.Flattens
        (.overlay (.ground (.torus Torus.shortRing)) [.ofList [(.planar 1 0, 103)]]) ∧
      start (.overlay (.ground (.torus Torus.shortRing)) [.ofList [(.planar 1 0, 103)]])
        Befunge.language .empty { dice := .loaded } () = .ok e ∧
      start (.ground (.torus flat)) Befunge.language .empty { dice := .loaded } () = .ok e' ∧
      e.runFor 2 = some r ∧
      e'.runFor 2 = some r' ∧
      Alike
        (Merged (.overlay (.ground (.torus Torus.shortRing)) [.ofList [(.planar 1 0, 103)]]))
        (fun _ => True) r r' := by
  have hlayers :
      ∀ c,
        (Space.overlay (.ground (.torus Torus.shortRing))
          [.ofList [(.planar 1 0, (103 : UInt8))]]).masks c = true →
        (Space.overlay (.ground (.torus Torus.shortRing))
          [.ofList [(.planar 1 0, (103 : UInt8))]]).contains c = true := by
    intro c hc
    have hplanar : Coord.planar 1 0 = c := by
      simpa [Space.masks, Layer.ofList] using hc
    rw [← hplanar]
    rfl
  have hbase :
      (Space.overlay (.ground (.torus Torus.shortRing))
        [.ofList [(.planar 1 0, (103 : UInt8))]]).base = .torus Torus.shortRing :=
    rfl
  obtain ⟨⟨flat, hflat⟩, hruns⟩ := runFor_flattened (σ := Unit) hbase rfl hlayers
  obtain ⟨e, e', r, r', hruns⟩ := hruns flat hflat .empty { dice := .loaded } () 2
  exact ⟨flat, e, e', r, r', hflat, hruns⟩

end Engine

end FungeTrace
