import FungeTrace.Proofs.Store
import FungeTrace.Space.Sharing
import Mathlib.Data.List.Nodup
import Mathlib.Logic.Relation

/-!
# Kindred overlays

Overlays that are derived from one another are kin: they stand on one shared backing space and share
the layers they had in common when the one was derived from the other.

* A view reads what its holder shows: `Family.read_eq_shown`.  So a write, which changes its holder
  at one coordinate, is seen there by those views that have the same holder, and by no others:
  `Family.read_write`.  To the view itself it is a write to the space that it shows:
  `Family.resolve_write`.
* No write changes which coordinates a layer holds, and new layers get stores of their own.  What is
  already there keeps its holders, its shape and its steps, however the kinship goes on:
  `Kinship.Step.evolves` for one step and `Kinship.evolves` for any number.
-/

namespace FungeTrace

variable {C : Type}

/-- A view whose stores are all there. -/
def View.Within (grounds layers : Nat) : View → Prop
  | .ground slot => slot < grounds
  | .overlay backing own => backing.Within grounds layers ∧ ∀ slot ∈ own, slot < layers

theorem View.Within.mono
    {view : View} {grounds grounds' layers layers' : Nat}
    (h : view.Within grounds layers)
    (hgrounds : grounds ≤ grounds')
    (hlayers : layers ≤ layers') :
    view.Within grounds' layers' := by
  induction view with
  | ground slot =>
      exact Nat.lt_of_lt_of_le h hgrounds
  | overlay backing own ih =>
      refine ⟨ih h.1, ?_⟩
      intro slot hslot
      exact Nat.lt_of_lt_of_le (h.2 slot hslot) hlayers

/-- The layers of a view, those of its backing last. -/
def View.slots : View → List Nat
  | .ground _ => []
  | .overlay backing own => own ++ backing.slots

theorem View.Within.slot_lt
    {view : View} {grounds layers slot : Nat}
    (h : view.Within grounds layers)
    (hslot : slot ∈ view.slots) :
    slot < layers := by
  induction view with
  | ground =>
      contradiction
  | overlay backing own ih =>
      rcases List.mem_append.1 hslot with hown | hbelow
      · exact h.2 slot hown
      · exact ih h.1 hbelow

theorem Ground.write_shape
    {g g' : Ground C} {c : Coord} {cell : C}
    (h : g.write c cell = .ok g') :
    g'.shape = g.shape := by
  have hwrite : (Space.ground g).write c cell = .ok (.ground g') := by
    simp only [Space.write, h]
    rfl
  exact Space.write_shape hwrite

namespace Family

variable {f f' f'' : Family C} {view : View} {s : Space C} {c d : Coord} {cell : C}
  {h h' : Holder}

section Showing

/-- What a store shows at a coordinate, if there is such a store and it shows something. -/
def shown (f : Family C) (c : Coord) : Holder → Option (Except Fault C)
  | .ground slot => f.grounds[slot]?.map (·.read c)
  | .layer slot => (f.layers[slot]?.bind (·[c]?)).map .ok

/-- What a view shows at a coordinate. -/
def read (f : Family C) (view : View) (c : Coord) : Option (Except Fault C) :=
  (f.resolve view).map (·.read c)

/-- Whether a store has a layer that holds a coordinate. -/
def holds (f : Family C) (c : Coord) (slot : Nat) : Bool :=
  f.layers[slot]?.any (·.contains c)

theorem holds_iff
    {slot : Nat} :
    f.holds c slot = true ↔ ∃ layer, f.layers[slot]? = some layer ∧ layer.contains c = true := by
  unfold holds
  cases f.layers[slot]? with
  | none =>
      simp
  | some layer =>
      simp

theorem resolve_overlay
    {backing : View} {own : List Nat}
    (hs : f.resolve (.overlay backing own) = some s) :
    ∃ below layers,
      f.resolve backing = some below ∧
      own.mapM (f.layers[·]?) = some layers ∧
      s = .overlay below layers := by
  simp only [resolve, Option.bind_eq_bind, Option.bind_eq_some_iff, Option.pure_def,
    Option.some.injEq] at hs
  obtain ⟨below, hbelow, layers, hlayers, rfl⟩ := hs
  exact ⟨below, layers, hbelow, hlayers, rfl⟩

/-- The first store that holds a coordinate has the cell that the layers show. -/
theorem findSome?_eq_find?
    {own : List Nat} {layers : List (Layer C)}
    (hlayers : own.mapM (f.layers[·]?) = some layers)
    (c : Coord) :
    layers.findSome? (·[c]?) =
      (own.find? (f.holds c)).bind fun slot => f.layers[slot]?.bind (·[c]?) := by
  induction own generalizing layers with
  | nil =>
      simp only [List.mapM_nil, Option.pure_def, Option.some.injEq] at hlayers
      subst hlayers
      rfl
  | cons slot own ih =>
      simp only [List.mapM_cons, Option.bind_eq_bind, Option.bind_eq_some_iff, Option.pure_def,
        Option.some.injEq] at hlayers
      obtain ⟨layer, hlayer, rest, hrest, rfl⟩ := hlayers
      cases hc : layer[c]? with
      | some value =>
          have hholds : f.holds c slot = true :=
            holds_iff.2 ⟨layer, hlayer, by rw [Std.ExtTreeMap.contains_eq_isSome_getElem?, hc]; rfl⟩
          simp [hc, hholds, hlayer]
      | none =>
          have hholds : f.holds c slot = false := by
            rw [holds, hlayer, Option.any_some, Std.ExtTreeMap.contains_eq_isSome_getElem?, hc]
            rfl
          simp [hc, hholds, ih hrest]

theorem holder_overlay
    (f : Family C) (c : Coord) (backing : View) (own : List Nat) :
    f.holder c (.overlay backing own) =
      match own.find? (f.holds c) with
      | some slot => .layer slot
      | none => f.holder c backing := by
  rfl

/-- A view reads what its holder shows. -/
theorem shown_holder
    (hs : f.resolve view = some s)
    (c : Coord) :
    f.shown c (f.holder c view) = some (s.read c) := by
  induction view generalizing s with
  | ground slot =>
      obtain ⟨g, hg, rfl⟩ := Option.map_eq_some_iff.1 hs
      simp [holder, shown, hg, Space.read]
  | overlay backing own ih =>
      obtain ⟨below, layers, hbelow, hlayers, rfl⟩ := resolve_overlay hs
      have hcells := findSome?_eq_find? hlayers c
      rw [holder_overlay]
      cases hfind : own.find? (f.holds c) with
      | none =>
          rw [hfind] at hcells
          simp only [Option.bind_none] at hcells
          simp only [Space.read, hcells]
          exact ih hbelow
      | some slot =>
          obtain ⟨layer, hlayer, hcontains⟩ := holds_iff.1 (List.find?_some hfind)
          rw [Std.ExtTreeMap.contains_eq_isSome_getElem?] at hcontains
          obtain ⟨value, hvalue⟩ := Option.isSome_iff_exists.1 hcontains
          rw [hfind] at hcells
          simp only [Option.bind_some, hlayer, hvalue] at hcells
          simp only [Space.read, hcells, shown, hlayer, Option.bind_some, hvalue, Option.map_some]

theorem mapM_of_lt
    {own : List Nat}
    (hown : ∀ slot ∈ own, slot < f.layers.size) :
    ∃ layers, own.mapM (f.layers[·]?) = some layers := by
  induction own with
  | nil =>
      exact ⟨[], rfl⟩
  | cons slot own ih =>
      obtain ⟨layers, hlayers⟩ := ih fun n hn => hown n (List.mem_cons_of_mem slot hn)
      have hslot := hown slot List.mem_cons_self
      refine ⟨f.layers[slot] :: layers, ?_⟩
      simp [List.mapM_cons, hslot, hlayers]

/-- A view whose stores are all there shows a space. -/
theorem resolve_of_within
    (hview : view.Within f.grounds.size f.layers.size) :
    ∃ s, f.resolve view = some s := by
  induction view with
  | ground slot =>
      have hslot : slot < f.grounds.size := hview
      exact ⟨.ground f.grounds[slot], by simp [resolve, hslot]⟩
  | overlay backing own ih =>
      obtain ⟨below, hbelow⟩ := ih hview.1
      obtain ⟨layers, hlayers⟩ := mapM_of_lt hview.2
      exact ⟨.overlay below layers, by simp [resolve, hbelow, hlayers]⟩

theorem read_eq_shown
    (hview : view.Within f.grounds.size f.layers.size)
    (c : Coord) :
    f.read view c = f.shown c (f.holder c view) := by
  obtain ⟨s, hs⟩ := resolve_of_within hview
  rw [shown_holder hs, read, hs]
  rfl

theorem mem_slots_of_holder
    {slot : Nat}
    (hholder : f.holder c view = .layer slot) :
    slot ∈ view.slots := by
  induction view with
  | ground slot' =>
      contradiction
  | overlay backing own ih =>
      rw [holder_overlay] at hholder
      cases hfind : own.find? (f.holds c) with
      | none =>
          rw [hfind] at hholder
          exact List.mem_append_right _ (ih hholder)
      | some slot' =>
          rw [hfind] at hholder
          obtain rfl := Holder.layer.inj hholder
          exact List.mem_append_left _ (List.mem_of_find?_eq_some hfind)

theorem holder_within
    {grounds layers slot : Nat}
    (hview : view.Within grounds layers)
    (hholder : f.holder c view = .layer slot) :
    slot < layers :=
  hview.slot_lt (mem_slots_of_holder hholder)

end Showing

section Evolution

/-- What becomes of a family by writes and new stores: every store is still there, a ground keeps
its shape, and a layer holds the coordinates it held. -/
structure Evolves (f f' : Family C) : Prop where
  grounds :
    ∀ (slot : Nat) (g : Ground C), f.grounds[slot]? = some g →
      ∃ g' : Ground C, f'.grounds[slot]? = some g' ∧ g'.shape = g.shape
  layers :
    ∀ (slot : Nat) (layer : Layer C), f.layers[slot]? = some layer →
      ∃ layer' : Layer C,
        f'.layers[slot]? = some layer' ∧ ∀ c, layer'.contains c = layer.contains c

theorem evolves_refl
    (f : Family C) :
    Evolves f f where
  grounds _ g hg := ⟨g, hg, rfl⟩
  layers _ layer hlayer := ⟨layer, hlayer, fun _ => rfl⟩

theorem Evolves.trans
    (h₁ : Evolves f f')
    (h₂ : Evolves f' f'') :
    Evolves f f'' where
  grounds slot g hg := by
    obtain ⟨g', hg', hshape⟩ := h₁.grounds slot g hg
    obtain ⟨g'', hg'', hshape'⟩ := h₂.grounds slot g' hg'
    exact ⟨g'', hg'', hshape'.trans hshape⟩
  layers slot layer hlayer := by
    obtain ⟨layer', hlayer', hcontains⟩ := h₁.layers slot layer hlayer
    obtain ⟨layer'', hlayer'', hcontains'⟩ := h₂.layers slot layer' hlayer'
    exact ⟨layer'', hlayer'', fun c => (hcontains' c).trans (hcontains c)⟩

theorem Evolves.layers_le
    (h : Evolves f f') :
    f.layers.size ≤ f'.layers.size := by
  by_contra hlt
  have hslot : f'.layers.size < f.layers.size := by omega
  obtain ⟨layer', hlayer', _⟩ :=
    h.layers f'.layers.size f.layers[f'.layers.size] (by simp [hslot])
  simp at hlayer'

theorem Evolves.grounds_le
    (h : Evolves f f') :
    f.grounds.size ≤ f'.grounds.size := by
  by_contra hlt
  have hslot : f'.grounds.size < f.grounds.size := by omega
  obtain ⟨g', hg', _⟩ :=
    h.grounds f'.grounds.size f.grounds[f'.grounds.size] (by simp [hslot])
  simp at hg'

theorem Evolves.holds
    {slot : Nat}
    (h : Evolves f f')
    (hslot : slot < f.layers.size)
    (c : Coord) :
    f'.holds c slot = f.holds c slot := by
  have hlayer : f.layers[slot]? = some f.layers[slot] := by simp [hslot]
  obtain ⟨layer', hlayer', hcontains⟩ := h.layers slot _ hlayer
  simp only [Family.holds, hlayer, hlayer', Option.any_some, hcontains]

theorem Evolves.find?
    {own : List Nat}
    (h : Evolves f f')
    (hown : ∀ slot ∈ own, slot < f.layers.size)
    (c : Coord) :
    own.find? (f'.holds c) = own.find? (f.holds c) := by
  induction own with
  | nil =>
      rfl
  | cons slot own ih =>
      have hrest := ih fun n hn => hown n (List.mem_cons_of_mem slot hn)
      simp only [List.find?_cons, h.holds (hown slot List.mem_cons_self), hrest]

/-- What is there keeps its holders. -/
theorem Evolves.holder
    (h : Evolves f f')
    (hview : view.Within f.grounds.size f.layers.size)
    (c : Coord) :
    f'.holder c view = f.holder c view := by
  induction view with
  | ground slot =>
      rfl
  | overlay backing own ih =>
      rw [holder_overlay, holder_overlay, h.find? hview.2, ih hview.1]

theorem Evolves.mapM
    {own : List Nat} {layers : List (Layer C)}
    (h : Evolves f f')
    (hlayers : own.mapM (f.layers[·]?) = some layers) :
    ∃ layers',
      own.mapM (f'.layers[·]?) = some layers' ∧
      layers'.length = layers.length ∧
      ∀ c, layers'.any (·.contains c) = layers.any (·.contains c) := by
  induction own generalizing layers with
  | nil =>
      exact ⟨layers, hlayers, rfl, fun _ => rfl⟩
  | cons slot own ih =>
      simp only [List.mapM_cons, Option.bind_eq_bind, Option.bind_eq_some_iff, Option.pure_def,
        Option.some.injEq] at hlayers
      obtain ⟨layer, hlayer, rest, hrest, rfl⟩ := hlayers
      obtain ⟨layer', hlayer', hcontains⟩ := h.layers slot layer hlayer
      obtain ⟨rest', hrest', hlength, hany⟩ := ih hrest
      refine ⟨layer' :: rest', ?_, ?_, ?_⟩
      · simp [List.mapM_cons, hlayer', hrest']
      · simp [hlength]
      · intro c
        simp only [List.any_cons, hcontains, hany]

/-- What is there keeps its shape, and its layers the coordinates they hold. -/
theorem Evolves.resolve
    (h : Evolves f f')
    (hs : f.resolve view = some s) :
    ∃ s',
      f'.resolve view = some s' ∧
      s'.shape = s.shape ∧
      ∀ c, s'.shadows c = s.shadows c := by
  induction view generalizing s with
  | ground slot =>
      obtain ⟨g, hg, rfl⟩ := Option.map_eq_some_iff.1 hs
      obtain ⟨g', hg', hshape⟩ := h.grounds slot g hg
      exact ⟨.ground g', by simp [Family.resolve, hg'], hshape, fun _ => rfl⟩
  | overlay backing own ih =>
      obtain ⟨below, layers, hbelow, hlayers, rfl⟩ := resolve_overlay hs
      obtain ⟨below', hbelow', hshape, _⟩ := ih hbelow
      obtain ⟨layers', hlayers', hlength, hany⟩ := h.mapM hlayers
      refine ⟨.overlay below' layers', ?_, ?_, hany⟩
      · simp [Family.resolve, hbelow', hlayers']
      · simp only [Space.shape, hlength, hshape]

theorem addLayers_evolves
    (f : Family C) (layers : List (Layer C)) :
    Evolves f (f.addLayers layers).2 where
  grounds _ g hg := ⟨g, hg, rfl⟩
  layers slot layer hlayer := by
    have hslot : slot < f.layers.size := (Array.getElem?_eq_some_iff.1 hlayer).1
    refine ⟨layer, ?_, fun _ => rfl⟩
    change (f.layers ++ layers.toArray)[slot]? = some layer
    rw [Array.getElem?_append_left hslot]
    exact hlayer

end Evolution

section Writing

/-- Two families with the same store in a place. -/
def Unaltered (f f' : Family C) : Holder → Prop
  | .ground slot => f'.grounds[slot]? = f.grounds[slot]?
  | .layer slot => f'.layers[slot]? = f.layers[slot]?

/-- A family of which one store has been changed at one coordinate. -/
structure Altered
    (f f' : Family C) (h : Holder) (c : Coord) (cell : C) : Prop where
  self : f'.shown c h = some (.ok cell)
  other : ∀ d, d ≠ c → f'.shown d h = f.shown d h
  apart : ∀ h', h' ≠ h → f.Unaltered f' h'

theorem Unaltered.shown
    (hsame : f.Unaltered f' h)
    (d : Coord) :
    f'.shown d h = f.shown d h := by
  cases h with
  | ground slot =>
      have hground : f'.grounds[slot]? = f.grounds[slot]? := hsame
      simp only [Family.shown, hground]
  | layer slot =>
      have hlayer : f'.layers[slot]? = f.layers[slot]? := hsame
      simp only [Family.shown, hlayer]

theorem getElem?_modify_of_ne
    {slot slot' : Nat}
    (h : slot' ≠ slot) :
    (f.layers.modify slot (·.insert c cell))[slot']? = f.layers[slot']? := by
  simp [Array.getElem?_modify, Ne.symm h]

theorem insert_altered
    {slot : Nat} {layer : Layer C}
    (hlayer : f.layers[slot]? = some layer)
    (hc : layer.contains c = true) :
    f.Altered { f with layers := f.layers.modify slot (·.insert c cell) } (.layer slot) c cell ∧
      Evolves f { f with layers := f.layers.modify slot (·.insert c cell) } := by
  have hself :
      (f.layers.modify slot (·.insert c cell))[slot]? = some (layer.insert c cell) := by
    simp [Array.getElem?_modify, hlayer]
  refine ⟨⟨?_, ?_, ?_⟩, ⟨fun _ g hg => ⟨g, hg, rfl⟩, ?_⟩⟩
  · simp [Family.shown, hself]
  · intro d hd
    simp [Family.shown, hself, hlayer, Std.ExtTreeMap.getElem?_insert, Ne.symm hd]
  · intro h' hh'
    cases h' with
    | ground slot' =>
        rfl
    | layer slot' =>
        exact getElem?_modify_of_ne fun heq => hh' (heq ▸ rfl)
  · intro slot' layer' hlayer'
    by_cases hslot : slot' = slot
    · subst hslot
      obtain rfl := Option.some.inj (hlayer.symm.trans hlayer')
      exact ⟨layer.insert c cell, hself, Space.contains_insert_of_contains hc⟩
    · exact ⟨layer', (getElem?_modify_of_ne hslot).trans hlayer', fun _ => rfl⟩

theorem set_altered
    {slot : Nat} {g g' : Ground C}
    (hg : f.grounds[slot]? = some g)
    (hwrite : g.write c cell = .ok g') :
    f.Altered { f with grounds := f.grounds.setIfInBounds slot g' } (.ground slot) c cell ∧
      Evolves f { f with grounds := f.grounds.setIfInBounds slot g' } := by
  have hslot : slot < f.grounds.size := (Array.getElem?_eq_some_iff.1 hg).1
  have hself : (f.grounds.setIfInBounds slot g')[slot]? = some g' := by
    simp [hslot]
  have hother :
      ∀ slot', slot' ≠ slot →
        (f.grounds.setIfInBounds slot g')[slot']? = f.grounds[slot']? := by
    intro slot' hne
    simp [Array.getElem?_setIfInBounds_ne (Ne.symm hne)]
  obtain ⟨hread, hreads⟩ := Ground.write_stored hwrite
  refine ⟨⟨?_, ?_, ?_⟩, ⟨?_, fun _ layer hlayer => ⟨layer, hlayer, fun _ => rfl⟩⟩⟩
  · simp [Family.shown, hself, hread]
  · intro d hd
    simp [Family.shown, hself, hg, hreads d hd]
  · intro h' hh'
    cases h' with
    | ground slot' =>
        exact hother slot' fun heq => hh' (heq ▸ rfl)
    | layer slot' =>
        rfl
  · intro slot' g₁ hg₁
    by_cases hne : slot' = slot
    · subst hne
      obtain rfl := Option.some.inj (hg.symm.trans hg₁)
      exact ⟨g', hself, Ground.write_shape hwrite⟩
    · exact ⟨g₁, (hother slot' hne).trans hg₁, rfl⟩

theorem store_altered
    {r : Except Fault C}
    (hshown : f.shown c h = some r)
    (hstore : f.store c cell h = .ok f') :
    f.Altered f' h c cell ∧ Evolves f f' := by
  cases h with
  | layer slot =>
      obtain rfl := Except.ok.inj hstore
      simp only [Family.shown, Option.map_eq_some_iff, Option.bind_eq_some_iff] at hshown
      obtain ⟨value, ⟨layer, hlayer, hvalue⟩, _⟩ := hshown
      exact insert_altered hlayer (by rw [Std.ExtTreeMap.contains_eq_isSome_getElem?, hvalue]; rfl)
  | ground slot =>
      obtain ⟨g, hg, _⟩ := Option.map_eq_some_iff.1 hshown
      simp only [store, hg] at hstore
      obtain ⟨g', hg', rfl⟩ := of_map_ok hstore
      exact set_altered hg hg'

theorem write_altered
    (hview : view.Within f.grounds.size f.layers.size)
    (hwrite : f.write view c cell = .ok f') :
    f.Altered f' (f.holder c view) c cell ∧ Evolves f f' := by
  obtain ⟨s, hs⟩ := resolve_of_within hview
  exact store_altered (shown_holder hs c) hwrite

/-- A write is seen at its own coordinate, by the views that have the same holder there. -/
theorem read_write
    {other : View}
    (hview : view.Within f.grounds.size f.layers.size)
    (hother : other.Within f.grounds.size f.layers.size)
    (hwrite : f.write view c cell = .ok f')
    (d : Coord) :
    f'.read other d =
      if d = c ∧ f.holder c other = f.holder c view then some (.ok cell)
      else f.read other d := by
  obtain ⟨haltered, hevolves⟩ := write_altered hview hwrite
  have hother' := hother.mono hevolves.grounds_le hevolves.layers_le
  rw [read_eq_shown hother' d, read_eq_shown hother d, hevolves.holder hother]
  by_cases hholder : f.holder d other = f.holder c view
  · by_cases hd : d = c
    · subst hd
      rw [if_pos ⟨rfl, hholder⟩, hholder]
      exact haltered.self
    · rw [if_neg fun h => hd h.1, hholder]
      exact haltered.other d hd
  · rw [(haltered.apart _ hholder).shown d, if_neg]
    rintro ⟨rfl, hsame⟩
    exact hholder hsame

section Refinement

theorem mapM_unaltered
    {stores stores' : Array (Layer C)} {own : List Nat}
    (hown : ∀ slot ∈ own, stores'[slot]? = stores[slot]?) :
    own.mapM (stores'[·]?) = own.mapM (stores[·]?) := by
  induction own with
  | nil =>
      rfl
  | cons slot own ih =>
      rw [List.mapM_cons, List.mapM_cons, hown slot List.mem_cons_self,
        ih fun n hn => hown n (List.mem_cons_of_mem slot hn)]

theorem resolve_modify_of_notMem
    {slot : Nat}
    (h : slot ∉ view.slots)
    (c : Coord) (cell : C) :
    resolve { f with layers := f.layers.modify slot (·.insert c cell) } view = f.resolve view := by
  induction view with
  | ground slot' =>
      rfl
  | overlay backing own ih =>
      have hown :
          own.mapM ((f.layers.modify slot (·.insert c cell))[·]?) = own.mapM (f.layers[·]?) := by
        apply mapM_unaltered
        intro slot' hslot'
        apply getElem?_modify_of_ne
        rintro rfl
        exact h (List.mem_append_left _ hslot')
      simp only [resolve, hown, ih fun hbelow => h (List.mem_append_right _ hbelow)]

/-- Writing to the first store that holds a coordinate writes to the topmost layer that does. -/
theorem mapM_modify
    {own : List Nat} {layers : List (Layer C)} {slot : Nat}
    (hown : own.Nodup)
    (hlayers : own.mapM (f.layers[·]?) = some layers)
    (hfind : own.find? (f.holds c) = some slot)
    (cell : C) :
    ∃ layers',
      Space.writeLayers c cell layers = some layers' ∧
      own.mapM ((f.layers.modify slot (·.insert c cell))[·]?) = some layers' := by
  induction own generalizing layers with
  | nil =>
      contradiction
  | cons first own ih =>
      simp only [List.mapM_cons, Option.bind_eq_bind, Option.bind_eq_some_iff, Option.pure_def,
        Option.some.injEq] at hlayers
      obtain ⟨layer, hlayer, rest, hrest, rfl⟩ := hlayers
      obtain ⟨hfresh, hown⟩ := List.nodup_cons.1 hown
      have hholds : f.holds c first = layer.contains c := by
        rw [holds, hlayer, Option.any_some]
      rw [List.find?_cons, hholds] at hfind
      rw [Space.writeLayers, List.mapM_cons]
      by_cases hc : layer.contains c = true
      · -- The first store is the one, and it is not met again.
        rw [hc] at hfind
        obtain rfl := Option.some.inj hfind
        have hothers :
            own.mapM ((f.layers.modify first (·.insert c cell))[·]?) = some rest := by
          rw [← hrest]
          apply mapM_unaltered
          intro slot' hslot'
          apply getElem?_modify_of_ne
          rintro rfl
          exact hfresh hslot'
        have hself :
            (f.layers.modify first (·.insert c cell))[first]? = some (layer.insert c cell) := by
          simp [Array.getElem?_modify, hlayer]
        refine ⟨layer.insert c cell :: rest, if_pos hc, ?_⟩
        rw [hself, hothers]
        rfl
      · rw [Bool.not_eq_true] at hc
        rw [hc] at hfind
        have hne : first ≠ slot := by
          rintro rfl
          exact hfresh (List.mem_of_find?_eq_some hfind)
        obtain ⟨rest', hwritten, hmodified⟩ := ih hown hrest hfind
        refine ⟨layer :: rest', ?_, ?_⟩
        · rw [hwritten, hc]
          rfl
        · rw [getElem?_modify_of_ne hne, hlayer, hmodified]
          rfl

theorem resolve_overlay_eq
    {backing : View} {own : List Nat} {below : Space C} {layers : List (Layer C)}
    (hbelow : f.resolve backing = some below)
    (hlayers : own.mapM (f.layers[·]?) = some layers) :
    f.resolve (.overlay backing own) = some (.overlay below layers) := by
  rw [resolve, hbelow, hlayers]
  rfl

/-- A write changes none of the layers that are not the holder. -/
theorem layers_of_store
    {slot : Nat}
    (hslot : h ≠ .layer slot)
    (hstore : f.store c cell h = .ok f') :
    f'.layers[slot]? = f.layers[slot]? := by
  cases h with
  | layer slot' =>
      obtain rfl := Except.ok.inj hstore
      apply getElem?_modify_of_ne
      rintro rfl
      exact hslot rfl
  | ground slot' =>
      rw [store] at hstore
      split at hstore
      · obtain ⟨g', _, rfl⟩ := of_map_ok hstore
        rfl
      · rw [Except.ok.inj hstore]

/-- What is written below an overlay is shown under its layers, which stay as they are. -/
theorem resolve_overlay_of_write
    {backing : View} {own : List Nat} {layers : List (Layer C)}
    (hlayers : own.mapM (f.layers[·]?) = some layers)
    (hdisjoint : ∀ slot ∈ own, slot ∉ backing.slots)
    (hwrite : f.write backing c cell = .ok f') :
    f'.resolve (.overlay backing own) = (f'.resolve backing).map (Space.overlay · layers) := by
  have hlayers' : own.mapM (f'.layers[·]?) = some layers := by
    rw [← hlayers]
    apply mapM_unaltered
    intro slot hslot
    refine layers_of_store ?_ hwrite
    intro hholder
    exact hdisjoint slot hslot (mem_slots_of_holder hholder)
  rw [resolve, hlayers']
  cases f'.resolve backing with
  | none =>
      rfl
  | some below =>
      rfl

/-- A write through a view whose layers are stores of their own is a write to the space that the
view shows: it fails with the same fault, or the view shows the written space afterwards. -/
theorem resolve_write
    (hs : f.resolve view = some s)
    (hslots : view.slots.Nodup)
    (c : Coord) (cell : C) :
    (f.write view c cell).map (·.resolve view) = (s.write c cell).map some := by
  induction view generalizing s with
  | ground slot =>
      obtain ⟨g, hg, rfl⟩ := Option.map_eq_some_iff.1 hs
      have hslot : slot < f.grounds.size := (Array.getElem?_eq_some_iff.1 hg).1
      simp only [write, holder, store, hg, Space.write]
      cases g.write c cell with
      | error fault =>
          rfl
      | ok g' =>
          change Except.ok (Space.ground <$> (f.grounds.setIfInBounds slot g')[slot]?) = _
          rw [Array.getElem?_setIfInBounds_self_of_lt hslot]
          rfl
  | overlay backing own ih =>
      obtain ⟨below, layers, hbelow, hlayers, rfl⟩ := resolve_overlay hs
      obtain ⟨hown, hbacking, hdisjoint⟩ := List.nodup_append.1 hslots
      rw [write, holder_overlay, Space.write]
      cases hfind : own.find? (f.holds c) with
      | some slot =>
          have hslot : slot ∉ backing.slots := by
            intro hmem
            exact hdisjoint slot (List.mem_of_find?_eq_some hfind) slot hmem rfl
          obtain ⟨layers', hwritten, hmodified⟩ := mapM_modify hown hlayers hfind cell
          have hbelow' := (resolve_modify_of_notMem hslot c cell).trans hbelow
          rw [hwritten]
          exact congrArg Except.ok (resolve_overlay_eq hbelow' hmodified)
      | none =>
          have hnone : Space.writeLayers c cell layers = none := by
            rw [Space.writeLayers_eq_none_iff, findSome?_eq_find? hlayers, hfind]
            rfl
          rw [hnone]
          dsimp only
          have hpasses :
              ∀ f', f.write backing c cell = .ok f' →
                f'.resolve (.overlay backing own) =
                  (f'.resolve backing).map (Space.overlay · layers) := by
            intro f'
            refine resolve_overlay_of_write hlayers ?_
            intro slot hslot hmem
            exact hdisjoint slot hslot slot hmem rfl
          calc
            (f.write backing c cell).map (·.resolve (.overlay backing own))
              = ((f.write backing c cell).map (·.resolve backing)).map
                  (Option.map (Space.overlay · layers)) := by
                cases hwrite : f.write backing c cell with
                | error fault =>
                    rfl
                | ok f' =>
                    exact congrArg Except.ok (hpasses f' hwrite)
            _ = ((below.write c cell).map some).map (Option.map (Space.overlay · layers)) := by
                rw [ih hbelow hbacking]
            _ = ((Space.overlay · layers) <$> below.write c cell).map some := by
                cases below.write c cell with
                | error fault =>
                    rfl
                | ok below' =>
                    rfl

end Refinement

/-- The topmost of a view's own layers that holds a coordinate; `none` stands for the backing
space. -/
def topmost (f : Family C) (c : Coord) : View → Option Nat
  | .ground _ => none
  | .overlay _ own => own.find? (f.holds c)

end Writing

section Stores

theorem add_within
    (f : Family C) (space : Space C) :
    (f.add space).1.Within (f.add space).2.grounds.size (f.add space).2.layers.size := by
  induction space generalizing f with
  | ground g =>
      simp [add, addGround, View.Within]
  | overlay backing layers ih =>
      obtain hbacking := ih f
      simp only [add, addLayers, View.Within]
      refine ⟨hbacking.mono (Nat.le_refl _) (by simp), ?_⟩
      intro slot hslot
      simp only [List.mem_map, List.mem_range] at hslot
      obtain ⟨i, hi, rfl⟩ := hslot
      simpa using hi

theorem mem_addLayers
    {layers : List (Layer C)} {slot : Nat}
    (h : slot ∈ (f.addLayers layers).1) :
    f.layers.size ≤ slot ∧ slot < (f.addLayers layers).2.layers.size := by
  simp only [addLayers, List.mem_map, List.mem_range] at h
  obtain ⟨i, hi, rfl⟩ := h
  simp [addLayers, hi]

theorem nodup_addLayers
    (f : Family C) (layers : List (Layer C)) :
    (f.addLayers layers).1.Nodup := by
  refine List.Nodup.map ?_ List.nodup_range
  intro i j hij
  exact Nat.add_left_cancel hij

/-- Every layer of a space gets a store of its own. -/
theorem nodup_slots_add
    (f : Family C) (space : Space C) :
    (f.add space).1.slots.Nodup := by
  induction space generalizing f with
  | ground g =>
      exact List.nodup_nil
  | overlay backing layers ih =>
      refine List.nodup_append.2 ⟨nodup_addLayers _ layers, ih f, ?_⟩
      rintro slot hnew _ hold rfl
      have hlow := (add_within f backing).slot_lt hold
      have hhigh := (mem_addLayers hnew).1
      omega

/-- Of new layers on top, one that holds a coordinate becomes its holder. -/
theorem holder_withLayers
    {backing : View} {own : List Nat} {layers : List (Layer C)}
    (h : layers.any (·.contains c) = true) :
    ∃ slot,
      f.layers.size ≤ slot ∧
      (f.addLayers layers).2.holder c
        (.overlay backing ((f.addLayers layers).1.reverse ++ own)) = .layer slot := by
  obtain ⟨layer, hmem, hcontains⟩ := List.any_eq_true.1 h
  obtain ⟨i, hi, hlayer⟩ := List.getElem_of_mem hmem
  have hholds : (f.addLayers layers).2.holds c (f.layers.size + i) = true := by
    refine holds_iff.2 ⟨layer, ?_, hcontains⟩
    simp [addLayers, hi, hlayer]
  have hslot : f.layers.size + i ∈ (f.addLayers layers).1.reverse := by
    simp [addLayers, hi]
  have hsome :
      ((f.addLayers layers).1.reverse.find? ((f.addLayers layers).2.holds c)).isSome = true :=
    List.find?_isSome.2 ⟨_, hslot, hholds⟩
  obtain ⟨slot, hfind⟩ := Option.isSome_iff_exists.1 hsome
  refine ⟨slot, ?_, ?_⟩
  · exact (mem_addLayers (List.mem_reverse.1 (List.mem_of_find?_eq_some hfind))).1
  · rw [holder_overlay, List.find?_append, hfind]
    rfl

end Stores

end Family

/-- Overlays over one shared backing space, and the stores that they are made of. -/
structure Kinship (C : Type) where
  family : Family C
  backing : View
  members : List View

namespace Kinship

variable {k k' : Kinship C} {view : View} {base : Nat}

/-- A backing space that has no overlays yet. -/
def found (space : Space C) : Kinship C where
  family := (Family.empty.add space).2
  backing := (Family.empty.add space).1
  members := []

/-- The kinship with one more member, and the stores that came with it. -/
def adopt (k : Kinship C) (added : View × Family C) : Kinship C :=
  { k with family := added.2, members := added.1 :: k.members }

/-- One thing that can be done with kindred overlays: an overlay is put over the backing space, a
member is copied or gets layers on top, or a member is written through. -/
inductive Step :
    Kinship C →
      Kinship C →
      Prop
  | cover
      (k : Kinship C) :
      Step k (k.adopt (.overlay k.backing [], k.family))
  | clone
      {k : Kinship C} {view : View}
      (hview : view ∈ k.members) :
      Step k (k.adopt (k.family.duplicate view))
  | withLayers
      {k : Kinship C} {view : View}
      (hview : view ∈ k.members)
      (layers : List (Layer C)) :
      Step k (k.adopt (k.family.withLayers view layers))
  | withCell
      {k : Kinship C} {view : View}
      (hview : view ∈ k.members)
      (c : Coord) (cell : C) :
      Step k (k.adopt (k.family.withLayers view [.ofList [(c, cell)]]))
  | write
      {k : Kinship C} {view : View} {c : Coord} {cell : C} {f : Family C}
      (hview : view ∈ k.members)
      (hwrite : k.family.write view c cell = .ok f) :
      Step k { k with family := f }

/-- Members stand on the backing space, and their own layers are not among those of the backing
space, which are numbered below `base`.  No view has a layer twice. -/
structure Orderly (base : Nat) (k : Kinship C) : Prop where
  backing : k.backing.Within k.family.grounds.size base
  distinct : k.backing.slots.Nodup
  base_le : base ≤ k.family.layers.size
  members :
    ∀ view ∈ k.members, ∃ own,
      view = .overlay k.backing own ∧
      own.Nodup ∧
      ∀ slot ∈ own, base ≤ slot ∧ slot < k.family.layers.size

theorem Orderly.within
    (h : Orderly base k)
    (hview : view ∈ k.members) :
    view.Within k.family.grounds.size k.family.layers.size := by
  obtain ⟨own, rfl, _, hown⟩ := h.members view hview
  exact ⟨h.backing.mono (Nat.le_refl _) h.base_le, fun slot hslot => (hown slot hslot).2⟩

theorem Orderly.nodup_slots
    (h : Orderly base k)
    (hview : view ∈ k.members) :
    view.slots.Nodup := by
  obtain ⟨own, rfl, hdistinct, hown⟩ := h.members view hview
  refine List.nodup_append.2 ⟨hdistinct, h.distinct, ?_⟩
  rintro slot hslot _ hbelow rfl
  have hlow := h.backing.slot_lt hbelow
  have hhigh := (hown slot hslot).1
  omega

theorem orderly_found
    (space : Space C) :
    Orderly (found space).family.layers.size (found space) where
  backing := Family.add_within Family.empty space
  distinct := Family.nodup_slots_add Family.empty space
  base_le := Nat.le_refl _
  members view hview := by
    simp [found] at hview

/-- What one step does: the members stay, a family evolves, and the order is kept. -/
structure Extends (k k' : Kinship C) : Prop where
  family : k.family.Evolves k'.family
  backing : k'.backing = k.backing
  members : ∀ view ∈ k.members, view ∈ k'.members

theorem Orderly.evolve
    {f : Family C}
    (h : Orderly base k)
    (hf : k.family.Evolves f) :
    Orderly base { k with family := f } where
  backing := h.backing.mono hf.grounds_le (Nat.le_refl _)
  distinct := h.distinct
  base_le := Nat.le_trans h.base_le hf.layers_le
  members view hview := by
    obtain ⟨own, hown, hdistinct, hslots⟩ := h.members view hview
    refine ⟨own, hown, hdistinct, ?_⟩
    intro slot hslot
    exact ⟨(hslots slot hslot).1, Nat.lt_of_lt_of_le (hslots slot hslot).2 hf.layers_le⟩

theorem Orderly.adopt
    {own : List Nat} {f : Family C}
    (h : Orderly base k)
    (hf : k.family.Evolves f)
    (hdistinct : own.Nodup)
    (hown : ∀ slot ∈ own, base ≤ slot ∧ slot < f.layers.size) :
    Orderly base (k.adopt (.overlay k.backing own, f)) where
  backing := (h.evolve hf).backing
  distinct := h.distinct
  base_le := (h.evolve hf).base_le
  members view hview := by
    rcases List.mem_cons.1 hview with rfl | hview
    · exact ⟨own, rfl, hdistinct, hown⟩
    · exact (h.evolve hf).members view hview

theorem orderly_withLayers
    (h : Orderly base k)
    (hview : view ∈ k.members)
    (layers : List (Layer C)) :
    k.family.Evolves (k.family.withLayers view layers).2 ∧
      Orderly base (k.adopt (k.family.withLayers view layers)) := by
  obtain ⟨own, rfl, hdistinct, hown⟩ := h.members view hview
  have hevolves := Family.addLayers_evolves k.family layers
  refine ⟨hevolves, h.adopt hevolves ?_ ?_⟩
  · refine List.nodup_append.2
      ⟨List.nodup_reverse.2 (Family.nodup_addLayers k.family layers), hdistinct, ?_⟩
    rintro slot hnew _ hold rfl
    have hhigh := (Family.mem_addLayers (List.mem_reverse.1 hnew)).1
    have hlow := (hown slot hold).2
    omega
  · intro slot hslot
    rcases List.mem_append.1 hslot with hnew | hold
    · have hbounds := Family.mem_addLayers (List.mem_reverse.1 hnew)
      exact ⟨Nat.le_trans h.base_le hbounds.1, hbounds.2⟩
    · exact ⟨(hown slot hold).1, Nat.lt_of_lt_of_le (hown slot hold).2 hevolves.layers_le⟩

/-- What one step keeps. -/
theorem Step.evolves
    (hstep : Step k k')
    (h : Orderly base k) :
    Orderly base k' ∧ Extends k k' := by
  cases hstep with
  | cover =>
      refine ⟨h.adopt (Family.evolves_refl _) List.nodup_nil (by simp), ?_⟩
      exact ⟨Family.evolves_refl _, rfl, fun view hview => List.mem_cons_of_mem _ hview⟩
  | @clone view hview =>
      obtain ⟨own, rfl, hdistinct, hown⟩ := h.members view hview
      refine ⟨h.adopt (Family.evolves_refl _) hdistinct hown, ?_⟩
      exact ⟨Family.evolves_refl _, rfl, fun view hview => List.mem_cons_of_mem _ hview⟩
  | withLayers hview layers =>
      obtain ⟨hevolves, horderly⟩ := orderly_withLayers h hview layers
      exact ⟨horderly, hevolves, rfl, fun view hview => List.mem_cons_of_mem _ hview⟩
  | withCell hview c cell =>
      obtain ⟨hevolves, horderly⟩ := orderly_withLayers h hview [.ofList [(c, cell)]]
      exact ⟨horderly, hevolves, rfl, fun view hview => List.mem_cons_of_mem _ hview⟩
  | write hview hwrite =>
      obtain ⟨_, hevolves⟩ := Family.write_altered (h.within hview) hwrite
      exact ⟨h.evolve hevolves, hevolves, rfl, fun _ hview => hview⟩

/-- What any number of steps keeps. -/
theorem evolves
    (hsteps : Relation.ReflTransGen Step k k')
    (h : Orderly base k) :
    Orderly base k' ∧ Extends k k' := by
  induction hsteps with
  | refl =>
      exact ⟨h, Family.evolves_refl _, rfl, fun _ hview => hview⟩
  | tail _ hstep ih =>
      obtain ⟨horderly, hextends⟩ := ih
      obtain ⟨horderly', hextends'⟩ := hstep.evolves horderly
      refine ⟨horderly', hextends.family.trans hextends'.family, ?_, ?_⟩
      · exact hextends'.backing.trans hextends.backing
      · intro view hview
        exact hextends'.members view (hextends.members view hview)

theorem Orderly.within_backing
    (h : Orderly base k)
    (hview : view ∈ k.backing :: k.members) :
    view.Within k.family.grounds.size k.family.layers.size := by
  rcases List.mem_cons.1 hview with rfl | hview
  · exact h.backing.mono (Nat.le_refl _) h.base_le
  · exact h.within hview

/-- The holder is the topmost layer of a member, or else what holds the coordinate in the backing
space. -/
theorem holder_member
    (h : Orderly base k)
    (hview : view ∈ k.members)
    (c : Coord) :
    k.family.holder c view =
      ((k.family.topmost c view).map .layer).getD (k.family.holder c k.backing) := by
  obtain ⟨own, rfl, _⟩ := h.members view hview
  rw [Family.holder_overlay]
  simp only [Family.topmost]
  cases own.find? (k.family.holds c) with
  | none =>
      rfl
  | some slot =>
      rfl

/-- A layer of a member is none of the backing space: its number is too high. -/
theorem holder_backing_ne
    {slot : Nat} {c : Coord}
    (h : Orderly base k)
    (hview : view ∈ k.members)
    (htop : k.family.topmost c view = some slot) :
    k.family.holder c k.backing ≠ .layer slot := by
  obtain ⟨own, rfl, _, hown⟩ := h.members view hview
  intro hholder
  have hlow := Family.holder_within h.backing hholder
  have hhigh := (hown slot (List.mem_of_find?_eq_some htop)).1
  omega

theorem holder_backing_iff
    (h : Orderly base k)
    (hview : view ∈ k.members)
    (c : Coord) :
    k.family.holder c k.backing = k.family.holder c view ↔ k.family.topmost c view = none := by
  rw [holder_member h hview]
  cases htop : k.family.topmost c view with
  | none =>
      simp
  | some slot =>
      simpa using holder_backing_ne h hview htop

/-- Two members have the same holder of a coordinate if and only if the same of their layers is the
topmost that holds it, or for both it is left to the backing space. -/
theorem holder_eq_iff
    {A B : View}
    (h : Orderly base k)
    (hA : A ∈ k.members)
    (hB : B ∈ k.members)
    (c : Coord) :
    k.family.holder c B = k.family.holder c A ↔
      k.family.topmost c B = k.family.topmost c A := by
  rw [holder_member h hA, holder_member h hB]
  cases htopA : k.family.topmost c A with
  | none =>
      cases htopB : k.family.topmost c B with
      | none =>
          simp
      | some slotB =>
          simpa using (holder_backing_ne h hB htopB).symm
  | some slotA =>
      cases htopB : k.family.topmost c B with
      | none =>
          simpa using holder_backing_ne h hA htopA
      | some slotB =>
          simp

/-- What new layers hold is kept from the member that they were put on. -/
theorem read_withLayers
    {layers : List (Layer C)} {c : Coord} {cell : C} {f : Family C}
    (h : Orderly base k)
    (hview : view ∈ k.members)
    (hlayers : layers.any (·.contains c) = true)
    (hsteps : Relation.ReflTransGen Step (k.adopt (k.family.withLayers view layers)) k')
    (hwrite : k'.family.write (k.family.withLayers view layers).1 c cell = .ok f)
    (d : Coord) :
    f.read view d = k'.family.read view d := by
  obtain ⟨hevolves, horderly⟩ := orderly_withLayers h hview layers
  obtain ⟨horderly', hextends⟩ := evolves hsteps horderly
  have hnew : (k.family.withLayers view layers).1 ∈ k'.members :=
    hextends.members _ List.mem_cons_self
  have hold : view ∈ k'.members := hextends.members _ (List.mem_cons_of_mem _ hview)
  rw [Family.read_write (horderly'.within hnew) (horderly'.within hold) hwrite, if_neg]
  rintro ⟨_, hsame⟩
  -- The holder in the new member is a new store, and the old member has none of those.
  have hholder :
      ∃ slot, k.family.layers.size ≤ slot ∧
        (k.family.withLayers view layers).2.holder c (k.family.withLayers view layers).1 =
          .layer slot := by
    obtain ⟨own, rfl, _⟩ := h.members view hview
    exact Family.holder_withLayers hlayers
  obtain ⟨slot, hslot, hholder⟩ := hholder
  have hnewHolder := hextends.family.holder (horderly.within List.mem_cons_self) c
  have holdHolder := (hevolves.trans hextends.family).holder (h.within hview) c
  rw [hnewHolder, holdHolder] at hsame
  have hlow := Family.holder_within (h.within hview) (hsame.trans hholder)
  omega

/-- Kindred overlays share what they should.  A write through a member is a write to the space that
it shows.  It changes one store, the holder of its coordinate, at that coordinate; it is read there
by those who have the same holder, the backing space among them, and by nobody anywhere else.
Holders are told by the topmost layers.  Whatever is done afterwards, layers hold the coordinates
they held, and members keep their holders, shapes and steps.  What is written at a coordinate of new
layers is never seen by the member below them. -/
theorem kindred_writes
    {space : Space C}
    (hk : Relation.ReflTransGen Step (found space) k) :
    (∀ A ∈ k.members, ∃ s,
      k.family.resolve A = some s ∧
      ∀ c cell, (k.family.write A c cell).map (·.resolve A) = (s.write c cell).map some) ∧
    (∀ A ∈ k.members, ∀ c cell f, k.family.write A c cell = .ok f →
      k.family.Altered f (k.family.holder c A) c cell ∧
      ∀ B ∈ k.backing :: k.members, ∀ d,
        f.read B d =
          if d = c ∧ k.family.holder c B = k.family.holder c A then some (.ok cell)
          else k.family.read B d) ∧
    (∀ A ∈ k.members, ∀ c,
      k.family.holder c A =
        ((k.family.topmost c A).map .layer).getD (k.family.holder c k.backing) ∧
      (k.family.holder c k.backing = k.family.holder c A ↔ k.family.topmost c A = none) ∧
      ∀ B ∈ k.members,
        (k.family.holder c B = k.family.holder c A ↔
          k.family.topmost c B = k.family.topmost c A)) ∧
    (∀ k', Relation.ReflTransGen Step k k' →
      k.family.Evolves k'.family ∧
      ∀ B ∈ k.members,
        B ∈ k'.members ∧
        (∀ c, k'.family.holder c B = k.family.holder c B) ∧
        ∃ s s',
          k.family.resolve B = some s ∧
          k'.family.resolve B = some s' ∧
          s'.shape = s.shape ∧
          (∀ c, s'.shadows c = s.shadows c) ∧
          Space.Parallel s s') ∧
    (∀ A ∈ k.members, ∀ layers c, layers.any (·.contains c) = true →
      ∀ k', Relation.ReflTransGen Step (k.adopt (k.family.withLayers A layers)) k' →
      ∀ cell f, k'.family.write (k.family.withLayers A layers).1 c cell = .ok f →
      ∀ d, f.read A d = k'.family.read A d) := by
  obtain ⟨h, _⟩ := evolves hk (orderly_found space)
  refine ⟨?_, ?_, ?_, ?_, ?_⟩
  · intro A hA
    obtain ⟨s, hs⟩ := Family.resolve_of_within (h.within hA)
    exact ⟨s, hs, Family.resolve_write hs (h.nodup_slots hA)⟩
  · intro A hA c cell f hwrite
    refine ⟨(Family.write_altered (h.within hA) hwrite).1, ?_⟩
    intro B hB d
    exact Family.read_write (h.within hA) (h.within_backing hB) hwrite d
  · intro A hA c
    exact ⟨holder_member h hA c, holder_backing_iff h hA c, fun B hB => holder_eq_iff h hA hB c⟩
  · intro k' hsteps
    obtain ⟨_, hextends⟩ := evolves hsteps h
    refine ⟨hextends.family, ?_⟩
    intro B hB
    refine ⟨hextends.members B hB, hextends.family.holder (h.within hB), ?_⟩
    obtain ⟨s, hs⟩ := Family.resolve_of_within (h.within hB)
    obtain ⟨s', hs', hshape, hshadows⟩ := hextends.family.resolve hs
    exact ⟨s, s', hs, hs', hshape, hshadows, Space.parallel_of_shape hshape⟩
  · intro A hA layers c hlayers k' hsteps cell f hwrite
    exact read_withLayers h hA hlayers hsteps hwrite

/-- A bare overlay over the ring of two cells. -/
def bare : Kinship UInt8 where
  family := ⟨#[.torus Torus.shortRing], #[]⟩
  backing := .ground 0
  members := [.overlay (.ground 0) []]

/-- The bare overlay, and one derived from it that has a layer at the second cell. -/
def pair : Kinship UInt8 where
  family := ⟨#[.torus Torus.shortRing], #[.ofList [(.planar 1 0, 103)]]⟩
  backing := .ground 0
  members := [.overlay (.ground 0) [0], .overlay (.ground 0) []]

theorem pair_reached :
    Relation.ReflTransGen Step (found (.ground (.torus Torus.shortRing))) pair := by
  have hover : Step (found (.ground (.torus Torus.shortRing))) bare :=
    .cover _
  have hcell : Step bare pair :=
    @Step.withCell _ bare (.overlay (.ground 0) []) List.mem_cons_self (.planar 1 0) 103
  exact .tail (.single hover) hcell

/-- Of two writes through the derived overlay, the bare one sees that to the ring and not that to
the layer. -/
theorem kindred_writes_pair :
    Relation.ReflTransGen Step (found (.ground (.torus Torus.shortRing))) pair ∧
    ∃ f f',
      pair.family.write (.overlay (.ground 0) [0]) (.planar 1 0) 7 = .ok f ∧
      f.read (.overlay (.ground 0) [0]) (.planar 1 0) = some (.ok 7) ∧
      f.read (.overlay (.ground 0) []) (.planar 1 0) = some (.ok 64) ∧
      pair.family.write (.overlay (.ground 0) [0]) (.planar 0 0) 7 = .ok f' ∧
      f'.read (.overlay (.ground 0) []) (.planar 0 0) = some (.ok 7) := by
  refine ⟨pair_reached, ?_⟩
  obtain ⟨_, hwrites, _⟩ := kindred_writes pair_reached
  have hlayer :
      pair.family.holder (.planar 1 0) (.overlay (.ground 0) [0]) = .layer 0 := by
    simp [Family.holder, pair, Layer.ofList]
  have hring :
      pair.family.holder (.planar 0 0) (.overlay (.ground 0) [0]) = .ground 0 := by
    have hne : Coord.planar 1 0 ≠ Coord.planar 0 0 := by decide
    simp [Family.holder, pair, Layer.ofList, hne]
  have hfirst :
      ∃ f, pair.family.write (.overlay (.ground 0) [0]) (.planar 1 0) 7 = .ok f := by
    rw [Family.write, hlayer]
    exact ⟨_, rfl⟩
  have hsecond :
      ∃ f, pair.family.write (.overlay (.ground 0) [0]) (.planar 0 0) 7 = .ok f := by
    rw [Family.write, hring]
    exact ⟨_, rfl⟩
  obtain ⟨f, hfirst⟩ := hfirst
  obtain ⟨f', hsecond⟩ := hsecond
  have hsees := (hwrites _ List.mem_cons_self _ _ _ hfirst).2
  have hsees' := (hwrites _ List.mem_cons_self _ _ _ hsecond).2
  refine ⟨f, f', hfirst, ?_, ?_, hsecond, ?_⟩
  · rw [hsees _ (by simp [pair]), if_pos ⟨rfl, rfl⟩]
  · rw [hsees _ (by simp [pair]), hlayer, if_neg (by rintro ⟨_, h⟩; contradiction)]
    rfl
  · rw [hsees' _ (by simp [pair]), if_pos ⟨rfl, hring.symm⟩]

end Kinship
end FungeTrace
