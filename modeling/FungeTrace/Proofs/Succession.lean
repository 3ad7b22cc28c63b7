import FungeTrace.Proofs.LiveSequence
import FungeTrace.Proofs.Observation
import FungeTrace.Proofs.Plane

/-!
# Succession of pointers within a tick

A tick visits the live pointers by place, while the operations it executes place pointers anywhere in
the live sequence and remove them.  A tour is the sequence of the turns that pointers take in a tick.

Languages are taken to edit the live sequence with new pointers only, and observers to leave it
alone.  If moreover every pointer outlives its turn, or goes without disturbing what stands in front
of it, then the tour is fair, as `tick_fair` says: nobody has two turns, whoever is live throughout
has one, whoever stands behind the pointer at turn will have one unless removed while waiting, and
neither the pointers placed in front nor the removed ones have any.

The invariant of the loop is that the pointers with a turn to come are those from the current place
on, and others that are not numbered yet.
-/

namespace FungeTrace

/-- One execution of an operation: the pointer at turn, and the machine before and after. -/
structure Turn (C : Type) where
  id : Nat
  before : Machine C
  after : Machine C

namespace Turn

variable {C : Type}

/-- Where the pointer stood before its operation. -/
def place (t : Turn C) : Nat := (t.before.indexOf? t.id).getD 0

/-- Where the tick goes on: behind the pointer, or at its old place if it is gone. -/
def next (t : Turn C) : Nat := ((t.after.indexOf? t.id).map (· + 1)).getD t.place

/-- The pointers in front of the pointer after its operation, or of its old place. -/
def ahead (t : Turn C) : List Nat := t.after.ids.take ((t.after.indexOf? t.id).getD t.place)

/-- The pointers behind the pointer after its operation, or from its old place on. -/
def behind (t : Turn C) : List Nat := t.after.ids.drop t.next

/-- The pointers behind the pointer before its operation. -/
def waiting (t : Turn C) : List Nat := t.before.ids.drop (t.place + 1)

/-- A turn that the pointer outlives, or that leaves everything in front of it alone. -/
def Orderly (t : Turn C) : Prop :=
  t.id ∈ t.after.ids ∨ t.after.ids.take t.place = t.before.ids.take t.place

end Turn

namespace Engine

open Act

variable {C σ : Type}

section Tours

/-- The turn that a visit gives to a pointer, if it comes to an execution. -/
def turn? (e : Engine C σ) (id : Nat) : Option (Turn C) :=
  match (setCurrent (some id) >>= fun _ => notify .beforeCommand) e with
  | .error _ _ => none
  | .ok _ e =>
    match e.machine.cellUnder? id with
    | some (.ok cell) =>
      match e.language.operation cell e.current e.machine with
      | .ok _ after => some { id, before := e.machine, after }
      | .error _ _ => none
    | _ => none

/-- The turns of the visits from a place on, up to the end of the live sequence. -/
inductive Tour :
    Nat →
      Engine C σ →
      List (Turn C) →
      Engine C σ →
      Prop
  | rest
      {index : Nat} {e : Engine C σ}
      (h : e.machine.ips[index]? = none) :
      Tour index e [] e
  | turn
      {index next : Nat} {ip : Ip} {t : Turn C} {turns : List (Turn C)}
      {e e₁ e' : Engine C σ}
      (hip : e.machine.ips[index]? = some ip)
      (hturn : e.turn? ip.id = some t)
      (hvisit : visit index ip.id e = .ok (.next next) e₁)
      (htour : Tour next e₁ turns e') :
      Tour index e (t :: turns) e'

/-- A language whose operations change the live sequence by edits with new pointers only. -/
def Disciplined (language : Language C) : Prop :=
  ∀ cell current m decision m',
    language.operation cell current m = .ok decision m' →
    Machine.Edited m m'

/-- Observers that leave the live sequence alone and take no number back. -/
def Unobtrusive (observers : List (Observer C σ)) : Prop :=
  ∀ observer ∈ observers, ∀ event scene scene',
    observer event scene = .ok () scene' →
    scene'.machine.ids = scene.machine.ids ∧
      scene.machine.supply.nextId ≤ scene'.machine.supply.nextId

/-- An engine with such a language and such observers, on a machine with distinct numbers. -/
structure Ready (e : Engine C σ) : Prop where
  disciplined : Disciplined e.language
  unobtrusive : Unobtrusive e.observers
  numbered : e.machine.Numbered

end Tours

section Keeping

/-- A change of an engine that the live sequence does not notice. -/
structure Kept (e e' : Engine C σ) : Prop where
  language : e'.language = e.language
  observers : e'.observers = e.observers
  ids : e'.machine.ids = e.machine.ids
  grows : e.machine.supply.nextId ≤ e'.machine.supply.nextId

variable {e e₁ e₂ e' : Engine C σ} {index id : Nat}

theorem Kept.trans
    (h₁ : Kept e e₁)
    (h₂ : Kept e₁ e₂) :
    Kept e e₂ where
  language := h₂.language.trans h₁.language
  observers := h₂.observers.trans h₁.observers
  ids := h₂.ids.trans h₁.ids
  grows := Nat.le_trans h₁.grows h₂.grows

theorem Kept.ready
    (h : Kept e e')
    (he : Ready e) :
    Ready e' where
  disciplined := by
    rw [h.language]
    exact he.disciplined
  unobtrusive := by
    rw [h.observers]
    exact he.unobtrusive
  numbered := by
    constructor
    · rw [h.ids]
      exact he.numbered.distinct
    · intro id hid
      rw [h.ids] at hid
      exact Nat.lt_of_lt_of_le (he.numbered.drawn id hid) h.grows

theorem Kept.indexOf?
    (h : Kept e e')
    (id : Nat) :
    e'.machine.indexOf? id = e.machine.indexOf? id := by
  rw [Machine.indexOf?_eq, Machine.indexOf?_eq, h.ids]

theorem setCurrent_kept
    (id : Option Nat) (e : Engine C σ) :
    Kept e { e with current := id } :=
  ⟨rfl, rfl, rfl, Nat.le_refl _⟩

theorem notifyAll_kept
    {observers : List (Observer C σ)} {event : Event} {scene scene' : Scene C σ}
    (hobservers : Unobtrusive observers)
    (h : Observer.notifyAll event observers scene = .ok () scene') :
    scene'.machine.ids = scene.machine.ids ∧
      scene.machine.supply.nextId ≤ scene'.machine.supply.nextId := by
  induction observers generalizing scene with
  | nil =>
      obtain ⟨_, rfl⟩ : () = () ∧ scene = scene' := by
        simpa [Observer.notifyAll, pure, EStateM.pure] using h
      exact ⟨rfl, Nat.le_refl _⟩
  | cons observer rest ih =>
      obtain ⟨_, scene₁, hfirst, hrest⟩ := of_bind_ok h
      obtain ⟨hids, hgrows⟩ := hobservers observer List.mem_cons_self event scene scene₁ hfirst
      obtain ⟨hids', hgrows'⟩ :=
        ih (fun o ho => hobservers o (List.mem_cons_of_mem observer ho)) hrest
      exact ⟨hids'.trans hids, Nat.le_trans hgrows hgrows'⟩

theorem notify_kept
    {phase : Phase}
    (he : Ready e)
    (h : notify phase e = .ok () e') :
    Kept e e' := by
  obtain ⟨scene, rfl, hall⟩ := notify_ok h
  obtain ⟨hids, hgrows⟩ := notifyAll_kept he.unobtrusive hall
  exact ⟨rfl, rfl, hids, hgrows⟩

theorem onMachine_ok
    {α : Type} {act : Act (Machine C) α} {a : α}
    (h : onMachine act e = .ok a e') :
    ∃ m,
      act e.machine = .ok a m ∧
      e' = { e with scene := { e.scene with machine := m } } := by
  unfold onMachine zoom at h
  split at h
  · rename_i b m hact
    simp only [EStateM.Result.ok.injEq] at h
    exact ⟨m, by rw [hact, h.1], h.2.symm⟩
  · contradiction

theorem advance_kept
    {live : Bool}
    (h : onMachine (Machine.advance id) e = .ok live e') :
    Kept e e' ∧ (id ∈ e.machine.ids → live = true) := by
  obtain ⟨m, hadvance, rfl⟩ := onMachine_ok h
  obtain ⟨hids, hsupply, hlive⟩ := Machine.advance_ok hadvance
  refine ⟨⟨rfl, rfl, hids, ?_⟩, hlive⟩
  exact Nat.le_of_eq (congrArg Supply.nextId hsupply.symm)

end Keeping

section Visits

variable {e e' : Engine C σ} {index next id : Nat}

/-- A pointer that outlived its operation is left behind by the tick, wherever it stands. -/
theorem depart_next
    {j : Nat}
    (he : Ready e)
    (hj : e.machine.indexOf? id = some j)
    (h : depart index id e = .ok (.next next) e') :
    Kept e e' ∧ next = j + 1 := by
  have hlive : id ∈ e.machine.ids :=
    List.mem_of_getElem? (Machine.getElem_of_indexOf? hj)
  unfold depart at h
  obtain ⟨_, e₁, hafter, h⟩ := of_bind_ok h
  obtain ⟨live, e₂, hadvance, h⟩ := of_bind_ok h
  have hkept₁ := notify_kept he hafter
  obtain ⟨hkept₂, hmoved⟩ := advance_kept hadvance
  rw [hkept₁.ids] at hmoved
  rw [hmoved hlive] at h
  simp only [if_true] at h
  obtain ⟨_, e₃, hmove, h⟩ := of_bind_ok h
  have hkept := (hkept₁.trans hkept₂).trans (notify_kept ((hkept₁.trans hkept₂).ready he) hmove)
  change
    EStateM.Result.ok (Visit.next (((e₃.machine.indexOf? id).map (· + 1)).getD index)) e₃ =
      .ok (.next next) e' at h
  rw [hkept.indexOf?, hj] at h
  injection h with hnext hengine
  injection hnext with hnext
  rw [← hengine]
  exact ⟨hkept, hnext.symm⟩

/-- What a visit does that goes on: it executes the operation under the pointer, and the tick goes on
behind the pointer or at its old place. -/
theorem perform_next
    {cell : C}
    (he : Ready e)
    (h : perform index id cell e = .ok (.next next) e') :
    ∃ after,
      e.language.operation cell e.current e.machine = .ok .proceed after ∧
      Ready e' ∧
      e'.language = e.language ∧
      e'.machine.ids = after.ids ∧
      after.supply.nextId ≤ e'.machine.supply.nextId ∧
      next = ((after.indexOf? id).map (· + 1)).getD index := by
  unfold perform at h
  rw [get_bind] at h
  obtain ⟨decision, e₁, hoperation, h⟩ := of_bind_ok h
  obtain ⟨after, hafter, rfl⟩ := onMachine_ok hoperation
  have hedited := he.disciplined cell e.current e.machine decision after hafter
  have hready : Ready { e with scene := { e.scene with machine := after } } :=
    ⟨he.disciplined, he.unobtrusive, hedited.numbered he.numbered⟩
  cases decision with
  | halt result =>
      obtain ⟨_, _, _, h⟩ := of_bind_ok h
      cases h
  | proceed =>
      refine ⟨after, hafter, ?_⟩
      change
        (if (after.indexOf? id).isSome then depart index id else pure (.next index)
          : Act (Engine C σ) (Visit C)) _ = _ at h
      cases hindex : after.indexOf? id with
      | none =>
          rw [hindex] at h
          injection h with hnext hengine
          injection hnext with hnext
          rw [← hengine]
          exact ⟨hready, rfl, rfl, Nat.le_refl _, hnext.symm⟩
      | some j =>
          rw [hindex] at h
          obtain ⟨hkept, hnext⟩ := depart_next hready hindex h
          exact ⟨hkept.ready hready, hkept.language, hkept.ids, hkept.grows, hnext⟩

/-- One step of a tour: the turn of the pointer at `index`, after which the tick goes on at `next`. -/
structure Passes
    (e : Engine C σ) (index : Nat) (t : Turn C) (next : Nat) (e' : Engine C σ) : Prop where
  ready : Ready e'
  language : e'.language = e.language
  ran : ∃ cell, e.language.operation cell (some t.id) t.before = .ok .proceed t.after
  atPlace : e.machine.ids[index]? = some t.id
  before : t.before.ids = e.machine.ids
  drawn : e.machine.supply.nextId ≤ t.before.supply.nextId
  edited : Machine.Edited t.before t.after
  after : e'.machine.ids = t.after.ids
  grows : t.after.supply.nextId ≤ e'.machine.supply.nextId
  place : t.place = index
  next : next = t.next

theorem visit_next
    {ip : Ip}
    (he : Ready e)
    (hip : e.machine.ips[index]? = some ip)
    (h : visit index ip.id e = .ok (.next next) e') :
    ∃ t, e.turn? ip.id = some t ∧ Passes e index t next e' := by
  have hat : e.machine.ids[index]? = some ip.id := by
    simp [Machine.ids, hip]
  unfold visit at h
  obtain ⟨_, e₁, hset, hrest⟩ := of_bind_ok h
  obtain ⟨_, e₂, hnotify, hfetch⟩ := of_bind_ok hrest
  obtain rfl : { e with current := some ip.id } = e₁ := by
    injection hset
  have hcurrent : e₂.current = some ip.id := by
    obtain ⟨scene, rfl, _⟩ := notify_ok hnotify
    rfl
  have hkept : Kept e e₂ :=
    (setCurrent_kept (some ip.id) e).trans
      (notify_kept ((setCurrent_kept (some ip.id) e).ready he) hnotify)
  have hat₂ : e₂.machine.ids[index]? = some ip.id := by
    rw [hkept.ids]
    exact hat
  have hready := hkept.ready he
  have hindex : e₂.machine.indexOf? ip.id = some index :=
    Machine.indexOf?_of_getElem hready.numbered.distinct hat₂
  have hfound : Engine.indexOf? ip.id e₂ = .ok (some index) e₂ := by
    rw [← hindex]
    rfl
  rw [bind_ok hfound] at hfetch
  dsimp only at hfetch
  rw [get_bind] at hfetch
  cases hcell : e₂.machine.cellUnder? ip.id with
  | none =>
      have hmem : ip.id ∈ e₂.machine.ids := List.mem_of_getElem? hat₂
      have hnone : e₂.machine.ip? ip.id = none := by
        simpa [Machine.cellUnder?] using hcell
      exact absurd hmem (Machine.ip?_eq_none_iff.1 hnone)
  | some result =>
      rw [hcell] at hfetch
      dsimp only at hfetch
      cases result with
      | error fault =>
          contradiction
      | ok cell =>
          obtain ⟨after, hafter, hready', hlanguage, hids, hgrows, hnext⟩ :=
            perform_next hready hfetch
          have hran := hafter
          rw [hkept.language, hcurrent] at hran
          have hplace : (Turn.mk ip.id e₂.machine after).place = index := by
            simp [Turn.place, hindex]
          refine ⟨⟨ip.id, e₂.machine, after⟩, ?_, ?_⟩
          · unfold turn?
            rw [bind_ok hset, hnotify]
            dsimp only
            rw [hcell]
            dsimp only
            rw [hafter]
          · exact {
              ready := hready'
              language := hlanguage.trans hkept.language
              ran := ⟨cell, hran⟩
              atPlace := hat
              before := hkept.ids
              drawn := hkept.grows
              edited := hready.disciplined _ _ _ _ _ hafter
              after := hids
              grows := hgrows
              place := hplace
              next := by
                rw [hnext]
                unfold Turn.next
                rw [hplace] }

end Visits

section Fairness

variable {e e' : Engine C σ} {index : Nat} {turns : List (Turn C)}

/-- A tick that ends without a halt is a tour. -/
theorem tour_of_visitsFrom
    (he : Ready e)
    (h : visitsFrom index e = some (.ok .proceed e')) :
    ∃ turns, Tour index e turns e' ∧ Ready e' := by
  refine
    visitsFrom.partial_correctness
      (fun index e r =>
        Ready e → ∀ e', r = .ok .proceed e' → ∃ turns, Tour index e turns e' ∧ Ready e')
      ?_ index e _ h he e' rfl
  intro visitsFrom ih index e r hr he e' hproceed
  cases hip : e.machine.ips[index]? with
  | none =>
      rw [hip] at hr
      obtain rfl := Option.some.inj hr
      obtain rfl : e = e' := by
        simpa using hproceed
      exact ⟨[], .rest hip, he⟩
  | some ip =>
      rw [hip] at hr
      dsimp only at hr
      cases hvisit : visit index ip.id e with
      | error fault e₁ =>
          rw [hvisit] at hr
          obtain rfl := Option.some.inj hr
          cases hproceed
      | ok decision e₁ =>
          rw [hvisit] at hr
          cases decision with
          | halted result =>
              obtain rfl := Option.some.inj hr
              cases hproceed
          | next next =>
              obtain ⟨t, hturn, hpasses⟩ := visit_next he hip hvisit
              obtain ⟨turns, htour, he'⟩ := ih next e₁ r hr hpasses.ready e' hproceed
              exact ⟨t :: turns, .turn hip hturn hvisit htour, he'⟩

theorem Tour.visitsFrom_eq
    (htour : Tour index e turns e') :
    visitsFrom index e = some (.ok .proceed e') := by
  induction htour with
  | rest h =>
      rw [visitsFrom, h]
  | turn hip _ hvisit _ ih =>
      rw [visitsFrom, hip]
      dsimp only
      rw [hvisit]
      exact ih

theorem passes_of_turn
    {ip : Ip} {t : Turn C} {next : Nat} {e₁ : Engine C σ}
    (he : Ready e)
    (hip : e.machine.ips[index]? = some ip)
    (hturn : e.turn? ip.id = some t)
    (hvisit : visit index ip.id e = .ok (.next next) e₁) :
    Passes e index t next e₁ := by
  obtain ⟨t', hturn', hpasses⟩ := visit_next he hip hvisit
  obtain rfl : t' = t := Option.some.inj (hturn'.symm.trans hturn)
  exact hpasses

section Steps

variable {t : Turn C} {next x : Nat} {e₁ : Engine C σ}

theorem Passes.mem_before
    (h : Passes e index t next e₁) :
    t.id ∈ t.before.ids := by
  rw [h.before]
  exact List.mem_of_getElem? h.atPlace

theorem Passes.id_lt
    (he : Ready e)
    (h : Passes e index t next e₁) :
    t.id < e.machine.supply.nextId :=
  he.numbered.drawn _ (List.mem_of_getElem? h.atPlace)

theorem Passes.nextId_le
    (h : Passes e index t next e₁) :
    e.machine.supply.nextId ≤ e₁.machine.supply.nextId :=
  Nat.le_trans h.drawn (Nat.le_trans h.edited.grows h.grows)

/-- The pointer at turn stands in front of those from its place on. -/
theorem Passes.drop_eq
    (h : Passes e index t next e₁) :
    e.machine.ids.drop index = t.id :: e.machine.ids.drop (index + 1) := by
  obtain ⟨hlt, hget⟩ := List.getElem?_eq_some_iff.1 h.atPlace
  rw [List.drop_eq_getElem_cons hlt, hget]

/-- A number handed out before a turn belongs to a live pointer after it only if it did before. -/
theorem Passes.mem_of_mem_after
    (h : Passes e index t next e₁)
    (hx : x < t.before.supply.nextId)
    (hmem : x ∈ t.after.ids) :
    x ∈ e.machine.ids := by
  rw [← h.before]
  exact h.edited.survivors.subset (mem_filter_lt hmem hx)

/-- The tick goes on in front of exactly those surviving pointers that stood behind the one at
turn. -/
theorem Passes.mem_drop_iff
    (he : Ready e)
    (h : Passes e index t next e₁)
    (horderly : t.Orderly)
    (hx : x < t.before.supply.nextId)
    (hmem : x ∈ t.after.ids) :
    x ∈ e₁.machine.ids.drop next ↔ x ∈ e.machine.ids.drop (index + 1) := by
  have hbefore : t.before.ids.Nodup := by
    rw [h.before]
    exact he.numbered.distinct
  have hafter : t.after.ids.Nodup := by
    rw [← h.after]
    exact h.ready.numbered.distinct
  have hat : t.before.ids[index]? = some t.id := by
    rw [h.before]
    exact h.atPlace
  have hid : t.id < t.before.supply.nextId :=
    Nat.lt_of_lt_of_le (h.id_lt he) h.drawn
  rw [h.after, ← h.before, h.next]
  cases hplace : t.after.indexOf? t.id with
  | some j =>
      have hnext : t.next = j + 1 := by
        simp [Turn.next, hplace]
      rw [hnext]
      exact
        mem_drop_of_kept hbefore h.edited.survivors hat
          (Machine.getElem_of_indexOf? hplace) hid hx hmem
  | none =>
      have hgone := Machine.indexOf?_eq_none_iff.1 hplace
      have hnext : t.next = index := by
        simp [Turn.next, hplace, h.place]
      have hfront : t.after.ids.take index = t.before.ids.take index := by
        rcases horderly with hlive | hfront
        · exact absurd hlive hgone
        · rw [h.place] at hfront
          exact hfront
      rw [hnext]
      exact mem_drop_of_removed hbefore hafter h.edited.survivors hat hgone hfront hx hmem

end Steps

/-- A pointer has a turn only if it stood from the current place on or was not numbered yet. -/
theorem Tour.executed
    (htour : Tour index e turns e')
    (he : Ready e)
    (horderly : ∀ t ∈ turns, t.Orderly) :
    ∀ t ∈ turns,
      t.id ∈ e.machine.ids.drop index ∨ e.machine.supply.nextId ≤ t.id := by
  induction htour with
  | rest h =>
      simp
  | @turn index next ip t turns e e₁ e' hip hturn hvisit _ ih =>
      have hpasses := passes_of_turn he hip hturn hvisit
      rw [hpasses.drop_eq]
      intro u hu
      rcases List.mem_cons.1 hu with rfl | hu
      · exact .inl List.mem_cons_self
      · by_cases hold : u.id < t.before.supply.nextId
        · left
          have hlater :=
            ih hpasses.ready (fun v hv => horderly v (List.mem_cons_of_mem t hv)) u hu
          rcases hlater with hdropped | hnew
          · have hmem : u.id ∈ t.after.ids := by
              rw [← hpasses.after]
              exact List.mem_of_mem_drop hdropped
            have hbehind :=
              (hpasses.mem_drop_iff he (horderly t List.mem_cons_self) hold hmem).1 hdropped
            exact List.mem_cons_of_mem _ hbehind
          · have hle := Nat.le_trans hpasses.edited.grows hpasses.grows
            omega
        · right
          have hle := hpasses.drawn
          omega

/-- Every turn is an execution of an operation of the language, for the pointer at turn. -/
theorem Tour.ran
    (htour : Tour index e turns e')
    (he : Ready e) :
    ∀ t ∈ turns,
      ∃ cell, e.language.operation cell (some t.id) t.before = .ok .proceed t.after := by
  induction htour with
  | rest h =>
      simp
  | @turn index next ip t turns e e₁ e' hip hturn hvisit _ ih =>
      have hpasses := passes_of_turn he hip hturn hvisit
      intro u hu
      rcases List.mem_cons.1 hu with rfl | hu
      · exact hpasses.ran
      · rw [← hpasses.language]
        exact ih hpasses.ready u hu

/-- Nobody has two turns. -/
theorem Tour.nodup
    (htour : Tour index e turns e')
    (he : Ready e)
    (horderly : ∀ t ∈ turns, t.Orderly) :
    (turns.map (·.id)).Nodup := by
  induction htour with
  | rest h =>
      exact List.nodup_nil
  | @turn index next ip t turns e e₁ e' hip hturn hvisit htour ih =>
      have hpasses := passes_of_turn he hip hturn hvisit
      have hrest : ∀ u ∈ turns, u.Orderly :=
        fun u hu => horderly u (List.mem_cons_of_mem t hu)
      rw [List.map_cons, List.nodup_cons]
      refine ⟨?_, ih hpasses.ready hrest⟩
      intro hagain
      obtain ⟨u, hu, hid⟩ := List.mem_map.1 hagain
      have hlt : t.id < t.before.supply.nextId :=
        Nat.lt_of_lt_of_le (hpasses.id_lt he) hpasses.drawn
      rcases htour.executed hpasses.ready hrest u hu with hdropped | hnew
      · rw [hid] at hdropped
        have hmem : t.id ∈ t.after.ids := by
          rw [← hpasses.after]
          exact List.mem_of_mem_drop hdropped
        have hbehind :=
          (hpasses.mem_drop_iff he (horderly t List.mem_cons_self) hlt hmem).1 hdropped
        exact (not_mem_of_cut he.numbered.distinct hpasses.atPlace).2 hbehind
      · have hle := Nat.le_trans hpasses.edited.grows hpasses.grows
        omega

/-- Whoever stands from the current place on has a turn, or is removed while waiting for it. -/
theorem Tour.reached
    {x : Nat}
    (htour : Tour index e turns e')
    (he : Ready e)
    (horderly : ∀ t ∈ turns, t.Orderly)
    (hx : x ∈ e.machine.ids.drop index) :
    (∃ t ∈ turns, t.id = x) ∨ ∃ t ∈ turns, x ∈ t.waiting ∧ x ∉ t.after.ids := by
  induction htour with
  | @rest index e h =>
      have hend : e.machine.ids.length ≤ index := by
        simpa [Machine.ids] using h
      rw [List.drop_eq_nil_of_le hend] at hx
      contradiction
  | @turn index next ip t turns e e₁ e' hip hturn hvisit _ ih =>
      have hpasses := passes_of_turn he hip hturn hvisit
      rw [hpasses.drop_eq, List.mem_cons] at hx
      rcases hx with rfl | hx
      · exact .inl ⟨t, List.mem_cons_self, rfl⟩
      · by_cases hlive : x ∈ t.after.ids
        · have hold : x < t.before.supply.nextId :=
            Nat.lt_of_lt_of_le (he.numbered.drawn x (List.mem_of_mem_drop hx)) hpasses.drawn
          have hdropped :=
            (hpasses.mem_drop_iff he (horderly t List.mem_cons_self) hold hlive).2 hx
          rcases ih hpasses.ready (fun u hu => horderly u (List.mem_cons_of_mem t hu)) hdropped with
            ⟨u, hu, hid⟩ | ⟨u, hu, hremoved⟩
          · exact .inl ⟨u, List.mem_cons_of_mem t hu, hid⟩
          · exact .inr ⟨u, List.mem_cons_of_mem t hu, hremoved⟩
        · refine .inr ⟨t, List.mem_cons_self, ?_, hlive⟩
          unfold Turn.waiting
          rw [hpasses.before, hpasses.place]
          exact hx

/-- A tour with one of its turns picked out. -/
theorem Tour.split
    {earlier later : List (Turn C)} {t : Turn C}
    (htour : Tour index e (earlier ++ t :: later) e')
    (he : Ready e) :
    ∃ place next e₁ e₂,
      Ready e₁ ∧
      Passes e₁ place t next e₂ ∧
      Tour next e₂ later e' ∧
      e.machine.supply.nextId ≤ e₁.machine.supply.nextId ∧
      ∀ u ∈ earlier, u.id < e₁.machine.supply.nextId := by
  induction earlier generalizing index e with
  | nil =>
      cases htour with
      | turn hip hturn hvisit htour =>
          have hpasses := passes_of_turn he hip hturn hvisit
          exact ⟨_, _, _, _, he, hpasses, htour, Nat.le_refl _, by simp⟩
  | cons u earlier ih =>
      cases htour with
      | turn hip hturn hvisit htour =>
          have hpasses := passes_of_turn he hip hturn hvisit
          obtain ⟨place, next, e₁, e₂, he₁, ht, hlater, hle, hearlier⟩ :=
            ih htour hpasses.ready
          have hgrown := Nat.le_trans hpasses.nextId_le hle
          refine ⟨place, next, e₁, e₂, he₁, ht, hlater, hgrown, ?_⟩
          intro v hv
          rcases List.mem_cons.1 hv with rfl | hv
          · exact Nat.lt_of_lt_of_le (hpasses.id_lt he) hgrown
          · exact hearlier v hv

/-- Whoever is removed, by a number handed out already, does not come back. -/
theorem Tour.gone
    {x : Nat}
    (htour : Tour index e turns e')
    (he : Ready e)
    (hdrawn : x < e.machine.supply.nextId)
    (hx : x ∉ e.machine.ids) :
    x ∉ e'.machine.ids := by
  induction htour with
  | rest h =>
      exact hx
  | @turn index next ip t turns e e₁ e' hip hturn hvisit _ ih =>
      have hpasses := passes_of_turn he hip hturn hvisit
      refine ih hpasses.ready (Nat.lt_of_lt_of_le hdrawn hpasses.nextId_le) ?_
      rw [hpasses.after]
      intro hmem
      exact hx (hpasses.mem_of_mem_after (Nat.lt_of_lt_of_le hdrawn hpasses.drawn) hmem)

section Turns

variable {place next x : Nat} {t : Turn C} {later : List (Turn C)} {e₁ e₂ : Engine C σ}

/-- Whoever is removed has no further turn. -/
theorem Tour.not_executed_of_removed
    (hpasses : Passes e₁ place t next e₂)
    (hlater : Tour next e₂ later e')
    (horderly : ∀ u ∈ later, u.Orderly)
    (hdrawn : x < t.after.supply.nextId)
    (hafter : x ∉ t.after.ids) :
    ∀ u ∈ later, u.id ≠ x := by
  rintro u hu rfl
  rw [← hpasses.after] at hafter
  rcases hlater.executed hpasses.ready horderly u hu with hdropped | hnew
  · exact hafter (List.mem_of_mem_drop hdropped)
  · have hle := hpasses.grows
    omega

/-- Whoever is placed in front of the pointer at turn has no turn after it. -/
theorem Tour.not_executed_of_ahead
    (hpasses : Passes e₁ place t next e₂)
    (hlater : Tour next e₂ later e')
    (horderly : ∀ u ∈ later, u.Orderly)
    (hahead : x ∈ t.ahead) :
    ∀ u ∈ later, u.id ≠ x := by
  rintro u hu rfl
  have hlive : u.id ∈ e₂.machine.ids := by
    rw [hpasses.after]
    exact List.mem_of_mem_take hahead
  rcases hlater.executed hpasses.ready horderly u hu with hdropped | hnew
  · have hle : (t.after.indexOf? t.id).getD t.place ≤ next := by
      rw [hpasses.next]
      unfold Turn.next
      cases t.after.indexOf? t.id with
      | none =>
          exact Nat.le_refl _
      | some j =>
          exact Nat.le_succ j
    rw [hpasses.after] at hdropped
    have hdistinct : t.after.ids.Nodup := by
      rw [← hpasses.after]
      exact hpasses.ready.numbered.distinct
    exact List.disjoint_take_drop hdistinct hle hahead hdropped
  · have hlt := hpasses.ready.numbered.drawn _ hlive
    omega

end Turns

/-- Whoever is live from the beginning of a tour to its end has a turn. -/
theorem Tour.executed_of_live
    {x : Nat}
    (htour : Tour index e turns e')
    (he : Ready e)
    (horderly : ∀ t ∈ turns, t.Orderly)
    (hx : x ∈ e.machine.ids.drop index)
    (hx' : x ∈ e'.machine.ids) :
    x ∈ turns.map (·.id) := by
  rcases htour.reached he horderly hx with ⟨t, ht, hid⟩ | ⟨t, ht, _, hremoved⟩
  · exact List.mem_map.2 ⟨t, ht, hid⟩
  · obtain ⟨earlier, later, rfl⟩ := List.append_of_mem ht
    obtain ⟨_, _, e₁, e₂, he₁, hpasses, hlater, hle, _⟩ := htour.split he
    have hdrawn : x < e₂.machine.supply.nextId := by
      have hlt := he.numbered.drawn x (List.mem_of_mem_drop hx)
      have hgrown := Nat.le_trans hle hpasses.nextId_le
      omega
    rw [← hpasses.after] at hremoved
    exact absurd hx' (hlater.gone hpasses.ready hdrawn hremoved)

theorem openTick_kept
    (he : Ready e)
    (h : openTick e = .ok () e') :
    Kept e e' := by
  unfold openTick at h
  obtain ⟨_, e₁, hcount, hnotify⟩ := of_bind_ok h
  have hkept : Kept e e₁ := by
    injection hcount with _ hcount
    rw [← hcount]
    exact ⟨rfl, rfl, rfl, Nat.le_refl _⟩
  exact hkept.trans (notify_kept (hkept.ready he) hnotify)

/-- The end of a tick keeps to its decision. -/
theorem closeTick_ok
    {decision decision' : Decision C}
    (h : closeTick decision e = .ok decision' e') :
    decision = decision' ∧ (Ready e → Kept e e') := by
  unfold closeTick at h
  obtain ⟨_, e₁, hset, hrest⟩ := of_bind_ok h
  obtain ⟨_, e₂, hnotify, hreturn⟩ := of_bind_ok hrest
  obtain rfl : { e with current := none } = e₁ := by
    injection hset
  have hkept := setCurrent_kept none e
  injection hreturn with hdecision hengine
  rw [← hengine]
  exact ⟨hdecision, fun he => hkept.trans (notify_kept (hkept.ready he) hnotify)⟩

/-- The parts of a tick that ends without a halt. -/
theorem tick_proceed
    (he : Ready e)
    (h : tick e = some (.ok .proceed e')) :
    ∃ opened turns closed,
      openTick e = .ok () opened ∧
      Tour 0 opened turns closed ∧
      closeTick .proceed closed = .ok .proceed e' ∧
      Kept e opened ∧
      Kept closed e' := by
  unfold tick at h
  cases hopen : openTick e with
  | error fault e₁ =>
      rw [hopen] at h
      cases h
  | ok _ opened =>
      have hkept := openTick_kept he hopen
      rw [hopen] at h
      dsimp only at h
      cases hvisits : visits opened with
      | none =>
          rw [hvisits] at h
          cases h
      | some r =>
          rw [hvisits] at h
          cases r with
          | error fault e₁ =>
              cases h
          | ok decision closed =>
              have hclose : closeTick decision closed = .ok .proceed e' := Option.some.inj h
              obtain ⟨rfl, hclosed⟩ := closeTick_ok hclose
              obtain ⟨turns, htour, hready⟩ := tour_of_visitsFrom (hkept.ready he) hvisits
              exact ⟨opened, turns, closed, rfl, htour, hclose, hkept, hclosed hready⟩

/-- Ticks are fair while pointers are forked and killed.  A tick that ends without a halt is a tour
of turns; if every pointer outlives its turn, or goes without disturbing what stands in front of it,
then nobody has two turns, whoever is live from the beginning of the tick to its end has one, whoever
stands behind a pointer after its turn has one later unless removed while waiting, and neither the
pointers placed in front nor, from then on, the removed ones have any. -/
theorem tick_fair
    (hlanguage : Disciplined e.language)
    (hobservers : Unobtrusive e.observers)
    (hnumbered : e.machine.Numbered)
    (htick : tick e = some (.ok .proceed e')) :
    ∃ opened turns closed,
      openTick e = .ok () opened ∧
      Tour 0 opened turns closed ∧
      closeTick .proceed closed = .ok .proceed e' ∧
      (∀ t ∈ turns,
        ∃ cell, e.language.operation cell (some t.id) t.before = .ok .proceed t.after) ∧
      ((∀ t ∈ turns, t.Orderly) →
        (turns.map (·.id)).Nodup ∧
        (∀ id ∈ e.machine.ids, id ∈ e'.machine.ids → (turns.map (·.id)).count id = 1) ∧
        ∀ earlier t later, turns = earlier ++ t :: later → ∀ id,
          (id ∈ t.behind →
            (∃ u ∈ later, u.id = id) ∨ ∃ u ∈ later, id ∈ u.waiting ∧ id ∉ u.after.ids) ∧
          (id ∉ t.before.ids → id ∈ t.ahead → ∀ u ∈ turns, u.id ≠ id) ∧
          (id < t.after.supply.nextId → id ∉ t.after.ids → ∀ u ∈ later, u.id ≠ id)) := by
  have he : Ready e := ⟨hlanguage, hobservers, hnumbered⟩
  obtain ⟨opened, turns, closed, hopen, htour, hclose, hkept, hkept'⟩ := tick_proceed he htick
  have hready := hkept.ready he
  have hran := htour.ran hready
  rw [hkept.language] at hran
  refine ⟨opened, turns, closed, hopen, htour, hclose, hran, ?_⟩
  intro horderly
  have hnodup := htour.nodup hready horderly
  refine ⟨hnodup, ?_, ?_⟩
  · intro id hid hid'
    rw [← hkept.ids] at hid
    rw [hkept'.ids] at hid'
    exact
      List.count_eq_one_of_mem hnodup
        (htour.executed_of_live hready horderly (by simpa using hid) hid')
  · rintro earlier t later rfl id
    obtain ⟨place, next, e₁, e₂, _, hpasses, hlater, _, hearlier⟩ := htour.split hready
    have horderly' : ∀ u ∈ later, u.Orderly := by
      intro u hu
      exact horderly u (List.mem_append_right earlier (List.mem_cons_of_mem t hu))
    refine ⟨?_, ?_, ?_⟩
    · intro hbehind
      unfold Turn.behind at hbehind
      rw [← hpasses.after, ← hpasses.next] at hbehind
      exact hlater.reached hpasses.ready horderly' hbehind
    · intro hnew hahead u hu
      rcases List.mem_append.1 hu with hu | hu
      · have hle :=
          hpasses.edited.nextId_le_of_placed hnew (List.mem_of_mem_take hahead)
        have hlt := hearlier u hu
        have hdrawn := hpasses.drawn
        omega
      · rcases List.mem_cons.1 hu with rfl | hu
        · rintro rfl
          exact hnew hpasses.mem_before
        · exact Tour.not_executed_of_ahead hpasses hlater horderly' hahead u hu
    · intro hdrawn hafter
      exact Tour.not_executed_of_removed hpasses hlater horderly' hdrawn hafter

end Fairness

section Shedding

/-- Puts a copy of a pointer in front of the live sequence. -/
def shed (id : Nat) (m : Machine UInt8) : Machine UInt8 :=
  match m.fork? id with
  | none => m
  | some (copy, m) => m.insertAt 0 copy

/-- A language in which pointers remove themselves on one cell, and shed copies on all others. -/
def shedding : Language UInt8 where
  name := "shedding"
  accepts _ := true
  operation cell current := fun m =>
    .ok .proceed
      (match current with
      | none => m
      | some id => if cell = 64 then (m.remove id).2 else shed id m)
  populate := pure ()

theorem edited_refl
    (m : Machine UInt8) :
    Machine.Edited m m :=
  ⟨Nat.le_refl _, [], .refl, List.nodup_nil, by simp⟩

theorem edited_remove
    (m : Machine UInt8) (id : Nat) :
    Machine.Edited m (m.remove id).2 := by
  have hsupply : (m.remove id).2.supply = m.supply := by
    unfold Machine.remove
    split <;> rfl
  refine ⟨Nat.le_of_eq ?_, [], .remove .refl id, List.nodup_nil, by simp⟩
  rw [hsupply]

theorem edited_shed
    (m : Machine UInt8) (id : Nat) :
    Machine.Edited m (shed id m) := by
  unfold shed Machine.fork?
  cases m.ip? id with
  | none =>
      exact edited_refl m
  | some ip =>
      let drawn : Machine UInt8 :=
        { m with supply := { m.supply with nextId := m.supply.nextId + 1 } }
      let copy : Ip := { ip with id := m.supply.nextId }
      have hdrawn : Machine.Edits m [] drawn := .alter .refl rfl
      change Machine.Edited m (drawn.insertAt 0 copy)
      refine ⟨Nat.le_succ _, [copy.id], hdrawn.insertAt 0 copy, by simp, ?_⟩
      intro x hx
      rw [List.mem_singleton.1 hx]
      exact ⟨Nat.le_refl _, Nat.lt_succ_self _⟩

theorem disciplined_shedding :
    Disciplined shedding := by
  intro cell current m decision m' h
  injection h with _ hm'
  rw [← hm']
  cases current with
  | none =>
      exact edited_refl m
  | some id =>
      dsimp only
      split
      · exact edited_remove m id
      · exact edited_shed m id

theorem orderly_remove
    (m : Machine UInt8) (id : Nat) :
    Turn.Orderly ⟨id, m, (m.remove id).2⟩ := by
  right
  unfold Turn.place Machine.remove
  cases hindex : m.indexOf? id with
  | none =>
      rfl
  | some i =>
      change ((m.ips.eraseIdx i).map (·.id)).take i = (m.ips.map (·.id)).take i
      rw [← List.map_take, ← List.map_take, List.take_eraseIdx_eq_take_of_le _ _ _ (Nat.le_refl i)]

theorem orderly_shed
    (m : Machine UInt8) (id : Nat) :
    Turn.Orderly ⟨id, m, shed id m⟩ := by
  unfold shed Machine.fork?
  cases hip : m.ip? id with
  | none =>
      right
      rfl
  | some ip =>
      left
      have hlive : id ∈ m.ids := by
        by_contra hgone
        rw [Machine.ip?_eq_none_iff.2 hgone] at hip
        contradiction
      change id ∈ (Machine.insertAt _ 0 _).ids
      rw [Machine.ids_insertAt, List.mem_insertIdx (Nat.min_le_right _ _)]
      exact .inr hlive

theorem orderly_shedding
    {cell : UInt8} {decision : Decision UInt8} {t : Turn UInt8}
    (h : shedding.operation cell (some t.id) t.before = .ok decision t.after) :
    t.Orderly := by
  obtain ⟨id, before, after⟩ := t
  injection h with _ hafter
  dsimp only at hafter
  rw [← hafter]
  split
  · exact orderly_remove before id
  · exact orderly_shed before id

/-- Two pointers, the second of which stands where pointers remove themselves. -/
def pair : Machine UInt8 where
  space := .ground (.torus Torus.shortRing)
  ips := [
    { id := 1, position := .planar 0 0, direction := .east, state := .empty },
    { id := 2, position := .planar 1 0, direction := .east, state := .empty }]
  shared := .empty
  supply := { nextId := 3, dice := .loaded }

theorem tick_pair :
    ∃ e',
      tick (assemble pair shedding ()) = some (.ok .proceed e') ∧
      e'.machine.ids = [3, 1] := by
  have htour :
      ∃ turns closed,
        Tour 0 { assemble pair shedding () with ticks := 1 } turns closed ∧
        closed.observers = [] ∧
        closed.machine.ids = [3, 1] :=
    ⟨_, _, .turn rfl rfl rfl (.turn rfl rfl rfl (.rest rfl)), rfl, rfl⟩
  obtain ⟨turns, closed, htour, hobservers, hids⟩ := htour
  have hopen :
      openTick (assemble pair shedding ()) =
        .ok () { assemble pair shedding () with ticks := 1 } :=
    rfl
  have hsilent : Silent closed.observers .tickFinish := by
    rw [hobservers]
    exact silent_nil .tickFinish
  unfold tick visits
  rw [hopen]
  dsimp only
  rw [htour.visitsFrom_eq]
  exact ⟨_, congrArg some (closeTick_silent hsilent), hids⟩

theorem tick_fair_pair :
    ∃ (e' : Engine UInt8 Unit) (turns : List (Turn UInt8)),
      tick (assemble pair shedding ()) = some (.ok .proceed e') ∧
      Disciplined shedding ∧
      pair.Numbered ∧
      (∀ t ∈ turns, t.Orderly) ∧
      (turns.map (·.id)).Nodup ∧
      (turns.map (·.id)).count 1 = 1 := by
  have hnumbered : pair.Numbered :=
    ⟨by decide, by decide⟩
  have hobservers : Unobtrusive (assemble pair shedding ()).observers := by
    intro observer hobserver
    contradiction
  obtain ⟨e', htick, hids⟩ := tick_pair
  obtain ⟨opened, turns, closed, _, _, _, hran, hfair⟩ :=
    tick_fair disciplined_shedding hobservers hnumbered htick
  have horderly : ∀ t ∈ turns, t.Orderly := by
    intro t ht
    obtain ⟨cell, hcell⟩ := hran t ht
    exact orderly_shedding hcell
  obtain ⟨hnodup, hcount, _⟩ := hfair horderly
  have hlive : 1 ∈ e'.machine.ids := by
    rw [hids]
    decide
  exact
    ⟨e', turns, htick, disciplined_shedding, hnumbered, horderly, hnodup,
      hcount 1 (by decide) hlive⟩

end Shedding

end Engine

end FungeTrace
