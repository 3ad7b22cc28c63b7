import FungeTrace.Proofs.Footprint
import FungeTrace.Proofs.Succession

/-!
# Generators

Every pointer keeps a random generator in its own state.  Generators are made one by one from
consecutive seeds of some dice, and nothing but a random turn of its pointer draws from a generator.
Of the dice nothing is assumed.

* `Dice.generator` is the generator of a seed after a number of choices.
* `Befunge.Made` is the creation of pointers from one sequence of seeds; the `n`-th one has the
  generator of the `n`-th seed, and no two have the same number.
* `Machine.Spares` says of a change that the generator of a pointer is as before or gone.  An
  operation spares all generators but that of a pointer that turns at random, which has its next
  choice taken: `Befunge.operation_rolls`.
* `Turn.rolls` selects the random turns of a pointer, and `Turn.heading?` tells where they lead.
-/

namespace FungeTrace

namespace Dice

/-- The generator of a seed after a number of choices. -/
def generator (dice : Dice) (seed : UInt64) (k : Nat) : Generator where
  dice := dice
  seed := seed
  place := dice.place seed k

/-- A generator answers with the next choice of its seed and goes on to the one after it. -/
@[simp] theorem choose_generator
    (dice : Dice) (seed : UInt64) (k : Nat) :
    (dice.generator seed k).choose = (dice.choice seed k, dice.generator seed (k + 1)) :=
  rfl

end Dice

namespace Machine

open Befunge

variable {C : Type} {m m' : Machine C} {id : Nat}

section Pointers

theorem ip?_eq
    (m : Machine C) (id : Nat) :
    m.ip? id = (m.indexOf? id).bind (m.ips[·]?) :=
  List.find?_eq_bind_findIdx?_getElem?

theorem indexOf?_congr
    (h : m'.ids = m.ids)
    (id : Nat) :
    m'.indexOf? id = m.indexOf? id := by
  rw [indexOf?_eq, indexOf?_eq, h]

/-- The pointer that a number is found under. -/
theorem ip_of_indexOf?
    {index : Nat}
    (h : m.indexOf? id = some index) :
    ∃ ip, m.ips[index]? = some ip ∧ m.ip? id = some ip ∧ ip.id = id := by
  have hid := getElem_of_indexOf? h
  simp only [ids, List.getElem?_map, Option.map_eq_some_iff] at hid
  obtain ⟨ip, hip, hid⟩ := hid
  refine ⟨ip, hip, ?_, hid⟩
  rw [ip?_eq, h]
  exact hip

end Pointers

section Generators

/-- The random generator of a pointer, if it is live and has one. -/
def generator? (m : Machine C) (id : Nat) : Option Generator :=
  (m.ip? id).bind (·.state.get? randomKey)

theorem generator?_of_ip?
    {ip : Ip}
    (h : m.ip? id = some ip) :
    m.generator? id = ip.state.get? randomKey := by
  unfold generator?
  rw [h]
  rfl

/-- The generator of a pointer is as before or gone. -/
def Spares (id : Nat) (m m' : Machine C) : Prop :=
  m'.generator? id = none ∨ m'.generator? id = m.generator? id

theorem spares_refl
    (m : Machine C) :
    Spares id m m :=
  .inr rfl

theorem Spares.trans
    {m₁ m₂ : Machine C}
    (h₁ : Spares id m m₁)
    (h₂ : Spares id m₁ m₂) :
    Spares id m m₂ := by
  rcases h₂ with hnone | hsame
  · exact .inl hnone
  · rw [Spares, hsame]
    exact h₁

/-- A move leaves all generators alone. -/
theorem advance_spares
    (other : Nat) (m : Machine C) :
    Spares id m (Act.left (advance other m)) := by
  unfold advance
  split
  · exact spares_refl m
  · rename_i ip hip
    split
    · rename_i position _
      right
      let change : Ip → Ip := fun ip => { ip with position }
      change (m.modifyIp other change).generator? id = m.generator? id
      have hids : (m.modifyIp other change).ids = m.ids :=
        ids_modifyIp m other fun _ => rfl
      unfold generator?
      rw [ip?_eq, ip?_eq, indexOf?_congr hids]
      cases m.indexOf? id with
      | none =>
          rfl
      | some index =>
          unfold modifyIp
          split
          · rename_i place _
            simp only [Option.bind_some, List.getElem?_modify]
            cases m.ips[index]? with
            | none =>
                rfl
            | some ip =>
                by_cases hplace : place = index
                · simp [hplace, change]
                · simp [hplace]
          · rfl
    · exact spares_refl m

end Generators

end Machine

namespace Machine

open Befunge

variable {m : Machine UInt8} {index id : Nat} {ip : Ip} {g : Focus}

/-- A pointer put back at its place is not found under another number. -/
theorem ip?_seat_of_ne
    (hip : m.ips[index]? = some ip)
    (hid : g.ip.id = ip.id)
    (hne : id ≠ ip.id) :
    (m.seat index g).ip? id = m.ip? id := by
  rw [ip?_eq, ip?_eq, indexOf?_congr (ids_seat_of_id hip hid)]
  cases hplace : m.indexOf? id with
  | none =>
      rfl
  | some place =>
      obtain ⟨ip', hip', _, hid'⟩ := ip_of_indexOf? hplace
      have hother : index ≠ place := by
        rintro rfl
        rw [hip'] at hip
        exact hne (hid'.symm.trans (congrArg Ip.id (Option.some.inj hip)))
      exact List.getElem?_set_ne hother

/-- A pointer put back at its place is found under its number. -/
theorem ip?_seat_of_indexOf?
    (hindex : m.indexOf? id = some index)
    (hid : g.ip.id = id) :
    (m.seat index g).ip? id = some g.ip := by
  obtain ⟨ip, hip, _, hid'⟩ := ip_of_indexOf? hindex
  have hlt := (List.getElem?_eq_some_iff.1 hip).1
  rw [ip?_eq, indexOf?_congr (ids_seat_of_id hip (hid.trans hid'.symm)), hindex]
  simp [seat, hlt]

end Machine

namespace Befunge

open Focus Act

section Creation

/-- Pointers made one after the other from a sequence of seeds of some dice, in the order they were
made, and the supply that is left.  Numbers may go to others in between, seeds may not. -/
inductive Made (dice : Dice) (seed : UInt64) :
    List Ip →
      Supply →
      Prop
  | nobody
      {supply : Supply}
      (hdice : supply.dice = dice)
      (hseed : supply.nextSeed = seed) :
      Made dice seed [] supply
  | elsewhere
      {made : List Ip} {supply : Supply} {nextId : Nat}
      (h : Made dice seed made supply)
      (hle : supply.nextId ≤ nextId) :
      Made dice seed made { supply with nextId }
  | create
      {made : List Ip} {supply : Supply}
      (h : Made dice seed made supply)
      (space : Space UInt8) :
      Made dice seed (made ++ [(newIp space supply).1]) (newIp space supply).2

variable {dice : Dice} {seed : UInt64} {made : List Ip} {supply : Supply}

theorem Made.nextSeed
    (h : Made dice seed made supply) :
    supply.nextSeed = seed + UInt64.ofNat made.length := by
  induction h with
  | nobody _ hseed =>
      simp [hseed]
  | elsewhere _ _ ih =>
      exact ih
  | @create made supply _ space ih =>
      change supply.nextSeed + 1 = _
      rw [ih, List.length_append, List.length_singleton, UInt64.ofNat_add, UInt64.add_assoc]
      rfl

theorem Made.supply_dice
    (h : Made dice seed made supply) :
    supply.dice = dice := by
  induction h with
  | nobody hdice _ =>
      exact hdice
  | elsewhere _ _ ih =>
      exact ih
  | create _ _ ih =>
      exact ih

/-- The `n`-th pointer made has the generator of the `n`-th seed. -/
theorem Made.generator
    (h : Made dice seed made supply)
    {n : Nat} {origin : Ip}
    (horigin : made[n]? = some origin) :
    origin.state.get randomKey = .ok (dice.generator (seed + UInt64.ofNat n) 0) := by
  induction h with
  | nobody _ _ =>
      simp at horigin
  | elsewhere _ _ ih =>
      exact ih horigin
  | @create made supply hmade space ih =>
      by_cases hlt : n < made.length
      · rw [List.getElem?_append_left hlt] at horigin
        exact ih horigin
      · have hn : n = made.length := by
          have hlen := (List.getElem?_eq_some_iff.1 horigin).1
          simp only [List.length_append, List.length_singleton] at hlen
          omega
        subst hn
        rw [List.getElem?_concat_length] at horigin
        obtain rfl := Option.some.inj horigin
        rw [← hmade.nextSeed, ← hmade.supply_dice]
        exact Bag.get_insert_self _ _ _

theorem Made.drawn
    (h : Made dice seed made supply) :
    ∀ origin ∈ made, origin.id < supply.nextId := by
  induction h with
  | nobody _ _ =>
      simp
  | elsewhere _ hle ih =>
      intro origin horigin
      exact Nat.lt_of_lt_of_le (ih origin horigin) hle
  | @create made supply _ space ih =>
      intro origin horigin
      change origin.id < supply.nextId + 1
      rcases List.mem_append.1 horigin with horigin | horigin
      · exact Nat.lt_succ_of_lt (ih origin horigin)
      · obtain rfl := List.mem_singleton.1 horigin
        exact Nat.lt_succ_self supply.nextId

/-- No two pointers are made with one number. -/
theorem Made.distinct
    (h : Made dice seed made supply) :
    (made.map (·.id)).Nodup := by
  induction h with
  | nobody _ _ =>
      simp
  | elsewhere _ _ ih =>
      exact ih
  | @create made supply hmade space ih =>
      have hfresh : supply.nextId ∉ made.map (·.id) := by
        intro hmem
        obtain ⟨origin, horigin, hid⟩ := List.mem_map.1 hmem
        have hlt := hmade.drawn origin horigin
        omega
      have hids :
          (made ++ [(newIp space supply).1]).map (·.id) =
            (made.map (·.id)).concat supply.nextId := by
        rw [List.map_append, List.concat_eq_append]
        rfl
      rw [hids]
      exact List.Nodup.concat hfresh ih

end Creation
section Reactions

variable {f : Focus} {cell : UInt8}

/-- A pointer that is about to turn at random. -/
def Rolls (cell : UInt8) (ip : Ip) : Prop :=
  ip.state.get stringModeKey = .ok false ∧ Command.decode cell = .random

theorem react_of_inString
    {mode : Bool}
    (h : f.ip.state.get stringModeKey = .ok mode) :
    react cell f =
      if mode then (gather cell >>= fun _ => pure .proceed) f
      else perform (Command.decode cell) f := by
  have hmode : inString f = .ok mode f := by
    simp [inString, h, Act.ofExcept]
  rw [react_eq, bind_ok hmode]
  cases mode with
  | true =>
      rfl
  | false =>
      rfl

theorem react_of_error
    {fault : Fault}
    (h : f.ip.state.get stringModeKey = .error fault) :
    react cell f = .error fault f := by
  have hmode : inString f = .error fault f := by
    simp [inString, h, Act.ofExcept]
  rw [react_eq, bind_error hmode]

theorem beyond_gather
    (cell : UInt8) :
    Moves (Beyond [.entry stackKey.name, .entry stringModeKey.name]) (gather cell) := by
  unfold gather
  split
  · intro f part hpart
    cases part with
    | entry name =>
        have hne : stringModeKey.name ≠ name := by
          rintro rfl
          exact hpart (by simp)
        exact Bag.entries_insert_of_ne hne f.ip.state false
    | _ =>
        rfl
  · exact beyond_onStack (by simp) _

theorem react_id
    (cell : UInt8) (f : Focus) :
    (left (react cell f)).ip.id = f.ip.id :=
  diagonal_left (react_agree (respects_id f.ip.id) cell) rfl

/-- Nothing but a random turn draws from the generator. -/
theorem react_keeps
    (h : ¬ Rolls cell f.ip) :
    (left (react cell f)).ip.state.get randomKey = f.ip.state.get randomKey := by
  cases hmode : f.ip.state.get stringModeKey with
  | error fault =>
      rw [react_of_error hmode]
      rfl
  | ok mode =>
      rw [react_of_inString hmode]
      cases mode with
      | true =>
          have hbeyond :
              Moves (Beyond [.entry stackKey.name, .entry stringModeKey.name])
                (gather cell >>= fun _ => pure (Decision.proceed : Decision UInt8)) :=
            beyond_bind (beyond_gather cell) fun _ => moves_pure beyond_refl _
          exact Bag.get_congr (hbeyond f (.entry randomKey.name) (by decide))
      | false =>
          have hcommand : Command.decode cell ≠ .random :=
            fun hrandom => h ⟨hmode, hrandom⟩
          have hreach : Part.entry randomKey.name ∉ (Command.decode cell).reach := by
            cases hdecode : Command.decode cell with
            | random =>
                exact absurd hdecode hcommand
            | _ =>
                simp [Command.reach, randomKey, stackKey, stringModeKey]
          simp only [Bool.false_eq_true, if_false, left_perform]
          exact Bag.get_congr (effect_beyond _ f _ hreach)

/-- A random turn takes the next choice of the generator and turns the pointer by it. -/
theorem react_rolls
    {g : Generator}
    (h : Rolls cell f.ip)
    (hg : f.ip.state.get randomKey = .ok g) :
    react cell f =
      .ok .proceed { f with ip := { f.ip with
        direction := choices g.choose.1
        state := f.ip.state.insert randomKey g.choose.2 } } := by
  have hchoose :
      onState (Bag.update randomKey (modifyGet Generator.choose)) f =
        .ok g.choose.1 { f with ip := { f.ip with
          state := f.ip.state.insert randomKey g.choose.2 } } := by
    simp only [onState, zoom, Bag.update, hg]
    rfl
  rw [react_of_inString h.1, h.2]
  unfold perform effect turnRandomly
  simp only [Bool.false_eq_true, if_false, bind_assoc]
  rw [bind_ok hchoose]
  rfl

/-- Without a generator a random turn fails, and changes nothing. -/
theorem react_rolls_error
    {fault : Fault}
    (h : Rolls cell f.ip)
    (hg : f.ip.state.get randomKey = .error fault) :
    react cell f = .error fault f := by
  have hchoose :
      onState (Bag.update randomKey (modifyGet Generator.choose)) f = .error fault f := by
    simp only [onState, zoom, Bag.update, hg]
  rw [react_of_inString h.1, h.2]
  unfold perform effect turnRandomly
  simp only [Bool.false_eq_true, if_false, bind_assoc]
  rw [bind_error hchoose]

end Reactions

section Operations

open Machine

variable {m m' : Machine UInt8} {cell : UInt8} {id : Nat} {fault : Fault}

/-- An operation is a reaction of the pointer it is for, if that is live. -/
theorem operation_cases
    (cell : UInt8) (id : Nat) (m : Machine UInt8) :
    (m.ip? id = none ∧ operation cell (some id) m = .ok .proceed m) ∨
      ∃ index ip,
        m.indexOf? id = some index ∧
        m.ips[index]? = some ip ∧
        m.ip? id = some ip ∧
        ip.id = id ∧
        operation cell (some id) m = m.seated index (react cell ⟨ip, m.space, m.shared⟩) := by
  unfold operation
  rw [Option.bind_some]
  cases hindex : m.indexOf? id with
  | none =>
      refine .inl ⟨?_, rfl⟩
      rw [ip?_eq, hindex]
      rfl
  | some index =>
      obtain ⟨ip, hip, hfound, hid⟩ := ip_of_indexOf? hindex
      exact .inr ⟨index, ip, rfl, hip, hfound, hid, onFocus_seated _ hip⟩

/-- An operation leaves the generators of other pointers alone. -/
theorem operation_spares_other
    {other : Nat}
    (hne : other ≠ id) :
    Spares other m (left (operation cell (some id) m)) := by
  rcases operation_cases cell id m with ⟨_, hnone⟩ | ⟨index, ip, _, hip, _, hid, hseated⟩
  · rw [hnone]
    exact spares_refl m
  · right
    rw [hseated, left_seated]
    unfold generator?
    rw [ip?_seat_of_ne hip (react_id cell _)]
    rwa [hid]

/-- An operation that is not a random turn leaves the pointer's own generator alone. -/
theorem operation_spares
    (h : ∀ ip, m.ip? id = some ip → ¬ Rolls cell ip) :
    Spares id m (left (operation cell (some id) m)) := by
  rcases operation_cases cell id m with
    ⟨_, hnone⟩ | ⟨index, ip, hindex, _, hfound, hid, hseated⟩
  · rw [hnone]
    exact spares_refl m
  · right
    let f : Focus := ⟨ip, m.space, m.shared⟩
    have hsame : (left (react cell f)).ip.id = id := (react_id cell f).trans hid
    rw [hseated, left_seated, generator?_of_ip? (ip?_seat_of_indexOf? hindex hsame),
      generator?_of_ip? hfound]
    unfold Bag.get?
    rw [react_keeps (f := f) (h ip hfound)]

/-- A random turn takes the next choice of the pointer's generator. -/
theorem operation_rolls
    {ip : Ip} {decision : Decision UInt8}
    (hip : m.ip? id = some ip)
    (hrolls : Rolls cell ip)
    (h : operation cell (some id) m = .ok decision m') :
    ∃ g,
      m.generator? id = some g ∧
      m'.generator? id = some g.choose.2 ∧
      (m'.ip? id).map (·.direction) = some (choices g.choose.1) := by
  rcases operation_cases cell id m with
    ⟨hnone, _⟩ | ⟨index, ip', hindex, _, hfound, hid, hseated⟩
  · rw [hnone] at hip
    contradiction
  · obtain rfl : ip = ip' := Option.some.inj (hip.symm.trans hfound)
    let f : Focus := ⟨ip, m.space, m.shared⟩
    cases hg : ip.state.get randomKey with
    | error fault =>
        rw [hseated, react_rolls_error (f := f) hrolls hg] at h
        contradiction
    | ok g =>
        rw [hseated, react_rolls (f := f) hrolls hg] at h
        injection h with _ hm
        have hfound' := ip?_seat_of_indexOf? (m := m) (g := { f with ip := { f.ip with
          direction := choices g.choose.1
          state := f.ip.state.insert randomKey g.choose.2 } }) hindex hid
        rw [hm] at hfound'
        refine ⟨g, ?_, ?_, ?_⟩
        · rw [generator?_of_ip? hip]
          simp [Bag.get?, hg, Except.toOption]
        · rw [generator?_of_ip? hfound']
          simp [Bag.get?, Except.toOption]
        · rw [hfound']
          rfl

/-- A random turn with a generator succeeds. -/
theorem operation_of_rolls
    {ip : Ip} {g : Generator}
    (hip : m.ip? id = some ip)
    (hrolls : Rolls cell ip)
    (hg : ip.state.get randomKey = .ok g) :
    ∃ m', operation cell (some id) m = .ok .proceed m' := by
  rcases operation_cases cell id m with ⟨hnone, _⟩ | ⟨index, ip', _, _, hfound, _, hseated⟩
  · rw [hnone] at hip
    contradiction
  · obtain rfl : ip = ip' := Option.some.inj (hip.symm.trans hfound)
    rw [hseated, react_rolls (f := ⟨ip, m.space, m.shared⟩) hrolls hg]
    exact ⟨_, rfl⟩

/-- An operation that fails leaves all generators alone. -/
theorem operation_error_spares
    {other : Nat}
    (h : operation cell (some id) m = .error fault m') :
    Spares other m m' := by
  have hleft : m' = left (operation cell (some id) m) := by
    rw [h]
    rfl
  by_cases hother : other = id
  · subst hother
    by_cases hrolls : ∃ ip, m.ip? other = some ip ∧ Rolls cell ip
    · obtain ⟨ip, hip, hrolls⟩ := hrolls
      rcases operation_cases cell other m with
        ⟨hnone, _⟩ | ⟨index, ip', _, hat, hfound, _, hseated⟩
      · rw [hnone] at hip
        contradiction
      · obtain rfl : ip = ip' := Option.some.inj (hip.symm.trans hfound)
        let f : Focus := ⟨ip, m.space, m.shared⟩
        cases hg : ip.state.get randomKey with
        | error fault =>
            rw [hleft, hseated, react_rolls_error (f := f) hrolls hg]
            right
            change (m.seat index f).generator? other = _
            rw [seat_self hat]
        | ok g =>
            rw [hseated, react_rolls (f := f) hrolls hg] at h
            contradiction
    · rw [hleft]
      exact operation_spares fun ip hip hroll => hrolls ⟨ip, hip, hroll⟩
  · rw [hleft]
    exact operation_spares_other hother

end Operations

end Befunge

namespace Turn

open Befunge

/-- The command that the pointer executes at its turn; none in string mode. -/
def command? (t : Turn UInt8) : Option Command :=
  (t.before.ip? t.id).bind fun ip =>
    match ip.state.get stringModeKey, t.before.space.read ip.position with
    | .ok false, .ok cell => some (Command.decode cell)
    | _, _ => none

/-- Where the pointer heads after its turn. -/
def heading? (t : Turn UInt8) : Option Direction := (t.after.ip? t.id).map (·.direction)

/-- A turn in which an operation of the language was executed on the cell under the pointer. -/
def Taken (t : Turn UInt8) : Prop :=
  ∃ cell decision,
    t.before.cellUnder? t.id = some (.ok cell) ∧
    operation cell (some t.id) t.before = .ok decision t.after

/-- The random turns of a pointer. -/
def rolls (id : Nat) (turns : List (Turn UInt8)) : List (Turn UInt8) :=
  turns.filter fun t => t.id = id ∧ t.command? = some .random

variable {t : Turn UInt8} {id : Nat}

theorem rolls_append
    (id : Nat) (turns turns' : List (Turn UInt8)) :
    rolls id (turns ++ turns') = rolls id turns ++ rolls id turns' :=
  List.filter_append _ _

theorem command?_of_cell
    {cell : UInt8}
    (hcell : t.before.cellUnder? t.id = some (.ok cell)) :
    ∃ ip,
      t.before.ip? t.id = some ip ∧
      (t.command? = some .random ↔ Rolls cell ip) := by
  obtain ⟨ip, hip, hread⟩ := Option.map_eq_some_iff.1 hcell
  refine ⟨ip, hip, ?_⟩
  unfold command? Rolls
  rw [hip, Option.bind_some, hread]
  cases ip.state.get stringModeKey with
  | error fault =>
      simp
  | ok mode =>
      cases mode with
      | true =>
          simp
      | false =>
          simp

/-- A turn that is not a random one of the pointer leaves its generator alone. -/
theorem Taken.spares
    (h : t.Taken)
    (hroll : ¬ (t.id = id ∧ t.command? = some .random)) :
    Machine.Spares id t.before t.after := by
  obtain ⟨cell, decision, hcell, hoperation⟩ := h
  have hleft : t.after = Act.left (operation cell (some t.id) t.before) := by
    rw [hoperation]
    rfl
  rw [hleft]
  by_cases hid : t.id = id
  · subst hid
    refine operation_spares ?_
    intro ip hip hrolls
    obtain ⟨ip', hip', hrandom⟩ := command?_of_cell hcell
    obtain rfl : ip = ip' := Option.some.inj (hip.symm.trans hip')
    exact hroll ⟨rfl, hrandom.2 hrolls⟩
  · exact operation_spares_other (Ne.symm hid)

/-- A random turn follows the next choice of the pointer's generator. -/
theorem Taken.rolls
    (h : t.Taken)
    (hrandom : t.command? = some .random) :
    ∃ g,
      t.before.generator? t.id = some g ∧
      t.after.generator? t.id = some g.choose.2 ∧
      t.heading? = some (Focus.choices g.choose.1) := by
  obtain ⟨cell, decision, hcell, hoperation⟩ := h
  obtain ⟨ip, hip, hrolls⟩ := command?_of_cell hcell
  exact operation_rolls hip (hrolls.1 hrandom) hoperation

end Turn

end FungeTrace
