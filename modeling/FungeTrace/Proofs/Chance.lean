import FungeTrace.Proofs.Generators
import FungeTrace.Proofs.Trails

/-!
# Chance

The random turns of a pointer follow the choices of its own seed, whatever it does otherwise and
whatever other pointers do in between.

* `Spared` is a change of an engine that the generator of a pointer does not notice.  Observers are
  taken to leave that generator alone, or to remove its pointer; then everything in a run is such a
  change but the execution of operations.
* `visit_stirred` says that a visit stirs a generator only by the turn it gives.
* `Rolled` is the invariant of a trail: the random turns so far have followed the choices of a
  generator, and the pointer holds what is left of it.
* `trail_chance` relates the random turns of all runs to the seeds that the pointers were made from.
-/

namespace FungeTrace

namespace Engine

open Act

variable {C σ : Type} {e e₁ e₂ e' : Engine C σ} {id : Nat}

section Sparing

/-- Observers that leave the generator of a pointer alone, or remove the pointer. -/
def Sparing (id : Nat) (observers : List (Observer C σ)) : Prop :=
  ∀ observer ∈ observers, ∀ event scene,
    Machine.Spares id scene.machine (Act.left (observer event scene)).machine

/-- A change of an engine that the generator of a pointer does not notice. -/
structure Spared (id : Nat) (e e' : Engine C σ) : Prop where
  language : e'.language = e.language
  observers : e'.observers = e.observers
  machine : Sparing id e.observers → Machine.Spares id e.machine e'.machine

theorem spared_refl
    (e : Engine C σ) :
    Spared id e e :=
  ⟨rfl, rfl, fun _ => Machine.spares_refl e.machine⟩

theorem Spared.trans
    (h₁ : Spared id e e₁)
    (h₂ : Spared id e₁ e₂) :
    Spared id e e₂ where
  language := h₂.language.trans h₁.language
  observers := h₂.observers.trans h₁.observers
  machine hsparing := by
    have hsparing₁ := hsparing
    rw [← h₁.observers] at hsparing₁
    exact (h₁.machine hsparing).trans (h₂.machine hsparing₁)

theorem notifyAll_spares
    {observers : List (Observer C σ)}
    (hsparing : Sparing id observers)
    (event : Event) :
    Moves (fun scene scene' => Machine.Spares id scene.machine scene'.machine)
      (Observer.notifyAll event observers) := by
  induction observers with
  | nil =>
      exact moves_pure (fun scene => Machine.spares_refl scene.machine) ()
  | cons observer rest ih =>
      refine moves_bind (fun _ _ _ h h' => h.trans h') ?_ fun _ => ?_
      · exact hsparing observer List.mem_cons_self event
      · exact ih fun o ho => hsparing o (List.mem_cons_of_mem observer ho)

theorem notify_spared
    (phase : Phase) :
    Moves (Spared id) (notify phase : Act (Engine C σ) Unit) := by
  intro e
  rw [left_notify]
  exact ⟨rfl, rfl, fun hsparing => notifyAll_spares hsparing _ e.scene⟩

theorem spared_of_machine
    (hlanguage : e'.language = e.language)
    (hobservers : e'.observers = e.observers)
    (hmachine : e'.machine = e.machine) :
    Spared id e e' where
  language := hlanguage
  observers := hobservers
  machine _ := by
    rw [hmachine]
    exact Machine.spares_refl _

theorem passable_spared :
    Passable (Spared id : Engine C σ → Engine C σ → Prop) where
  refl := spared_refl
  trans _ _ _ h h' := h.trans h'
  notify phase _ _ := notify_spared phase
  current _ _ := spared_of_machine rfl rfl rfl
  advance other :=
    moves_zoom fun e => ⟨rfl, rfl, fun _ => Machine.advance_spares other e.machine⟩

theorem launch_spared :
    Moves (Spared id) (launch : Act (Engine C σ) Unit) := by
  refine passable_spared.bind (moves_ask spared_refl .ok) fun e => ?_
  split
  · exact passable_spared.bind (fun _ => spared_of_machine rfl rfl rfl) fun _ => notify_spared _
  · exact passable_spared.pure _

theorem openTick_spared :
    Moves (Spared id) (openTick : Act (Engine C σ) Unit) :=
  passable_spared.bind (fun _ => spared_of_machine rfl rfl rfl) fun _ => notify_spared _

theorem finish_spared
    (result : Option C) :
    Moves (Spared id) (finish result : Act (Engine C σ) (Option C)) := by
  refine passable_spared.bind (fun _ => spared_of_machine rfl rfl rfl) fun _ => ?_
  exact passable_spared.bind (notify_spared _) fun _ => passable_spared.pure _

end Sparing

section Visits

variable {e e₁ e' : Engine UInt8 σ} {visitor : Nat}

/-- What becomes of the generator of a pointer in a visit, by the turn that the visit gives. -/
inductive Stirs (id : Nat) (m : Machine UInt8) :
    Option (Turn UInt8) →
      Machine UInt8 →
      Prop
  | still
      {m' : Machine UInt8}
      (hspares : Machine.Spares id m m') :
      Stirs id m none m'
  | turn
      {t : Turn UInt8} {m' : Machine UInt8}
      (htaken : t.Taken)
      (hbefore : Machine.Spares id m t.before)
      (hafter : Machine.Spares id t.after m') :
      Stirs id m (some t) m'

/-- A change of an engine in which at most one turn is taken, and a generator is stirred by that
turn only. -/
structure Stirred
    (id : Nat) (e : Engine UInt8 σ) (turn : Option (Turn UInt8)) (e' : Engine UInt8 σ) : Prop where
  language : e'.language = e.language
  observers : e'.observers = e.observers
  stirs : Sparing id e.observers → Stirs id e.machine turn e'.machine

theorem Spared.stirred
    (h : Spared id e e') :
    Stirred id e none e' :=
  ⟨h.language, h.observers, fun hsparing => .still (h.machine hsparing)⟩

theorem Spared.before
    {turn : Option (Turn UInt8)}
    (h : Spared id e e₁)
    (h' : Stirred id e₁ turn e') :
    Stirred id e turn e' where
  language := h'.language.trans h.language
  observers := h'.observers.trans h.observers
  stirs hsparing := by
    have hspares := h.machine hsparing
    rw [← h.observers] at hsparing
    cases h'.stirs hsparing with
    | still hstill =>
        exact .still (hspares.trans hstill)
    | turn htaken hbefore hafter =>
        exact .turn htaken (hspares.trans hbefore) hafter

/-- The turn of a pointer whose cell is about to be executed. -/
def executed? (e : Engine C σ) (visitor : Nat) : Option (Turn C) :=
  match e.machine.cellUnder? visitor with
  | some (.ok cell) =>
    match e.language.operation cell e.current e.machine with
    | .ok _ after => some ⟨visitor, e.machine, after⟩
    | .error _ _ => none
  | _ => none

theorem executed?_eq_none
    {e : Engine C σ}
    (h : ∀ cell, e.machine.cellUnder? visitor ≠ some (.ok cell)) :
    e.executed? visitor = none := by
  unfold executed?
  split
  next cell hcell =>
    exact absurd hcell (h cell)
  next =>
    rfl

theorem turn?_of_ok
    {e e₁ : Engine C σ}
    (h : notify .beforeCommand { e with current := some visitor } = .ok () e₁) :
    e.turn? visitor = e₁.executed? visitor := by
  have hset : setCurrent (some visitor) e = .ok () { e with current := some visitor } :=
    rfl
  unfold turn?
  rw [bind_ok hset, h]
  rfl

theorem turn?_of_error
    {e e₁ : Engine C σ} {fault : Fault}
    (h : notify .beforeCommand { e with current := some visitor } = .error fault e₁) :
    e.turn? visitor = none := by
  have hset : setCurrent (some visitor) e = .ok () { e with current := some visitor } :=
    rfl
  unfold turn?
  rw [bind_ok hset, h]

theorem perform_stirred
    {cell : UInt8}
    (hlanguage : e.language = Befunge.language)
    (hcurrent : e.current = some visitor)
    (hcell : e.machine.cellUnder? visitor = some (.ok cell))
    (place : Nat) :
    Stirred id e (e.executed? visitor) (Act.left (perform place visitor cell e)) := by
  have hsame : e.language.operation cell e.current = Befunge.operation cell (some visitor) := by
    rw [hlanguage, hcurrent]
    rfl
  unfold executed?
  rw [hcell, perform_eq]
  dsimp only
  rw [hsame]
  cases hoperation : Befunge.operation cell (some visitor) e.machine with
  | error fault m =>
      have hfails :
          onMachine (Befunge.operation cell (some visitor)) e =
            .error fault { e with scene := { e.scene with machine := m } } := by
        simp only [onMachine, zoom, hoperation]
      rw [bind_error hfails]
      exact ⟨rfl, rfl, fun _ => .still (Befunge.operation_error_spares hoperation)⟩
  | ok decision m =>
      have hruns :
          onMachine (Befunge.operation cell (some visitor)) e =
            .ok decision { e with scene := { e.scene with machine := m } } := by
        simp only [onMachine, zoom, hoperation]
      rw [bind_ok hruns]
      let after : Engine UInt8 σ := { e with scene := { e.scene with machine := m } }
      have hspared : Spared id after (Act.left (concluded place visitor decision after)) :=
        passable_spared.concluded place visitor decision after
      refine ⟨hspared.language, hspared.observers, fun hsparing => ?_⟩
      exact
        .turn ⟨cell, decision, hcell, hoperation⟩ (Machine.spares_refl _)
          (hspared.machine hsparing)

theorem attended_stirred
    (hlanguage : e.language = Befunge.language)
    (hcurrent : e.current = some visitor)
    (index : Nat) :
    Stirred id e (e.executed? visitor) (Act.left (attended index visitor e)) := by
  have hfound : indexOf? visitor e = .ok (e.machine.indexOf? visitor) e :=
    rfl
  have hstill :
      (∀ cell, e.machine.cellUnder? visitor ≠ some (.ok cell)) →
        Stirred id e (e.executed? visitor) e := by
    intro hcells
    rw [executed?_eq_none hcells]
    exact (spared_refl e).stirred
  unfold attended
  rw [bind_ok hfound]
  cases hplace : e.machine.indexOf? visitor with
  | none =>
      have hcell : e.machine.cellUnder? visitor = none := by
        rw [Machine.cellUnder?, Machine.ip?_eq, hplace]
        rfl
      exact hstill (by simp [hcell])
  | some place =>
      dsimp only
      rw [get_bind]
      cases hcell : e.machine.cellUnder? visitor with
      | none =>
          exact hstill (by simp [hcell])
      | some result =>
          cases result with
          | error fault =>
              exact hstill (by simp [hcell])
          | ok cell =>
              exact perform_stirred hlanguage hcurrent hcell place

/-- A visit stirs a generator only by the turn it gives. -/
theorem visit_stirred
    (hlanguage : e.language = Befunge.language)
    (index visitor : Nat) :
    Stirred id e (e.turn? visitor) (Act.left (visit index visitor e)) := by
  have hset : setCurrent (some visitor) e = .ok () { e with current := some visitor } :=
    rfl
  have hspared :
      Spared id e (Act.left (notify .beforeCommand { e with current := some visitor })) :=
    (passable_spared.current (some visitor) e).trans (notify_spared .beforeCommand _)
  rw [visit_eq, bind_ok hset]
  cases hnotify : notify .beforeCommand { e with current := some visitor } with
  | error fault e₁ =>
      rw [hnotify] at hspared
      rw [bind_error hnotify, turn?_of_error hnotify]
      exact hspared.stirred
  | ok _ e₁ =>
      rw [hnotify] at hspared
      rw [bind_ok hnotify, turn?_of_ok hnotify]
      have hcurrent : e₁.current = some visitor := by
        obtain ⟨scene, rfl, _⟩ := notify_ok hnotify
        rfl
      exact
        hspared.before (attended_stirred (hspared.language.trans hlanguage) hcurrent index)

end Visits

section Chance

/-- Directions by choice. -/
def compass : List Direction := [.east, .south, .west, .north]

theorem compass_choice
    (choice : Fin 4) :
    compass[choice.val]? = some (Befunge.Focus.choices choice) := by
  match choice with
  | 0 => rfl
  | 1 => rfl
  | 2 => rfl
  | 3 => rfl

variable {dice : Dice} {seed : UInt64} {turns : List (Turn UInt8)} {m m' : Machine UInt8}

/-- The random turns of a pointer so far follow the choices of a seed, and the pointer has the
generator of that seed after as many choices, if it is live. -/
structure Rolled
    (dice : Dice) (seed : UInt64) (id : Nat) (turns : List (Turn UInt8)) (m : Machine UInt8) :
    Prop where
  headings :
    (Turn.rolls id turns).map Turn.heading? =
      (List.range (Turn.rolls id turns).length).map fun k => compass[(dice.choice seed k).val]?
  generator :
    m.generator? id = none ∨
      m.generator? id = some (dice.generator seed (Turn.rolls id turns).length)

theorem Rolled.spared
    (h : Rolled dice seed id turns m)
    (hspares : Machine.Spares id m m') :
    Rolled dice seed id turns m' := by
  refine ⟨h.headings, ?_⟩
  rcases hspares with hnone | hsame
  · exact .inl hnone
  · rw [hsame]
    exact h.generator

/-- A turn of the pointer or of another one keeps the random turns in step with the generator. -/
theorem Rolled.taken
    {t : Turn UInt8}
    (h : Rolled dice seed id turns t.before)
    (htaken : t.Taken) :
    Rolled dice seed id (turns ++ [t]) t.after := by
  by_cases hroll : t.id = id ∧ t.command? = some .random
  · have hrolls : Turn.rolls id (turns ++ [t]) = Turn.rolls id turns ++ [t] := by
      rw [Turn.rolls_append]
      simp [Turn.rolls, hroll]
    obtain ⟨rfl, hrandom⟩ := hroll
    obtain ⟨g', hbefore, hafter, hheading⟩ := htaken.rolls hrandom
    have hlater : g' = dice.generator seed (Turn.rolls t.id turns).length := by
      rcases h.generator with hnone | hsome
      · rw [hbefore] at hnone
        contradiction
      · rw [hbefore] at hsome
        exact Option.some.inj hsome
    rw [hlater, dice.choose_generator] at hafter hheading
    constructor
    · rw [hrolls, List.map_append, h.headings, List.length_append, List.length_singleton,
        List.range_succ, List.map_append, List.map_singleton, List.map_singleton, hheading,
        compass_choice]
    · right
      rw [hafter, hrolls, List.length_append, List.length_singleton]
  · have hrolls : Turn.rolls id (turns ++ [t]) = Turn.rolls id turns := by
      rw [Turn.rolls_append]
      simp [Turn.rolls, hroll]
    have hspared := h.spared (htaken.spares hroll)
    exact ⟨by rw [hrolls]; exact hspared.headings, by rw [hrolls]; exact hspared.generator⟩

theorem Rolled.stirs
    {turn : Option (Turn UInt8)}
    (h : Rolled dice seed id turns m)
    (hstirs : Stirs id m turn m') :
    Rolled dice seed id (turns ++ turn.toList) m' := by
  cases hstirs with
  | still hspares =>
      rw [Option.toList_none, List.append_nil]
      exact h.spared hspares
  | turn htaken hbefore hafter =>
      exact ((h.spared hbefore).taken htaken).spared hafter

variable {e₀ e : Engine UInt8 σ} {moment : Moment}

/-- The invariant of a run. -/
theorem Trail.rolled
    (hlanguage : e₀.language = Befunge.language)
    (hsparing : Sparing id e₀.observers)
    (hstart : e₀.machine.generator? id = none ∨
      e₀.machine.generator? id = some (dice.generator seed 0))
    (h : Trail e₀ turns moment e) :
    e.language = Befunge.language ∧ e.observers = e₀.observers ∧
      Rolled dice seed id turns e.machine := by
  have hspared :
      ∀ {turns : List (Turn UInt8)} {e e' : Engine UInt8 σ},
        e.language = Befunge.language ∧ e.observers = e₀.observers ∧
          Rolled dice seed id turns e.machine →
        Spared id e e' →
        e'.language = Befunge.language ∧ e'.observers = e₀.observers ∧
          Rolled dice seed id turns e'.machine := by
    rintro turns e e' ⟨hlanguage, hobservers, hrolled⟩ h
    have hmachine := h.machine (by rw [hobservers]; exact hsparing)
    exact ⟨h.language.trans hlanguage, h.observers.trans hobservers, hrolled.spared hmachine⟩
  induction h with
  | start =>
      exact ⟨hlanguage, rfl, rfl, hstart⟩
  | launch _ ih =>
      exact hspared ih (launch_spared _)
  | openTick _ ih =>
      exact hspared ih (openTick_spared _)
  | @visit turns e index ip _ hip ih =>
      obtain ⟨hlanguage', hobservers, hrolled⟩ := ih
      have hstirred :
          Stirred id e (e.turn? ip.id) (Act.left (Engine.visit index ip.id e)) :=
        visit_stirred hlanguage' index ip.id
      have hstirs := hstirred.stirs (by rw [hobservers]; exact hsparing)
      exact
        ⟨hstirred.language.trans hlanguage', hstirred.observers.trans hobservers,
          hrolled.stirs hstirs⟩
  | rest _ _ ih =>
      exact ih
  | closeTick _ decision ih =>
      exact hspared ih (passable_spared.closeTick decision _)
  | finish _ result ih =>
      exact hspared ih (finish_spared result _)

/-- Live pointers that were made from a sequence of seeds have their generators when a run
starts. -/
theorem generator?_of_made
    {made : List Ip} {supply : Supply}
    (hmade : Befunge.Made dice seed made supply)
    (hlive : ∀ ip ∈ m.ips, ∃ origin ∈ made,
      ip.id = origin.id ∧
      ip.state.get Befunge.randomKey = origin.state.get Befunge.randomKey)
    {n : Nat} {origin : Ip}
    (horigin : made[n]? = some origin) :
    m.generator? origin.id = none ∨
      m.generator? origin.id = some (dice.generator (seed + UInt64.ofNat n) 0) := by
  cases hip : m.ip? origin.id with
  | none =>
      left
      unfold Machine.generator?
      rw [hip]
      rfl
  | some ip =>
      right
      have hid : ip.id = origin.id := by
        simpa using List.find?_some hip
      obtain ⟨origin', hmem, hid', hgenerator⟩ := hlive ip (List.mem_of_find?_eq_some hip)
      obtain rfl : origin' = origin :=
        List.inj_on_of_nodup_map hmade.distinct hmem (List.mem_of_getElem? horigin)
          (hid'.symm.trans hid)
      rw [Machine.generator?_of_ip? hip, Bag.get?, hgenerator, hmade.generator horigin]
      rfl

/-- Every pointer has its own sequence of chance.  Whatever the dice, if all live pointers were made
one after the other from a sequence of their seeds, then in any run the random turns of the `n`-th
one lead where the choices of the `n`-th seed say, one choice a turn, whatever the pointers do in
between.  Requests to run, however they end, are such runs. -/
theorem trail_chance
    {dice : Dice} {seed : UInt64} {made : List Ip} {supply : Supply} {n : Nat} {origin : Ip}
    (hmade : Befunge.Made dice seed made supply)
    (hlanguage : e₀.language = Befunge.language)
    (hlive : ∀ ip ∈ e₀.machine.ips, ∃ origin ∈ made,
      ip.id = origin.id ∧
      ip.state.get Befunge.randomKey = origin.state.get Befunge.randomKey)
    (horigin : made[n]? = some origin)
    (hsparing : Sparing origin.id e₀.observers) :
    (∀ turns moment e, Trail e₀ turns moment e →
      (Turn.rolls origin.id turns).map Turn.heading? =
        (List.range (Turn.rolls origin.id turns).length).map fun k =>
          compass[(dice.choice (seed + UInt64.ofNat n) k).val]?) ∧
    (∀ requests e, Served e₀ requests e → ∃ turns, Trail e₀ turns .idle e) := by
  constructor
  · intro turns moment e htrail
    have hstart := generator?_of_made hmade hlive horigin
    exact (htrail.rolled hlanguage hsparing hstart).2.2.headings
  · intro requests e hserved
    exact served_trail .start hserved

/-- A ring of two random turns. -/
def crossroads : Space UInt8 :=
  .ground (.torus { Torus.shortRing with cells := #[63, 63], size_cells := rfl })

/-- Dice with the first choices of the seeds 7 and 8 written down. -/
def table : Dice where
  roll seed place :=
    let row := if seed = 8 then [1, 3, 2, 2] else [0, 1, 0, 2]
    (⟨row.getD place 0 % 4, Nat.mod_lt _ (by decide)⟩, place + 1)

/-- Two pointers made from the seeds 7 and 8, and what is left of the supply. -/
def makers : Ip × Ip × Supply :=
  let (first, supply) := Befunge.newIp crossroads { nextSeed := 7, dice := table }
  let (second, supply) := Befunge.newIp crossroads supply
  (first, second, supply)

/-- An engine with the second of the two pointers. -/
def gambling : Engine UInt8 Unit :=
  assemble { space := crossroads, ips := [makers.2.1], shared := .empty, supply := makers.2.2 }
    Befunge.language ()

theorem turn?_gambling :
    ∃ t,
      turn? { gambling with ticks := 1 } 2 = some t ∧
      t.id = 2 ∧
      t.command? = some .random := by
  let opened : Engine UInt8 Unit := { gambling with ticks := 1 }
  let named : Engine UInt8 Unit := { opened with current := some 2 }
  have hip : named.machine.ip? 2 = some makers.2.1 :=
    rfl
  have hmode : makers.2.1.state.get Befunge.stringModeKey = .ok false :=
    (Bag.get_insert_of_ne (by decide) _ _).trans (Bag.get_insert_self _ _ _)
  have hrolls : Befunge.Rolls 63 makers.2.1 :=
    ⟨hmode, rfl⟩
  have hcell : named.machine.cellUnder? 2 = some (.ok 63) :=
    rfl
  obtain ⟨after, hoperation⟩ :=
    Befunge.operation_of_rolls hip hrolls (Bag.get_insert_self _ _ _)
  have hturn : opened.turn? 2 = named.executed? 2 :=
    turn?_of_ok rfl
  refine ⟨⟨2, named.machine, after⟩, ?_, rfl, ?_⟩
  · rw [hturn]
    unfold executed?
    rw [hcell]
    dsimp only
    change
      (match Befunge.operation 63 (some 2) named.machine with
        | .ok _ after => some (Turn.mk 2 named.machine after)
        | .error _ _ => none) = _
    rw [hoperation]
  · obtain ⟨ip, hip', hrandom⟩ :=
      Turn.command?_of_cell (t := ⟨2, named.machine, after⟩) hcell
    obtain rfl : makers.2.1 = ip := Option.some.inj (hip.symm.trans hip')
    exact hrandom.2 hrolls

theorem trail_chance_gambling :
    ∃ t moment e,
      Trail gambling [t] moment e ∧
      Turn.rolls 2 [t] = [t] ∧
      t.heading? = some .south := by
  have hnobody : Befunge.Made table 7 [] { nextSeed := 7, dice := table } :=
    .nobody rfl rfl
  have hmade : Befunge.Made table 7 [makers.1, makers.2.1] makers.2.2 :=
    (hnobody.create crossroads).create crossroads
  have hlive :
      ∀ ip ∈ gambling.machine.ips, ∃ origin ∈ [makers.1, makers.2.1],
        ip.id = origin.id ∧
        ip.state.get Befunge.randomKey = origin.state.get Befunge.randomKey := by
    intro ip hip
    obtain rfl := List.mem_singleton.1 hip
    exact ⟨makers.2.1, by simp, rfl, rfl⟩
  have hlanguage : gambling.language = Befunge.language :=
    rfl
  have hsecond : [makers.1, makers.2.1][1]? = some makers.2.1 :=
    rfl
  have hsparing : Sparing makers.2.1.id gambling.observers := by
    intro observer hobserver
    contradiction
  obtain ⟨hchance, _⟩ := trail_chance hmade hlanguage hlive hsecond hsparing
  obtain ⟨t, hturn, hid, hrandom⟩ := turn?_gambling
  have hopened : Trail gambling [] (.visiting 0) { gambling with ticks := 1 } :=
    Trail.start.openTick
  have hip : { gambling with ticks := 1 }.machine.ips[0]? = some makers.2.1 :=
    rfl
  have htrail := hopened.visit hip
  have hnumber : makers.2.1.id = 2 :=
    rfl
  rw [hnumber, hturn] at htrail
  have hrolls : Turn.rolls 2 [t] = [t] := by
    simp [Turn.rolls, hid, hrandom]
  have hheadings := hchance _ _ _ htrail
  rw [hnumber, Option.toList_some, List.nil_append, hrolls] at hheadings
  have hchoice : compass[(table.choice 8 0).val]? = some .south :=
    rfl
  refine ⟨t, _, _, htrail, hrolls, ?_⟩
  rw [← hchoice]
  simpa using hheadings

end Chance

end Engine

end FungeTrace
