import FungeTrace.Proofs.Budget
import FungeTrace.Proofs.LiveSequence
import FungeTrace.Proofs.Succession

/-!
# The stream of notifications

Observers that never fail and leave the machine alone are told of a run in a fixed order.

* The run is announced once, before its first tick.
* A tick is told as a pass: its start, its visits, its finish.
* A visit is told before the command, after it and after the move, or only before the command if the
  command removes the pointer or halts the run.
* A visit that halts is the last of its pass, and the halt is told right after that pass.

`Told` states this grammar by rules, `Cut` lists the ways in which a visit breaks off, and
`calls_told` says that runs follow the grammar, however many calls they are made of.
-/

namespace FungeTrace

/-- A notification and the machine that observers are shown with it. -/
structure Notice (C : Type) where
  event : Event
  machine : Machine C

/-- One execution of an operation: the pointer, the machine before it, what the operation decides
and makes of the machine, and the machine after the pointer has moved. -/
structure Execution (C : Type) where
  id : Nat
  before : Machine C
  decision : Decision C
  after : Machine C
  moved : Machine C

/-- One tick: the machine at its start, the executions, and the machine at its finish. -/
structure Pass (C : Type) where
  opening : Machine C
  executions : List (Execution C)
  closing : Machine C

section Telling

variable {C : Type}

namespace Execution

/-- An execution that halts the run or removes its pointer. -/
def Brief (x : Execution C) : Prop := x.decision.isHalt = true ∨ x.id ∉ x.after.ids

instance (x : Execution C) : Decidable x.Brief :=
  inferInstanceAs (Decidable (_ ∨ _))

/-- What is told of an execution. -/
def notices (tick : Nat) (x : Execution C) : List (Notice C) :=
  if x.Brief then
    [⟨⟨.beforeCommand, tick, some x.id⟩, x.before⟩]
  else
    [⟨⟨.beforeCommand, tick, some x.id⟩, x.before⟩,
      ⟨⟨.afterCommand, tick, some x.id⟩, x.after⟩,
      ⟨⟨.afterMove, tick, some x.id⟩, x.moved⟩]

/-- An execution of the operation that a language gives to the cell under the pointer, followed by a
move unless it is brief. -/
structure Genuine (language : Language C) (x : Execution C) : Prop where
  ran :
    ∃ cell,
      x.before.cellUnder? x.id = some (.ok cell) ∧
      language.operation cell (some x.id) x.before = .ok x.decision x.after
  move : ¬ x.Brief → Machine.advance x.id x.after = .ok true x.moved

variable {language : Language C} {x : Execution C}

theorem Genuine.of_brief
    {cell : C}
    (hbrief : x.Brief)
    (hcell : x.before.cellUnder? x.id = some (.ok cell))
    (hoperation : language.operation cell (some x.id) x.before = .ok x.decision x.after) :
    x.Genuine language :=
  ⟨⟨cell, hcell, hoperation⟩, fun hnot => absurd hbrief hnot⟩

theorem notices_of_brief
    (hbrief : x.Brief)
    (tick : Nat) :
    x.notices tick = [⟨⟨.beforeCommand, tick, some x.id⟩, x.before⟩] :=
  if_pos hbrief

theorem notices_of_not_brief
    (hbrief : ¬ x.Brief)
    (tick : Nat) :
    x.notices tick =
      [⟨⟨.beforeCommand, tick, some x.id⟩, x.before⟩,
        ⟨⟨.afterCommand, tick, some x.id⟩, x.after⟩,
        ⟨⟨.afterMove, tick, some x.id⟩, x.moved⟩] :=
  if_neg hbrief

end Execution

/-- A notification in which a pointer is named exactly if its phase is about one. -/
def Notice.Apt (notice : Notice C) : Prop :=
  notice.event.ip = notice.event.current ∧
    notice.event.current.isSome = notice.event.phase.hasIp

/-- A notification about a pointer. -/
def Notice.Pointed (notice : Notice C) : Prop :=
  notice.event.phase.hasIp = true ∧ notice.event.current.isSome = true

theorem Notice.Pointed.apt
    {notice : Notice C}
    (h : notice.Pointed) :
    notice.Apt := by
  refine ⟨?_, h.2.trans h.1.symm⟩
  unfold Event.ip
  rw [if_pos h.1]

theorem Execution.notices_pointed
    (tick : Nat) (x : Execution C) :
    ∀ notice ∈ x.notices tick, notice.Pointed := by
  unfold Execution.notices
  split <;> simp [Notice.Pointed, Phase.hasIp]

/-- What is told of a tick. -/
def Pass.notices (tick : Nat) (p : Pass C) : List (Notice C) :=
  ⟨⟨.tickStart, tick, none⟩, p.opening⟩ ::
    (p.executions.flatMap (·.notices tick) ++ [⟨⟨.tickFinish, tick, none⟩, p.closing⟩])

/-- The grammar of what is told between the announcement of a run and its end, from one number of
ticks to another.  A pass that halts is followed by the notice of the halt and ends the stream. -/
inductive Told (genuine : Execution C → Prop) :
    Nat →
      List (Notice C) →
      RunOutcome C →
      Nat →
      Prop
  | rest
      {tick : Nat} :
      Told genuine tick [] .tickLimit tick
  | pass
      {tick last : Nat} {stream : List (Notice C)} {outcome : RunOutcome C}
      (p : Pass C)
      (hgenuine : ∀ x ∈ p.executions, genuine x ∧ x.decision = .proceed)
      (hstream : Told genuine (tick + 1) stream outcome last) :
      Told genuine tick (p.notices (tick + 1) ++ stream) outcome last
  | halt
      {tick : Nat} {xs : List (Execution C)} {x : Execution C} {result : Option C}
      (opening closing : Machine C)
      (hgenuine : ∀ y ∈ xs, genuine y ∧ y.decision = .proceed)
      (hlast : genuine x)
      (hhalt : x.decision = .halt result) :
      Told genuine tick
        (Pass.notices (tick + 1) ⟨opening, xs ++ [x], closing⟩ ++
          [⟨⟨.halt, tick + 1, none⟩, closing⟩])
        (.halted result) (tick + 1)

/-- What is told of a visit that fails: the cell cannot be fetched, the operation fails, or the move
does. -/
inductive Cut (language : Language C) (tick : Nat) (fault : Fault) :
    List (Notice C) →
      Prop
  | fetch
      {id : Nat} {m : Machine C}
      (hcell : m.cellUnder? id = some (.error fault)) :
      Cut language tick fault [⟨⟨.beforeCommand, tick, some id⟩, m⟩]
  | operation
      {id : Nat} {m m' : Machine C} {cell : C}
      (hcell : m.cellUnder? id = some (.ok cell))
      (hoperation : language.operation cell (some id) m = .error fault m') :
      Cut language tick fault [⟨⟨.beforeCommand, tick, some id⟩, m⟩]
  | move
      {id : Nat} {m m₁ m₂ : Machine C} {cell : C}
      (hcell : m.cellUnder? id = some (.ok cell))
      (hoperation : language.operation cell (some id) m = .ok .proceed m₁)
      (hlive : id ∈ m₁.ids)
      (hmove : Machine.advance id m₁ = .error fault m₂) :
      Cut language tick fault
        [⟨⟨.beforeCommand, tick, some id⟩, m⟩, ⟨⟨.afterCommand, tick, some id⟩, m₁⟩]

/-- What is told of a tick that fails: its start, whole visits, and the visit that fails. -/
inductive Broken (language : Language C) (tick : Nat) (fault : Fault) :
    List (Notice C) →
      Prop
  | mk
      {xs : List (Execution C)} {cut : List (Notice C)}
      (opening : Machine C)
      (hgenuine : ∀ x ∈ xs, x.Genuine language ∧ x.decision = .proceed)
      (hcut : Cut language tick fault cut) :
      Broken language tick fault
        (⟨⟨.tickStart, tick, none⟩, opening⟩ :: (xs.flatMap (·.notices tick) ++ cut))

section Grammar

variable {genuine genuine' : Execution C → Prop} {language : Language C} {fault : Fault}
  {tick middle last : Nat} {stream stream' : List (Notice C)} {outcome : RunOutcome C}

theorem Pass.notices_apt
    (p : Pass C) (tick : Nat) :
    ∀ notice ∈ p.notices tick, notice.Apt := by
  intro notice hnotice
  simp only [Pass.notices, List.mem_cons, List.mem_append, List.mem_flatMap, List.not_mem_nil,
    or_false] at hnotice
  rcases hnotice with rfl | ⟨x, _, hx⟩ | rfl
  · exact ⟨rfl, rfl⟩
  · exact (x.notices_pointed tick notice hx).apt
  · exact ⟨rfl, rfl⟩

theorem Told.apt
    (h : Told genuine tick stream outcome last) :
    ∀ notice ∈ stream, notice.Apt := by
  induction h with
  | rest =>
      simp
  | pass p _ _ ih =>
      intro notice hnotice
      rcases List.mem_append.1 hnotice with hpass | hrest
      · exact p.notices_apt _ notice hpass
      · exact ih notice hrest
  | halt =>
      intro notice hnotice
      rcases List.mem_append.1 hnotice with hpass | hhalt
      · exact Pass.notices_apt _ _ notice hpass
      · obtain rfl := List.mem_singleton.1 hhalt
        exact ⟨rfl, rfl⟩

theorem Told.mono
    (hgenuine : ∀ x, genuine x → genuine' x)
    (h : Told genuine tick stream outcome last) :
    Told genuine' tick stream outcome last := by
  induction h with
  | rest =>
      exact .rest
  | pass p hall _ ih =>
      exact .pass p (fun x hx => ⟨hgenuine x (hall x hx).1, (hall x hx).2⟩) ih
  | halt opening closing hall hlast hhalt =>
      exact
        .halt opening closing (fun x hx => ⟨hgenuine x (hall x hx).1, (hall x hx).2⟩)
          (hgenuine _ hlast) hhalt

/-- Passes that do not halt can be followed by more. -/
theorem Told.append
    (h : Told genuine tick stream .tickLimit middle)
    (h' : Told genuine middle stream' outcome last) :
    Told genuine tick (stream ++ stream') outcome last := by
  generalize hlimit : RunOutcome.tickLimit = limit at h
  induction h with
  | rest =>
      exact h'
  | pass p hall _ ih =>
      rw [List.append_assoc]
      exact .pass p hall (ih h' hlimit)
  | halt =>
      contradiction

theorem Cut.pointed
    (h : Cut language tick fault stream) :
    ∀ notice ∈ stream, notice.Pointed := by
  cases h <;> simp [Notice.Pointed, Phase.hasIp]

/-- A visit that fails breaks off what would be told of a whole visit. -/
theorem Cut.completed
    (h : Cut language tick fault stream) :
    ∃ (x : Execution C) (more : List (Notice C)),
      x.decision = .proceed ∧ x.notices tick = stream ++ more := by
  have hbefore :
      ∀ (id : Nat) (m : Machine C),
        ∃ x : Execution C,
          x.decision = .proceed ∧
          x.notices tick = [⟨⟨.beforeCommand, tick, some id⟩, m⟩] := by
    intro id m
    have hbrief : Execution.Brief ⟨id, m, .proceed, { m with ips := [] }, m⟩ :=
      .inr List.not_mem_nil
    exact ⟨_, rfl, Execution.notices_of_brief hbrief tick⟩
  cases h with
  | @fetch id m hcell =>
      obtain ⟨x, hproceed, hx⟩ := hbefore id m
      exact ⟨x, [], hproceed, hx⟩
  | @operation id m _ _ hcell hoperation =>
      obtain ⟨x, hproceed, hx⟩ := hbefore id m
      exact ⟨x, [], hproceed, hx⟩
  | @move id m m₁ m₂ cell hcell hoperation hlive hmove =>
      have hbrief : ¬ Execution.Brief ⟨id, m, .proceed, m₁, m₁⟩ := by
        simp [Execution.Brief, Decision.isHalt, hlive]
      exact
        ⟨_, [⟨⟨.afterMove, tick, some id⟩, m₁⟩], rfl,
          Execution.notices_of_not_brief hbrief tick⟩

theorem Broken.opening_or_pointed
    (h : Broken language tick fault stream) :
    ∀ notice ∈ stream,
      (notice.event.phase = .tickStart ∧ notice.event.current = none) ∨ notice.Pointed := by
  cases h with
  | mk opening _ hcut =>
      intro notice hnotice
      simp only [List.mem_cons, List.mem_append, List.mem_flatMap] at hnotice
      rcases hnotice with rfl | ⟨x, _, hx⟩ | hnotice
      · exact .inl ⟨rfl, rfl⟩
      · exact .inr (x.notices_pointed tick notice hx)
      · exact .inr (hcut.pointed notice hnotice)

theorem Broken.apt
    (h : Broken language tick fault stream) :
    ∀ notice ∈ stream, notice.Apt := by
  intro notice hnotice
  rcases h.opening_or_pointed notice hnotice with ⟨hphase, hcurrent⟩ | hpointed
  · simp [Notice.Apt, Event.ip, Phase.hasIp, hphase, hcurrent]
  · exact hpointed.apt

/-- A tick that fails does not tell of its finish, nor of a halt. -/
theorem Broken.unfinished
    (h : Broken language tick fault stream) :
    ∀ notice ∈ stream,
      notice.event.phase ≠ .tickFinish ∧ notice.event.phase ≠ .halt := by
  intro notice hnotice
  rcases h.opening_or_pointed notice hnotice with ⟨hphase, _⟩ | ⟨hphase, _⟩
  · simp [hphase]
  · constructor <;> intro heq <;> simp [heq, Phase.hasIp] at hphase

/-- What is told of a tick that fails breaks off what would be told of a whole tick. -/
theorem Broken.completed
    (h : Broken language (tick + 1) fault stream) :
    ∃ more,
      more ≠ [] ∧ Told (fun _ => True) tick (stream ++ more) .tickLimit (tick + 1) := by
  cases h with
  | @mk xs cut opening hxs hcut =>
      obtain ⟨x, more, hproceed, hmore⟩ := hcut.completed
      refine ⟨more ++ [⟨⟨.tickFinish, tick + 1, none⟩, opening⟩], by simp, ?_⟩
      have hall : ∀ y ∈ xs ++ [x], True ∧ y.decision = .proceed := by
        intro y hy
        rcases List.mem_append.1 hy with hy | hy
        · exact ⟨trivial, (hxs y hy).2⟩
        · obtain rfl := List.mem_singleton.1 hy
          exact ⟨trivial, hproceed⟩
      have htold :
          Told (fun _ => True) tick
            (Pass.notices (tick + 1) ⟨opening, xs ++ [x], opening⟩ ++ []) .tickLimit (tick + 1) :=
        .pass _ hall .rest
      simpa [Pass.notices, hmore] using htold

end Grammar

end Telling

namespace Observer

variable {C σ : Type}

/-- Observers that never fail and leave the machine alone. -/
def Passive (observers : List (Observer C σ)) : Prop :=
  ∀ observer ∈ observers, ∀ event scene,
    ∃ memory, observer event scene = .ok () { scene with memory }

/-- The notes of observers after one more notification. -/
def noted (observers : List (Observer C σ)) (memory : σ) (notice : Notice C) : σ :=
  match notifyAll notice.event observers { machine := notice.machine, memory } with
  | .ok _ scene => scene.memory
  | .error _ scene => scene.memory

/-- The notes of observers that are told of a stream of notifications, one after the other. -/
def notesAfter (observers : List (Observer C σ)) (memory : σ) (stream : List (Notice C)) : σ :=
  stream.foldl (noted observers) memory

variable {observers : List (Observer C σ)}

theorem notesAfter_append
    (memory : σ) (stream stream' : List (Notice C)) :
    notesAfter observers memory (stream ++ stream') =
      notesAfter observers (notesAfter observers memory stream) stream' :=
  List.foldl_append

theorem notifyAll_passive
    (hobservers : Passive observers)
    (event : Event) (scene : Scene C σ) :
    notifyAll event observers scene =
      .ok () { scene with memory := noted observers scene.memory ⟨event, scene.machine⟩ } := by
  have hmemory :
      ∃ memory, notifyAll event observers scene = .ok () { scene with memory } := by
    induction observers generalizing scene with
    | nil =>
        exact ⟨scene.memory, rfl⟩
    | cons observer rest ih =>
        obtain ⟨memory, hfirst⟩ := hobservers observer List.mem_cons_self event scene
        obtain ⟨memory', hrest⟩ :=
          ih (fun o ho => hobservers o (List.mem_cons_of_mem observer ho)) { scene with memory }
        refine ⟨memory', ?_⟩
        unfold notifyAll
        rw [Act.bind_ok hfirst, hrest]
  obtain ⟨memory, hnotify⟩ := hmemory
  have hnoted : noted observers scene.memory ⟨event, scene.machine⟩ = memory := by
    simp only [noted, hnotify]
  rw [hnotify, hnoted]

end Observer

namespace Engine

open Act Observer

variable {C σ : Type} {e e₁ e₂ e' : Engine C σ}

section Hearing

/-- A change of an engine in which its observers are told of a stream of notifications. -/
structure Hears (e : Engine C σ) (stream : List (Notice C)) (e' : Engine C σ) : Prop where
  language : e'.language = e.language
  observers : e'.observers = e.observers
  ticks : e'.ticks = e.ticks
  memory : e'.scene.memory = notesAfter e.observers e.scene.memory stream

theorem Hears.trans
    {stream₁ stream₂ : List (Notice C)}
    (h₁ : Hears e stream₁ e₁)
    (h₂ : Hears e₁ stream₂ e₂) :
    Hears e (stream₁ ++ stream₂) e₂ where
  language := h₂.language.trans h₁.language
  observers := h₂.observers.trans h₁.observers
  ticks := h₂.ticks.trans h₁.ticks
  memory := by
    rw [h₂.memory, h₁.observers, h₁.memory, notesAfter_append]

theorem notify_passive
    (hobservers : Passive e.observers)
    (phase : Phase) :
    ∃ e₁,
      notify phase e = .ok () e₁ ∧
      Hears e [⟨⟨phase, e.ticks, e.current⟩, e.machine⟩] e₁ ∧
      e₁.machine = e.machine ∧
      e₁.current = e.current := by
  unfold notify zoom
  rw [notifyAll_passive hobservers]
  exact ⟨_, rfl, ⟨rfl, rfl, rfl, rfl⟩, rfl, rfl⟩

theorem setCurrent_hears
    (e : Engine C σ) (id : Option Nat) :
    Hears e [] { e with current := id } :=
  ⟨rfl, rfl, rfl, rfl⟩

theorem onMachine_of_ok
    {α : Type} {act : Act (Machine C) α} {a : α} {m : Machine C}
    (h : act e.machine = .ok a m) :
    ∃ e₁,
      onMachine act e = .ok a e₁ ∧
      Hears e [] e₁ ∧
      e₁.machine = m ∧
      e₁.current = e.current := by
  unfold onMachine zoom
  rw [h]
  exact ⟨_, rfl, ⟨rfl, rfl, rfl, rfl⟩, rfl, rfl⟩

theorem onMachine_of_error
    {α : Type} {act : Act (Machine C) α} {fault : Fault} {m : Machine C}
    (h : act e.machine = .error fault m) :
    ∃ e₁, onMachine act e = .error fault e₁ ∧ Hears e [] e₁ := by
  unfold onMachine zoom
  rw [h]
  exact ⟨_, rfl, rfl, rfl, rfl, rfl⟩

theorem Hears.passive
    {stream : List (Notice C)}
    (h : Hears e stream e')
    (hobservers : Passive e.observers) :
    Passive e'.observers := by
  rw [h.observers]
  exact hobservers

end Hearing

section Visits

variable {index id : Nat}

/-- A pointer that outlived its operation is told of after the command, and after the move unless
this fails. -/
theorem depart_told
    (hobservers : Passive e.observers)
    (hcurrent : e.current = some id)
    (hlive : id ∈ e.machine.ids) :
    (∃ next m e',
      depart index id e = .ok (.next next) e' ∧
      Machine.advance id e.machine = .ok true m ∧
      Hears e
        [⟨⟨.afterCommand, e.ticks, some id⟩, e.machine⟩, ⟨⟨.afterMove, e.ticks, some id⟩, m⟩] e') ∨
    ∃ fault m e',
      depart index id e = .error fault e' ∧
      Machine.advance id e.machine = .error fault m ∧
      Hears e [⟨⟨.afterCommand, e.ticks, some id⟩, e.machine⟩] e' := by
  obtain ⟨e₁, hafter, hears₁, hmachine₁, hcurrent₁⟩ := notify_passive hobservers .afterCommand
  rw [hcurrent] at hears₁ hcurrent₁
  unfold depart
  rw [bind_ok hafter]
  cases hadvance : Machine.advance id e.machine with
  | error fault m =>
      rw [← hmachine₁] at hadvance
      obtain ⟨e₂, hfail, hears₂⟩ := onMachine_of_error hadvance
      exact .inr ⟨fault, m, e₂, bind_error hfail, rfl, by simpa using hears₁.trans hears₂⟩
  | ok live m =>
      obtain rfl : live = true := (Machine.advance_ok hadvance).2.2 hlive
      rw [← hmachine₁] at hadvance
      obtain ⟨e₂, hmove, hears₂, hmachine₂, hcurrent₂⟩ := onMachine_of_ok hadvance
      have hears := hears₁.trans hears₂
      obtain ⟨e₃, htell, hears₃, _, _⟩ := notify_passive (hears.passive hobservers) .afterMove
      rw [hears.ticks, hcurrent₂, hcurrent₁, hmachine₂] at hears₃
      refine
        .inl ⟨((e₃.machine.indexOf? id).map (· + 1)).getD index, m, e₃, ?_, rfl,
          by simpa using hears.trans hears₃⟩
      rw [bind_ok hmove]
      exact bind_ok htell

/-- What a visit is told as, by what it ends with. -/
inductive Visited (e : Engine C σ) : Reached C σ (Visit C) → Prop
  | next
      {next : Nat} {x : Execution C} {e' : Engine C σ}
      (hgenuine : x.Genuine e.language)
      (hproceed : x.decision = .proceed)
      (hears : Hears e (x.notices e.ticks) e') :
      Visited e (.ok (.next next) e')
  | halted
      {result : Option C} {x : Execution C} {e' : Engine C σ}
      (hgenuine : x.Genuine e.language)
      (hhalt : x.decision = .halt result)
      (hears : Hears e (x.notices e.ticks) e') :
      Visited e (.ok (.halted result) e')
  | failed
      {fault : Fault} {cut : List (Notice C)} {e' : Engine C σ}
      (hcut : Cut e.language e.ticks fault cut)
      (hears : Hears e cut e') :
      Visited e (.error fault e')

/-- What is left of a visit once the operation has been executed. -/
theorem perform_of_operation
    {place : Nat} {cell : C} {decision : Decision C} {m : Machine C} {stream : List (Notice C)}
    (hears : Hears e stream e₁)
    (hmachine : e₁.machine = e.machine)
    (hcurrent : e₁.current = some id)
    (hoperation : e.language.operation cell (some id) e.machine = .ok decision m) :
    ∃ e₂,
      Hears e stream e₂ ∧
      e₂.machine = m ∧
      e₂.current = some id ∧
      perform place id cell e₁ =
        match decision with
        | .halt result => .ok (.halted result) { e₂ with current := none }
        | .proceed => if id ∈ m.ids then depart place id e₂ else .ok (.next place) e₂ := by
  rw [← hmachine] at hoperation
  obtain ⟨e₂, hdone, hears₂, hmachine₂, hcurrent₂⟩ := onMachine_of_ok hoperation
  refine ⟨e₂, by simpa using hears.trans hears₂, hmachine₂, hcurrent₂.trans hcurrent, ?_⟩
  unfold perform
  rw [get_bind, hears.language, hcurrent, bind_ok hdone]
  cases decision with
  | halt result =>
      rfl
  | proceed =>
      have hfound : Engine.indexOf? id e₂ = .ok (m.indexOf? id) e₂ := by
        rw [← hmachine₂]
        rfl
      dsimp only
      rw [bind_ok hfound]
      by_cases hlive : id ∈ m.ids
      · have hsome : (m.indexOf? id).isSome := by
          rw [Option.isSome_iff_ne_none]
          intro hnone
          exact Machine.indexOf?_eq_none_iff.1 hnone hlive
        rw [if_pos hsome, if_pos hlive]
      · rw [Machine.indexOf?_eq_none_iff.2 hlive, if_neg hlive]
        rfl

theorem perform_told
    {place : Nat} {cell : C}
    (hobservers : Passive e.observers)
    (hears : Hears e [⟨⟨.beforeCommand, e.ticks, some id⟩, e.machine⟩] e₁)
    (hmachine : e₁.machine = e.machine)
    (hcurrent : e₁.current = some id)
    (hcell : e.machine.cellUnder? id = some (.ok cell)) :
    Visited e (perform place id cell e₁) := by
  cases hoperation : e.language.operation cell (some id) e.machine with
  | error fault m =>
      have hfails := hoperation
      rw [← hmachine] at hfails
      obtain ⟨e₂, hfail, hears₂⟩ := onMachine_of_error hfails
      unfold perform
      rw [get_bind, hears.language, hcurrent, bind_error hfail]
      exact .failed (.operation hcell hoperation) (hears.trans hears₂)
  | ok decision m =>
      obtain ⟨e₂, hears₂, hmachine₂, hcurrent₂, hperform⟩ :=
        perform_of_operation hears hmachine hcurrent hoperation
      rw [hperform]
      cases decision with
      | halt result =>
          have hbrief : Execution.Brief ⟨id, e.machine, .halt result, m, m⟩ :=
            .inl rfl
          have hears₃ := hears₂.trans (setCurrent_hears e₂ none)
          rw [List.append_nil, ← Execution.notices_of_brief hbrief] at hears₃
          exact .halted (.of_brief hbrief hcell hoperation) rfl hears₃
      | proceed =>
          dsimp only
          by_cases hlive : id ∈ m.ids
          · rw [if_pos hlive]
            have hlive₂ : id ∈ e₂.machine.ids := by
              rw [hmachine₂]
              exact hlive
            rcases depart_told (hears₂.passive hobservers) hcurrent₂ hlive₂ with
              ⟨next, m', e₃, hdepart, hmove, hears₃⟩ | ⟨fault, m', e₃, hdepart, hmove, hears₃⟩
            · rw [hears₂.ticks, hmachine₂] at hears₃
              rw [hmachine₂] at hmove
              have hlasts : ¬ Execution.Brief ⟨id, e.machine, .proceed, m, m'⟩ :=
                not_or.2 ⟨by simp [Decision.isHalt], not_not.2 hlive⟩
              have hears₄ := hears₂.trans hears₃
              rw [List.singleton_append, ← Execution.notices_of_not_brief hlasts] at hears₄
              rw [hdepart]
              exact .next ⟨⟨cell, hcell, hoperation⟩, fun _ => hmove⟩ rfl hears₄
            · rw [hears₂.ticks, hmachine₂] at hears₃
              rw [hmachine₂] at hmove
              rw [hdepart]
              exact .failed (.move hcell hoperation hlive hmove) (hears₂.trans hears₃)
          · rw [if_neg hlive]
            have hbrief : Execution.Brief ⟨id, e.machine, .proceed, m, m⟩ :=
              .inr hlive
            rw [← Execution.notices_of_brief hbrief] at hears₂
            exact .next (.of_brief hbrief hcell hoperation) rfl hears₂

theorem visit_told
    {ip : Ip}
    (hobservers : Passive e.observers)
    (hip : e.machine.ips[index]? = some ip) :
    Visited e (visit index ip.id e) := by
  have hlive : ip.id ∈ e.machine.ids :=
    List.mem_map_of_mem (List.mem_of_getElem? hip)
  have hset : setCurrent (some ip.id) e = .ok () { e with current := some ip.id } :=
    rfl
  obtain ⟨e₁, htell, hears₁, hmachine, hcurrent⟩ :=
    notify_passive (e := { e with current := some ip.id }) hobservers .beforeCommand
  have hears : Hears e [⟨⟨.beforeCommand, e.ticks, some ip.id⟩, e.machine⟩] e₁ :=
    (setCurrent_hears e (some ip.id)).trans hears₁
  have hfound : Engine.indexOf? ip.id e₁ = .ok (e.machine.indexOf? ip.id) e₁ := by
    rw [← hmachine]
    rfl
  unfold visit
  rw [bind_ok hset, bind_ok htell, bind_ok hfound]
  cases hplace : e.machine.indexOf? ip.id with
  | none =>
      exact absurd hlive (Machine.indexOf?_eq_none_iff.1 hplace)
  | some place =>
      dsimp only
      rw [get_bind, hmachine]
      cases hcell : e.machine.cellUnder? ip.id with
      | none =>
          have hnone : e.machine.ip? ip.id = none := by
            simpa [Machine.cellUnder?] using hcell
          exact absurd hlive (Machine.ip?_eq_none_iff.1 hnone)
      | some result =>
          cases result with
          | error fault =>
              exact .failed (.fetch hcell) hears
          | ok cell =>
              exact perform_told hobservers hears hmachine hcurrent hcell

/-- What the visits of a tick are told as, by what they end with. -/
inductive Toured (e : Engine C σ) : Reached C σ (Decision C) → Prop
  | finished
      {xs : List (Execution C)} {e' : Engine C σ}
      (hgenuine : ∀ x ∈ xs, x.Genuine e.language ∧ x.decision = .proceed)
      (hears : Hears e (xs.flatMap (·.notices e.ticks)) e') :
      Toured e (.ok .proceed e')
  | halted
      {xs : List (Execution C)} {x : Execution C} {result : Option C} {e' : Engine C σ}
      (hgenuine : ∀ x ∈ xs, x.Genuine e.language ∧ x.decision = .proceed)
      (hlast : x.Genuine e.language)
      (hhalt : x.decision = .halt result)
      (hears : Hears e ((xs ++ [x]).flatMap (·.notices e.ticks)) e') :
      Toured e (.ok (.halt result) e')
  | failed
      {xs : List (Execution C)} {cut : List (Notice C)} {fault : Fault} {e' : Engine C σ}
      (hgenuine : ∀ x ∈ xs, x.Genuine e.language ∧ x.decision = .proceed)
      (hcut : Cut e.language e.ticks fault cut)
      (hears : Hears e (xs.flatMap (·.notices e.ticks) ++ cut) e') :
      Toured e (.error fault e')

theorem Toured.cons
    {x : Execution C} {r : Reached C σ (Decision C)}
    (hgenuine : x.Genuine e.language)
    (hproceed : x.decision = .proceed)
    (hears : Hears e (x.notices e.ticks) e₁)
    (h : Toured e₁ r) :
    Toured e r := by
  have hall :
      ∀ {xs : List (Execution C)},
        (∀ y ∈ xs, y.Genuine e₁.language ∧ y.decision = .proceed) →
        ∀ y ∈ x :: xs, y.Genuine e.language ∧ y.decision = .proceed := by
    intro xs hxs y hy
    rw [hears.language] at hxs
    rcases List.mem_cons.1 hy with rfl | hy
    · exact ⟨hgenuine, hproceed⟩
    · exact hxs y hy
  cases h with
  | finished hxs hears' =>
      rw [hears.ticks] at hears'
      exact .finished (hall hxs) (hears.trans hears')
  | halted hxs hlast hhalt hears' =>
      rw [hears.ticks] at hears'
      rw [hears.language] at hlast
      exact .halted (hall hxs) hlast hhalt (hears.trans hears')
  | failed hxs hcut hears' =>
      rw [hears.ticks] at hears' hcut
      rw [hears.language] at hcut
      exact .failed (hall hxs) hcut (by simpa using hears.trans hears')

theorem visitsFrom_told
    {r : Reached C σ (Decision C)}
    (hobservers : Passive e.observers)
    (h : visitsFrom index e = some r) :
    Toured e r := by
  refine
    visitsFrom.partial_correctness
      (fun _ e r => Passive e.observers → Toured e r)
      ?_ index e r h hobservers
  intro visitsFrom ih index e r hr hobservers
  have hnone :
      ∀ x ∈ ([] : List (Execution C)), x.Genuine e.language ∧ x.decision = .proceed := by
    simp
  cases hip : e.machine.ips[index]? with
  | none =>
      rw [hip] at hr
      obtain rfl := Option.some.inj hr
      exact .finished hnone ⟨rfl, rfl, rfl, rfl⟩
  | some ip =>
      rw [hip] at hr
      dsimp only at hr
      have hvisited := visit_told hobservers hip
      generalize visit index ip.id e = answer at hr hvisited
      cases hvisited with
      | next hgenuine hproceed hears =>
          exact (ih _ _ _ hr (hears.passive hobservers)).cons hgenuine hproceed hears
      | halted hgenuine hhalt hears =>
          obtain rfl := Option.some.inj hr
          exact .halted hnone hgenuine hhalt (by simpa using hears)
      | failed hcut hears =>
          obtain rfl := Option.some.inj hr
          exact .failed hnone hcut hears

end Visits

section Ticks

/-- The engine with one more tick started. -/
def counted (e : Engine C σ) : Engine C σ := { e with ticks := e.ticks + 1 }

/-- What a tick is told as, by what it ends with. -/
inductive Ticked (e : Engine C σ) : Reached C σ (Decision C) → Prop
  | proceed
      {e' : Engine C σ}
      (p : Pass C)
      (hgenuine : ∀ x ∈ p.executions, x.Genuine e.language ∧ x.decision = .proceed)
      (hears : Hears e.counted (p.notices (e.ticks + 1)) e')
      (hcurrent : e'.current = none) :
      Ticked e (.ok .proceed e')
  | halt
      {opening : Machine C} {xs : List (Execution C)} {x : Execution C} {result : Option C}
      {e' : Engine C σ}
      (hgenuine : ∀ x ∈ xs, x.Genuine e.language ∧ x.decision = .proceed)
      (hlast : x.Genuine e.language)
      (hhalt : x.decision = .halt result)
      (hears :
        Hears e.counted (Pass.notices (e.ticks + 1) ⟨opening, xs ++ [x], e'.machine⟩) e')
      (hcurrent : e'.current = none) :
      Ticked e (.ok (.halt result) e')
  | failed
      {stream : List (Notice C)} {fault : Fault} {e' : Engine C σ}
      (hbroken : Broken e.language (e.ticks + 1) fault stream)
      (hears : Hears e.counted stream e') :
      Ticked e (.error fault e')

theorem openTick_told
    (hobservers : Passive e.observers)
    (hcurrent : e.current = none) :
    ∃ e₁,
      openTick e = .ok () e₁ ∧
      Hears e.counted [⟨⟨.tickStart, e.ticks + 1, none⟩, e.machine⟩] e₁ := by
  obtain ⟨e₁, hopen, hears, _⟩ := notify_passive (e := e.counted) hobservers .tickStart
  have hnone : e.counted.current = none := hcurrent
  rw [hnone] at hears
  exact ⟨e₁, hopen, hears⟩

theorem closeTick_told
    (hobservers : Passive e.observers)
    (decision : Decision C) :
    ∃ e',
      closeTick decision e = .ok decision e' ∧
      Hears e [⟨⟨.tickFinish, e.ticks, none⟩, e.machine⟩] e' ∧
      e'.machine = e.machine ∧
      e'.current = none := by
  have hset : setCurrent none e = .ok () { e with current := none } :=
    rfl
  obtain ⟨e', htell, hears, hmachine, hcurrent⟩ :=
    notify_passive (e := { e with current := none }) hobservers .tickFinish
  refine ⟨e', ?_, (setCurrent_hears e none).trans hears, hmachine, hcurrent⟩
  unfold closeTick
  rw [bind_ok hset, bind_ok htell]
  rfl

theorem tick_told
    {r : Reached C σ (Decision C)}
    (hobservers : Passive e.observers)
    (hcurrent : e.current = none)
    (h : tick e = some r) :
    Ticked e r := by
  obtain ⟨e₁, hopen, hears₁⟩ := openTick_told hobservers hcurrent
  have hobservers₁ := hears₁.passive hobservers
  unfold tick visits at h
  rw [hopen] at h
  dsimp only at h
  cases hvisits : visitsFrom 0 e₁ with
  | none =>
      simp [hvisits] at h
  | some answer =>
      rw [hvisits] at h
      have htoured := visitsFrom_told hobservers₁ hvisits
      cases htoured with
      | failed hxs hcut hears₂ =>
          obtain rfl := Option.some.inj h
          rw [hears₁.language] at hxs hcut
          rw [hears₁.ticks] at hcut hears₂
          exact .failed (.mk e.machine hxs hcut) (hears₁.trans hears₂)
      | @finished xs e₂ hxs hears₂ =>
          rw [hears₁.language] at hxs
          rw [hears₁.ticks] at hears₂
          have hears := hears₁.trans hears₂
          obtain ⟨e₃, hclose, hears₃, _, hcurrent₃⟩ :=
            closeTick_told (hears.passive hobservers) .proceed
          rw [hears.ticks] at hears₃
          obtain rfl := Option.some.inj (h.symm.trans (congrArg some hclose))
          exact .proceed ⟨e.machine, xs, e₂.machine⟩ hxs (hears.trans hears₃) hcurrent₃
      | halted hxs hlast hhalt hears₂ =>
          rw [hears₁.language] at hxs hlast
          rw [hears₁.ticks] at hears₂
          have hears := hears₁.trans hears₂
          obtain ⟨e₃, hclose, hears₃, hmachine₃, hcurrent₃⟩ :=
            closeTick_told (hears.passive hobservers) (.halt _)
          rw [hears.ticks, ← hmachine₃] at hears₃
          obtain rfl := Option.some.inj (h.symm.trans (congrArg some hclose))
          exact .halt hxs hlast hhalt (hears.trans hears₃) hcurrent₃

end Ticks

section Runs

variable {n : Nat} {r : Reached C σ (RunOutcome C)}

/-- What a run is told as, by what it ends with: a stream that follows the grammar, or one that
breaks off in a visit. -/
inductive Ran (e : Engine C σ) : Reached C σ (RunOutcome C) → Prop
  | ended
      {stream : List (Notice C)} {outcome : RunOutcome C} {e' : Engine C σ}
      (htold : Told (·.Genuine e.language) e.ticks stream outcome e'.ticks)
      (hmemory : e'.scene.memory = notesAfter e.observers e.scene.memory stream) :
      Ran e (.ok outcome e')
  | failed
      {whole broken : List (Notice C)} {tick : Nat} {fault : Fault} {e' : Engine C σ}
      (htold : Told (·.Genuine e.language) e.ticks whole .tickLimit tick)
      (hbroken : Broken e.language (tick + 1) fault broken)
      (hticks : e'.ticks = tick + 1)
      (hmemory : e'.scene.memory = notesAfter e.observers e.scene.memory (whole ++ broken)) :
      Ran e (.error fault e')

theorem Ran.pass
    {p : Pass C}
    (hgenuine : ∀ x ∈ p.executions, x.Genuine e.language ∧ x.decision = .proceed)
    (hears : Hears e.counted (p.notices (e.ticks + 1)) e₁)
    (h : Ran e₁ r) :
    Ran e r := by
  have hticks : e₁.ticks = e.ticks + 1 := hears.ticks
  have hlanguage : e₁.language = e.language := hears.language
  have hnotes :
      ∀ stream,
        notesAfter e₁.observers e₁.scene.memory stream =
          notesAfter e.observers e.scene.memory (p.notices (e.ticks + 1) ++ stream) := by
    intro stream
    rw [notesAfter_append, hears.observers, hears.memory]
    rfl
  cases h with
  | ended htold hmemory =>
      rw [hlanguage, hticks] at htold
      rw [hnotes] at hmemory
      exact .ended (.pass p hgenuine htold) hmemory
  | failed htold hbroken hlast hmemory =>
      rw [hlanguage, hticks] at htold
      rw [hlanguage] at hbroken
      rw [hnotes, ← List.append_assoc] at hmemory
      exact .failed (.pass p hgenuine htold) hbroken hlast hmemory

theorem finish_told
    (hobservers : Passive e.observers)
    (hcurrent : e.current = none)
    (result : Option C) :
    ∃ e',
      finish result e = .ok result e' ∧
      Hears e [⟨⟨.halt, e.ticks, none⟩, e.machine⟩] e' := by
  have hset :
      (modify fun e => { e with halted := true } : Act (Engine C σ) Unit) e =
        .ok () { e with halted := true } :=
    rfl
  obtain ⟨e', htell, hears, _⟩ :=
    notify_passive (e := { e with halted := true }) hobservers .halt
  have hears' : Hears e [⟨⟨.halt, e.ticks, e.current⟩, e.machine⟩] e' :=
    ⟨hears.language, hears.observers, hears.ticks, hears.memory⟩
  rw [hcurrent] at hears'
  refine ⟨e', ?_, hears'⟩
  unfold finish
  rw [bind_ok hset, bind_ok htell]
  rfl

theorem tickWithin_told
    (hobservers : Passive e.observers)
    (hcurrent : e.current = none)
    (h : tickWithin e n = some r) :
    Ran e r := by
  induction n generalizing e with
  | zero =>
      obtain rfl := Option.some.inj h
      exact .ended .rest rfl
  | succ n ih =>
      rw [tickWithin_succ] at h
      cases htick : tick e with
      | none =>
          simp [htick] at h
      | some answer =>
          rw [htick] at h
          have hticked := tick_told hobservers hcurrent htick
          cases hticked with
          | proceed p hgenuine hears hcurrent' =>
              exact (ih (hears.passive hobservers) hcurrent' h).pass hgenuine hears
          | @halt opening xs x result e₁ hgenuine hlast hhalt hears hcurrent' =>
              obtain ⟨e₂, hfinish, hears'⟩ :=
                finish_told (hears.passive hobservers) hcurrent' result
              dsimp only at h
              rw [hfinish] at h
              obtain rfl := Option.some.inj h
              have hticks : e₁.ticks = e.ticks + 1 := hears.ticks
              rw [hticks] at hears'
              have htold :
                  Told (·.Genuine e.language) e.ticks
                    (Pass.notices (e.ticks + 1) ⟨opening, xs ++ [x], e₁.machine⟩ ++
                      [⟨⟨.halt, e.ticks + 1, none⟩, e₁.machine⟩])
                    (.halted result) e₂.ticks := by
                rw [hears'.ticks, hticks]
                exact .halt opening e₁.machine hgenuine hlast hhalt
              exact .ended htold (hears.trans hears').memory
          | failed hbroken hears =>
              obtain rfl := Option.some.inj h
              exact .failed .rest hbroken hears.ticks hears.memory

/-- An engine that has not run yet. -/
structure Fresh (e : Engine C σ) : Prop where
  current : e.current = none
  ticks : e.ticks = 0
  launched : e.launched = false

theorem fresh_assemble
    (machine : Machine C) (language : Language C) (memory : σ) :
    Fresh (assemble machine language memory) :=
  ⟨rfl, rfl, rfl⟩

theorem Fresh.subscribe
    (h : Fresh e)
    (observer : Observer C σ) :
    Fresh (e.subscribe observer) :=
  ⟨h.current, h.ticks, h.launched⟩

theorem launch_told
    (hfresh : Fresh e)
    (hobservers : Passive e.observers) :
    ∃ e₁,
      launch e = .ok () e₁ ∧
      Hears e [⟨⟨.launch, 0, none⟩, e.machine⟩] e₁ ∧
      e₁.current = none := by
  obtain ⟨e₁, htell, hears, _, hcurrent⟩ :=
    notify_passive (e := { e with launched := true }) hobservers .launch
  have hears' : Hears e [⟨⟨.launch, e.ticks, e.current⟩, e.machine⟩] e₁ :=
    ⟨hears.language, hears.observers, hears.ticks, hears.memory⟩
  rw [hfresh.ticks, hfresh.current] at hears'
  refine ⟨e₁, ?_, hears', hcurrent.trans hfresh.current⟩
  unfold launch
  rw [get_bind, hfresh.launched]
  exact htell

theorem runFor_told
    (hfresh : Fresh e)
    (hobservers : Passive e.observers)
    (h : runFor n e = some r) :
    ∃ e₁, Hears e [⟨⟨.launch, 0, none⟩, e.machine⟩] e₁ ∧ Ran e₁ r := by
  obtain ⟨e₁, hlaunch, hears, hcurrent⟩ := launch_told hfresh hobservers
  unfold runFor at h
  rw [hlaunch] at h
  exact ⟨e₁, hears, tickWithin_told (hears.passive hobservers) hcurrent h⟩

end Runs

section Calls

/-- A request to run, with or without a budget. -/
inductive Call where
  | run
  | runFor (budget : Nat)

/-- What a request to run answers. -/
def Call.answer : Call → Engine C σ → Option (Reached C σ (RunOutcome C))
  | run, e => e.run.map ended
  | runFor budget, e => e.runFor budget

/-- Requests in a row, of which only the last one may end the run. -/
inductive Calls :
    List Call →
      Engine C σ →
      Reached C σ (RunOutcome C) →
      Prop
  | last
      {call : Call} {e : Engine C σ} {r : Reached C σ (RunOutcome C)}
      (h : call.answer e = some r) :
      Calls [call] e r
  | more
      {call : Call} {calls : List Call} {e e₁ : Engine C σ} {r : Reached C σ (RunOutcome C)}
      (h : call.answer e = some (.ok .tickLimit e₁))
      (hcalls : Calls calls e₁ r) :
      Calls (call :: calls) e r

variable {calls : List Call} {r : Reached C σ (RunOutcome C)}

theorem Call.runFor_of_answer
    {call : Call}
    (h : call.answer e = some r) :
    ∃ n, e.runFor n = some r := by
  cases call with
  | run =>
      obtain ⟨r', hrun, rfl⟩ := Option.map_eq_some_iff.1 h
      exact run_eq_some_iff.1 hrun
  | runFor budget =>
      exact ⟨budget, h⟩

/-- Requests in a row are one run with some budget. -/
theorem Calls.runFor
    (h : Calls calls e r) :
    ∃ n, e.runFor n = some r := by
  induction h with
  | last h =>
      exact Call.runFor_of_answer h
  | more h _ ih =>
      obtain ⟨m, hm⟩ := Call.runFor_of_answer h
      obtain ⟨n, hn⟩ := ih
      refine ⟨m + n, ?_⟩
      rw [runFor_add, hm]
      exact hn

/-- What observers are told of a run, however many requests it is made of: the announcement, and
then a stream that follows the grammar, or that breaks off in the visit that fails, before the
finish of its tick.  A pointer is named exactly in the phases that are about one. -/
theorem calls_told
    (hfresh : Fresh e)
    (hobservers : Passive e.observers)
    (hcalls : Calls calls e r) :
    ∃ e' stream,
      e'.scene.memory =
        notesAfter e.observers e.scene.memory (⟨⟨.launch, 0, none⟩, e.machine⟩ :: stream) ∧
      (∀ notice ∈ stream, notice.Apt) ∧
      ((∃ outcome,
          r = .ok outcome e' ∧
          Told (·.Genuine e.language) 0 stream outcome e'.ticks) ∨
        ∃ fault whole broken tick more,
          r = .error fault e' ∧
          stream = whole ++ broken ∧
          e'.ticks = tick + 1 ∧
          Told (·.Genuine e.language) 0 whole .tickLimit tick ∧
          Broken e.language (tick + 1) fault broken ∧
          (∀ notice ∈ broken, notice.event.phase ≠ .tickFinish ∧ notice.event.phase ≠ .halt) ∧
          more ≠ [] ∧
          Told (fun _ => True) 0 (stream ++ more) .tickLimit (tick + 1)) := by
  obtain ⟨n, hrun⟩ := hcalls.runFor
  obtain ⟨e₁, hears, hran⟩ := runFor_told hfresh hobservers hrun
  have hticks : e₁.ticks = 0 := hears.ticks.trans hfresh.ticks
  have hnotes :
      ∀ stream,
        notesAfter e₁.observers e₁.scene.memory stream =
          notesAfter e.observers e.scene.memory (⟨⟨.launch, 0, none⟩, e.machine⟩ :: stream) := by
    intro stream
    rw [hears.observers, hears.memory]
    rfl
  cases hran with
  | @ended stream outcome e' htold hmemory =>
      rw [hears.language, hticks] at htold
      rw [hnotes] at hmemory
      exact ⟨e', stream, hmemory, htold.apt, .inl ⟨outcome, rfl, htold⟩⟩
  | @failed whole broken tick fault e' htold hbroken hlast hmemory =>
      rw [hears.language, hticks] at htold
      rw [hears.language] at hbroken
      rw [hnotes] at hmemory
      obtain ⟨more, hmore, hcompleted⟩ := hbroken.completed
      have hwhole : Told (fun _ => True) 0 whole .tickLimit tick :=
        htold.mono fun _ _ => trivial
      have happ := hwhole.append hcompleted
      rw [← List.append_assoc] at happ
      have hapt : ∀ notice ∈ whole ++ broken, notice.Apt := by
        intro notice hnotice
        rcases List.mem_append.1 hnotice with h | h
        · exact htold.apt notice h
        · exact hbroken.apt notice h
      exact
        ⟨e', whole ++ broken, hmemory, hapt,
          .inr ⟨fault, whole, broken, tick, more, rfl, rfl, hlast, htold, hbroken,
            hbroken.unfinished, hmore, happ⟩⟩

/-- An observer that writes down what it is told. -/
def scribe : Observer C (List (Notice C)) := fun event scene =>
  .ok () { scene with memory := scene.memory ++ [⟨event, scene.machine⟩] }

theorem passive_scribe :
    Passive [(scribe : Observer C (List (Notice C)))] := by
  intro observer hobserver event scene
  obtain rfl := List.mem_singleton.1 hobserver
  exact ⟨_, rfl⟩

theorem notesAfter_scribe
    (memory stream : List (Notice C)) :
    notesAfter [scribe] memory stream = memory ++ stream := by
  induction stream generalizing memory with
  | nil =>
      exact (List.append_nil memory).symm
  | cons notice stream ih =>
      have hnoted : noted [scribe] memory notice = memory ++ [notice] :=
        rfl
      change notesAfter [scribe] (noted [scribe] memory notice) stream = _
      rw [hnoted, ih, List.append_assoc]
      rfl

/-- The walker with a scribe. -/
def watched (x : Int64) (ticks : Nat) (memory : List (Notice UInt8)) :
    Engine UInt8 (List (Notice UInt8)) :=
  { (assemble (walker x 0).machine Tiny.language memory).subscribe scribe with
    ticks
    launched := true }

theorem tick_watched_first
    (memory : List (Notice UInt8)) :
    ∃ memory', tick (watched 0 0 memory) = some (.ok .proceed (watched 1 1 memory')) := by
  have hvisits :
      ∃ memory' memory'',
        openTick (watched 0 0 memory) = .ok () (watched 0 1 memory') ∧
        visit 0 1 (watched 0 1 memory') =
          .ok (.next 1) { watched 1 1 memory'' with current := some 1 } :=
    ⟨_, _, rfl, rfl⟩
  obtain ⟨memory', memory'', hopen, hvisit⟩ := hvisits
  have hip : (watched 0 1 memory').machine.ips[0]? = some ⟨1, .planar 0 0, .east, .empty⟩ :=
    rfl
  have hrest : { watched 1 1 memory'' with current := some 1 }.machine.ips[1]? = none :=
    rfl
  exact ⟨_, tick_of_visits hopen ((visitsFrom_next hip hvisit).trans (visitsFrom_rest hrest))⟩

theorem tick_watched_second
    (memory : List (Notice UInt8)) :
    ∃ memory',
      tick (watched 1 1 memory) = some (.ok (.halt (some 33)) (watched 1 2 memory')) := by
  have hvisits :
      ∃ memory' memory'',
        openTick (watched 1 1 memory) = .ok () (watched 1 2 memory') ∧
        visit 0 1 (watched 1 2 memory') = .ok (.halted (some 33)) (watched 1 2 memory'') :=
    ⟨_, _, rfl, rfl⟩
  obtain ⟨memory', memory'', hopen, hvisit⟩ := hvisits
  have hip : (watched 1 2 memory').machine.ips[0]? = some ⟨1, .planar 1 0, .east, .empty⟩ :=
    rfl
  exact ⟨_, tick_of_visits hopen (visitsFrom_halted hip hvisit)⟩

/-- The walker with a scribe, before its run. -/
def unwatched : Engine UInt8 (List (Notice UInt8)) :=
  (assemble (walker 0 0).machine Tiny.language []).subscribe scribe

theorem calls_watched :
    ∃ e',
      Calls [.runFor 1, .run] unwatched (.ok (.halted (some 33)) e') ∧ e'.ticks = 2 := by
  have hlaunch : ∃ memory, launch unwatched = .ok () (watched 0 0 memory) :=
    ⟨_, rfl⟩
  obtain ⟨memory, hlaunch⟩ := hlaunch
  obtain ⟨memory₁, hfirst⟩ := tick_watched_first memory
  obtain ⟨memory₂, hsecond⟩ := tick_watched_second memory₁
  have hlimit : runFor 1 unwatched = some (.ok .tickLimit (watched 1 1 memory₁)) := by
    unfold runFor
    rw [hlaunch]
    dsimp only
    rw [tickWithin_succ, hfirst]
    rfl
  obtain ⟨e', hfinish, hticks⟩ :
      ∃ e', finish (some 33) (watched 1 2 memory₂) = .ok (some 33) e' ∧ e'.ticks = 2 :=
    ⟨_, rfl, rfl⟩
  have hhalt : runFor 1 (watched 1 1 memory₁) = some (ended (.ok (some 33) e')) := by
    change tickWithin (watched 1 1 memory₁) 1 = _
    rw [tickWithin_succ, hsecond]
    dsimp only
    rw [hfinish]
  have hrun : Call.run.answer (watched 1 1 memory₁) = some (.ok (.halted (some 33)) e') :=
    congrArg (Option.map ended) (run_eq_some_iff.2 ⟨1, hhalt⟩)
  exact ⟨e', .more hlimit (.last hrun), hticks⟩

theorem calls_told_watched :
    ∃ e' stream,
      Calls [.runFor 1, .run] unwatched (.ok (.halted (some 33)) e') ∧
      e'.scene.memory = ⟨⟨.launch, 0, none⟩, (walker 0 0).machine⟩ :: stream ∧
      (∀ notice ∈ stream, notice.Apt) ∧
      Told (·.Genuine Tiny.language) 0 stream (.halted (some 33)) 2 := by
  obtain ⟨e', hcalls, hticks⟩ := calls_watched
  have hfresh : Fresh unwatched :=
    (fresh_assemble _ _ _).subscribe scribe
  obtain ⟨e'', stream, hmemory, hapt, htold⟩ := calls_told hfresh passive_scribe hcalls
  rcases htold with ⟨outcome, hr, htold⟩ | ⟨_, _, _, _, _, hr, _⟩
  · injection hr with houtcome hengine
    subst houtcome hengine
    rw [hticks] at htold
    exact ⟨e', stream, hcalls, hmemory.trans (notesAfter_scribe _ _), hapt, htold⟩
  · contradiction

end Calls

end Engine
end FungeTrace
