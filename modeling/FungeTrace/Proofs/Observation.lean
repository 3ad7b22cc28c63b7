import FungeTrace.Engine.Basic
import FungeTrace.Proofs.Agreement

/-!
# Notifications and the engine

A notification changes what observers can reach, the machine and their own notes, and nothing else
of an engine.  Observers that are silent at a phase change nothing at all, and the parts of a run
that only notify come down to their marks on the engine then.

The last section takes a visit apart at its notifications and its operation.  A relation along which
these pieces lead is one along which whole visits lead: `Passable`.
-/

namespace FungeTrace
namespace Engine

open Act

variable {C σ : Type} {e e' : Engine C σ}

/-- Observers that do nothing at a phase. -/
def Silent (observers : List (Observer C σ)) (phase : Phase) : Prop :=
  ∀ event : Event, event.phase = phase →
    ∀ scene, Observer.notifyAll event observers scene = .ok () scene

theorem notify_silent
    {phase : Phase}
    (h : Silent e.observers phase) :
    notify phase e = .ok () e := by
  unfold notify zoom
  rw [h _ rfl]

theorem silent_nil
    (phase : Phase) :
    Silent ([] : List (Observer C σ)) phase := by
  intro event hphase scene
  rfl

/-- Observers that leave the machine alone at a phase. -/
def Watching (observers : List (Observer C σ)) (phase : Phase) : Prop :=
  ∀ event : Event, event.phase = phase →
    ∀ scene scene', Observer.notifyAll event observers scene = .ok () scene' →
      scene'.machine = scene.machine

theorem Silent.watching
    {observers : List (Observer C σ)} {phase : Phase}
    (h : Silent observers phase) :
    Watching observers phase := by
  intro event hphase scene scene' hnotify
  rw [h event hphase scene, EStateM.Result.ok.injEq] at hnotify
  rw [← hnotify.2]

/-- A notification changes what observers see of an engine and nothing else. -/
theorem notify_ok
    {phase : Phase}
    (h : notify phase e = .ok () e') :
    ∃ scene,
      e' = { e with scene } ∧
      Observer.notifyAll
        { phase, tick := e.ticks, current := e.current } e.observers e.scene =
          .ok () scene := by
  unfold notify zoom at h
  cases hall :
      Observer.notifyAll
        { phase, tick := e.ticks, current := e.current } e.observers e.scene with
  | ok _ scene =>
      rw [hall] at h
      simp only [EStateM.Result.ok.injEq, true_and] at h
      exact ⟨scene, h.symm, rfl⟩
  | error fault scene =>
      rw [hall] at h
      contradiction

/-- What a notification leaves, also when an observer fails. -/
theorem left_notify
    (phase : Phase) (e : Engine C σ) :
    Act.left (notify phase e) =
      { e with scene :=
        Act.left (Observer.notifyAll ⟨phase, e.ticks, e.current⟩ e.observers e.scene) } := by
  unfold notify zoom
  cases Observer.notifyAll ⟨phase, e.ticks, e.current⟩ e.observers e.scene with
  | ok _ scene =>
      rfl
  | error fault scene =>
      rfl

theorem launch_silent
    (hlaunch : Silent e.observers .launch) :
    launch e = .ok () { e with launched := true } := by
  obtain ⟨scene, language, observers, current, ticks, launched, halted⟩ := e
  cases launched with
  | true =>
      rfl
  | false =>
      exact notify_silent hlaunch

theorem closeTick_silent
    {decision : Decision C}
    (hfinish : Silent e.observers .tickFinish) :
    closeTick decision e = .ok decision { e with current := none } := by
  have hset : setCurrent none e = .ok () { e with current := none } :=
    rfl
  have hquiet :
      notify .tickFinish { e with current := none } =
        .ok () { e with current := none } :=
    notify_silent (e := { e with current := none }) hfinish
  unfold closeTick
  rw [bind_ok hset, bind_ok hquiet]
  rfl

theorem finish_silent
    (hhalt : Silent e.observers .halt)
    (result : Option C) :
    finish result e = .ok result { e with halted := true } := by
  have hset :
      (modify fun e => { e with halted := true } : Act (Engine C σ) Unit) e =
        .ok () { e with halted := true } :=
    rfl
  have hquiet :
      notify .halt { e with halted := true } = .ok () { e with halted := true } :=
    notify_silent (e := { e with halted := true }) hhalt
  unfold finish
  rw [bind_ok hset, bind_ok hquiet]
  rfl

section Pieces

variable {α β : Type}

/-- What follows the operation in a visit. -/
def concluded (place id : Nat) : Decision C → Act (Engine C σ) (Visit C)
  | .halt result => do
    setCurrent none
    return .halted result
  | .proceed => do
    if (← indexOf? id).isSome then depart place id else return .next place

/-- What follows the first notification of a visit. -/
def attended (index id : Nat) : Act (Engine C σ) (Visit C) := do
  match ← indexOf? id with
  | none => return .next index
  | some place =>
    match (← get).machine.cellUnder? id with
    | none => return .next place
    | some cell => perform place id (← Act.ofExcept cell)

theorem perform_eq
    (place id : Nat) (cell : C) (e : Engine C σ) :
    perform place id cell e =
      (onMachine (e.language.operation cell e.current) >>= concluded place id) e := by
  unfold perform
  rw [get_bind]
  congr 1

theorem visit_eq
    (index id : Nat) :
    (visit index id : Act (Engine C σ) (Visit C)) = (do
      setCurrent (some id)
      notify .beforeCommand
      attended index id) := by
  rfl

/-- A relation along which an engine moves in the steps of a tick, its operations apart. -/
structure Passable (R : Engine C σ → Engine C σ → Prop) : Prop where
  refl : ∀ e, R e e
  trans : ∀ e e₁ e₂, R e e₁ → R e₁ e₂ → R e e₂
  notify : ∀ phase, phase ≠ .launch → phase ≠ .halt → Moves R (notify phase)
  current : ∀ id, Moves R (setCurrent id)
  advance : ∀ id, Moves R (onMachine (Machine.advance id))

namespace Passable

variable {R : Engine C σ → Engine C σ → Prop}

theorem bind
    (h : Passable R)
    {act : Act (Engine C σ) α} {next : α → Act (Engine C σ) β}
    (hact : Moves R act)
    (hnext : ∀ a, Moves R (next a)) :
    Moves R (act >>= next) :=
  moves_bind h.trans hact hnext

theorem pure
    (h : Passable R)
    (a : α) :
    Moves R (Pure.pure a) :=
  moves_pure h.refl a

theorem indexOf?
    (h : Passable R)
    (id : Nat) :
    Moves R (indexOf? id) :=
  moves_ask h.refl fun e => .ok (e.machine.indexOf? id)

theorem depart
    (h : Passable R)
    (index id : Nat) :
    Moves R (depart index id) := by
  refine h.bind (h.notify _ (by decide) (by decide)) fun _ => ?_
  refine h.bind (h.advance id) fun live => ?_
  split
  · refine h.bind (h.notify _ (by decide) (by decide)) fun _ => ?_
    exact h.bind (h.indexOf? id) fun _ => h.pure _
  · exact h.pure _

theorem concluded
    (h : Passable R)
    (place id : Nat) (decision : Decision C) :
    Moves R (concluded place id decision) := by
  cases decision with
  | halt result =>
      exact h.bind (h.current none) fun _ => h.pure _
  | proceed =>
      refine h.bind (h.indexOf? id) fun found => ?_
      split
      · exact h.depart place id
      · exact h.pure _

theorem closeTick
    (h : Passable R)
    (decision : Decision C) :
    Moves R (closeTick decision) := by
  refine h.bind (h.current none) fun _ => ?_
  exact h.bind (h.notify _ (by decide) (by decide)) fun _ => h.pure _

/-- A visit, for a relation along which operations lead as well. -/
theorem visit
    (h : Passable R)
    (hmachine : ∀ act : Act (Machine C) (Decision C), Moves R (onMachine act))
    (index id : Nat) :
    Moves R (visit index id) := by
  refine h.bind (h.current _) fun _ => ?_
  refine h.bind (h.notify _ (by decide) (by decide)) fun _ => ?_
  refine h.bind (h.indexOf? id) fun place => ?_
  cases place with
  | none =>
      exact h.pure _
  | some place =>
      refine h.bind (moves_ask h.refl .ok) fun e => ?_
      cases e.machine.cellUnder? id with
      | none =>
          exact h.pure _
      | some result =>
          refine h.bind (moves_ask h.refl fun _ => result) fun cell => ?_
          refine h.bind (moves_ask h.refl .ok) fun e => ?_
          refine h.bind (hmachine _) fun decision => ?_
          exact h.concluded place id decision

end Passable

end Pieces

end Engine
end FungeTrace
