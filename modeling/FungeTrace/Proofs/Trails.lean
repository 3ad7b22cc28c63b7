import FungeTrace.Proofs.Halting

/-!
# Trails

A run is made of few kinds of steps: announcements, the start of a tick, visits, the end of a tick.
A `Trail` follows a run from step to step, whatever the steps end with, and collects the turns that
pointers take on the way.  It need not reach the end of a tick, so that it also says what happens in
ticks that never end; and every row of requests that are answered is a trail, as `served_trail`
says.
-/

namespace FungeTrace

namespace Engine

variable {C σ : Type} {e e' : Engine C σ}

/-- Where a run stands between two of its steps. -/
inductive Moment where
  /-- Outside of ticks. -/
  | idle
  /-- In a tick that goes on at a place of the live sequence. -/
  | visiting (index : Nat)
  /-- In a tick whose visits are over. -/
  | closing

/-- Where a run stands after the start of a tick was announced. -/
def Moment.opened : Reached C σ Unit → Moment
  | .ok _ _ => visiting 0
  | .error _ _ => idle

/-- Where a run stands after a visit. -/
def Moment.visited : Reached C σ (Visit C) → Moment
  | .ok (.next index) _ => visiting index
  | .ok (.halted _) _ => closing
  | .error _ _ => idle

/-- Where a run stands after all visits of a tick. -/
def Moment.toured : Reached C σ (Decision C) → Moment
  | .ok _ _ => closing
  | .error _ _ => idle

/-- The engines that a run leads to, step by step and whatever the steps end with, and the turns
that pointers take on the way. -/
inductive Trail (e₀ : Engine C σ) :
    List (Turn C) →
      Moment →
      Engine C σ →
      Prop
  | start :
      Trail e₀ [] .idle e₀
  | launch
      {turns : List (Turn C)} {e : Engine C σ}
      (h : Trail e₀ turns .idle e) :
      Trail e₀ turns .idle (Act.left (launch e))
  | openTick
      {turns : List (Turn C)} {e : Engine C σ}
      (h : Trail e₀ turns .idle e) :
      Trail e₀ turns (.opened (openTick e)) (Act.left (openTick e))
  | visit
      {turns : List (Turn C)} {e : Engine C σ} {index : Nat} {ip : Ip}
      (h : Trail e₀ turns (.visiting index) e)
      (hip : e.machine.ips[index]? = some ip) :
      Trail e₀ (turns ++ (e.turn? ip.id).toList)
        (.visited (visit index ip.id e)) (Act.left (visit index ip.id e))
  | rest
      {turns : List (Turn C)} {e : Engine C σ} {index : Nat}
      (h : Trail e₀ turns (.visiting index) e)
      (hip : e.machine.ips[index]? = none) :
      Trail e₀ turns .closing e
  | closeTick
      {turns : List (Turn C)} {e : Engine C σ}
      (h : Trail e₀ turns .closing e)
      (decision : Decision C) :
      Trail e₀ turns .idle (Act.left (closeTick decision e))
  | finish
      {turns : List (Turn C)} {e : Engine C σ}
      (h : Trail e₀ turns .idle e)
      (result : Option C) :
      Trail e₀ turns .idle (Act.left (finish result e))

variable {e₀ : Engine C σ} {turns : List (Turn C)}

theorem visitsFrom_trail
    {index : Nat} {r : Reached C σ (Decision C)}
    (htrail : Trail e₀ turns (.visiting index) e)
    (h : visitsFrom index e = some r) :
    ∃ turns', Trail e₀ turns' (.toured r) (Act.left r) := by
  refine
    visitsFrom.partial_correctness
      (fun index e r =>
        ∀ turns, Trail e₀ turns (.visiting index) e →
          ∃ turns', Trail e₀ turns' (.toured r) (Act.left r))
      ?_ index e r h turns htrail
  intro visitsFrom ih index e r hr turns htrail
  cases hip : e.machine.ips[index]? with
  | none =>
      rw [hip] at hr
      obtain rfl := Option.some.inj hr
      exact ⟨turns, htrail.rest hip⟩
  | some ip =>
      rw [hip] at hr
      dsimp only at hr
      have hvisit := htrail.visit hip
      generalize visit index ip.id e = answer at hr hvisit
      cases answer with
      | error fault e₁ =>
          obtain rfl := Option.some.inj hr
          exact ⟨_, hvisit⟩
      | ok answer e₁ =>
          cases answer with
          | halted result =>
              obtain rfl := Option.some.inj hr
              exact ⟨_, hvisit⟩
          | next next =>
              exact ih next e₁ r hr _ hvisit

theorem tick_trail
    {r : Reached C σ (Decision C)}
    (htrail : Trail e₀ turns .idle e)
    (h : tick e = some r) :
    ∃ turns', Trail e₀ turns' .idle (Act.left r) := by
  have hopen := htrail.openTick
  unfold tick at h
  cases hopened : openTick e with
  | error fault e₁ =>
      rw [hopened] at h hopen
      obtain rfl := Option.some.inj h
      exact ⟨turns, hopen⟩
  | ok _ e₁ =>
      rw [hopened] at h hopen
      dsimp only at h
      cases hvisits : visits e₁ with
      | none =>
          simp [hvisits] at h
      | some answer =>
          obtain ⟨turns', htour⟩ := visitsFrom_trail hopen hvisits
          rw [hvisits] at h
          cases answer with
          | error fault e₂ =>
              obtain rfl := Option.some.inj h
              exact ⟨turns', htour⟩
          | ok decision e₂ =>
              obtain rfl := Option.some.inj h
              exact ⟨turns', htour.closeTick decision⟩

theorem tickWithin_trail
    {n : Nat} {r : Reached C σ (RunOutcome C)}
    (htrail : Trail e₀ turns .idle e)
    (h : tickWithin e n = some r) :
    ∃ turns', Trail e₀ turns' .idle (Act.left r) := by
  induction n generalizing e turns with
  | zero =>
      obtain rfl := Option.some.inj h
      exact ⟨turns, htrail⟩
  | succ n ih =>
      rw [tickWithin_succ] at h
      cases htick : tick e with
      | none =>
          simp [htick] at h
      | some answer =>
          rw [htick] at h
          obtain ⟨turns', hticked⟩ := tick_trail htrail htick
          cases answer with
          | error fault e₁ =>
              obtain rfl := Option.some.inj h
              exact ⟨turns', hticked⟩
          | ok decision e₁ =>
              cases decision with
              | halt result =>
                  obtain rfl := Option.some.inj h
                  rw [left_ended]
                  exact ⟨turns', hticked.finish result⟩
              | proceed =>
                  exact ih hticked h

/-- A request to run goes on along a trail. -/
theorem answer_trail
    {call : Call} {r : Reached C σ (RunOutcome C)}
    (htrail : Trail e₀ turns .idle e)
    (h : call.answer e = some r) :
    ∃ turns', Trail e₀ turns' .idle (Act.left r) := by
  obtain ⟨n, hrun⟩ := Call.runFor_of_answer h
  have hlaunch := htrail.launch
  unfold runFor at hrun
  cases hlaunched : launch e with
  | error fault e₁ =>
      rw [hlaunched] at hrun hlaunch
      obtain rfl := Option.some.inj hrun
      exact ⟨turns, hlaunch⟩
  | ok _ e₁ =>
      rw [hlaunched] at hrun hlaunch
      exact tickWithin_trail hlaunch hrun

theorem served_trail
    {requests : List (Request C σ)}
    (htrail : Trail e₀ turns .idle e)
    (h : Served e requests e') :
    ∃ turns', Trail e₀ turns' .idle e' := by
  induction h generalizing turns with
  | done =>
      exact ⟨turns, htrail⟩
  | next hbefore hanswer hrest ih =>
      obtain ⟨turns', hanswered⟩ := answer_trail htrail hanswer
      exact ih hanswered

end Engine

end FungeTrace
