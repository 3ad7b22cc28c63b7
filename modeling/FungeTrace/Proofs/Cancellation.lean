import FungeTrace.Proofs.Budget

/-!
# Cancelling a background run

The handle of a background run and its worker take turns in any order.  A `Stage` is the run
together with what the handle is doing.  A `Move` is one indivisible step of either party, made of
the functions of `Background`; it says as an `Incident` what it was.  A `Course` is any number of
moves, with their log.

* Three incidents take the status away from `pending`: a cancel that wins, an abandoned worker that
  gives up, and a worker that calls the run.  The log counts one of them in all once the status is
  settled, and the status tells which: `Ledger`.
* A worker that was abandoned has no handle left that could join it: `Standing.abandoned`.
* A paused run that is given up before it is released is `Doomed`, and stays so: `Doomed.move`.
-/

namespace FungeTrace
namespace Background

section Primitives

variable {ρ : Type} (b : Background ρ)

@[simp]
theorem start_status :
    b.start.status = b.status := by
  unfold start
  split <;> rfl

@[simp]
theorem start_worker :
    b.start.worker = b.worker := by
  unfold start
  split <;> rfl

@[simp]
theorem dropGate_status :
    b.dropGate.status = b.status := by
  unfold dropGate
  split <;> rfl

@[simp]
theorem dropGate_worker :
    b.dropGate.worker = b.worker := by
  unfold dropGate
  split <;> rfl

theorem start_of_absent
    (h : b.gate = .absent) :
    b.start = b := by
  simp only [start, h]

theorem dropGate_of_absent
    (h : b.gate = .absent) :
    b.dropGate = b := by
  simp only [dropGate, h]

theorem signal_of_start
    (h : b.start.signal = .gone) :
    b.signal = .gone := by
  unfold start at h
  split at h
  · exact h
  · contradiction

theorem result?_eq_some_iff
    {r : ρ} :
    b.result? = some r ↔ b.worker = .finished r := by
  unfold result?
  split <;> simp_all

theorem claimCancelled_of_pending
    (h : b.status = .pending) :
    b.claimCancelled = (true, { b with status := .cancelled }) := by
  simp only [claimCancelled, h]

theorem claimCancelled_of_settled
    (h : b.status ≠ .pending) :
    b.claimCancelled = (false, b) := by
  unfold claimCancelled
  split
  · contradiction
  · rfl

end Primitives

/-- What the handle is doing. -/
inductive Handle where
  | free
  /-- Inside a cancel that has tried to set the status and has the answer. -/
  | cancelling (won : Bool)
  /-- Inside a join that has released the run. -/
  | joining
  | joined
  | dropped
deriving DecidableEq

/-- One thing that the handle or the worker does. -/
inductive Incident (R : Type) where
  /-- The handle releases the run. -/
  | start
  /-- A cancel tries to set the status. -/
  | claim (won : Bool)
  /-- A cancel lets go of the gate and returns. -/
  | cancelled (won : Bool)
  /-- The handle goes away. -/
  | drop
  /-- A join releases the run and begins to wait. -/
  | await
  /-- A join returns. -/
  | joined (result : R)
  /-- The worker leaves the gate. -/
  | wake
  /-- The worker, abandoned, tries to set the status. -/
  | forsake (won : Bool)
  /-- The worker takes the status and calls the run. -/
  | call
  /-- The worker finds the run cancelled. -/
  | refuse
  /-- The run ends. -/
  | finish

namespace Incident

variable {R : Type}

/-- A cancel that tried and won. -/
@[simp]
def claims : Incident R → Bool
  | claim true => true
  | _ => false

/-- A cancel that returned true. -/
@[simp]
def cancels : Incident R → Bool
  | cancelled true => true
  | _ => false

/-- An abandoned worker that tried and won. -/
@[simp]
def forsakes : Incident R → Bool
  | forsake true => true
  | _ => false

/-- A call of the run. -/
@[simp]
def calls : Incident R → Bool
  | call => true
  | _ => false

theorem cancels_iff
    {incident : Incident R} :
    incident.cancels = true ↔ incident = .cancelled true := by
  unfold cancels
  split <;> simp_all

theorem calls_iff
    {incident : Incident R} :
    incident.calls = true ↔ incident = .call := by
  unfold calls
  split <;> simp_all

/-- What gives up a run before it is released: a cancel, or the handle goes away. -/
def withdraws : Incident R → Bool
  | claim _ => true
  | cancelled _ => true
  | drop => true
  | _ => false

end Incident

/-- A run and what its handle is doing.  A run that never ends has no result. -/
structure Stage (R : Type) where
  run : Background (Option R)
  handle : Handle := .free

variable {R : Type} {work : Unit → Option R} {refused : Option R}
  {s s' : Stage R} {incident : Incident R} {log : List (Incident R)}

/-- A run that was just handed to its worker. -/
def Stage.submit (paused : Bool) : Stage R where
  run := .submit paused

/-- What the worker is about to do. -/
def due (b : Background (Option R)) : Incident R :=
  match b.worker with
  | .waiting => .wake
  | .abandoned => .forsake b.claimCancelled.1
  | .claiming => if b.status = .pending then .call else .refuse
  | .working => .finish
  | .finished _ => .finish

/-- One indivisible step of the handle or of the worker. -/
inductive Move
    (work : Unit → Option R) (refused : Option R) :
    Stage R →
      Incident R →
      Stage R →
      Prop
  | start
      {s : Stage R}
      (hfree : s.handle = .free) :
      Move work refused s .start { s with run := s.run.start }
  | claim
      {s : Stage R}
      (hfree : s.handle = .free) :
      Move work refused s (.claim s.run.claimCancelled.1)
        { run := s.run.claimCancelled.2, handle := .cancelling s.run.claimCancelled.1 }
  | cancelled
      {s : Stage R} {won : Bool}
      (hcancelling : s.handle = .cancelling won) :
      Move work refused s (.cancelled won) { run := s.run.dropGate, handle := .free }
  | drop
      {s : Stage R}
      (hfree : s.handle = .free) :
      Move work refused s .drop { run := s.run.dropGate, handle := .dropped }
  | await
      {s : Stage R}
      (hfree : s.handle = .free) :
      Move work refused s .await { run := s.run.start, handle := .joining }
  | joined
      {s : Stage R} {r : R}
      (hjoining : s.handle = .joining)
      (hfinished : s.run.result? = some (some r)) :
      Move work refused s (.joined r) { s with handle := .joined }
  | worker
      {s : Stage R} {b : Background (Option R)}
      (hstep : s.run.step work refused = some b)
      -- A run that never ends has no last step.
      (hends : b.result? ≠ some none) :
      Move work refused s s.run.due { s with run := b }

/-- Any number of moves, and their log. -/
inductive Course
    (work : Unit → Option R) (refused : Option R) :
    Stage R →
      List (Incident R) →
      Stage R →
      Prop
  | nil
      (s : Stage R) :
      Course work refused s [] s
  | snoc
      {s t t' : Stage R} {log : List (Incident R)} {incident : Incident R}
      (hcourse : Course work refused s log t)
      (hmove : Move work refused t incident t') :
      Course work refused s (log ++ [incident]) t'

theorem Course.split
    {t : Stage R}
    (h : Course work refused s log t) :
    ∀ before after, log = before ++ after →
      ∃ m, Course work refused s before m ∧ Course work refused m after t := by
  induction h with
  | nil =>
      intro before after hlog
      obtain ⟨rfl, rfl⟩ := List.nil_eq_append_iff.1 hlog
      exact ⟨_, .nil _, .nil _⟩
  | @snoc t t' log incident hcourse hmove ih =>
      intro before after hlog
      rcases List.eq_nil_or_concat after with rfl | ⟨rest, last, rfl⟩
      · rw [List.append_nil] at hlog
        subst hlog
        exact ⟨_, .snoc hcourse hmove, .nil _⟩
      · rw [List.concat_eq_append, ← List.append_assoc] at hlog
        obtain ⟨rfl, hlast⟩ := List.append_inj' hlog rfl
        obtain rfl := List.head_eq_of_cons_eq hlast
        obtain ⟨m, hbefore, hafter⟩ := ih before rest rfl
        rw [List.concat_eq_append]
        exact ⟨m, hbefore, .snoc hafter hmove⟩

/-- What one step of the worker can be. -/
inductive Worked
    (work : Unit → Option R) (refused : Option R) (b : Background (Option R)) :
    Incident R →
      Background (Option R) →
      Prop
  | released
      (hworker : b.worker = .waiting)
      (hsignal : b.signal = .go) :
      Worked work refused b .wake { b with worker := .claiming }
  | bereft
      (hworker : b.worker = .waiting)
      (hsignal : b.signal = .gone) :
      Worked work refused b .wake { b with worker := .abandoned }
  | forsook
      (hworker : b.worker = .abandoned)
      (hpending : b.status = .pending) :
      Worked work refused b (.forsake true) { b with status := .cancelled, worker := .claiming }
  | lagged
      (hworker : b.worker = .abandoned)
      (hsettled : b.status ≠ .pending) :
      Worked work refused b (.forsake false) { b with worker := .claiming }
  | called
      (hworker : b.worker = .claiming)
      (hpending : b.status = .pending) :
      Worked work refused b .call { b with status := .running, worker := .working }
  | refused
      (hworker : b.worker = .claiming)
      (hsettled : b.status ≠ .pending) :
      Worked work refused b .refuse { b with worker := .finished refused }
  | ended
      (hworker : b.worker = .working) :
      Worked work refused b .finish { b with worker := .finished (work ()) }

theorem worked_of_step
    {b b' : Background (Option R)}
    (h : b.step work refused = some b') :
    Worked work refused b b.due b' := by
  obtain ⟨status, gate, signal, worker⟩ := b
  cases worker with
  | waiting =>
      cases signal with
      | none =>
          contradiction
      | go =>
          obtain rfl := Option.some.inj h
          exact .released rfl rfl
      | gone =>
          obtain rfl := Option.some.inj h
          exact .bereft rfl rfl
  | abandoned =>
      obtain rfl := Option.some.inj h
      cases status with
      | pending =>
          exact .forsook rfl rfl
      | running =>
          exact .lagged rfl nofun
      | cancelled =>
          exact .lagged rfl nofun
  | claiming =>
      cases status with
      | pending =>
          obtain rfl := Option.some.inj h
          exact .called rfl rfl
      | running =>
          obtain rfl := Option.some.inj h
          exact .refused rfl nofun
      | cancelled =>
          obtain rfl := Option.some.inj h
          exact .refused rfl nofun
  | working =>
      obtain rfl := Option.some.inj h
      exact .ended rfl
  | finished r =>
      contradiction

section Invariants

/-- What a worker and the status say of each other: only the worker sets the status to `running`,
and once it is done its answer is that of the status. -/
structure Consistent
    (work : Unit → Option R) (refused : Option R) (b : Background (Option R)) : Prop where
  running : b.status = .running → b.worker = .working ∨ ∃ r, b.worker = .finished r
  working : b.worker = .working → b.status = .running
  finished :
    ∀ r, b.worker = .finished r →
      b.status = .cancelled ∧ r = refused ∨ b.status = .running ∧ r = work ()

theorem Consistent.worked
    {b b' : Background (Option R)}
    (h : Consistent work refused b)
    (hworked : Worked work refused b incident b') :
    Consistent work refused b' := by
  -- Until the worker sets it, the status is not `running`.
  have hnot : b.worker = .waiting ∨ b.worker = .abandoned ∨ b.worker = .claiming →
      b.status ≠ .running := by
    intro hworker hrunning
    rcases h.running hrunning with hworking | ⟨r, hfinished⟩
    · simp [hworking] at hworker
    · simp [hfinished] at hworker
  cases hworked with
  | released hworker hsignal =>
      exact ⟨fun hrunning => absurd hrunning (hnot (.inl hworker)), nofun, nofun⟩
  | bereft hworker hsignal =>
      exact ⟨fun hrunning => absurd hrunning (hnot (.inl hworker)), nofun, nofun⟩
  | forsook hworker hpending =>
      exact ⟨nofun, nofun, nofun⟩
  | lagged hworker hsettled =>
      exact ⟨fun hrunning => absurd hrunning (hnot (.inr (.inl hworker))), nofun, nofun⟩
  | called hworker hpending =>
      exact ⟨fun _ => .inl rfl, fun _ => rfl, nofun⟩
  | refused hworker hsettled =>
      have hcancelled : b.status = .cancelled := by
        have hrunning := hnot (.inr (.inr hworker))
        cases hstatus : b.status with
        | pending =>
            contradiction
        | running =>
            contradiction
        | cancelled =>
            rfl
      refine ⟨fun _ => .inr ⟨_, rfl⟩, nofun, ?_⟩
      intro r hr
      exact .inl ⟨hcancelled, (Worker.finished.inj hr).symm⟩
  | ended hworker =>
      refine ⟨fun _ => .inr ⟨_, rfl⟩, nofun, ?_⟩
      intro r hr
      exact .inr ⟨h.working hworker, (Worker.finished.inj hr).symm⟩

theorem Consistent.congr
    {b b' : Background (Option R)}
    (h : Consistent work refused b)
    (hstatus : b'.status = b.status)
    (hworker : b'.worker = b.worker) :
    Consistent work refused b' := by
  constructor
  · rw [hstatus, hworker]
    exact h.running
  · rw [hstatus, hworker]
    exact h.working
  · rw [hstatus, hworker]
    exact h.finished

theorem Consistent.settled
    {b : Background (Option R)} {r : Option R}
    (h : Consistent work refused b)
    (hworker : b.worker = .finished r) :
    b.status ≠ .pending := by
  rcases h.finished r hworker with ⟨hstatus, _⟩ | ⟨hstatus, _⟩
  · simp [hstatus]
  · simp [hstatus]

theorem Consistent.claim
    {b : Background (Option R)}
    (h : Consistent work refused b)
    (hpending : b.status = .pending) :
    Consistent work refused { b with status := .cancelled } := by
  constructor
  · nofun
  · intro hworker
    have hrunning := h.working hworker
    rw [hpending] at hrunning
    contradiction
  · intro r hworker
    exact absurd hpending (h.settled hworker)

/-- What holds at every stage: the status is settled while a cancel is under way, and a gate that
went away from a pending run went with the handle. -/
structure Standing
    (work : Unit → Option R) (refused : Option R) (s : Stage R) : Prop where
  consistent : Consistent work refused s.run
  cancelling : ∀ won, s.handle = .cancelling won → s.run.status ≠ .pending
  gone : s.run.signal = .gone → s.run.status = .pending → s.handle = .dropped
  abandoned : s.run.worker = .abandoned → s.run.status = .pending → s.handle = .dropped

theorem standing_submit
    (paused : Bool) :
    Standing work refused (.submit paused) := by
  cases paused with
  | false =>
      exact ⟨⟨nofun, nofun, nofun⟩, nofun, nofun, nofun⟩
  | true =>
      exact ⟨⟨nofun, nofun, nofun⟩, nofun, nofun, nofun⟩

/-- Where the status is settled, what the gate and the handle do is of no account. -/
theorem standing_of_settled
    (hconsistent : Consistent work refused s.run)
    (hsettled : s.run.status ≠ .pending) :
    Standing work refused s where
  consistent := hconsistent
  cancelling _ _ := hsettled
  gone _ hpending := absurd hpending hsettled
  abandoned _ hpending := absurd hpending hsettled

theorem Standing.worked
    {b : Background (Option R)}
    (h : Standing work refused s)
    (hworked : Worked work refused s.run incident b) :
    Standing work refused { s with run := b } := by
  have hconsistent := h.consistent.worked hworked
  cases hworked with
  | released hworker hsignal =>
      exact ⟨hconsistent, h.cancelling, h.gone, nofun⟩
  | bereft hworker hsignal =>
      exact ⟨hconsistent, h.cancelling, h.gone, fun _ => h.gone hsignal⟩
  | forsook hworker hpending =>
      exact standing_of_settled hconsistent nofun
  | lagged hworker hsettled =>
      exact standing_of_settled hconsistent hsettled
  | called hworker hpending =>
      exact standing_of_settled hconsistent nofun
  | refused hworker hsettled =>
      exact standing_of_settled hconsistent hsettled
  | ended hworker =>
      exact ⟨hconsistent, h.cancelling, h.gone, nofun⟩

/-- What one move keeps. -/
theorem Standing.move
    (h : Standing work refused s)
    (hmove : Move work refused s incident s') :
    Standing work refused s' := by
  have hstart : Consistent work refused s.run.start :=
    h.consistent.congr (start_status _) (start_worker _)
  have hdrop : Consistent work refused s.run.dropGate :=
    h.consistent.congr (dropGate_status _) (dropGate_worker _)
  cases hmove with
  | start hfree =>
      refine ⟨hstart, ?_, ?_, ?_⟩
      · simpa using h.cancelling
      -- A release signals `go`, so a gate that is gone was gone before.
      · intro hsignal hpending
        exact h.gone (signal_of_start _ hsignal) (by simpa using hpending)
      · simpa using h.abandoned
  | claim hfree =>
      by_cases hstatus : s.run.status = .pending
      · rw [claimCancelled_of_pending _ hstatus]
        exact standing_of_settled (h.consistent.claim hstatus) nofun
      · rw [claimCancelled_of_settled _ hstatus]
        exact standing_of_settled h.consistent hstatus
  | cancelled hcancelling =>
      exact standing_of_settled hdrop (by simpa using h.cancelling _ hcancelling)
  | drop hfree =>
      exact ⟨hdrop, nofun, fun _ _ => rfl, fun _ _ => rfl⟩
  | await hfree =>
      refine ⟨hstart, nofun, ?_, ?_⟩
      · intro hsignal hpending
        have hdropped := h.gone (signal_of_start _ hsignal) (by simpa using hpending)
        rw [hfree] at hdropped
        contradiction
      · intro hworker hpending
        have hdropped := h.abandoned (by simpa using hworker) (by simpa using hpending)
        rw [hfree] at hdropped
        contradiction
  | joined hjoining hresult =>
      have hworker := (result?_eq_some_iff _).1 hresult
      exact standing_of_settled h.consistent (h.consistent.settled hworker)
  | worker hstep hends =>
      exact h.worked (worked_of_step hstep)

/-- What the log says of a stage.  It counts one incident for a settled status, by the one who
settled it; a cancel that won has returned or is about to; the handle is gone if an abandoned worker
set the status, and it is used up if a join has returned. -/
structure Ledger (log : List (Incident R)) (s : Stage R) : Prop where
  called : log.countP Incident.calls = if s.run.status = .running then 1 else 0
  taken :
    log.countP Incident.claims + log.countP Incident.forsakes =
      if s.run.status = .cancelled then 1 else 0
  returned :
    log.countP Incident.cancels + (if s.handle = .cancelling true then 1 else 0) =
      log.countP Incident.claims
  forsaken : 0 < log.countP Incident.forsakes → s.handle = .dropped
  joined : ∀ r, .joined r ∈ log → s.handle = .joined ∧ s.run.worker = .finished (some r)

theorem ledger_submit
    (paused : Bool) :
    Ledger [] (.submit paused : Stage R) := by
  cases paused with
  | false =>
      exact ⟨rfl, rfl, rfl, nofun, nofun⟩
  | true =>
      exact ⟨rfl, rfl, rfl, nofun, nofun⟩

/-- The ledger goes on if a incident is counted where the stage changes. -/
theorem Ledger.append
    (h : Ledger log s)
    (hcalled :
      (if s'.run.status = .running then 1 else 0) =
        (if s.run.status = .running then 1 else 0) + incident.calls.toNat)
    (htaken :
      (if s'.run.status = .cancelled then 1 else 0) =
        (if s.run.status = .cancelled then 1 else 0) + incident.claims.toNat +
          incident.forsakes.toNat)
    (hreturned :
      incident.cancels.toNat + (if s'.handle = .cancelling true then 1 else 0) =
        (if s.handle = .cancelling true then 1 else 0) + incident.claims.toNat)
    (hforsaken : s.handle = .dropped ∨ incident.forsakes = true → s'.handle = .dropped)
    (hjoined :
      ∀ r, s.handle = .joined ∧ s.run.worker = .finished (some r) ∨ incident = .joined r →
        s'.handle = .joined ∧ s'.run.worker = .finished (some r)) :
    Ledger (log ++ [incident]) s' := by
  have hcount :
      ∀ p : Incident R → Bool,
        (log ++ [incident]).countP p = log.countP p + (p incident).toNat := by
    intro p
    cases hp : p incident <;> simp [List.countP_append, hp]
  constructor
  · rw [hcount, h.called, hcalled]
  · rw [hcount, hcount, htaken, ← h.taken]
    omega
  · have hold := h.returned
    rw [hcount, hcount]
    omega
  · intro hpos
    apply hforsaken
    rw [hcount] at hpos
    cases hincident : incident.forsakes with
    | true =>
        exact .inr rfl
    | false =>
        rw [hincident] at hpos
        exact .inl (h.forsaken hpos)
  · intro r hr
    apply hjoined
    rcases List.mem_append.1 hr with hold | hlast
    · exact .inl (h.joined r hold)
    · exact .inr (List.mem_singleton.1 hlast).symm

theorem Ledger.worked
    {b : Background (Option R)}
    (h : Ledger log s)
    (hstanding : Standing work refused s)
    (hworked : Worked work refused s.run incident b) :
    Ledger (log ++ [incident]) { s with run := b } := by
  cases hworked with
  | released hworker hsignal =>
      apply h.append <;> simp [hworker]
  | bereft hworker hsignal =>
      apply h.append <;> simp [hworker]
  | forsook hworker hpending =>
      -- The status is still pending, so it was the handle that took the gate away.
      have hdropped := hstanding.abandoned hworker hpending
      apply h.append <;> simp [hworker, hpending, hdropped]
  | lagged hworker hsettled =>
      apply h.append <;> simp [hworker]
  | called hworker hpending =>
      apply h.append <;> simp [hworker, hpending]
  | refused hworker hsettled =>
      apply h.append <;> simp [hworker]
  | ended hworker =>
      apply h.append <;> simp [hworker]

/-- What one move adds to the log. -/
theorem Ledger.move
    (h : Ledger log s)
    (hstanding : Standing work refused s)
    (hmove : Move work refused s incident s') :
    Ledger (log ++ [incident]) s' := by
  cases hmove with
  | start hfree =>
      apply h.append <;> simp [hfree]
  | claim hfree =>
      by_cases hstatus : s.run.status = .pending
      · rw [claimCancelled_of_pending _ hstatus]
        apply h.append <;> simp [hfree, hstatus]
      · rw [claimCancelled_of_settled _ hstatus]
        apply h.append <;> simp [hfree]
  | @cancelled won hcancelling =>
      cases won <;> apply h.append <;> simp [hcancelling]
  | drop hfree =>
      apply h.append <;> simp [hfree]
  | await hfree =>
      apply h.append <;> simp [hfree]
  | joined hjoining hresult =>
      have hworker := (result?_eq_some_iff _).1 hresult
      apply h.append <;> simp [hjoining, hworker]
  | worker hstep hends =>
      exact h.worked hstanding (worked_of_step hstep)

/-- What every course keeps. -/
theorem course_kept
    {paused : Bool}
    (h : Course work refused (.submit paused) log s) :
    Standing work refused s ∧ Ledger log s := by
  induction h with
  | nil =>
      exact ⟨standing_submit paused, ledger_submit paused⟩
  | snoc _ hmove ih =>
      obtain ⟨hstanding, hledger⟩ := ih
      exact ⟨hstanding.move hmove, hledger.move hstanding hmove⟩

end Invariants

section Settling

theorem Move.status
    (hmove : Move work refused s incident s')
    (hsettled : s.run.status ≠ .pending) :
    s'.run.status = s.run.status := by
  cases hmove with
  | start hfree =>
      simp
  | claim hfree =>
      rw [claimCancelled_of_settled _ hsettled]
  | cancelled hcancelling =>
      simp
  | drop hfree =>
      simp
  | await hfree =>
      simp
  | joined hjoining hresult =>
      rfl
  | worker hstep hends =>
      have hworked := worked_of_step hstep
      generalize s.run.due = incident at hworked
      cases hworked with
      | forsook hworker hpending =>
          contradiction
      | called hworker hpending =>
          contradiction
      | released | bereft | lagged | refused | ended =>
          rfl

/-- A status that was settled never changes again. -/
theorem Course.status
    (h : Course work refused s log s')
    (hsettled : s.run.status ≠ .pending) :
    s'.run.status = s.run.status := by
  induction h with
  | nil =>
      rfl
  | snoc _ hmove ih =>
      rw [hmove.status (by rw [ih]; exact hsettled), ih]

/-- A run that will not begin: it was cancelled, or its worker has yet to find the gate gone. -/
def Doomed (b : Background (Option R)) : Prop :=
  b.status = .cancelled ∨
    b.status = .pending ∧ b.gate = .absent ∧ b.signal = .gone ∧
      (b.worker = .waiting ∨ b.worker = .abandoned)

theorem Doomed.worked
    {b b' : Background (Option R)}
    (h : Doomed b)
    (hworked : Worked work refused b incident b') :
    Doomed b' ∧ incident ≠ .call := by
  cases hworked with
  | released hworker hsignal =>
      refine ⟨?_, nofun⟩
      rcases h with hcancelled | ⟨_, _, hgone, _⟩
      · exact .inl hcancelled
      · rw [hsignal] at hgone
        contradiction
  | bereft hworker hsignal =>
      refine ⟨?_, nofun⟩
      rcases h with hcancelled | ⟨hpending, hgate, hgone, _⟩
      · exact .inl hcancelled
      · exact .inr ⟨hpending, hgate, hgone, .inr rfl⟩
  | forsook hworker hpending =>
      exact ⟨.inl rfl, nofun⟩
  | lagged hworker hsettled =>
      refine ⟨?_, nofun⟩
      rcases h with hcancelled | ⟨hpending, _⟩
      · exact .inl hcancelled
      · contradiction
  | called hworker hpending =>
      rcases h with hcancelled | ⟨_, _, _, hwaiting⟩
      · rw [hpending] at hcancelled
        contradiction
      · simp [hworker] at hwaiting
  | refused hworker hsettled =>
      refine ⟨?_, nofun⟩
      rcases h with hcancelled | ⟨hpending, _⟩
      · exact .inl hcancelled
      · contradiction
  | ended hworker =>
      refine ⟨?_, nofun⟩
      rcases h with hcancelled | ⟨_, _, _, hwaiting⟩
      · exact .inl hcancelled
      · simp [hworker] at hwaiting

theorem Doomed.start
    {b : Background (Option R)}
    (h : Doomed b) :
    Doomed b.start := by
  rcases h with hcancelled | ⟨hpending, hgate, hrest⟩
  · exact .inl (by simpa using hcancelled)
  · rw [start_of_absent b hgate]
    exact .inr ⟨hpending, hgate, hrest⟩

theorem Doomed.dropGate
    {b : Background (Option R)}
    (h : Doomed b) :
    Doomed b.dropGate := by
  rcases h with hcancelled | ⟨hpending, hgate, hrest⟩
  · exact .inl (by simpa using hcancelled)
  · rw [dropGate_of_absent b hgate]
    exact .inr ⟨hpending, hgate, hrest⟩

theorem doomed_claim
    {b : Background (Option R)}
    (h : b.status ≠ .running) :
    Doomed b.claimCancelled.2 := by
  cases hstatus : b.status with
  | pending =>
      rw [claimCancelled_of_pending b hstatus]
      exact .inl rfl
  | running =>
      contradiction
  | cancelled =>
      rw [claimCancelled_of_settled b (by simp [hstatus])]
      exact .inl hstatus

/-- Whatever is done with a doomed run, it is not called. -/
theorem Doomed.move
    (h : Doomed s.run)
    (hmove : Move work refused s incident s') :
    Doomed s'.run ∧ incident ≠ .call := by
  cases hmove with
  | start hfree =>
      exact ⟨h.start, nofun⟩
  | claim hfree =>
      refine ⟨doomed_claim ?_, nofun⟩
      rcases h with hcancelled | ⟨hpending, _⟩
      · simp [hcancelled]
      · simp [hpending]
  | cancelled hcancelling =>
      exact ⟨h.dropGate, nofun⟩
  | drop hfree =>
      exact ⟨h.dropGate, nofun⟩
  | await hfree =>
      exact ⟨h.start, nofun⟩
  | joined hjoining hresult =>
      exact ⟨h, nofun⟩
  | worker hstep hends =>
      exact h.worked (worked_of_step hstep)

theorem Doomed.course
    (h : Doomed s.run)
    (hcourse : Course work refused s log s') :
    Doomed s'.run ∧ .call ∉ log := by
  induction hcourse with
  | nil =>
      exact ⟨h, List.not_mem_nil⟩
  | snoc _ hmove ih =>
      obtain ⟨hdoomed, hnot⟩ := ih
      obtain ⟨hdoomed', hincident⟩ := hdoomed.move hmove
      refine ⟨hdoomed', ?_⟩
      simp [hnot, hincident.symm]

/-- The first thing that happens to a paused run is a release, or it dooms the run. -/
theorem paused_move
    (hmove : Move work refused (.submit true) incident s') :
    incident = .start ∨ incident = .await ∨ Doomed s'.run ∧ incident ≠ .call := by
  cases hmove with
  | start hfree =>
      exact .inl rfl
  | claim hfree =>
      exact .inr (.inr ⟨.inl rfl, nofun⟩)
  | cancelled hcancelling =>
      contradiction
  | drop hfree =>
      exact .inr (.inr ⟨.inr ⟨rfl, rfl, rfl, .inl rfl⟩, nofun⟩)
  | await hfree =>
      exact .inr (.inl rfl)
  | joined hjoining hresult =>
      contradiction
  | worker hstep hends =>
      contradiction

/-- A paused run that was not released is as it was, or it is doomed. -/
theorem paused_course
    (hcourse : Course work refused (.submit true) log s)
    (hstart : .start ∉ log)
    (hawait : .await ∉ log) :
    (log = [] ∧ s = .submit true ∨ Doomed s.run) ∧ .call ∉ log := by
  induction hcourse with
  | nil =>
      exact ⟨.inl ⟨rfl, rfl⟩, List.not_mem_nil⟩
  | @snoc t t' log incident _ hmove ih =>
      simp only [List.mem_append, List.mem_singleton, not_or] at hstart hawait ⊢
      obtain ⟨hs, hnot⟩ := ih hstart.1 hawait.1
      rcases hs with ⟨_, rfl⟩ | hdoomed
      · rcases paused_move hmove with rfl | rfl | ⟨hdoomed, hincident⟩
        · exact absurd rfl hstart.2
        · exact absurd rfl hawait.2
        · exact ⟨.inr hdoomed, hnot, hincident.symm⟩
      · obtain ⟨hdoomed', hincident⟩ := hdoomed.move hmove
        exact ⟨.inr hdoomed', hnot, hincident.symm⟩

/-- A paused run that is given up before it is released is never called. -/
theorem not_called_of_withdrawn
    {before after : List (Incident R)}
    (hcourse : Course work refused (.submit true) (before ++ incident :: after) s)
    (hstart : .start ∉ before)
    (hawait : .await ∉ before)
    (hwithdraws : incident.withdraws = true) :
    .call ∉ before ++ incident :: after := by
  -- Up to the withdrawal nothing was released; from there on the run is doomed.
  obtain ⟨t, hbefore, hrest⟩ := hcourse.split (before ++ [incident]) after (by simp)
  have hstart' : .start ∉ before ++ [incident] := by
    cases incident <;> simp_all [Incident.withdraws]
  have hawait' : .await ∉ before ++ [incident] := by
    cases incident <;> simp_all [Incident.withdraws]
  obtain ⟨ht, hnot⟩ := paused_course hbefore hstart' hawait'
  have hdoomed : Doomed t.run := by
    rcases ht with ⟨hnil, _⟩ | hdoomed
    · simp at hnil
    · exact hdoomed
  have hafter := (hdoomed.course hrest).2
  rw [List.append_cons, List.mem_append, not_or]
  exact ⟨hnot, hafter⟩

end Settling

section Results

theorem countP_cancels
    (h : Ledger log s) :
    log.countP Incident.cancels ≤ if s.run.status = .cancelled then 1 else 0 := by
  have htaken := h.taken
  have hreturned := h.returned
  omega

theorem countP_cancels_pos :
    0 < log.countP Incident.cancels ↔ .cancelled true ∈ log := by
  rw [List.countP_pos_iff]
  simp only [Incident.cancels_iff, exists_eq_right]

theorem countP_calls_pos :
    0 < log.countP Incident.calls ↔ .call ∈ log := by
  rw [List.countP_pos_iff]
  simp only [Incident.calls_iff, exists_eq_right]

theorem status_of_cancelled
    (h : Ledger log s)
    (hcancelled : .cancelled true ∈ log) :
    s.run.status = .cancelled := by
  have hpos := countP_cancels_pos.2 hcancelled
  have hle := countP_cancels h
  by_contra hstatus
  rw [if_neg hstatus] at hle
  omega

theorem status_of_call
    (h : Ledger log s)
    (hcall : .call ∈ log) :
    s.run.status = .running := by
  have hpos := countP_calls_pos.2 hcall
  have hcalled := h.called
  by_contra hstatus
  rw [if_neg hstatus] at hcalled
  omega

/-- What a join returns: the refusal if a cancel returned true, and otherwise what the run returned
once it was called. -/
theorem joined_cases
    {r : R}
    (hstanding : Standing work refused s)
    (h : Ledger log s)
    (hjoined : .joined r ∈ log) :
    .cancelled true ∈ log ∧ .call ∉ log ∧ some r = refused ∨
      .cancelled true ∉ log ∧ .call ∈ log ∧ some r = work () := by
  obtain ⟨hhandle, hworker⟩ := h.joined r hjoined
  have hcalled := h.called
  have htaken := h.taken
  have hreturned := h.returned
  -- A handle that has joined was not dropped, so no abandoned worker set the status.
  have hforsakes : log.countP Incident.forsakes = 0 := by
    by_contra hpos
    have hdropped := h.forsaken (Nat.pos_of_ne_zero hpos)
    rw [hhandle] at hdropped
    contradiction
  rcases hstanding.consistent.finished _ hworker with ⟨hstatus, hr⟩ | ⟨hstatus, hr⟩
  · refine .inl ⟨countP_cancels_pos.1 ?_, ?_, hr⟩
    · simp only [hstatus, hhandle, if_true, reduceCtorEq, if_false] at htaken hreturned
      omega
    · intro hcall
      have hrunning := status_of_call h hcall
      rw [hstatus] at hrunning
      contradiction
  · refine .inr ⟨?_, countP_calls_pos.1 ?_, hr⟩
    · intro hcancelled
      have hstatus' := status_of_cancelled h hcancelled
      rw [hstatus] at hstatus'
      contradiction
    · rw [hcalled, if_pos hstatus]
      exact Nat.one_pos

/-- A run that is left alone is called, and joined when it has ended. -/
theorem course_left_alone
    {r : R}
    (hends : work () = some r) :
    Course work refused (.submit false) [.call, .finish, .await, .joined r]
      ⟨⟨.running, .absent, .none, .finished (some r)⟩, .joined⟩ := by
  have hcall :
      Move work refused (.submit false) .call ⟨⟨.running, .absent, .none, .working⟩, .free⟩ :=
    .worker rfl nofun
  have hfinish :
      Move work refused ⟨⟨.running, .absent, .none, .working⟩, .free⟩ .finish
        ⟨⟨.running, .absent, .none, .finished (some r)⟩, .free⟩ :=
    .worker (by simp [step, hends]) (by simp [result?])
  have hawait :
      Move work refused ⟨⟨.running, .absent, .none, .finished (some r)⟩, .free⟩ .await
        ⟨⟨.running, .absent, .none, .finished (some r)⟩, .joining⟩ :=
    .await rfl
  have hjoined :
      Move work refused ⟨⟨.running, .absent, .none, .finished (some r)⟩, .joining⟩ (.joined r)
        ⟨⟨.running, .absent, .none, .finished (some r)⟩, .joined⟩ :=
    .joined rfl rfl
  exact .snoc (.snoc (.snoc (.snoc (.nil _) hcall) hfinish) hawait) hjoined

/-- A paused run that is cancelled is refused, also when it is joined. -/
theorem course_cancelled
    (work : Unit → Option R) (r : R) :
    Course work (some r) (.submit true)
      [.claim true, .cancelled true, .await, .wake, .forsake false, .refuse, .joined r]
      ⟨⟨.cancelled, .absent, .gone, .finished (some r)⟩, .joined⟩ := by
  have hclaim :
      Move work (some r) (.submit true) (.claim true)
        ⟨⟨.cancelled, .shut, .none, .waiting⟩, .cancelling true⟩ :=
    .claim rfl
  have hcancelled :
      Move work (some r) ⟨⟨.cancelled, .shut, .none, .waiting⟩, .cancelling true⟩ (.cancelled true)
        ⟨⟨.cancelled, .absent, .gone, .waiting⟩, .free⟩ :=
    .cancelled rfl
  have hawait :
      Move work (some r) ⟨⟨.cancelled, .absent, .gone, .waiting⟩, .free⟩ .await
        ⟨⟨.cancelled, .absent, .gone, .waiting⟩, .joining⟩ :=
    .await rfl
  have hwake :
      Move work (some r) ⟨⟨.cancelled, .absent, .gone, .waiting⟩, .joining⟩ .wake
        ⟨⟨.cancelled, .absent, .gone, .abandoned⟩, .joining⟩ :=
    .worker rfl nofun
  have hforsake :
      Move work (some r) ⟨⟨.cancelled, .absent, .gone, .abandoned⟩, .joining⟩ (.forsake false)
        ⟨⟨.cancelled, .absent, .gone, .claiming⟩, .joining⟩ :=
    .worker rfl nofun
  have hrefuse :
      Move work (some r) ⟨⟨.cancelled, .absent, .gone, .claiming⟩, .joining⟩ .refuse
        ⟨⟨.cancelled, .absent, .gone, .finished (some r)⟩, .joining⟩ :=
    .worker rfl nofun
  have hjoined :
      Move work (some r) ⟨⟨.cancelled, .absent, .gone, .finished (some r)⟩, .joining⟩ (.joined r)
        ⟨⟨.cancelled, .absent, .gone, .finished (some r)⟩, .joined⟩ :=
    .joined rfl rfl
  have hhandle := ((Course.nil _).snoc hclaim).snoc hcancelled |>.snoc hawait
  exact hhandle.snoc hwake |>.snoc hforsake |>.snoc hrefuse |>.snoc hjoined

end Results

end Background

namespace Engine

open Background

variable {C σ : Type}

/-- A run is cancelled or it is called, and its status tells which once and for all.  At most one
cancel returns true, and a paused run that is given up before it is released is never called.  A
join that returns gives the refusal if a cancel returned true, and else what the run itself
returned: this is the fault of a cancelled run only if the run ended in that fault. -/
theorem cancel_or_run
    (e : Engine C σ) (paused : Bool)
    {log : List (Incident (Reached C σ (Option C)))} {s : Stage (Reached C σ (Option C))}
    (hcourse : Course e.work e.refused (.submit paused) log s) :
    (∀ log' s', Course e.work e.refused s log' s' → s.run.status ≠ .pending →
      s'.run.status = s.run.status) ∧
    ¬(.cancelled true ∈ log ∧ .call ∈ log) ∧
    log.countP Incident.cancels ≤ 1 ∧
    (paused = true → ∀ before incident after, log = before ++ incident :: after →
      .start ∉ before → .await ∉ before → incident.withdraws = true → .call ∉ log) ∧
    ∀ r, .joined r ∈ log →
      (.cancelled true ∈ log → r = .error .cancelled e) ∧
      (.cancelled true ∉ log → .call ∈ log ∧ e.run = some r) ∧
      ((∃ e', r = .error .cancelled e') ↔
        .cancelled true ∈ log ∨ .call ∈ log ∧ ∃ e', e.run = some (.error .cancelled e')) := by
  obtain ⟨hstanding, hledger⟩ := course_kept hcourse
  refine ⟨fun log' s' h hsettled => h.status hsettled, ?_, ?_, ?_, ?_⟩
  · rintro ⟨hcancelled, hcall⟩
    have hstatus := status_of_cancelled hledger hcancelled
    rw [status_of_call hledger hcall] at hstatus
    contradiction
  · have hle := countP_cancels hledger
    split at hle <;> omega
  · rintro rfl before incident after rfl hstart hawait hwithdraws
    exact not_called_of_withdrawn hcourse hstart hawait hwithdraws
  · intro r hjoined
    rcases joined_cases hstanding hledger hjoined with
      ⟨hcancelled, hcall, hr⟩ | ⟨hcancelled, hcall, hr⟩
    · obtain rfl : r = .error .cancelled e := Option.some.inj hr
      simp [hcancelled]
    · have hrun : e.run = some r := hr.symm
      simp [hcancelled, hcall, hrun]

/-- An engine on a torus of one cell, whose operation fails with the fault of a cancelled run. -/
def faulty : Engine UInt8 Unit :=
  assemble {
    space := .ground (.torus {
      extent := {
        sizes := [1, 1]
        ne_nil := by decide
        bounds := by decide
        cellCount_lt := by decide }
      cells := #[69]
      size_cells := rfl })
    ips := [{ id := 1, position := .planar 0 0, direction := .east, state := .empty }]
    shared := .empty
    supply := { nextId := 2, dice := .loaded } } Tiny.language ()

theorem run_faulty :
    ∃ e', run faulty = some (.error .cancelled e') := by
  have hlaunch : launch faulty = .ok () { faulty with launched := true } :=
    rfl
  have hopen :
      openTick { faulty with launched := true } =
        .ok () { faulty with launched := true, ticks := 1 } :=
    rfl
  have hip :
      { faulty with launched := true, ticks := 1 }.machine.ips[0]? =
        some ⟨1, .planar 0 0, .east, .empty⟩ :=
    rfl
  have hvisit :
      ∃ e', visit 0 1 { faulty with launched := true, ticks := 1 } = .error .cancelled e' :=
    ⟨_, rfl⟩
  obtain ⟨e', hvisit⟩ := hvisit
  have hvisits :
      visits { faulty with launched := true, ticks := 1 } = some (.error .cancelled e') := by
    rw [visits, visitsFrom, hip]
    dsimp only
    rw [hvisit]
  have htick : tick { faulty with launched := true } = some (.error .cancelled e') := by
    simp only [tick, hopen, hvisits]
  refine ⟨e', ?_⟩
  simp only [run, hlaunch]
  rw [tickOn, htick]

/-- A join can return the fault of a cancelled run although nobody has cancelled the run. -/
theorem joined_uncancelled :
    start faulty.machine.space Tiny.language .empty { dice := .loaded } () = .ok faulty ∧
    ∃ log s r,
      Course faulty.work faulty.refused (.submit false) log s ∧
      .joined r ∈ log ∧
      ¬((∃ e', r = .error .cancelled e') ↔ .cancelled true ∈ log) := by
  obtain ⟨e', hrun⟩ := run_faulty
  refine ⟨rfl, _, _, .error .cancelled e', course_left_alone hrun, ?_, ?_⟩
  · simp
  · simp

/-- A paused run is cancelled, and the join that follows finds it refused. -/
theorem cancel_or_run_walker :
    ∃ log s,
      Course (walker 0 0).work (walker 0 0).refused (.submit true) log s ∧
      .cancelled true ∈ log ∧
      .joined (.error .cancelled (walker 0 0)) ∈ log ∧
      .call ∉ log ∧
      ∀ r, .joined r ∈ log → r = .error .cancelled (walker 0 0) := by
  have hcourse := course_cancelled (walker 0 0).work (.error .cancelled (walker 0 0))
  obtain ⟨_, _, _, hpaused, hjoined⟩ := cancel_or_run (walker 0 0) true hcourse
  refine ⟨_, _, hcourse, by simp, by simp, ?_, ?_⟩
  · exact hpaused rfl [] _ _ rfl (by simp) (by simp) rfl
  · intro r hr
    exact (hjoined r hr).1 (by simp)

end Engine

end FungeTrace
