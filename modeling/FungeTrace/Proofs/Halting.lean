import FungeTrace.Proofs.Notices

/-!
# Requests to a halted engine

The mark of a halt is set and never asked for.  A request to run that comes after a halt starts
another tick like any other, may halt again, and then tells of that halt again.  The announcement is
different: its mark is asked for, and so it is made once.

* `Rings` says how a change of an engine moves its marks and how often observers hear of an
  announcement and of a halt meanwhile.  Visits and ticks leave the marks alone and are told without
  either notice.
* `Served` is a row of requests, each made whatever became of the one before.
* `served_halts` counts what observers are told in such a row.
-/

namespace FungeTrace

/-- Number of notifications of a phase. -/
def told {C : Type} (phase : Phase) (stream : List (Notice C)) : Nat :=
  stream.countP (·.event.phase = phase)

theorem told_append
    {C : Type} (phase : Phase) (stream stream' : List (Notice C)) :
    told phase (stream ++ stream') = told phase stream + told phase stream' :=
  List.countP_append

namespace Engine

open Act Observer

variable {C σ α : Type} {e e₁ e₂ e' : Engine C σ}

section Marks

/-- A change of an engine in which observers hear of the given numbers of announcements and halts.
Either one is marked if there was any. -/
structure Rings (launches halts : Nat) (e e' : Engine C σ) : Prop where
  observers : e'.observers = e.observers
  launched : e'.launched = (e.launched || decide (0 < launches))
  halted : e'.halted = (e.halted || decide (0 < halts))
  ticks : e.ticks ≤ e'.ticks
  heard :
    Passive e.observers →
      ∃ stream,
        e'.scene.memory = notesAfter e.observers e.scene.memory stream ∧
        told .launch stream = launches ∧
        told .halt stream = halts

theorem rings_refl
    (e : Engine C σ) :
    Rings 0 0 e e where
  observers := rfl
  launched := by simp
  halted := by simp
  ticks := Nat.le_refl _
  heard _ := ⟨[], rfl, rfl, rfl⟩

theorem Rings.passive
    {launches halts : Nat}
    (h : Rings launches halts e e')
    (hobservers : Passive e.observers) :
    Passive e'.observers := by
  rw [h.observers]
  exact hobservers

theorem Rings.trans
    {launches halts launches' halts' : Nat}
    (h : Rings launches halts e e₁)
    (h' : Rings launches' halts' e₁ e₂) :
    Rings (launches + launches') (halts + halts') e e₂ where
  observers := h'.observers.trans h.observers
  launched := by
    rw [h'.launched, h.launched, Bool.or_assoc, ← Bool.decide_or]
    congr 2
    simp only [eq_iff_iff]
    omega
  halted := by
    rw [h'.halted, h.halted, Bool.or_assoc, ← Bool.decide_or]
    congr 2
    simp only [eq_iff_iff]
    omega
  ticks := Nat.le_trans h.ticks h'.ticks
  heard hobservers := by
    obtain ⟨stream, hmemory, hlaunches, hhalts⟩ := h.heard hobservers
    obtain ⟨stream', hmemory', hlaunches', hhalts'⟩ := h'.heard (h.passive hobservers)
    refine ⟨stream ++ stream', ?_, ?_, ?_⟩
    · rw [hmemory', h.observers, hmemory, notesAfter_append]
    · rw [told_append, hlaunches, hlaunches']
    · rw [told_append, hhalts, hhalts']

/-- A change that concerns neither the marks nor the observers. -/
theorem rings_of_eq
    (hobservers : e'.observers = e.observers)
    (hlaunched : e'.launched = e.launched)
    (hhalted : e'.halted = e.halted)
    (hticks : e.ticks ≤ e'.ticks)
    (hmemory : e'.scene.memory = e.scene.memory) :
    Rings 0 0 e e' where
  observers := hobservers
  launched := by simpa using hlaunched
  halted := by simpa using hhalted
  ticks := hticks
  heard _ := ⟨[], hmemory, rfl, rfl⟩

/-- What a notification leaves: the marks as they were, and one more note. -/
theorem notify_left
    (phase : Phase) (e : Engine C σ) :
    ∃ scene,
      Act.left (notify phase e) = { e with scene } ∧
      (Passive e.observers →
        scene.memory =
          notesAfter e.observers e.scene.memory [⟨⟨phase, e.ticks, e.current⟩, e.machine⟩]) := by
  refine ⟨_, left_notify phase e, ?_⟩
  intro hobservers
  rw [notifyAll_passive hobservers]
  rfl

theorem notify_rings
    {phase : Phase}
    (hlaunch : phase ≠ .launch)
    (hhalt : phase ≠ .halt) :
    Moves (Rings 0 0) (notify phase : Act (Engine C σ) Unit) := by
  intro e
  obtain ⟨scene, hleft, hmemory⟩ := notify_left phase e
  rw [hleft]
  exact {
    observers := rfl
    launched := by simp
    halted := by simp
    ticks := Nat.le_refl _
    heard := fun hobservers =>
      ⟨_, hmemory hobservers, by simp [told, hlaunch], by simp [told, hhalt]⟩ }

theorem launch_rings
    (e : Engine C σ) :
    Rings (if e.launched then 0 else 1) 0 e (Act.left (launch e)) := by
  cases hlaunched : e.launched with
  | true =>
      rw [launch_of_launched hlaunched]
      exact rings_refl e
  | false =>
      have hlaunch : launch e = notify .launch { e with launched := true } := by
        unfold launch
        rw [get_bind, hlaunched]
        rfl
      obtain ⟨scene, hleft, hmemory⟩ := notify_left .launch { e with launched := true }
      rw [hlaunch, hleft]
      exact {
        observers := rfl
        launched := by simp
        halted := by simp
        ticks := Nat.le_refl _
        heard := fun hobservers => ⟨_, hmemory hobservers, rfl, rfl⟩ }

theorem finish_rings
    (result : Option C) :
    Moves (Rings 0 1) (finish result : Act (Engine C σ) (Option C)) := by
  intro e
  have hfinish :
      Act.left (finish result e) = Act.left (notify .halt { e with halted := true }) := by
    change
      Act.left ((notify .halt >>= fun _ => pure result) { e with halted := true }) = _
    cases hnotify : notify .halt { e with halted := true } with
    | ok _ e₁ =>
        rw [bind_ok hnotify]
        rfl
    | error fault e₁ =>
        rw [bind_error hnotify]
        rfl
  obtain ⟨scene, hleft, hmemory⟩ := notify_left .halt { e with halted := true }
  rw [hfinish, hleft]
  exact {
    observers := rfl
    launched := by simp
    halted := by simp
    ticks := Nat.le_refl _
    heard := fun hobservers => ⟨_, hmemory hobservers, rfl, rfl⟩ }

end Marks

section Visits

theorem onMachine_rings
    (act : Act (Machine C) α) :
    Moves (Rings 0 0) (onMachine act : Act (Engine C σ) α) :=
  moves_zoom fun _ => rings_of_eq rfl rfl rfl (Nat.le_refl _) rfl

theorem passable_rings :
    Passable (Rings 0 0 : Engine C σ → Engine C σ → Prop) where
  refl := rings_refl
  trans _ _ _ h h' := h.trans h'
  notify _ := notify_rings
  current _ _ := rings_of_eq rfl rfl rfl (Nat.le_refl _) rfl
  advance id := onMachine_rings (Machine.advance id)

theorem visitsFrom_rings
    {index : Nat} {r : Reached C σ (Decision C)}
    (h : visitsFrom index e = some r) :
    Rings 0 0 e (Act.left r) := by
  refine
    visitsFrom.partial_correctness (fun _ e r => Rings 0 0 e (Act.left r)) ?_ index e r h
  intro visitsFrom ih index e r hr
  cases hip : e.machine.ips[index]? with
  | none =>
      rw [hip] at hr
      obtain rfl := Option.some.inj hr
      exact rings_refl e
  | some ip =>
      rw [hip] at hr
      dsimp only at hr
      have hvisit := passable_rings.visit onMachine_rings index ip.id e
      generalize visit index ip.id e = answer at hr hvisit
      cases answer with
      | error fault e₁ =>
          obtain rfl := Option.some.inj hr
          exact hvisit
      | ok answer e₁ =>
          cases answer with
          | halted result =>
              obtain rfl := Option.some.inj hr
              exact hvisit
          | next next =>
              exact hvisit.trans (ih next e₁ r hr)

end Visits

section Requests

variable {r : Reached C σ (RunOutcome C)}

/-- A tick is counted, and neither of the two notices is part of it. -/
theorem tick_rings
    {r : Reached C σ (Decision C)}
    (h : tick e = some r) :
    Rings 0 0 e (Act.left r) ∧ e.ticks < (Act.left r).ticks := by
  have hopen :
      Rings 0 0 e.counted (Act.left (openTick e)) :=
    notify_rings (by decide) (by decide) e.counted
  have hcounted : Rings 0 0 e e.counted :=
    rings_of_eq rfl rfl rfl (Nat.le_succ _) rfl
  suffices hrest : Rings 0 0 e.counted (Act.left r) from
    ⟨hcounted.trans hrest, hrest.ticks⟩
  unfold tick at h
  cases hopened : openTick e with
  | error fault e₁ =>
      rw [hopened] at h hopen
      obtain rfl := Option.some.inj h
      exact hopen
  | ok _ e₁ =>
      rw [hopened] at h hopen
      dsimp only at h
      cases hvisits : visits e₁ with
      | none =>
          simp [hvisits] at h
      | some answer =>
          have htour := visitsFrom_rings hvisits
          rw [hvisits] at h
          cases answer with
          | error fault e₂ =>
              obtain rfl := Option.some.inj h
              exact hopen.trans htour
          | ok decision e₂ =>
              obtain rfl := Option.some.inj h
              exact (hopen.trans htour).trans (passable_rings.closeTick decision e₂)

/-- Whether a run ended with a halt. -/
def halts : Reached C σ (RunOutcome C) → Bool
  | .ok (.halted _) _ => true
  | _ => false

theorem halts_finish
    (hobservers : Passive e.observers)
    (result : Option C) :
    halts (ended (finish result e)) = true := by
  obtain ⟨e₁, hnotify, _⟩ :=
    notify_passive (e := { e with halted := true }) hobservers .halt
  have hfinish : finish result e = .ok result e₁ := by
    change (notify .halt >>= fun _ => pure result) { e with halted := true } = _
    rw [bind_ok hnotify]
    rfl
  rw [hfinish]
  rfl

theorem left_ended
    (r : Reached C σ (Option C)) :
    Act.left (ended r) = Act.left r := by
  cases r with
  | ok result e =>
      rfl
  | error fault e =>
      rfl

theorem tickWithin_rings
    {n : Nat}
    (hobservers : Passive e.observers)
    (h : tickWithin e n = some r) :
    Rings 0 (halts r).toNat e (Act.left r) ∧ (0 < n → e.ticks < (Act.left r).ticks) := by
  induction n generalizing e with
  | zero =>
      obtain rfl := Option.some.inj h
      exact ⟨rings_refl e, fun hlt => absurd hlt (Nat.lt_irrefl 0)⟩
  | succ n ih =>
      rw [tickWithin_succ] at h
      cases htick : tick e with
      | none =>
          simp [htick] at h
      | some answer =>
          rw [htick] at h
          obtain ⟨hrings, hlt⟩ := tick_rings htick
          cases answer with
          | error fault e₁ =>
              obtain rfl := Option.some.inj h
              exact ⟨hrings, fun _ => hlt⟩
          | ok decision e₁ =>
              have hpassive : Passive e₁.observers := hrings.passive hobservers
              cases decision with
              | halt result =>
                  obtain rfl := Option.some.inj h
                  have hfinish := finish_rings result e₁
                  rw [halts_finish hpassive, left_ended]
                  exact ⟨hrings.trans hfinish, fun _ => Nat.lt_of_lt_of_le hlt hfinish.ticks⟩
              | proceed =>
                  obtain ⟨hrest, _⟩ := ih hpassive h
                  have hboth := hrings.trans hrest
                  rw [Nat.zero_add, Nat.zero_add] at hboth
                  exact ⟨hboth, fun _ => Nat.lt_of_lt_of_le hlt hrest.ticks⟩

theorem launch_passive
    (hobservers : Passive e.observers) :
    ∃ e₁, launch e = .ok () e₁ := by
  cases hlaunched : e.launched with
  | true =>
      exact ⟨e, launch_of_launched hlaunched⟩
  | false =>
      obtain ⟨e₁, hnotify, _⟩ :=
        notify_passive (e := { e with launched := true }) hobservers .launch
      refine ⟨e₁, ?_⟩
      unfold launch
      rw [get_bind, hlaunched]
      exact hnotify

theorem runFor_rings
    {n : Nat}
    (hobservers : Passive e.observers)
    (h : runFor n e = some r) :
    Rings (if e.launched then 0 else 1) (halts r).toNat e (Act.left r) ∧
      (0 < n → e.ticks < (Act.left r).ticks) := by
  obtain ⟨e₁, hlaunch⟩ := launch_passive hobservers
  have hannounced := launch_rings e
  rw [hlaunch] at hannounced
  unfold runFor at h
  rw [hlaunch] at h
  obtain ⟨hrings, hlt⟩ := tickWithin_rings (hannounced.passive hobservers) h
  have hboth := hannounced.trans hrings
  rw [Nat.add_zero, Nat.zero_add] at hboth
  exact ⟨hboth, fun hpos => Nat.lt_of_le_of_lt hannounced.ticks (hlt hpos)⟩

theorem runFor_zero_passive
    (hobservers : Passive e.observers) :
    ∃ e₁, runFor 0 e = some (.ok .tickLimit e₁) := by
  obtain ⟨e₁, hlaunch⟩ := launch_passive hobservers
  unfold runFor
  rw [hlaunch]
  exact ⟨e₁, rfl⟩

/-- A request is told as an announcement if there was none, and as a halt if it ends with one.  It
starts another tick unless its budget is zero, also after a halt. -/
theorem answer_rings
    {call : Call}
    (hobservers : Passive e.observers)
    (h : call.answer e = some r) :
    Rings (if e.launched then 0 else 1) (halts r).toNat e (Act.left r) ∧
      (call ≠ .runFor 0 → e.ticks < (Act.left r).ticks) := by
  cases call with
  | runFor budget =>
      obtain ⟨hrings, hlt⟩ := runFor_rings hobservers h
      refine ⟨hrings, fun hne => hlt (Nat.pos_of_ne_zero ?_)⟩
      rintro rfl
      exact hne rfl
  | run =>
      obtain ⟨r', hrun, rfl⟩ := Option.map_eq_some_iff.1 h
      obtain ⟨n, hn⟩ := run_eq_some_iff.1 hrun
      obtain ⟨hrings, hlt⟩ := runFor_rings hobservers hn
      refine ⟨hrings, fun _ => hlt (Nat.pos_of_ne_zero ?_)⟩
      rintro rfl
      obtain ⟨e₁, hzero⟩ := runFor_zero_passive hobservers
      exact ended_ne_tickLimit r' e₁ (Option.some.inj (hn.symm.trans hzero))

end Requests

section Rows

/-- A request, the engine it was made to and how it ended. -/
structure Request (C σ : Type) where
  call : Call
  before : Engine C σ
  answer : Reached C σ (RunOutcome C)

/-- The engine that a request leaves. -/
def Request.after (request : Request C σ) : Engine C σ :=
  Act.left request.answer

/-- Requests in a row, each of them made whatever became of the one before. -/
inductive Served :
    Engine C σ →
      List (Request C σ) →
      Engine C σ →
      Prop
  | done
      {e : Engine C σ} :
      Served e [] e
  | next
      {e e' : Engine C σ} {request : Request C σ} {requests : List (Request C σ)}
      (hbefore : request.before = e)
      (hanswer : request.call.answer e = some request.answer)
      (hrest : Served request.after requests e') :
      Served e (request :: requests) e'

variable {requests : List (Request C σ)}

/-- The announcement is made at most once, and one halt is told for each request that ends with
one. -/
theorem served_rings
    (hobservers : Passive e.observers)
    (h : Served e requests e') :
    Rings (if e.launched then 0 else min 1 requests.length)
      (requests.countP (halts ·.answer)) e e' := by
  induction h with
  | @done e =>
      simpa using rings_refl e
  | @next e e' request requests hbefore hanswer hrest ih =>
      obtain ⟨hrings, _⟩ := answer_rings hobservers hanswer
      have hboth := hrings.trans (ih (hrings.passive hobservers))
      have hlaunched : request.after.launched = true := by
        rw [Request.after, hrings.launched]
        cases e.launched <;> rfl
      rw [hlaunched, if_pos rfl, Nat.add_zero] at hboth
      have hmin : min 1 (request :: requests).length = 1 := by
        simp
      have hcount :
          (request :: requests).countP (halts ·.answer) =
            (halts request.answer).toNat + requests.countP (halts ·.answer) := by
        rw [List.countP_cons]
        cases halts request.answer <;> simp [Nat.add_comm]
      rw [hmin, hcount]
      exact hboth

/-- Every request of a row is made to an engine with the observers of the first one. -/
theorem served_each
    (hobservers : Passive e.observers)
    (h : Served e requests e') :
    ∀ request ∈ requests,
      Passive request.before.observers ∧
      request.call.answer request.before = some request.answer := by
  induction h with
  | done =>
      simp
  | @next e e' request requests hbefore hanswer hrest ih =>
      intro other hother
      rcases List.mem_cons.1 hother with rfl | hother
      · rw [hbefore]
        exact ⟨hobservers, hanswer⟩
      · exact ih ((answer_rings hobservers hanswer).1.passive hobservers) other hother

/-- What becomes of an engine in a row of requests.  The announcement is made once, before anything
else, and the mark of a halt is never taken back.  But a request does not ask for that mark: every
request with a budget starts another tick, also after a halt, and the halt is told once for every
request that ends with one. -/
theorem served_halts
    (hfresh : Fresh e)
    (hhalted : e.halted = false)
    (hobservers : Passive e.observers)
    (h : Served e requests e') :
    (∃ stream,
      e'.scene.memory = notesAfter e.observers e.scene.memory stream ∧
      told .launch stream = min 1 requests.length ∧
      told .halt stream = requests.countP (halts ·.answer)) ∧
    (e'.halted = true ↔ ∃ request ∈ requests, halts request.answer = true) ∧
    (∀ request ∈ requests, request.before.halted = true → request.after.halted = true) ∧
    (∀ request ∈ requests, request.call ≠ .runFor 0 →
      request.before.ticks < request.after.ticks) ∧
    (∀ request ∈ requests, request.call = .runFor 0 → request.before.launched = true →
      request.after = request.before) := by
  have hrings := served_rings hobservers h
  have heach := served_each hobservers h
  rw [hfresh.launched] at hrings
  refine ⟨hrings.heard hobservers, ?_, ?_, ?_, ?_⟩
  · rw [hrings.halted, hhalted, Bool.false_or, decide_eq_true_iff]
    exact List.countP_pos_iff
  · intro request hrequest hbefore
    obtain ⟨hpassive, hanswer⟩ := heach request hrequest
    rw [Request.after, (answer_rings hpassive hanswer).1.halted, hbefore, Bool.true_or]
  · intro request hrequest
    obtain ⟨hpassive, hanswer⟩ := heach request hrequest
    exact (answer_rings hpassive hanswer).2
  · intro request hrequest hcall hlaunched
    obtain ⟨_, hanswer⟩ := heach request hrequest
    have hzero : request.call.answer request.before = some (.ok .tickLimit request.before) := by
      rw [hcall]
      change runFor 0 request.before = _
      unfold runFor
      rw [launch_of_launched hlaunched]
      rfl
    rw [Request.after, Option.some.inj (hanswer.symm.trans hzero)]
    rfl

/-- On its halting cell, the walker halts in every tick, whether or not it is marked as halted. -/
theorem runFor_watched_halt
    (ticks : Nat) (halted : Bool) (memory : List (Notice UInt8)) :
    ∃ memory',
      runFor 1 { watched 1 ticks memory with halted } =
        some (.ok (.halted (some 33)) { watched 1 (ticks + 1) memory' with halted := true }) ∧
      told .halt memory' = told .halt memory + 1 := by
  let machine := (walker 1 0).machine
  let opened : List (Notice UInt8) :=
    memory ++ [⟨⟨.tickStart, ticks + 1, none⟩, machine⟩]
  let visited : List (Notice UInt8) :=
    opened ++ [⟨⟨.beforeCommand, ticks + 1, some 1⟩, machine⟩]
  let closed : List (Notice UInt8) :=
    visited ++ [⟨⟨.tickFinish, ticks + 1, none⟩, machine⟩]
  have hopen :
      openTick { watched 1 ticks memory with halted } =
        .ok () { watched 1 (ticks + 1) opened with halted } :=
    rfl
  have hip :
      { watched 1 (ticks + 1) opened with halted }.machine.ips[0]? =
        some ⟨1, .planar 1 0, .east, .empty⟩ :=
    rfl
  have hvisit :
      visit 0 1 { watched 1 (ticks + 1) opened with halted } =
        .ok (.halted (some 33)) { watched 1 (ticks + 1) visited with halted } :=
    rfl
  have htick :
      tick { watched 1 ticks memory with halted } =
        some (.ok (.halt (some 33)) { watched 1 (ticks + 1) closed with halted }) :=
    tick_of_visits hopen (visitsFrom_halted hip hvisit)
  refine ⟨closed ++ [⟨⟨.halt, ticks + 1, none⟩, machine⟩], ?_, ?_⟩
  · change tickWithin { watched 1 ticks memory with halted } 1 = _
    rw [tickWithin_succ, htick]
    rfl
  · simp [closed, visited, opened, told]

/-- The walker on its halting cell with a scribe, before its run. -/
def doomed : Engine UInt8 (List (Notice UInt8)) :=
  (assemble (walker 1 0).machine Tiny.language []).subscribe scribe

theorem runFor_doomed :
    ∃ memory memory',
      runFor 1 doomed =
        some (.ok (.halted (some 33)) { watched 1 1 memory with halted := true }) ∧
      runFor 1 { watched 1 1 memory with halted := true } =
        some (.ok (.halted (some 33)) { watched 1 2 memory' with halted := true }) ∧
      told .halt memory' = 2 := by
  obtain ⟨memory, hfirst, htold⟩ :=
    runFor_watched_halt 0 false [⟨⟨.launch, 0, none⟩, (walker 1 0).machine⟩]
  obtain ⟨memory', hsecond, htold'⟩ := runFor_watched_halt 1 true memory
  refine ⟨memory, memory', hfirst, hsecond, ?_⟩
  rw [htold', htold]
  rfl

theorem served_halts_doomed :
    ∃ requests e',
      Served doomed requests e' ∧
      requests.length = 2 ∧
      told .launch e'.scene.memory = 1 ∧
      told .halt e'.scene.memory = requests.countP (halts ·.answer) := by
  obtain ⟨memory, memory', hfirst, hsecond, _⟩ := runFor_doomed
  have hserved :
      Served doomed [⟨.runFor 1, _, _⟩, ⟨.runFor 1, _, _⟩]
        { watched 1 2 memory' with halted := true } :=
    .next rfl hfirst (.next rfl hsecond .done)
  obtain ⟨⟨stream, hmemory, hlaunches, hhalts⟩, _⟩ :=
    served_halts ((fresh_assemble _ _ _).subscribe scribe) rfl passive_scribe hserved
  have hstream : memory' = stream := hmemory.trans (notesAfter_scribe _ _)
  subst hstream
  exact ⟨_, _, hserved, rfl, hlaunches, hhalts⟩

/-- A second request to a halted engine runs another tick and tells of a second halt. -/
theorem doomed_halts_twice :
    Fresh doomed ∧
    Passive doomed.observers ∧
    ∃ e₁ e₂,
      runFor 1 doomed = some (.ok (.halted (some 33)) e₁) ∧
      e₁.halted = true ∧
      e₁.ticks = 1 ∧
      runFor 1 e₁ = some (.ok (.halted (some 33)) e₂) ∧
      e₂.ticks = 2 ∧
      told .halt e₂.scene.memory = 2 := by
  obtain ⟨memory, memory', hfirst, hsecond, htold⟩ := runFor_doomed
  exact
    ⟨(fresh_assemble _ _ _).subscribe scribe, passive_scribe, _, _, hfirst, rfl, rfl, hsecond, rfl,
      htold⟩

end Rows

end Engine

end FungeTrace
