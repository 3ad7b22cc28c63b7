import FungeTrace.Cli.Session
import FungeTrace.Engine.Tiny
import FungeTrace.Proofs.Agreement
import FungeTrace.Proofs.Entries
import FungeTrace.Proofs.Lone
import FungeTrace.Proofs.Plane
import FungeTrace.Proofs.Spelling

/-!
# Budgets

A run with a budget of ticks can be paused and resumed, and a run without one goes through the same
ticks.

* `runFor_add`: two bounded runs in a row are one run with the sum of their budgets.  The run is
  announced once, because no tick touches the mark of the announcement.
* `run_eq_some_iff`: an unbounded run ends if and only if some budget is enough for it, and then in
  the same way.

A run that does not end is `none`, also one with a budget: a single tick may go on for ever.
-/

namespace FungeTrace

namespace Engine

open Act

variable {C σ α β : Type} {e e' : Engine C σ}

section Marks

/-- An engine that has started a number of ticks, and has been announced or not. -/
def Marked (ticks : Nat) (launched : Bool) (e : Engine C σ) : Prop :=
  e.ticks = ticks ∧ e.launched = launched

/-- An action that neither starts ticks nor announces the run. -/
def Steady (act : Act (Engine C σ) α) : Prop :=
  ∀ ticks launched, Agree (Diagonal (Marked ticks launched)) (fun _ => True) act act

theorem steady_pure
    (a : α) :
    Steady (pure a : Act (Engine C σ) α) :=
  fun _ _ => agree_pure a

theorem Steady.bind
    {act : Act (Engine C σ) α} {next : α → Act (Engine C σ) β}
    (hact : Steady act)
    (hnext : ∀ a, Steady (next a)) :
    Steady (act >>= next) :=
  fun ticks launched => agree_bind (hact ticks launched) fun a => hnext a ticks launched

theorem steady_ite
    {act₁ act₂ : Act (Engine C σ) α}
    (c : Prop) [Decidable c]
    (h₁ : Steady act₁)
    (h₂ : Steady act₂) :
    Steady (if c then act₁ else act₂) :=
  fun ticks launched => agree_ite c (h₁ ticks launched) (h₂ ticks launched)

/-- A question about the engine. -/
theorem steady_ask
    (ask : Engine C σ → Except Fault α) :
    Steady fun e => Act.ofExcept (ask e) e :=
  fun _ _ => agree_ask fun _ _ _ _ => trivial

theorem steady_notify
    (phase : Phase) :
    Steady (notify phase : Act (Engine C σ) Unit) := by
  rintro ticks launched e _ ⟨rfl, h⟩
  simp only [notify, zoom]
  split
  · exact .ok _ ⟨rfl, h⟩
  · exact .error trivial ⟨rfl, h⟩

theorem steady_onMachine
    (act : Act (Machine C) α) :
    Steady (onMachine act : Act (Engine C σ) α) :=
  fun _ _ => agree_zoom (fun _ _ _ h _ => h) (fun _ _ _ h _ => ⟨trivial, h⟩)

theorem steady_setCurrent
    (id : Option Nat) :
    Steady (setCurrent id : Act (Engine C σ) Unit) :=
  fun _ _ => agree_change fun _ h => h

theorem steady_get :
    Steady (get : Act (Engine C σ) (Engine C σ)) :=
  steady_ask .ok

theorem steady_indexOf?
    (id : Nat) :
    Steady (indexOf? id : Act (Engine C σ) (Option Nat)) :=
  steady_ask fun e => .ok (e.machine.indexOf? id)

theorem steady_depart
    (index id : Nat) :
    Steady (depart index id : Act (Engine C σ) (Visit C)) := by
  refine (steady_notify _).bind fun _ => ?_
  refine (steady_onMachine _).bind fun live => ?_
  refine steady_ite _ ?_ (steady_pure _)
  refine (steady_notify _).bind fun _ => ?_
  exact (steady_indexOf? id).bind fun _ => steady_pure _

theorem steady_perform
    (index id : Nat) (cell : C) :
    Steady (perform index id cell : Act (Engine C σ) (Visit C)) := by
  refine steady_get.bind fun e => ?_
  refine (steady_onMachine _).bind fun decision => ?_
  cases decision with
  | halt result =>
      exact (steady_setCurrent none).bind fun _ => steady_pure _
  | proceed =>
      refine (steady_indexOf? id).bind fun place => ?_
      exact steady_ite _ (steady_depart index id) (steady_pure _)

theorem steady_visit
    (index id : Nat) :
    Steady (visit index id : Act (Engine C σ) (Visit C)) := by
  refine (steady_setCurrent _).bind fun _ => ?_
  refine (steady_notify _).bind fun _ => ?_
  refine (steady_indexOf? id).bind fun place => ?_
  cases place with
  | none =>
      exact steady_pure _
  | some place =>
      refine steady_get.bind fun e => ?_
      cases e.machine.cellUnder? id with
      | none =>
          exact steady_pure _
      | some result =>
          exact (steady_ask fun _ => result).bind fun cell => steady_perform place id cell

theorem Steady.ok
    {act : Act (Engine C σ) α} {a : α}
    (hact : Steady act)
    (h : act e = .ok a e') :
    e'.ticks = e.ticks ∧ e'.launched = e.launched :=
  diagonal_ok (hact e.ticks e.launched) ⟨rfl, rfl⟩ h

theorem visitsFrom_ok
    {index : Nat} {decision : Decision C}
    (h : visitsFrom index e = some (.ok decision e')) :
    e'.ticks = e.ticks ∧ e'.launched = e.launched := by
  refine
    visitsFrom.partial_correctness
      (fun _ e r =>
        ∀ decision e', r = .ok decision e' → e'.ticks = e.ticks ∧ e'.launched = e.launched)
      ?_ index e _ h decision e' rfl
  intro visitsFrom ih index e r hr decision e' hok
  subst hok
  cases hip : e.machine.ips[index]? with
  | none =>
      simp only [hip, Option.some.injEq, EStateM.Result.ok.injEq] at hr
      obtain ⟨_, rfl⟩ := hr
      exact ⟨rfl, rfl⟩
  | some ip =>
      rw [hip] at hr
      dsimp only at hr
      cases hvisit : visit index ip.id e with
      | error fault e₁ =>
          simp [hvisit] at hr
      | ok answer e₁ =>
          obtain ⟨hticks, hlaunched⟩ := (steady_visit index ip.id).ok hvisit
          rw [hvisit] at hr
          cases answer with
          | halted result =>
              simp only [Option.some.injEq, EStateM.Result.ok.injEq] at hr
              obtain ⟨_, rfl⟩ := hr
              exact ⟨hticks, hlaunched⟩
          | next next =>
              obtain ⟨hticks', hlaunched'⟩ := ih next e₁ _ hr decision e' rfl
              exact ⟨hticks'.trans hticks, hlaunched'.trans hlaunched⟩

theorem openTick_ok
    (h : openTick e = .ok () e') :
    e'.ticks = e.ticks + 1 ∧ e'.launched = e.launched :=
  (steady_notify .tickStart).ok (e := { e with ticks := e.ticks + 1 }) h

theorem steady_closeTick
    (decision : Decision C) :
    Steady (closeTick decision : Act (Engine C σ) (Decision C)) := by
  refine (steady_setCurrent none).bind fun _ => ?_
  exact (steady_notify _).bind fun _ => steady_pure _

/-- A tick is counted once, and the announcement stays as it is. -/
theorem tick_ok
    {decision : Decision C}
    (h : tick e = some (.ok decision e')) :
    e'.ticks = e.ticks + 1 ∧ e'.launched = e.launched := by
  unfold tick at h
  cases hopen : openTick e with
  | error fault e₁ =>
      simp [hopen] at h
  | ok _ e₁ =>
      rw [hopen] at h
      dsimp only at h
      cases hvisits : visits e₁ with
      | none =>
          simp [hvisits] at h
      | some r =>
          cases r with
          | error fault e₂ =>
              simp [hvisits] at h
          | ok decided e₂ =>
              simp only [hvisits, Option.some.injEq] at h
              obtain ⟨hticks₁, hlaunched₁⟩ := openTick_ok hopen
              obtain ⟨hticks₂, hlaunched₂⟩ := visitsFrom_ok hvisits
              obtain ⟨hticks₃, hlaunched₃⟩ := (steady_closeTick decided).ok h
              constructor
              · omega
              · rw [hlaunched₃, hlaunched₂, hlaunched₁]

end Marks

section Pauses

variable {m n : Nat}

theorem launch_ok
    (h : launch e = .ok () e') :
    e'.ticks = e.ticks ∧ e'.launched = true := by
  obtain ⟨scene, language, observers, current, ticks, launched, halted⟩ := e
  cases launched with
  | true =>
      simp only [launch, get_bind] at h
      injection h with _ h
      subst h
      exact ⟨rfl, rfl⟩
  | false =>
      exact (steady_notify .launch).ok
        (e := ⟨scene, language, observers, current, ticks, true, halted⟩) h

/-- A run is announced once. -/
theorem launch_of_launched
    (h : e.launched = true) :
    launch e = .ok () e := by
  unfold launch
  rw [get_bind, h]
  rfl

theorem tickWithin_tickLimit
    (h : tickWithin e m = some (.ok .tickLimit e')) :
    e'.ticks = e.ticks + m ∧ e'.launched = e.launched := by
  induction m generalizing e with
  | zero =>
      simp only [tickWithin, Option.some.injEq, EStateM.Result.ok.injEq, true_and] at h
      subst h
      exact ⟨rfl, rfl⟩
  | succ m ih =>
      rw [tickWithin] at h
      split at h
      · contradiction
      · simp at h
      · split at h <;> simp at h
      · rename_i e₁ htick
        obtain ⟨hticks, hlaunched⟩ := tick_ok htick
        obtain ⟨hticks', hlaunched'⟩ := ih h
        constructor
        · omega
        · rw [hlaunched', hlaunched]

/-- Ticks within a sum are ticks within its first part, and then, unless the run ended, within the
second. -/
theorem tickWithin_add
    (e : Engine C σ) (m n : Nat) :
    tickWithin e (m + n) =
      match tickWithin e m with
      | some (.ok .tickLimit e') => tickWithin e' n
      | r => r := by
  induction m generalizing e with
  | zero =>
      simp [tickWithin]
  | succ m ih =>
      rw [Nat.succ_add, tickWithin, tickWithin]
      split
      · rfl
      · rfl
      · split <;> rfl
      · exact ih _

/-- Two bounded runs in a row are one with the sum of their budgets, unless the first one ends. -/
theorem runFor_add
    (e : Engine C σ) (m n : Nat) :
    runFor (m + n) e =
      match runFor m e with
      | some (.ok .tickLimit e') => runFor n e'
      | r => r := by
  unfold runFor
  cases hlaunch : launch e with
  | error fault e₁ =>
      rfl
  | ok _ e₁ =>
      dsimp only
      rw [tickWithin_add]
      split
      · rename_i e₂ hlimit
        have hlaunched : e₂.launched = true :=
          (tickWithin_tickLimit hlimit).2.trans (launch_ok hlaunch).2
        rw [launch_of_launched hlaunched]
      · rfl

theorem runFor_tickLimit
    (h : runFor m e = some (.ok .tickLimit e')) :
    e'.ticks = e.ticks + m := by
  unfold runFor at h
  cases hlaunch : launch e with
  | error fault e₁ =>
      simp [hlaunch] at h
  | ok _ e₁ =>
      rw [hlaunch] at h
      rw [(tickWithin_tickLimit h).1, (launch_ok hlaunch).1]

/-- A run can be paused after any number of ticks.  If it is not over by then, the ticks are counted
and the resumed run ends as the run that was not paused; if it is over, a larger budget changes
nothing. -/
theorem runFor_resumed
    (e : Engine C σ) (m n : Nat) :
    (∀ e', runFor m e = some (.ok .tickLimit e') →
      e'.ticks = e.ticks + m ∧ runFor n e' = runFor (m + n) e) ∧
    (∀ result e', runFor m e = some (.ok (.halted result) e') →
      runFor (m + n) e = some (.ok (.halted result) e')) ∧
    (∀ fault e', runFor m e = some (.error fault e') →
      runFor (m + n) e = some (.error fault e')) := by
  refine ⟨?_, ?_, ?_⟩
  · intro e' h
    refine ⟨runFor_tickLimit h, ?_⟩
    rw [runFor_add, h]
  · intro result e' h
    rw [runFor_add, h]
  · intro fault e' h
    rw [runFor_add, h]

end Pauses

section Ends

variable {n : Nat} {r : Reached C σ (Option C)}

/-- The end of a run as the end of a bounded run. -/
def ended : Reached C σ (Option C) → Reached C σ (RunOutcome C)
  | .ok result e => .ok (.halted result) e
  | .error fault e => .error fault e

theorem ended_ne_tickLimit
    (r : Reached C σ (Option C)) (e : Engine C σ) :
    ended r ≠ .ok .tickLimit e := by
  cases r <;> simp [ended]

theorem ended_inj
    {r' : Reached C σ (Option C)}
    (h : ended r = ended r') :
    r = r' := by
  cases r <;> cases r' <;> simp_all [ended]

theorem tickWithin_succ
    (e : Engine C σ) (n : Nat) :
    tickWithin e (n + 1) =
      match tick e with
      | none => none
      | some (.error fault e) => some (.error fault e)
      | some (.ok (.halt result) e) => some (ended (finish result e))
      | some (.ok .proceed e) => tickWithin e n := by
  rw [tickWithin]
  cases tick e with
  | none =>
      rfl
  | some r =>
      cases r with
      | error fault e₁ =>
          rfl
      | ok decision e₁ =>
          cases decision with
          | proceed =>
              rfl
          | halt result =>
              dsimp only
              cases finish result e₁ <;> rfl

/-- The first tick of an unbounded run decides how it goes on, as it does for a bounded one. -/
theorem tickOn_of_tickWithin
    (h : tickWithin e n = some (ended r)) :
    tickOn e = some r := by
  induction n generalizing e with
  | zero =>
      simp only [tickWithin, Option.some.injEq] at h
      exact absurd h.symm (ended_ne_tickLimit r e)
  | succ n ih =>
      rw [tickWithin_succ] at h
      rw [tickOn]
      cases htick : tick e with
      | none =>
          simp [htick] at h
      | some answer =>
          rw [htick] at h
          cases answer with
          | error fault e₁ =>
              have hfault : ended (.error fault e₁) = ended r := Option.some.inj h
              exact congrArg some (ended_inj hfault)
          | ok decision e₁ =>
              cases decision with
              | proceed =>
                  exact ih h
              | halt result =>
                  exact congrArg some (ended_inj (Option.some.inj h))

/-- An unbounded run that ends does so within some budget. -/
theorem tickWithin_of_tickOn
    (h : tickOn e = some r) :
    ∃ n, tickWithin e n = some (ended r) := by
  refine
    tickOn.partial_correctness
      (fun e r => ∃ n, tickWithin e n = some (ended r))
      ?_ e r h
  intro tickOn ih e r hr
  cases htick : tick e with
  | none =>
      simp [htick] at hr
  | some answer =>
      rw [htick] at hr
      cases answer with
      | error fault e₁ =>
          obtain rfl := Option.some.inj hr
          refine ⟨1, ?_⟩
          rw [tickWithin_succ, htick]
          rfl
      | ok decision e₁ =>
          cases decision with
          | proceed =>
              obtain ⟨n, hn⟩ := ih e₁ r hr
              refine ⟨n + 1, ?_⟩
              rw [tickWithin_succ, htick]
              exact hn
          | halt result =>
              obtain rfl := Option.some.inj hr
              refine ⟨1, ?_⟩
              rw [tickWithin_succ, htick]

theorem run_eq_some_iff :
    run e = some r ↔ ∃ n, runFor n e = some (ended r) := by
  unfold run runFor
  cases launch e with
  | error fault e₁ =>
      constructor
      · intro h
        obtain rfl := Option.some.inj h
        exact ⟨0, rfl⟩
      · rintro ⟨_, h⟩
        have hfault : ended (.error fault e₁) = ended r := Option.some.inj h
        exact congrArg some (ended_inj hfault)
  | ok _ e₁ =>
      constructor
      · exact tickWithin_of_tickOn
      · rintro ⟨_, h⟩
        exact tickOn_of_tickWithin h

/-- A budget that is enough can be raised. -/
theorem runFor_raised
    {m : Nat}
    (h : runFor m e = some (ended r))
    (hle : m ≤ n) :
    runFor n e = some (ended r) := by
  obtain ⟨k, rfl⟩ := Nat.exists_eq_add_of_le hle
  rw [runFor_add, h]
  cases r <;> rfl

/-- A worker that nobody cancels does the whole run. -/
theorem join_submitted
    (e : Engine C σ) :
    ((Background.submit false).join e.work e.refused).1 = some (run e) :=
  rfl

end Ends

end Engine

namespace Session

open Engine

/-- Whether the program of an invocation ends within a number of ticks, once its engine has been
started. -/
def EndsWithin (config : Config) (s : Surroundings) (bytes : List UInt8) (n : Nat) : Prop :=
  ∀ grid source engine,
    Befunge.load (Utf8.decode bytes) = .ok grid →
    openInput config s = .ok source →
    directEngine grid source (supplyOf config s) = .ok engine →
    ∃ r, engine.runFor n = some (ended r)

theorem runProgram_within
    {engine : Engine UInt8 Unit} {r : Reached UInt8 Unit (Option UInt8)} {n : Nat}
    (h : engine.runFor n = some (ended r)) :
    runProgram engine (some n) = runProgram engine none := by
  have hrun : engine.run = some r := run_eq_some_iff.2 ⟨n, h⟩
  unfold runProgram
  rw [join_submitted, hrun]
  dsimp only
  rw [h]
  cases r with
  | ok result engine =>
      rfl
  | error fault engine =>
      rfl

theorem execute_within
    {config : Config} {s : Surroundings} {bytes : List UInt8} {n : Nat}
    (hmode : config.mode = .run)
    (hends : EndsWithin config s bytes n) :
    execute { config with maxTicks := some n } s bytes =
      execute { config with maxTicks := none } s bytes := by
  have hopen : ∀ limit, openInput { config with maxTicks := limit } s = openInput config s :=
    fun _ => rfl
  have hsupply : ∀ limit, supplyOf { config with maxTicks := limit } s = supplyOf config s :=
    fun _ => rfl
  unfold execute
  simp only [hopen, hsupply]
  rw [hmode]
  cases hload : Befunge.load (Utf8.decode bytes) with
  | error fault =>
      rfl
  | ok grid =>
      cases hinput : openInput config s with
      | error flaw =>
          rfl
      | ok source =>
          dsimp only
          cases hengine : directEngine grid source (supplyOf config s) with
          | error fault =>
              rfl
          | ok engine =>
              obtain ⟨r, hr⟩ := hends grid source engine hload hinput hengine
              dsimp only
              rw [runProgram_within hr]

end Session

namespace Engine

variable {C σ : Type}

/-- A budget that is enough makes no difference.  An unbounded run ends if and only if some budget
is enough for it, every larger budget is enough too, and the engine is left the same.  A worker that
nobody cancels does that run; and a program that ends within a number of ticks is reported alike
whether or not it is bounded by that number. -/
theorem run_iff_runFor
    (e : Engine C σ) :
    (∀ r, run e = some r ↔ ∃ n, runFor n e = some (ended r)) ∧
    (∀ r m n, runFor m e = some (ended r) → m ≤ n → runFor n e = some (ended r)) ∧
    ((Background.submit false).join e.work e.refused).1 = some (run e) ∧
    ∀ config s bytes n, config.mode = .run → Session.EndsWithin config s bytes n →
      Session.execute { config with maxTicks := some n } s bytes =
        Session.execute { config with maxTicks := none } s bytes := by
  refine ⟨fun r => run_eq_some_iff, ?_, join_submitted e, ?_⟩
  · intro r m n h hle
    exact runFor_raised h hle
  · intro config s bytes n hmode hends
    exact Session.execute_within hmode hends

section Walking

variable {e e₁ e₂ : Engine C σ} {index next : Nat} {ip : Ip}

theorem visitsFrom_rest
    (hip : e.machine.ips[index]? = none) :
    visitsFrom index e = some (.ok .proceed e) := by
  rw [visitsFrom, hip]

theorem visitsFrom_next
    (hip : e.machine.ips[index]? = some ip)
    (hvisit : visit index ip.id e = .ok (.next next) e₁) :
    visitsFrom index e = visitsFrom next e₁ := by
  rw [visitsFrom, hip]
  dsimp only
  rw [hvisit]

theorem visitsFrom_halted
    {result : Option C}
    (hip : e.machine.ips[index]? = some ip)
    (hvisit : visit index ip.id e = .ok (.halted result) e₁) :
    visitsFrom index e = some (.ok (.halt result) e₁) := by
  rw [visitsFrom, hip]
  dsimp only
  rw [hvisit]

theorem tick_of_visits
    {decision : Decision C}
    (hopen : openTick e = .ok () e₁)
    (hvisits : visitsFrom 0 e₁ = some (.ok decision e₂)) :
    tick e = some (closeTick decision e₂) := by
  simp only [tick, hopen, visits, hvisits]

/-- An announced engine on a ring of two cells, the second of which halts. -/
def walker (x : Int64) (ticks : Nat) : Engine UInt8 Unit :=
  { assemble {
      space := .ground (.torus Torus.shortRing)
      ips := [{ id := 1, position := .planar x 0, direction := .east, state := .empty }]
      shared := .empty
      supply := { nextId := 2, dice := .loaded } } Tiny.language () with
    ticks
    launched := true }

theorem tick_walker_first
    (n : Nat) :
    tick (walker 0 n) = some (.ok .proceed (walker 1 (n + 1))) := by
  have hopen : openTick (walker 0 n) = .ok () (walker 0 (n + 1)) :=
    rfl
  have hip : (walker 0 (n + 1)).machine.ips[0]? = some ⟨1, .planar 0 0, .east, .empty⟩ :=
    rfl
  have hvisit :
      visit 0 1 (walker 0 (n + 1)) = .ok (.next 1) { walker 1 (n + 1) with current := some 1 } :=
    rfl
  have hrest : { walker 1 (n + 1) with current := some 1 }.machine.ips[1]? = none :=
    rfl
  exact tick_of_visits hopen ((visitsFrom_next hip hvisit).trans (visitsFrom_rest hrest))

theorem tick_walker_second
    (n : Nat) :
    tick (walker 1 n) = some (.ok (.halt (some 33)) (walker 1 (n + 1))) := by
  have hopen : openTick (walker 1 n) = .ok () (walker 1 (n + 1)) :=
    rfl
  have hip : (walker 1 (n + 1)).machine.ips[0]? = some ⟨1, .planar 1 0, .east, .empty⟩ :=
    rfl
  have hvisit :
      visit 0 1 (walker 1 (n + 1)) = .ok (.halted (some 33)) (walker 1 (n + 1)) :=
    rfl
  exact tick_of_visits hopen (visitsFrom_halted hip hvisit)

theorem runFor_walker_one :
    runFor 1 (walker 0 0) = some (.ok .tickLimit (walker 1 1)) := by
  change tickWithin (walker 0 0) 1 = _
  rw [tickWithin_succ, tick_walker_first]
  rfl

theorem runFor_walker_two :
    runFor 2 (walker 0 0) =
      some (ended (.ok (some 33) { walker 1 2 with halted := true })) := by
  change tickWithin (walker 0 0) 2 = _
  rw [tickWithin_succ, tick_walker_first]
  dsimp only
  rw [tickWithin_succ, tick_walker_second]
  rfl

theorem runFor_resumed_walker :
    runFor 1 (walker 0 0) = some (.ok .tickLimit (walker 1 1)) ∧
      (walker 1 1).ticks = 1 ∧
      runFor 1 (walker 1 1) =
        some (.ok (.halted (some 33)) { walker 1 2 with halted := true }) ∧
      runFor 7 (walker 0 0) =
        some (.ok (.halted (some 33)) { walker 1 2 with halted := true }) := by
  obtain ⟨hticks, hresumed⟩ := (runFor_resumed (walker 0 0) 1 1).1 _ runFor_walker_one
  have hraised := (runFor_resumed (walker 0 0) 2 5).2.1 _ _ runFor_walker_two
  exact ⟨runFor_walker_one, hticks, hresumed.trans runFor_walker_two, hraised⟩

end Walking

end Engine

namespace Session

open Engine Befunge Act

theorem read_of_load_at
    {t : Torus UInt8}
    (h : load (Utf8.decode [64]) = .ok t) :
    t.read (.origin t.dims) = .ok 64 := by
  have hlines : Lines.ofBytes (Utf8.encode "@") = [[64]] := by
    rw [Spells.encode_eq_flatMap]
    decide
  have hdecode : Utf8.decode [64] = "@" := rfl
  rw [hdecode] at h
  unfold load Torus.ofRows Torus.plane at h
  rw [hlines] at h
  obtain rfl := Except.ok.inj h
  unfold Torus.read
  split
  · rename_i i hi
    obtain rfl : i = 0 := by
      injection hi with hi
      exact hi.symm
    simp [Torus.cellOfRows]
  · rename_i fault hfault
    contradiction

/-- A stride on the halting cell ends the run. -/
theorem strides_at
    {f : Focus}
    (hcell : f.space.read f.ip.position = .ok 64)
    (hmode : f.ip.state.get stringModeKey = .ok false) :
    (∃ result g, strides 1 f = (1, .ok (.halted result) g)) ∨
      ∃ fault g, strides 1 f = (1, .error fault g) := by
  have hfoot : Focus.underfoot f = .ok 64 f := by
    simp only [Focus.underfoot, hcell, Act.ofExcept]
  have hstring : Focus.inString f = .ok false f := by
    simp only [Focus.inString, hmode, Act.ofExcept]
  have hcommand : Command.decode 64 = .halt :=
    rfl
  unfold strides stride
  rw [bind_ok hfoot, bind_ok hstring, hcommand]
  simp only [Bool.false_eq_true, if_false, if_true]
  cases heffect : Focus.effect .halt f with
  | error fault g =>
      rw [bind_error heffect]
      exact .inr ⟨fault, g, rfl⟩
  | ok _ g =>
      rw [bind_ok heffect]
      exact .inl ⟨some 0, g, rfl⟩

/-- A program that starts on the halting cell ends in its first tick. -/
theorem runFor_at
    {σ : Type} {space : Space UInt8}
    (hcell : space.read space.origin = .ok 64)
    (shared : Bag) (supply : Supply) (memory : σ) :
    ∃ r, (fresh space shared supply memory).runFor 1 = some (ended r) := by
  have hmode : (newIp space supply).1.state.get stringModeKey = .ok false := by
    change
      (((Bag.empty.insert stackKey []).insert stringModeKey false).insert randomKey _).get
        stringModeKey = _
    rw [Bag.get_insert_of_ne (by decide)]
    exact Bag.get_insert_self _ _ _
  rw [runFor_fresh]
  rcases strides_at (f := ⟨(newIp space supply).1, space, shared⟩) hcell hmode with
    ⟨result, g, h⟩ | ⟨fault, g, h⟩
  · rw [h]
    exact ⟨.ok result _, rfl⟩
  · rw [h]
    exact ⟨.error fault _, rfl⟩

theorem endsWithin_at
    (config : Config) (s : Surroundings) :
    EndsWithin config s [64] 1 := by
  intro grid source engine hload _ hengine
  obtain rfl :=
    Except.ok.inj ((start_of_plane (plane_of_start hengine) _ _ _).symm.trans hengine)
  have hcell : (Space.ground (.torus grid)).read (Space.ground (.torus grid)).origin = .ok 64 :=
    read_of_load_at hload
  exact runFor_at hcell _ _ ()

end Session

namespace Engine

theorem run_iff_runFor_walker :
    run (walker 0 0) = some (.ok (some 33) { walker 1 2 with halted := true }) ∧
      (∀ n, 2 ≤ n →
        runFor n (walker 0 0) =
          some (.ok (.halted (some 33)) { walker 1 2 with halted := true })) ∧
      ∀ s, Session.EndsWithin ⟨"halt", none, .run, none, none, 0, .warn⟩ s [64] 1 ∧
        Session.execute ⟨"halt", none, .run, some 1, none, 0, .warn⟩ s [64] =
          Session.execute ⟨"halt", none, .run, none, none, 0, .warn⟩ s [64] := by
  obtain ⟨hrun, hraised, _, hexecute⟩ := run_iff_runFor (walker 0 0)
  refine ⟨(hrun _).2 ⟨2, runFor_walker_two⟩, fun n => hraised _ 2 n runFor_walker_two, fun s => ?_⟩
  have hends := Session.endsWithin_at ⟨"halt", none, .run, none, none, 0, .warn⟩ s
  exact ⟨hends, hexecute _ s [64] 1 rfl hends⟩

end Engine

end FungeTrace
