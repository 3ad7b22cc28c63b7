import FungeTrace.Proofs.Plane
import FungeTrace.Proofs.Seat

/-!
# Engines with one pointer

While one pointer is live, a tick of a Befunge-93 engine is one stride.  The live sequence, the
look-ups by number before and after the operation and the mark on the current pointer come to
nothing, on every way out of a visit; what remains are the notifications.

`visit_lone` says so for a visit whose observers are silent before and after the operation, and
`runFor_start` for whole runs without observers.
-/

namespace FungeTrace

namespace Machine

open Befunge

/-- The machine with a single live pointer, which stands in the space and state of a focus. -/
def withFocus (m : Machine UInt8) (f : Focus) : Machine UInt8 :=
  { m with space := f.space, ips := [f.ip], shared := f.shared }

theorem indexOf?_withFocus
    (m : Machine UInt8) (f : Focus) :
    (m.withFocus f).indexOf? f.ip.id = some 0 := by
  simp [indexOf?, withFocus]

theorem ip?_withFocus
    (m : Machine UInt8) (f : Focus) :
    (m.withFocus f).ip? f.ip.id = some f.ip := by
  simp [ip?, withFocus]

theorem cellUnder?_withFocus
    (m : Machine UInt8) (f : Focus) :
    (m.withFocus f).cellUnder? f.ip.id = some (f.space.read f.ip.position) := by
  unfold cellUnder?
  rw [ip?_withFocus]
  rfl

end Machine

namespace Engine

open Act Befunge

variable {σ : Type}

/-- The engine over a machine with a single live pointer. -/
def withFocus (e : Engine UInt8 σ) (f : Focus) : Engine UInt8 σ :=
  { e with scene := { e.scene with machine := e.machine.withFocus f } }

/-- A visit of the only pointer is a stride, up to the notification after the move. -/
theorem visit_lone
    {e : Engine UInt8 σ} {f : Focus}
    (hlanguage : e.language = Befunge.language)
    (hbefore : Silent e.observers .beforeCommand)
    (hafter : Silent e.observers .afterCommand) :
    visit 0 f.ip.id (e.withFocus f) =
      match stride f with
      | .error fault g =>
        .error fault ({ e with current := some f.ip.id }.withFocus g)
      | .ok (.halt result) g =>
        .ok (.halted result) ({ e with current := none }.withFocus g)
      | .ok .proceed g =>
        arrive 0 f.ip.id ({ e with current := some f.ip.id }.withFocus g) := by
  have hseats : (e.withFocus f).machine.Seats 0 f.ip.id :=
    ⟨List.nodup_singleton _, rfl⟩
  have hvisit := visit_seated (e := e.withFocus f) (f := f) hlanguage hseats hbefore hafter
  change visit 0 f.ip.id ((e.withFocus f).seat 0 f) = _
  rw [hvisit]
  rfl

section Ticks

theorem arrive_lone
    {e : Engine UInt8 σ} {f : Focus}
    (hmove : Watching e.observers .afterMove) :
    arrive 0 f.ip.id (e.withFocus f) =
      match notify .afterMove (e.withFocus f) with
      | .error fault e' => .error fault e'
      | .ok _ e' => .ok (.next 1) e' := by
  unfold arrive
  cases hnotify : notify .afterMove (e.withFocus f) with
  | error fault e' =>
      rw [bind_error hnotify]
  | ok _ e' =>
      rw [bind_ok hnotify]
      obtain ⟨scene, rfl, hall⟩ := notify_ok hnotify
      have hmachine : scene.machine = e.machine.withFocus f :=
        hmove _ rfl _ _ hall
      change
        EStateM.Result.ok
          (Visit.next (((scene.machine.indexOf? f.ip.id).map (· + 1)).getD 0)) _ = _
      rw [hmachine, Machine.indexOf?_withFocus]
      rfl

theorem visits_lone
    {e : Engine UInt8 σ} {f : Focus}
    (hlanguage : e.language = Befunge.language)
    (hbefore : Silent e.observers .beforeCommand)
    (hafter : Silent e.observers .afterCommand)
    (hmove : Watching e.observers .afterMove) :
    visits (e.withFocus f) =
      match stride f with
      | .error fault g =>
        some (.error fault ({ e with current := some f.ip.id }.withFocus g))
      | .ok (.halt result) g =>
        some (.ok (.halt result) ({ e with current := none }.withFocus g))
      | .ok .proceed g =>
        match notify .afterMove ({ e with current := some f.ip.id }.withFocus g) with
        | .error fault e' => some (.error fault e')
        | .ok _ e' => some (.ok .proceed e') := by
  have hvisit := visit_lone (e := e) (f := f) hlanguage hbefore hafter
  have hfirst : (e.withFocus f).machine.ips[0]? = some f.ip := rfl
  unfold visits
  rw [visitsFrom, hfirst]
  dsimp only
  rw [hvisit]
  cases hstride : stride f with
  | error fault g =>
      rfl
  | ok decision g =>
      cases decision with
      | halt result =>
          rfl
      | proceed =>
          have harrive :=
            arrive_lone
              (e := { e with current := some f.ip.id }) (f := g) hmove
          rw [stride_id hstride] at harrive
          dsimp only
          rw [harrive]
          cases hnotify :
              notify .afterMove ({ e with current := some f.ip.id }.withFocus g) with
          | error fault e' =>
              rfl
          | ok _ e' =>
              obtain ⟨scene, rfl, hall⟩ := notify_ok hnotify
              have hmachine : scene.machine = e.machine.withFocus g :=
                hmove _ rfl _ _ hall
              have hsecond : scene.machine.ips[1]? = none := by
                rw [hmachine]
                rfl
              dsimp only
              rw [visitsFrom]
              simp only [machine, hsecond]

/-- A tick of the only pointer is a stride between the notifications of the tick. -/
theorem tick_lone
    {e : Engine UInt8 σ} {f f' : Focus}
    (hlanguage : e.language = Befunge.language)
    (hbefore : Silent e.observers .beforeCommand)
    (hafter : Silent e.observers .afterCommand)
    (hmove : Watching e.observers .afterMove)
    (hfinish : Silent e.observers .tickFinish)
    (hopen :
      openTick (e.withFocus f) =
        .ok () ({ e with ticks := e.ticks + 1 }.withFocus f')) :
    tick (e.withFocus f) = some
      (match stride f' with
      | .error fault g =>
        .error fault
          ({ e with ticks := e.ticks + 1, current := some f'.ip.id }.withFocus g)
      | .ok (.halt result) g =>
        .ok (.halt result)
          ({ e with ticks := e.ticks + 1, current := none }.withFocus g)
      | .ok .proceed g =>
        match notify .afterMove
            ({ e with ticks := e.ticks + 1, current := some f'.ip.id }.withFocus g) with
        | .error fault e' => .error fault e'
        | .ok _ e' => .ok .proceed { e' with current := none }) := by
  have hvisits :=
    visits_lone
      (e := { e with ticks := e.ticks + 1 }) (f := f') hlanguage hbefore hafter hmove
  unfold tick
  rw [hopen]
  dsimp only
  rw [hvisits]
  cases stride f' with
  | error fault g =>
      rfl
  | ok decision g =>
      cases decision with
      | halt result =>
          exact congrArg some (closeTick_silent hfinish)
      | proceed =>
          dsimp only
          cases hnotify :
              notify .afterMove
                ({ e with ticks := e.ticks + 1, current := some f'.ip.id }.withFocus g) with
          | error fault e' =>
              rfl
          | ok _ e' =>
              obtain ⟨scene, rfl, _⟩ := notify_ok hnotify
              exact congrArg some (closeTick_silent hfinish)

end Ticks

section Runs

variable {e : Engine UInt8 σ}

/-- Without observers a tick of the only pointer is a stride. -/
theorem tick_plain
    (hlanguage : e.language = Befunge.language)
    (hobservers : e.observers = [])
    (f : Focus) :
    tick (e.withFocus f) = some
      (match stride f with
      | .error fault g =>
        .error fault
          ({ e with ticks := e.ticks + 1, current := some f.ip.id }.withFocus g)
      | .ok decision g =>
        .ok decision
          ({ e with ticks := e.ticks + 1, current := none }.withFocus g)) := by
  have hsilent : ∀ phase, Silent e.observers phase := by
    intro phase
    rw [hobservers]
    exact silent_nil phase
  have hopen :
      openTick (e.withFocus f) =
        .ok () ({ e with ticks := e.ticks + 1 }.withFocus f) := by
    exact notify_silent (e := { e with ticks := e.ticks + 1 }.withFocus f) (hsilent _)
  rw [tick_lone hlanguage (hsilent _) (hsilent _) (hsilent _).watching (hsilent _) hopen]
  cases stride f with
  | error fault g =>
      rfl
  | ok decision g =>
      cases decision with
      | halt result =>
          rfl
      | proceed =>
          have hquiet :=
            notify_silent
              (e := { e with ticks := e.ticks + 1, current := some f.ip.id }.withFocus g)
              (hsilent .afterMove)
          dsimp only
          rw [hquiet]
          rfl

/-- The engine that a run of its only pointer leaves: ticks are counted, a halt is noted, and a
fault leaves the pointer marked as current. -/
def ran (e : Engine UInt8 σ) :
    Nat × EStateM.Result Fault Focus (RunOutcome UInt8) → Reached UInt8 σ (RunOutcome UInt8)
  | (k, .ok .tickLimit f) =>
    .ok .tickLimit ({ e with ticks := e.ticks + k }.withFocus f)
  | (k, .ok (.halted result) f) =>
    .ok (.halted result) ({ e with ticks := e.ticks + k, halted := true }.withFocus f)
  | (k, .error fault f) =>
    .error fault ({ e with ticks := e.ticks + k, current := some f.ip.id }.withFocus f)

theorem ran_next
    (hcurrent : e.current = none)
    (k : Nat) (r : EStateM.Result Fault Focus (RunOutcome UInt8)) :
    { e with ticks := e.ticks + 1, current := none }.ran (k, r) =
      e.ran (k + 1, r) := by
  have hticks : e.ticks + 1 + k = e.ticks + (k + 1) := by
    omega
  cases r with
  | error fault f =>
      simp only [ran, hticks]
  | ok outcome f =>
      cases outcome with
      | halted result =>
          simp only [ran, hticks, hcurrent]
      | tickLimit =>
          simp only [ran, hticks, hcurrent]

theorem ran_withFocus
    (e : Engine UInt8 σ) (f : Focus)
    (run : Nat × EStateM.Result Fault Focus (RunOutcome UInt8)) :
    (e.withFocus f).ran run = e.ran run := by
  obtain ⟨k, r⟩ := run
  cases r with
  | error fault g =>
      rfl
  | ok outcome g =>
      cases outcome with
      | halted result =>
          rfl
      | tickLimit =>
          rfl

theorem ran_ok
    (e : Engine UInt8 σ) (k : Nat) (outcome : RunOutcome UInt8) (f : Focus) :
    ∃ e',
      e.ran (k, .ok outcome f) = .ok outcome e' ∧
      e'.ticks = e.ticks + k ∧
      e'.machine = e.machine.withFocus f := by
  cases outcome with
  | halted result =>
      exact ⟨_, rfl, rfl, rfl⟩
  | tickLimit =>
      exact ⟨_, rfl, rfl, rfl⟩

theorem tickWithin_plain
    (hlanguage : e.language = Befunge.language)
    (hobservers : e.observers = [])
    (hcurrent : e.current = none)
    (n : Nat) (f : Focus) :
    tickWithin (e.withFocus f) n = some (e.ran (strides n f)) := by
  induction n generalizing e f with
  | zero =>
      rfl
  | succ n ih =>
      unfold tickWithin strides
      rw [tick_plain hlanguage hobservers f]
      cases hstride : stride f with
      | error fault g =>
          have hid : g.ip.id = f.ip.id :=
            (diagonal_error (stride_agree (respects_id f.ip.id)) rfl hstride).2
          dsimp only [ran]
          rw [hid]
      | ok decision g =>
          cases decision with
          | halt result =>
              have hfinish :=
                finish_silent
                  (e := { e with ticks := e.ticks + 1, current := none }.withFocus g)
                  (hobservers ▸ silent_nil .halt) result
              dsimp only
              rw [hfinish]
              simp only [ran, hcurrent]
              rfl
          | proceed =>
              have htail :=
                ih (e := { e with ticks := e.ticks + 1, current := none })
                  hlanguage hobservers rfl g
              dsimp only
              rw [htail, ran_next hcurrent]

theorem runFor_plain
    (hlanguage : e.language = Befunge.language)
    (hobservers : e.observers = [])
    (hcurrent : e.current = none)
    (n : Nat) (f : Focus) :
    runFor n (e.withFocus f) =
      some ({ e with launched := true }.ran (strides n f)) := by
  have hlaunch :=
    launch_silent (e := e.withFocus f) (hobservers ▸ silent_nil .launch)
  unfold runFor
  rw [hlaunch]
  exact
    tickWithin_plain (e := { e with launched := true }) hlanguage hobservers hcurrent n f

/-- The engine that a Befunge-93 run starts with. -/
def fresh (space : Space UInt8) (shared : Bag) (supply : Supply) (memory : σ) :
    Engine UInt8 σ :=
  (assemble { space, ips := [], shared, supply := (newIp space supply).2 }
    Befunge.language memory).withFocus
      { ip := (newIp space supply).1, space, shared }

theorem start_of_plane
    {space : Space UInt8}
    (hplane : space.shape.plane?.isSome)
    (shared : Bag) (supply : Supply) (memory : σ) :
    start space Befunge.language shared supply memory =
      .ok (fresh space shared supply memory) := by
  have haccepts : Befunge.language.accepts space = true := hplane
  unfold start
  rw [haccepts]
  rfl

theorem plane_of_start
    {space : Space UInt8} {shared : Bag} {supply : Supply} {memory : σ}
    (hstart : start space Befunge.language shared supply memory = .ok e) :
    space.shape.plane?.isSome := by
  cases hplane : space.shape.plane?.isSome with
  | true =>
      rfl
  | false =>
      have haccepts : Befunge.language.accepts space = false := hplane
      unfold start at hstart
      rw [haccepts] at hstart
      contradiction

theorem runFor_fresh
    (space : Space UInt8) (shared : Bag) (supply : Supply) (memory : σ) (n : Nat) :
    (fresh space shared supply memory).runFor n =
      some ({ fresh space shared supply memory with launched := true }.ran
        (strides n { ip := (newIp space supply).1, space, shared })) := by
  unfold fresh
  rw [runFor_plain rfl rfl rfl n]
  exact congrArg some (ran_withFocus _ _ _).symm

/-- A Befunge-93 engine runs as the interpreter with a single pointer does: with the same outcome,
space, pointer, streams and number of ticks, and nothing else is touched. -/
theorem runFor_start
    {space : Space UInt8} {shared : Bag} {supply : Supply} {memory : σ}
    (hstart : start space Befunge.language shared supply memory = .ok e)
    (n : Nat) :
    e.runFor n =
      some ({ e with launched := true }.ran
        (strides n { ip := (newIp space supply).1, space, shared })) := by
  have hfresh := start_of_plane (plane_of_start hstart) shared supply memory
  rw [hstart, Except.ok.injEq] at hfresh
  rw [hfresh]
  exact runFor_fresh space shared supply memory n

theorem runFor_start_shortRing :
    ∃ e : Engine UInt8 Unit,
      start (.ground (.torus Torus.shortRing)) Befunge.language .empty { dice := .loaded } () =
        .ok e ∧
      e.runFor 3 =
        some ({ e with launched := true }.ran
          (strides 3 {
            ip := (newIp (.ground (.torus Torus.shortRing)) { dice := .loaded }).1
            space := .ground (.torus Torus.shortRing)
            shared := .empty })) := by
  have hplane : (Space.ground (.torus Torus.shortRing)).shape.plane?.isSome := rfl
  have hstart := start_of_plane hplane .empty { dice := .loaded } ()
  exact ⟨_, hstart, runFor_start hstart 3⟩

end Runs

end Engine
end FungeTrace
