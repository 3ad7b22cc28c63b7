import FungeTrace.Proofs.Budget
import FungeTrace.Proofs.Seat
import Mathlib.Logic.Function.Iterate

/-!
# Pointers in company

Pointers share a space, the streams and the decision to halt.  A pointer reaches the others through
six commands only, those of `outward`: one writes the space, four use the streams and one ends the
run.  A stride that executes none of them changes the pointer alone, and the pointer and the space
decide about it.

So the pointers of an engine that execute none of these commands go their ways independently of each
other.  `runFor_company` says this of whole runs: the pointers end as each of them does alone, and in
whatever order they take turns.
-/

namespace FungeTrace

namespace Befunge

open Focus Act

/-- The commands through which a pointer reaches the others. -/
def outward : List Command :=
  [.put, .outputNumber, .outputChar, .inputNumber, .inputChar, .halt]

variable {α β : Type}

section Inward

/-- Runs an action on the pointer, for which the space is given. -/
def onIp (act : Space UInt8 → Act Ip α) : Act Focus α := fun f =>
  zoom (·.ip) (fun ip f => { f with ip }) (act f.space) f

/-- An action that changes nothing but the pointer and does not ask for the shared state. -/
def Inward (act : Act Focus α) : Prop :=
  ∃ own, act = onIp own

theorem inward_pure
    (a : α) :
    Inward (pure a) :=
  ⟨fun _ => pure a, rfl⟩

theorem inward_bind
    {act : Act Focus α} {next : α → Act Focus β}
    (hact : Inward act)
    (hnext : ∀ a, Inward (next a)) :
    Inward (act >>= next) := by
  obtain ⟨own, rfl⟩ := hact
  choose own' hnext using hnext
  refine ⟨fun space => own space >>= fun a => own' a space, ?_⟩
  funext f
  cases hown : own f.space f.ip with
  | error fault ip =>
      have hfirst : onIp own f = .error fault { f with ip } := by
        simp [onIp, zoom, hown]
      rw [bind_error hfirst]
      simp [onIp, zoom, bind_error hown]
  | ok a ip =>
      have hfirst : onIp own f = .ok a { f with ip } := by
        simp [onIp, zoom, hown]
      rw [bind_ok hfirst, hnext a]
      simp only [onIp, zoom, bind_ok hown]

theorem inward_ite
    {act act' : Act Focus α}
    (c : Prop) [Decidable c]
    (h : Inward act)
    (h' : Inward act') :
    Inward (if c then act else act') := by
  by_cases hc : c
  · simpa [hc] using h
  · simpa [hc] using h'

/-- A question about the pointer and the space. -/
theorem inward_ask
    (ask : Space UInt8 → Ip → Except Fault α) :
    Inward fun f => ofExcept (ask f.space f.ip) f := by
  refine ⟨fun space ip => ofExcept (ask space ip) ip, ?_⟩
  funext f
  simp only [onIp, zoom]
  cases ask f.space f.ip <;> rfl

theorem inward_change
    (change : Ip → Ip) :
    Inward (modify fun f => { f with ip := change f.ip }) :=
  ⟨fun _ => modify change, rfl⟩

theorem inward_onState
    (act : Act Bag α) :
    Inward (onState act) := by
  refine ⟨fun _ => zoom (·.state) (fun state ip => { ip with state }) act, ?_⟩
  funext f
  simp only [onIp, onState, zoom]
  cases act f.ip.state <;> rfl

theorem inward_skip :
    Inward skip := by
  refine ⟨fun space => do
    let ip ← get
    let position ← Act.ofExcept (space.move ip.position ip.direction)
    set { ip with position }, ?_⟩
  funext f
  simp only [onIp, skip, zoom, get_bind]
  cases f.space.move f.ip.position f.ip.direction <;> rfl

theorem inward_turn
    (direction : Direction) :
    Inward (turn direction) :=
  inward_change fun ip => { ip with direction }

theorem inward_closeString :
    Inward closeString :=
  inward_change fun ip => { ip with state := ip.state.insert stringModeKey false }

theorem inward_branch
    (zero nonzero : Direction) :
    Inward (branch zero nonzero) := by
  refine inward_bind (inward_onState _) ?_
  intro value
  exact inward_turn _

theorem inward_fetch :
    Inward fetch := by
  rw [fetch_eq]
  refine inward_bind (inward_onState _) ?_
  rintro ⟨x, y⟩
  refine inward_bind (inward_ask fun space _ => space.read (address x y)) ?_
  intro cell
  exact inward_onState _

/-- All other commands keep to the pointer that executes them. -/
theorem inward_effect
    {command : Command}
    (h : command ∉ outward) :
    Inward (effect command) := by
  cases command with
  | push _ | add | subtract | multiply | divide _ | not | greater | stringMode
  | duplicate | swap | discard =>
      exact inward_onState _
  | go direction =>
      exact inward_turn direction
  | random =>
      refine inward_bind (inward_onState _) ?_
      intro choice
      exact inward_turn _
  | horizontalIf | verticalIf =>
      exact inward_branch _ _
  | bridge =>
      exact inward_skip
  | get =>
      exact inward_fetch
  | nop =>
      exact inward_pure ()
  | outputNumber | outputChar | put | inputNumber | inputChar | halt =>
      simp [outward] at h

end Inward

section Walking

variable {space : Space UInt8} {ip : Ip}

/-- A pointer that is not about to execute an outward command. -/
def Quiet (space : Space UInt8) (ip : Ip) : Prop :=
  ∀ cell,
    space.read ip.position = .ok cell →
    ip.state.get stringModeKey = .ok false →
    Command.decode cell ∉ outward

/-- A stride in which outward commands do nothing. -/
def stroll : Act Focus Unit := do
  let cell ← underfoot
  if ← inString then
    gather cell
    skip
  else if Command.decode cell ∈ outward then
    return ()
  else
    effect (Command.decode cell)
    skip

theorem inward_stroll :
    Inward stroll := by
  refine inward_bind (inward_ask fun space ip => space.read ip.position) ?_
  intro cell
  refine inward_bind (inward_ask fun _ ip => ip.state.get stringModeKey) ?_
  intro mode
  refine inward_ite _ (inward_bind ?_ fun _ => inward_skip) ?_
  · exact inward_ite _ inward_closeString (inward_onState _)
  · by_cases houtward : Command.decode cell ∈ outward
    · simpa [houtward] using inward_pure ()
    · simpa [houtward] using inward_bind (inward_effect houtward) fun _ => inward_skip

theorem stride_eq_stroll
    {f : Focus}
    (h : Quiet f.space f.ip) :
    stride f = (stroll >>= fun _ => pure .proceed) f := by
  cases hread : f.space.read f.ip.position with
  | error fault =>
      have hstroll : stroll f = .error fault f := bind_error (underfoot_error hread)
      rw [bind_error hstroll]
      exact bind_error (underfoot_error hread)
  | ok cell =>
      simp only [stride, stroll, bind_assoc]
      rw [bind_ok (underfoot_ok hread), bind_ok (underfoot_ok hread)]
      cases hmode : f.ip.state.get stringModeKey with
      | error fault =>
          have hin : inString f = .error fault f := by
            simp [inString, hmode, Act.ofExcept]
          rw [bind_error hin, bind_error hin]
      | ok mode =>
          have hin : inString f = .ok mode f := by
            simp [inString, hmode, Act.ofExcept]
          rw [bind_ok hin, bind_ok hin]
          cases mode with
          | true =>
              simp
          | false =>
              -- The command is none of `outward`, and so not the one that halts.
              have hinward := h cell hread hmode
              have hhalt : Command.decode cell ≠ .halt := by
                intro hhalt
                simp [hhalt, outward] at hinward
              simp [hinward, hhalt]

/-- The pointer after a stride. -/
def walked (space : Space UInt8) (ip : Ip) : Ip :=
  match stride { ip, space, shared := .empty } with
  | .ok _ f => f.ip
  | .error _ f => f.ip

/-- A pointer whose next stride changes the pointer alone, whatever the shared state. -/
def Walks (space : Space UInt8) (ip : Ip) : Prop :=
  ∀ shared,
    stride { ip, space, shared } = .ok .proceed { ip := walked space ip, space, shared }

/-- A quiet pointer keeps to itself, or fails in every company. -/
theorem Quiet.walks_or_fails
    (h : Quiet space ip) :
    Walks space ip ∨
      ∀ shared, ∃ fault f, stride { ip, space, shared } = .error fault f := by
  obtain ⟨own, hown⟩ := inward_stroll
  have hstride : ∀ shared,
      stride { ip, space, shared } =
        (onIp own >>= fun _ => pure .proceed) { ip, space, shared } := by
    intro shared
    rw [← hown]
    exact stride_eq_stroll (f := { ip, space, shared }) h
  cases hip : own space ip with
  | ok _ ip' =>
      have hok : ∀ shared,
          stride { ip, space, shared } = .ok .proceed { ip := ip', space, shared } := by
        intro shared
        have hfirst :
            onIp own { ip, space, shared } = .ok () { ip := ip', space, shared } := by
          simp [onIp, zoom, hip]
        rw [hstride shared, bind_ok hfirst]
        rfl
      have hwalked : walked space ip = ip' := by
        simp [walked, hok]
      left
      intro shared
      rw [hwalked, hok shared]
  | error fault ip' =>
      right
      intro shared
      have hfirst :
          onIp own { ip, space, shared } = .error fault { ip := ip', space, shared } := by
        simp [onIp, zoom, hip]
      exact ⟨fault, _, by rw [hstride shared, bind_error hfirst]⟩

theorem Walks.id
    (h : Walks space ip) :
    (walked space ip).id = ip.id :=
  stride_id (h .empty)

/-- The pointer after `n` strides. -/
def wandered (space : Space UInt8) (n : Nat) (ip : Ip) : Ip :=
  (walked space)^[n] ip

theorem wandered_succ
    (space : Space UInt8) (n : Nat) (ip : Ip) :
    wandered space (n + 1) ip = walked space (wandered space n ip) :=
  Function.iterate_succ_apply' _ _ _

/-- A pointer whose next `n` strides change the pointer alone. -/
def Wanders (space : Space UInt8) (n : Nat) (ip : Ip) : Prop :=
  ∀ k < n, Walks space (wandered space k ip)

theorem Wanders.of_le
    {m n : Nat}
    (h : Wanders space n ip)
    (hm : m ≤ n) :
    Wanders space m ip :=
  fun k hk => h k (Nat.lt_of_lt_of_le hk hm)

theorem Wanders.id
    {n : Nat}
    (h : Wanders space n ip) :
    (wandered space n ip).id = ip.id := by
  induction n with
  | zero =>
      rfl
  | succ n ih =>
      rw [wandered_succ, (h n (Nat.lt_succ_self n)).id]
      exact ih (h.of_le (Nat.le_succ n))

end Walking

end Befunge

namespace Engine

open Act Befunge

section Executions

variable {C σ : Type}

/-- An engine in the course of a tick, and the place where its next visit goes. -/
inductive Underway
    (e : Engine C σ) :
    Nat →
      Engine C σ →
      Prop
  | opened
      {e₁ : Engine C σ}
      (h : openTick e = .ok () e₁) :
      Underway e 0 e₁
  | visited
      {index next : Nat} {ip : Ip} {e₁ e₂ : Engine C σ}
      (h : Underway e index e₁)
      (hip : e₁.machine.ips[index]? = some ip)
      (hvisit : visit index ip.id e₁ = .ok (.next next) e₂) :
      Underway e next e₂

/-- Whether some pointer executes a command in one of the first `n` ticks of a run: the pointer at
turn is out of string mode then, on a cell of the command. -/
def Executes (e : Engine UInt8 σ) (n : Nat) (command : Command) : Prop :=
  ∃ k < n, ∃ e₁ e₂ index ip cell,
    runFor k e = some (.ok .tickLimit e₁) ∧
    Underway e₁ index e₂ ∧
    e₂.machine.ips[index]? = some ip ∧
    e₂.machine.space.read ip.position = .ok cell ∧
    ip.state.get stringModeKey = .ok false ∧
    Command.decode cell = command

end Executions

variable {σ : Type} {e : Engine UInt8 σ}

section Visits

variable {ip : Ip} {done todo : List Ip}

theorem seat_self
    {index : Nat}
    (hip : e.machine.ips[index]? = some ip) :
    e.seat index { ip, space := e.machine.space, shared := e.machine.shared } = e := by
  obtain ⟨hlt, rfl⟩ := List.getElem?_eq_some_iff.1 hip
  simp [seat, Machine.seat]

/-- A visit of one of several pointers is a stride of it. -/
theorem visit_in_company
    (hlanguage : e.language = Befunge.language)
    (hobservers : e.observers = [])
    (hdistinct : e.machine.ids.Nodup)
    (hips : e.machine.ips = done ++ ip :: todo) :
    visit done.length ip.id e =
      match stride { ip, space := e.machine.space, shared := e.machine.shared } with
      | .error fault g =>
        .error fault ({ e with current := some ip.id }.seat done.length g)
      | .ok (.halt result) g =>
        .ok (.halted result) ({ e with current := none }.seat done.length g)
      | .ok .proceed g =>
        arrive done.length ip.id ({ e with current := some ip.id }.seat done.length g) := by
  let f : Focus := { ip, space := e.machine.space, shared := e.machine.shared }
  have hip : e.machine.ips[done.length]? = some ip := by
    simp [hips]
  have hseats : e.machine.Seats done.length f.ip.id :=
    ⟨hdistinct, by simp [Machine.ids, hip, f]⟩
  have hvisit :=
    visit_seated hlanguage hseats (hobservers ▸ silent_nil _) (hobservers ▸ silent_nil _)
  rwa [seat_self hip] at hvisit

/-- A pointer that walks is put back at its place, and the next visit goes to the pointer behind. -/
theorem visit_walks
    (hlanguage : e.language = Befunge.language)
    (hobservers : e.observers = [])
    (hdistinct : e.machine.ids.Nodup)
    (hips : e.machine.ips = done ++ ip :: todo)
    (hwalks : Walks e.machine.space ip) :
    visit done.length ip.id e =
      .ok (.next (done.length + 1))
        ({ e with current := some ip.id }.withIps
          (done ++ walked e.machine.space ip :: todo)) := by
  let g : Focus :=
    { ip := walked e.machine.space ip, space := e.machine.space, shared := e.machine.shared }
  let named : Engine UInt8 σ := { e with current := some ip.id }
  have hseats : e.machine.Seats done.length g.ip.id := by
    refine ⟨hdistinct, ?_⟩
    simp [Machine.ids, hips, hwalks.id, g]
  have hquiet :
      notify .afterMove (named.seat done.length g) = .ok () (named.seat done.length g) :=
    notify_silent (hobservers ▸ silent_nil _)
  have hindex := indexOf?_seat (e := named) hseats
  rw [show g.ip.id = ip.id from hwalks.id] at hindex
  have hset :
      e.machine.ips.set done.length (walked e.machine.space ip) =
        done ++ walked e.machine.space ip :: todo := by
    simp [hips]
  rw [visit_in_company hlanguage hobservers hdistinct hips, hwalks, ← hset]
  change arrive done.length ip.id (named.seat done.length g) = _
  unfold arrive
  rw [bind_ok hquiet, bind_ok hindex]
  rfl

theorem distinct_of_walks
    (hdistinct : e.machine.ids.Nodup)
    (hips : e.machine.ips = done ++ ip :: todo)
    (hwalks : Walks e.machine.space ip) :
    ((done ++ walked e.machine.space ip :: todo).map Ip.id).Nodup := by
  simpa [Machine.ids, hips, hwalks.id] using hdistinct

theorem visitsFrom_walks
    (hlanguage : e.language = Befunge.language)
    (hobservers : e.observers = [])
    (hdistinct : e.machine.ids.Nodup)
    (hips : e.machine.ips = done ++ todo)
    (hwalks : ∀ ip ∈ todo, Walks e.machine.space ip) :
    ∃ current,
      visitsFrom done.length e =
        some (.ok .proceed
          ({ e with current }.withIps (done ++ todo.map (walked e.machine.space)))) := by
  induction todo generalizing e done with
  | nil =>
      refine ⟨e.current, ?_⟩
      rw [visitsFrom_rest (by simp [hips]), List.map_nil, ← hips]
      rfl
  | cons ip todo ih =>
      have hfirst : Walks e.machine.space ip := hwalks ip List.mem_cons_self
      have hip : e.machine.ips[done.length]? = some ip := by
        simp [hips]
      let e₁ : Engine UInt8 σ :=
        { e with current := some ip.id }.withIps (done ++ walked e.machine.space ip :: todo)
      have hdistinct₁ : e₁.machine.ids.Nodup := distinct_of_walks hdistinct hips hfirst
      have hrest₁ : ∀ ip' ∈ todo, Walks e₁.machine.space ip' :=
        fun ip' hip' => hwalks ip' (List.mem_cons_of_mem ip hip')
      obtain ⟨current, hrest⟩ :=
        @ih e₁ (done ++ [walked e.machine.space ip]) hlanguage hobservers hdistinct₁
          (by simp [e₁, withIps]) hrest₁
      refine ⟨current, ?_⟩
      rw [visitsFrom_next hip (visit_walks hlanguage hobservers hdistinct hips hfirst)]
      simpa [e₁, withIps] using hrest

/-- Quiet pointers whose visits do not fail walk. -/
theorem walks_of_visitsFrom
    {e₀ : Engine UInt8 σ}
    (hlanguage : e.language = Befunge.language)
    (hobservers : e.observers = [])
    (hdistinct : e.machine.ids.Nodup)
    (hips : e.machine.ips = done ++ todo)
    (hunderway : Underway e₀ done.length e)
    (hquiet :
      ∀ index e₁ ip,
        Underway e₀ index e₁ →
        e₁.machine.ips[index]? = some ip →
        Quiet e₁.machine.space ip)
    (hfault : ∀ fault e', visitsFrom done.length e ≠ some (.error fault e')) :
    ∀ ip ∈ todo, Walks e.machine.space ip := by
  induction todo generalizing e done with
  | nil =>
      simp
  | cons ip todo ih =>
      have hip : e.machine.ips[done.length]? = some ip := by
        simp [hips]
      have hfirst : Walks e.machine.space ip := by
        rcases (hquiet _ e ip hunderway hip).walks_or_fails with hwalks | hfails
        · exact hwalks
        · -- A stride that fails whatever the shared state fails in this visit too.
          obtain ⟨fault, g, hstride⟩ := hfails e.machine.shared
          have hvisit := visit_in_company hlanguage hobservers hdistinct hips
          rw [hstride] at hvisit
          refine absurd ?_ (hfault fault ({ e with current := some ip.id }.seat done.length g))
          rw [visitsFrom, hip]
          simp only [hvisit]
      have hvisit := visit_walks hlanguage hobservers hdistinct hips hfirst
      let e₁ : Engine UInt8 σ :=
        { e with current := some ip.id }.withIps (done ++ walked e.machine.space ip :: todo)
      have hdistinct₁ : e₁.machine.ids.Nodup := distinct_of_walks hdistinct hips hfirst
      have hunderway₁ : Underway e₀ (done ++ [walked e.machine.space ip]).length e₁ := by
        simpa using hunderway.visited hip hvisit
      have hfault₁ :
          ∀ fault e',
            visitsFrom (done ++ [walked e.machine.space ip]).length e₁ ≠
              some (.error fault e') := by
        intro fault e'
        simpa [visitsFrom_next hip hvisit] using hfault fault e'
      have hrest : ∀ ip' ∈ todo, Walks e₁.machine.space ip' :=
        @ih e₁ (done ++ [walked e.machine.space ip]) hlanguage hobservers hdistinct₁
          (by simp [e₁, withIps]) hunderway₁ hfault₁
      intro ip' hip'
      rcases List.mem_cons.1 hip' with rfl | hmem
      · exact hfirst
      · exact hrest ip' hmem

end Visits

section Ticks

theorem openTick_unobserved
    (hobservers : e.observers = []) :
    openTick e = .ok () { e with ticks := e.ticks + 1 } :=
  notify_silent (e := { e with ticks := e.ticks + 1 }) (hobservers ▸ silent_nil _)

theorem tick_walks
    (hlanguage : e.language = Befunge.language)
    (hobservers : e.observers = [])
    (hdistinct : e.machine.ids.Nodup)
    (hwalks : ∀ ip ∈ e.machine.ips, Walks e.machine.space ip) :
    tick e =
      some (.ok .proceed
        ({ e with ticks := e.ticks + 1, current := none }.withIps
          (e.machine.ips.map (walked e.machine.space)))) := by
  obtain ⟨current, hvisits⟩ :=
    @visitsFrom_walks σ { e with ticks := e.ticks + 1 } [] e.machine.ips
      hlanguage hobservers hdistinct rfl hwalks
  rw [tick_of_visits (openTick_unobserved hobservers) hvisits]
  exact congrArg some (closeTick_silent (hobservers ▸ silent_nil _))

theorem walks_of_tick
    (hlanguage : e.language = Befunge.language)
    (hobservers : e.observers = [])
    (hdistinct : e.machine.ids.Nodup)
    (hquiet :
      ∀ index e₁ ip,
        Underway e index e₁ →
        e₁.machine.ips[index]? = some ip →
        Quiet e₁.machine.space ip)
    (hfault : ∀ fault e', tick e ≠ some (.error fault e')) :
    ∀ ip ∈ e.machine.ips, Walks e.machine.space ip := by
  have hopen := openTick_unobserved hobservers
  refine
    @walks_of_visitsFrom σ { e with ticks := e.ticks + 1 } [] e.machine.ips e
      hlanguage hobservers hdistinct rfl (.opened hopen) hquiet ?_
  intro fault e' hvisits
  refine hfault fault e' ?_
  change visits { e with ticks := e.ticks + 1 } = _ at hvisits
  simp only [tick, hopen, hvisits]

end Ticks

section Runs

variable {n : Nat}

/-- The engine after `n` ticks in which every pointer has walked. -/
def paced (e : Engine UInt8 σ) (n : Nat) : Engine UInt8 σ :=
  { e with ticks := e.ticks + n }.withIps
    (e.machine.ips.map (wandered e.machine.space n))

theorem distinct_paced
    (hdistinct : e.machine.ids.Nodup)
    (h : ∀ ip ∈ e.machine.ips, Wanders e.machine.space n ip) :
    (e.paced n).machine.ids.Nodup := by
  have hids : (e.paced n).machine.ids = e.machine.ids := by
    change (e.machine.ips.map _).map Ip.id = e.machine.ips.map Ip.id
    rw [List.map_map]
    refine List.map_congr_left ?_
    intro ip hip
    exact (h ip hip).id
  rw [hids]
  exact hdistinct

theorem walks_paced
    {m : Nat}
    (h : ∀ ip ∈ e.machine.ips, Wanders e.machine.space n ip)
    (hm : m < n) :
    ∀ ip ∈ (e.paced m).machine.ips, Walks e.machine.space ip := by
  intro ip hip
  obtain ⟨ip₀, hip₀, rfl⟩ := List.mem_map.1 hip
  exact h ip₀ hip₀ m hm

theorem tickWithin_walks
    (hlanguage : e.language = Befunge.language)
    (hobservers : e.observers = [])
    (hcurrent : e.current = none)
    (hdistinct : e.machine.ids.Nodup)
    (h : ∀ ip ∈ e.machine.ips, Wanders e.machine.space n ip) :
    tickWithin e n = some (.ok .tickLimit (e.paced n)) := by
  induction n with
  | zero =>
      have hips : e.machine.ips.map (wandered e.machine.space 0) = e.machine.ips :=
        List.map_id _
      rw [paced, hips]
      rfl
  | succ n ih =>
      have hfewer : ∀ ip ∈ e.machine.ips, Wanders e.machine.space n ip :=
        fun ip hip => (h ip hip).of_le (Nat.le_succ n)
      have htick :=
        tick_walks (e := e.paced n) hlanguage hobservers
          (distinct_paced hdistinct hfewer) (walks_paced h (Nat.lt_succ_self n))
      have hips :
          (e.paced n).machine.ips.map (walked e.machine.space) =
            e.machine.ips.map (wandered e.machine.space (n + 1)) := by
        simp [paced, withIps, wandered_succ, Function.comp_def]
      have hnext :
          { e.paced n with ticks := (e.paced n).ticks + 1, current := none }.withIps
              ((e.paced n).machine.ips.map (walked e.machine.space)) =
            e.paced (n + 1) := by
        rw [hips, ← hcurrent]
        rfl
      rw [tickWithin_add, ih hfewer]
      change tickWithin (e.paced n) 1 = _
      rw [tickWithin, htick]
      exact congrArg (fun e => some (EStateM.Result.ok RunOutcome.tickLimit e)) hnext

/-- Pointers that are quiet whenever it is their turn, in a run without fault, wander. -/
theorem wanders_of_quiet
    (hlanguage : e.language = Befunge.language)
    (hobservers : e.observers = [])
    (hcurrent : e.current = none)
    (hdistinct : e.machine.ids.Nodup)
    (hquiet :
      ∀ k < n, ∀ e₁ index e₂ ip,
        tickWithin e k = some (.ok .tickLimit e₁) →
        Underway e₁ index e₂ →
        e₂.machine.ips[index]? = some ip →
        Quiet e₂.machine.space ip)
    (hfault : ∀ fault e', tickWithin e n ≠ some (.error fault e')) :
    ∀ ip ∈ e.machine.ips, Wanders e.machine.space n ip := by
  -- The pointers wander up to tick `k` together, so that the run is known to get there.
  intro ip hip k hk
  induction k using Nat.strongRecOn generalizing ip with
  | ind k ih =>
      have hfewer : ∀ ip ∈ e.machine.ips, Wanders e.machine.space k ip :=
        fun ip hip j hj => ih j hj ip hip (Nat.lt_trans hj hk)
      have hrun := tickWithin_walks hlanguage hobservers hcurrent hdistinct hfewer
      have hfault' : ∀ fault e', tick (e.paced k) ≠ some (.error fault e') := by
        intro fault e' htick
        obtain ⟨rest, rfl⟩ : ∃ rest, n = k + (rest + 1) := ⟨n - k - 1, by omega⟩
        refine hfault fault e' ?_
        rw [tickWithin_add, hrun]
        change tickWithin (e.paced k) (rest + 1) = _
        rw [tickWithin, htick]
      exact
        walks_of_tick (e := e.paced k) hlanguage hobservers (distinct_paced hdistinct hfewer)
          (fun index e₂ ip => hquiet k hk (e.paced k) index e₂ ip hrun) hfault' _
          (List.mem_map_of_mem hip)

theorem runFor_assemble
    (machine : Machine UInt8) (memory : σ) (n : Nat) :
    runFor n (assemble machine Befunge.language memory) =
      tickWithin { assemble machine Befunge.language memory with launched := true } n := by
  have hlaunch :=
    launch_silent (e := assemble machine Befunge.language memory) (silent_nil .launch)
  unfold runFor
  rw [hlaunch]

theorem runFor_walks
    {space : Space UInt8} {ips : List Ip}
    (hdistinct : (ips.map Ip.id).Nodup)
    (h : ∀ ip ∈ ips, Wanders space n ip)
    (shared : Bag) (supply : Supply) (memory : σ) :
    ∃ e',
      runFor n (assemble { space, ips, shared, supply } Befunge.language memory) =
        some (.ok .tickLimit e') ∧
      e'.machine = { space, ips := ips.map (wandered space n), shared, supply } := by
  rw [runFor_assemble]
  exact ⟨_, tickWithin_walks rfl rfl rfl hdistinct h, rfl⟩

/-- In the course of a tick of walking pointers, those in front of the place have walked and the
others have not. -/
theorem Underway.walked
    {index : Nat} {e₁ : Engine UInt8 σ}
    (h : Underway e index e₁)
    (hlanguage : e.language = Befunge.language)
    (hobservers : e.observers = [])
    (hdistinct : e.machine.ids.Nodup)
    (hwalks : ∀ ip ∈ e.machine.ips, Walks e.machine.space ip) :
    ∃ past todo current,
      e.machine.ips = past ++ todo ∧
      index = past.length ∧
      e₁ = { e with ticks := e.ticks + 1, current }.withIps
        (past.map (Befunge.walked e.machine.space) ++ todo) := by
  induction h with
  | opened hopen =>
      rw [openTick_unobserved hobservers, EStateM.Result.ok.injEq] at hopen
      exact ⟨[], e.machine.ips, e.current, rfl, rfl, hopen.2.symm⟩
  | visited _ hip hvisit ih =>
      obtain ⟨past, todo, current, hips, rfl, rfl⟩ := ih
      cases todo with
      | nil =>
          simp [withIps] at hip
      | cons ip todo =>
          obtain rfl : ip = _ := by
            simpa [withIps] using hip
          have hpast : ∀ ip ∈ past, (Befunge.walked e.machine.space ip).id = ip.id :=
            fun ip hip => (hwalks ip (by simp [hips, hip])).id
          have hfirst : Walks e.machine.space ip := hwalks ip (by simp [hips])
          let e₁ : Engine UInt8 σ :=
            { e with ticks := e.ticks + 1, current }.withIps
              (past.map (Befunge.walked e.machine.space) ++ ip :: todo)
          have hdistinct₁ : e₁.machine.ids.Nodup := by
            have hids : (past.map (Befunge.walked e.machine.space)).map Ip.id = past.map Ip.id := by
              rw [List.map_map]
              exact List.map_congr_left hpast
            simpa [Machine.ids, e₁, withIps, hids, hips] using hdistinct
          have hnext := visit_walks (e := e₁) hlanguage hobservers hdistinct₁ rfl hfirst
          rw [List.length_map] at hnext
          rw [show visit past.length ip.id e₁ = _ from hnext, EStateM.Result.ok.injEq,
            Visit.next.injEq] at hvisit
          obtain ⟨rfl, rfl⟩ := hvisit
          exact ⟨past ++ [ip], todo, some ip.id, by simp [hips], by simp, by simp [e₁, withIps]⟩

/-- Pointers that wander and stay quiet execute no outward command in company either. -/
theorem not_executes_of_wanders
    {space : Space UInt8} {ips : List Ip} {shared : Bag} {supply : Supply} {memory : σ}
    (hdistinct : (ips.map Ip.id).Nodup)
    (hwanders : ∀ ip ∈ ips, Wanders space n ip)
    (hquiet : ∀ ip ∈ ips, ∀ k < n, Quiet space (wandered space k ip)) :
    ∀ command ∈ outward,
      ¬ Executes (assemble { space, ips, shared, supply } Befunge.language memory) n command := by
  rintro _ hmem ⟨k, hk, e₁, e₂, index, ip, cell, hrun, hunderway, hip, hread, hmode, rfl⟩
  let e : Engine UInt8 σ :=
    { assemble { space, ips, shared, supply } Befunge.language memory with launched := true }
  have hfewer : ∀ ip ∈ ips, Wanders space k ip :=
    fun ip hip => (hwanders ip hip).of_le (Nat.le_of_lt hk)
  have hpaced := tickWithin_walks (e := e) rfl rfl rfl hdistinct hfewer
  rw [runFor_assemble, hpaced, Option.some.injEq, EStateM.Result.ok.injEq] at hrun
  obtain ⟨_, rfl⟩ := hrun
  obtain ⟨past, todo, current, hips, rfl, rfl⟩ :=
    hunderway.walked rfl rfl (distinct_paced hdistinct hfewer) (walks_paced hwanders hk)
  have hlive : ip ∈ (e.paced k).machine.ips := by
    rw [hips]
    refine List.mem_append_right _ ?_
    cases todo with
    | nil =>
        simp [withIps] at hip
    | cons first todo =>
        obtain rfl : first = ip := by
          simpa [withIps] using hip
        exact List.mem_cons_self
  obtain ⟨ip₀, hip₀, rfl⟩ := List.mem_map.1 hlive
  exact hquiet ip₀ hip₀ k hk cell hread hmode hmem

/-- Pointers that do not communicate do not interfere.  If of several pointers, numbered differently
as those of one supply are, none executes an outward command in the first `n` ticks and none fails,
then each of them ends as it does alone, in the whole of its position, direction and state; and so
it does in whatever order they run. -/
theorem runFor_company
    {space : Space UInt8} {ips : List Ip} {shared : Bag} {supply : Supply} {memory : σ}
    (hdistinct : (ips.map Ip.id).Nodup)
    (n : Nat)
    (houtward :
      ∀ command ∈ outward,
        ¬ Executes (assemble { space, ips, shared, supply } Befunge.language memory) n command)
    (hfault :
      ∀ fault e',
        runFor n (assemble { space, ips, shared, supply } Befunge.language memory) ≠
          some (.error fault e')) :
    ∃ after : Ip → Ip,
      (∀ ip ∈ ips, ∀ (shared : Bag) (supply : Supply) (memory : σ), ∃ e',
        runFor n (assemble { space, ips := [ip], shared, supply } Befunge.language memory) =
          some (.ok .tickLimit e') ∧
        e'.machine = { space, ips := [after ip], shared, supply }) ∧
      ∀ ips' : List Ip, ips'.Perm ips → ∃ e',
        runFor n (assemble { space, ips := ips', shared, supply } Befunge.language memory) =
          some (.ok .tickLimit e') ∧
        e'.machine = { space, ips := ips'.map after, shared, supply } := by
  let e : Engine UInt8 σ := assemble { space, ips, shared, supply } Befunge.language memory
  have hquiet :
      ∀ k < n, ∀ e₁ index e₂ ip,
        tickWithin { e with launched := true } k = some (.ok .tickLimit e₁) →
        Underway e₁ index e₂ →
        e₂.machine.ips[index]? = some ip →
        Quiet e₂.machine.space ip := by
    intro k hk e₁ index e₂ ip hrun hunderway hip cell hread hmode hmem
    rw [← runFor_assemble] at hrun
    exact houtward _ hmem ⟨k, hk, e₁, e₂, index, ip, cell, hrun, hunderway, hip, hread, hmode, rfl⟩
  have hwanders : ∀ ip ∈ ips, Wanders space n ip := by
    refine wanders_of_quiet (e := { e with launched := true }) rfl rfl rfl hdistinct hquiet ?_
    rw [← runFor_assemble]
    exact hfault
  refine ⟨wandered space n, ?_, ?_⟩
  · intro ip hip shared supply memory
    have hsingle : ([ip].map Ip.id).Nodup := List.nodup_singleton _
    refine runFor_walks hsingle ?_ shared supply memory
    intro ip' hip'
    rw [List.mem_singleton.1 hip']
    exact hwanders ip hip
  · intro ips' hperm
    refine runFor_walks ?_ ?_ shared supply memory
    · rw [(hperm.map Ip.id).nodup_iff]
      exact hdistinct
    · intro ip hip
      exact hwanders ip (hperm.mem_iff.1 hip)

/-- A ring of two cells, a digit and a duplication. -/
def beat : Space UInt8 :=
  .ground (.torus { Torus.shortRing with cells := #[49, 58], size_cells := rfl })

/-- A pointer that executes what it meets. -/
def lead : Ip where
  id := 1
  position := .planar 0 0
  direction := .east
  state := (Bag.empty.insert stackKey []).insert stringModeKey false

/-- A pointer that collects what it meets, going the other way. -/
def answer : Ip where
  id := 2
  position := .planar 1 0
  direction := .west
  state := (Bag.empty.insert stackKey []).insert stringModeKey true

/-- Both of them. -/
def duet : List Ip := [lead, answer]

theorem wanders_duet :
    ∀ ip ∈ duet, Wanders beat 2 ip := by
  intro ip hip k hk
  simp only [duet, List.mem_cons, List.not_mem_nil, or_false] at hip
  rcases hip with rfl | rfl <;>
    match k, hk with
    | 0, _ => exact fun _ => rfl
    | 1, _ => exact fun _ => rfl

theorem quiet_duet :
    ∀ ip ∈ duet, ∀ k < 2, Quiet beat (wandered beat k ip) := by
  intro ip hip k hk cell hread hmode
  simp only [duet, List.mem_cons, List.not_mem_nil, or_false] at hip
  rcases hip with rfl | rfl
  · match k, hk with
    | 0, _ =>
        obtain rfl : (49 : UInt8) = cell := Except.ok.inj hread
        decide
    | 1, _ =>
        obtain rfl : (58 : UInt8) = cell := Except.ok.inj hread
        decide
  · match k, hk with
    | 0, _ =>
        have hstring : (Except.ok true : Except Fault Bool) = .ok false := hmode
        simp at hstring
    | 1, _ =>
        have hstring : (Except.ok true : Except Fault Bool) = .ok false := hmode
        simp at hstring

/-- An engine over the ring. -/
def playing (ips : List Ip) (shared : Bag) : Engine UInt8 Unit :=
  assemble { space := beat, ips, shared, supply := { dice := .loaded } } Befunge.language ()

/-- In two ticks the first pointer pushes one and duplicates it, and the second one pushes the codes
of both commands.  They do so side by side in either order, and alone. -/
theorem runFor_company_duet :
    (∀ command ∈ outward, ¬ Executes (playing duet .empty) 2 command) ∧
    ∃ lead' answer' : Ip,
      lead'.state.get stackKey = .ok [1, 1] ∧
      answer'.state.get stackKey = .ok [49, 58] ∧
      (∃ e',
        runFor 2 (playing [lead, answer] .empty) = some (.ok .tickLimit e') ∧
        e'.machine.ips = [lead', answer']) ∧
      (∃ e',
        runFor 2 (playing [answer, lead] .empty) = some (.ok .tickLimit e') ∧
        e'.machine.ips = [answer', lead']) ∧
      (∀ shared, ∃ e',
        runFor 2 (playing [lead] shared) = some (.ok .tickLimit e') ∧
        e'.machine.ips = [lead']) ∧
      ∀ shared, ∃ e',
        runFor 2 (playing [answer] shared) = some (.ok .tickLimit e') ∧
        e'.machine.ips = [answer'] := by
  have hdistinct : (duet.map Ip.id).Nodup := by
    decide
  have hinward : ∀ command ∈ outward, ¬ Executes (playing duet .empty) 2 command :=
    not_executes_of_wanders hdistinct wanders_duet quiet_duet
  obtain ⟨e₀, hrun₀, hmachine₀⟩ :=
    runFor_walks hdistinct wanders_duet .empty { dice := .loaded } ()
  have hfault : ∀ fault e', runFor 2 (playing duet .empty) ≠ some (.error fault e') := by
    intro fault e' hfault
    rw [show runFor 2 (playing duet .empty) = _ from hrun₀] at hfault
    simp at hfault
  obtain ⟨after, halone, horders⟩ := runFor_company hdistinct 2 hinward hfault
  obtain ⟨e₁, hrun₁, hmachine₁⟩ := horders duet (List.Perm.refl duet)
  obtain ⟨e₂, hrun₂, hmachine₂⟩ := horders [answer, lead] (List.Perm.swap lead answer [])
  obtain rfl : e₀ = e₁ := by
    simpa using hrun₀.symm.trans hrun₁
  -- The end of a pointer is where its own strides lead.
  have hafter : duet.map (wandered beat 2) = duet.map after :=
    congrArg Machine.ips (hmachine₀.symm.trans hmachine₁)
  have hlead : after lead = wandered beat 2 lead := (List.cons.inj hafter).1.symm
  have hanswer : after answer = wandered beat 2 answer :=
    (List.cons.inj (List.cons.inj hafter).2).1.symm
  refine
    ⟨hinward, after lead, after answer, by rw [hlead]; rfl, by rw [hanswer]; rfl,
      ⟨e₀, hrun₁, by rw [hmachine₁]; rfl⟩, ⟨e₂, hrun₂, by rw [hmachine₂]; rfl⟩, ?_, ?_⟩
  · intro shared
    obtain ⟨e', hrun, hmachine⟩ := halone lead (by simp [duet]) shared { dice := .loaded } ()
    exact ⟨e', hrun, by rw [hmachine]⟩
  · intro shared
    obtain ⟨e', hrun, hmachine⟩ := halone answer (by simp [duet]) shared { dice := .loaded } ()
    exact ⟨e', hrun, by rw [hmachine]⟩

end Runs

end Engine

end FungeTrace
