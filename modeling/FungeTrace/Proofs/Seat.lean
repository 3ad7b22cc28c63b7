import FungeTrace.Proofs.LiveSequence
import FungeTrace.Proofs.Observation
import FungeTrace.Proofs.Stride

/-!
# Visits of a pointer among others

A visit looks its pointer up by number, before the operation and after it.  As long as the live
pointers have different numbers and the observers stay silent, these look-ups always find the place
that the visit started from: a visit is a stride of the pointer, which is put back where it stood.
The pointers at other places are neither asked nor changed.

`visit_seated` says so for every place and on every way out of a visit; what remains is the
notification after the move.
-/

namespace FungeTrace

namespace Befunge

open Focus Act

theorem skip_keeps_id
    (id : Nat) :
    Agree (Diagonal fun f => f.ip.id = id) (fun _ => True) skip skip := by
  rintro f _ ⟨rfl, h⟩
  unfold skip
  cases f.space.move f.ip.position f.ip.direction with
  | ok position =>
      exact .ok () ⟨rfl, h⟩
  | error fault =>
      exact .error trivial ⟨rfl, h⟩

/-- No stride gives the pointer another number. -/
theorem respects_id
    (id : Nat) :
    Respects
      (Diagonal fun f => f.ip.id = id)
      (fun _ _ => True)
      (fun _ => True) where
  operate _ _ _ :=
    agree_zoom (fun _ _ _ h _ => h) (fun _ _ _ h _ => ⟨trivial, h⟩)
  choose :=
    agree_zoom (fun _ _ _ h _ => h) (fun _ _ _ h _ => ⟨trivial, h⟩)
  toggle :=
    agree_zoom (fun _ _ _ h _ => h) (fun _ _ _ h _ => ⟨trivial, h⟩)
  turn _ _ _ :=
    agree_change fun _ h => h
  bridge :=
    skip_keeps_id id
  look _ _ :=
    agree_ask fun _ _ _ _ => trivial
  mark x y cell := by
    rintro f _ ⟨rfl, h⟩
    unfold mark
    cases f.space.write (address x y) cell with
    | ok space =>
        exact .ok () ⟨rfl, h⟩
    | error fault =>
        exact .error trivial ⟨rfl, h⟩
  print _ _ _ _ _ :=
    agree_zoom (fun _ _ _ h _ => h) (fun _ _ _ h _ => ⟨trivial, h⟩)
  flush _ _ := by
    rintro f _ ⟨rfl, h⟩
    rcases flushOutput_cases f with
      ⟨_, hflush⟩ | ⟨_, _, ⟨_, _, hflush⟩ | ⟨_, hflush⟩⟩
    · rw [hflush]
      exact .ok () ⟨rfl, h⟩
    · rw [hflush]
      exact .ok () ⟨rfl, h⟩
    · rw [hflush]
      exact .error trivial ⟨rfl, h⟩
  input _ _ _ _ :=
    agree_zoom (fun _ _ _ h _ => h) (fun _ _ _ h _ => ⟨trivial, h⟩)
  widen _ _ _ := trivial
  underfoot :=
    agree_ask fun _ _ _ _ => trivial
  inString :=
    agree_ask fun _ _ _ _ => trivial
  closeString :=
    agree_change fun _ h => h
  move :=
    skip_keeps_id id

theorem underfoot_ok
    {f : Focus} {cell : UInt8}
    (h : f.space.read f.ip.position = .ok cell) :
    underfoot f = .ok cell f := by
  simp [underfoot, h, Act.ofExcept]

theorem underfoot_error
    {f : Focus} {fault : Fault}
    (h : f.space.read f.ip.position = .error fault) :
    underfoot f = .error fault f := by
  simp [underfoot, h, Act.ofExcept]

/-- A stride reacts to the cell underfoot and goes on from there. -/
theorem stride_of_skip
    {f g g' : Focus} {cell : UInt8}
    (hcell : f.space.read f.ip.position = .ok cell)
    (hreact : react cell f = .ok .proceed g)
    (hskip : skip g = .ok () g') :
    stride f = .ok .proceed g' := by
  rw [stride_eq_react, bind_ok (underfoot_ok hcell), bind_ok hreact]
  dsimp only
  rw [bind_ok hskip]
  rfl

theorem stride_of_halt
    {f g : Focus} {cell : UInt8} {result : Option UInt8}
    (hcell : f.space.read f.ip.position = .ok cell)
    (hreact : react cell f = .ok (.halt result) g) :
    stride f = .ok (.halt result) g := by
  rw [stride_eq_react, bind_ok (underfoot_ok hcell), bind_ok hreact]
  rfl

theorem stride_id
    {f g : Focus} {decision : Decision UInt8}
    (h : stride f = .ok decision g) :
    g.ip.id = f.ip.id :=
  diagonal_ok (stride_agree (respects_id f.ip.id)) rfl h

end Befunge

namespace Machine

open Befunge

variable {α : Type} {m : Machine UInt8} {index : Nat} {f : Focus}

/-- The machine with a pointer at a place, and with the space and shared state it stands in. -/
def seat (m : Machine UInt8) (index : Nat) (f : Focus) : Machine UInt8 :=
  { m with space := f.space, ips := m.ips.set index f.ip, shared := f.shared }

/-- What a machine reaches when the pointer at a place reaches a result. -/
def seated (m : Machine UInt8) (index : Nat) :
    EStateM.Result Fault Focus α → EStateM.Result Fault (Machine UInt8) α
  | .ok a f => .ok a (m.seat index f)
  | .error fault f => .error fault (m.seat index f)

/-- A machine whose pointers have different numbers, that of a place among them. -/
structure Seats (m : Machine UInt8) (index id : Nat) : Prop where
  distinct : m.ids.Nodup
  atPlace : m.ids[index]? = some id

theorem Seats.lt
    {id : Nat}
    (h : m.Seats index id) :
    index < m.ips.length := by
  obtain ⟨hlt, _⟩ := List.getElem?_eq_some_iff.1 h.atPlace
  simpa [ids] using hlt

theorem ids_seat
    (h : m.Seats index f.ip.id) :
    (m.seat index f).ids = m.ids := by
  obtain ⟨hlt, hid⟩ := List.getElem?_eq_some_iff.1 h.atPlace
  calc
    (m.seat index f).ids = m.ids.set index f.ip.id := List.map_set
    _ = m.ids := by rw [← hid, List.set_getElem_self]

theorem indexOf?_seat
    (h : m.Seats index f.ip.id) :
    (m.seat index f).indexOf? f.ip.id = some index := by
  refine indexOf?_of_getElem ?_ ?_
  · rw [ids_seat h]
    exact h.distinct
  · rw [ids_seat h]
    exact h.atPlace

theorem getElem_seat
    (h : m.Seats index f.ip.id) :
    (m.seat index f).ips[index]? = some f.ip := by
  simp [seat, h.lt]

theorem ip?_seat
    (h : m.Seats index f.ip.id) :
    (m.seat index f).ip? f.ip.id = some f.ip := by
  obtain ⟨hlt, _, hfirst⟩ :=
    List.findIdx?_eq_some_iff_getElem.1 (indexOf?_seat h)
  have hat : (m.seat index f).ips[index] = f.ip := by
    simp [seat]
  refine List.find?_eq_some_iff_getElem.2 ⟨by simp, index, hlt, hat, ?_⟩
  intro j hj
  simpa using hfirst j hj

theorem cellUnder?_seat
    (h : m.Seats index f.ip.id) :
    (m.seat index f).cellUnder? f.ip.id = some (f.space.read f.ip.position) := by
  unfold cellUnder?
  rw [ip?_seat h]
  rfl

theorem operation_seat
    (h : m.Seats index f.ip.id)
    (cell : UInt8) :
    Befunge.operation cell (some f.ip.id) (m.seat index f) =
      m.seated index (react cell f) := by
  unfold Befunge.operation
  rw [Option.bind_some, indexOf?_seat h]
  change onFocus index (react cell) (m.seat index f) = _
  have hreact :
      react cell
          { ip := f.ip, space := (m.seat index f).space, shared := (m.seat index f).shared } =
        react cell f :=
    rfl
  unfold onFocus
  simp only [getElem_seat h, hreact]
  cases react cell f with
  | ok decision g =>
      simp [seated, seat]
  | error fault g =>
      simp [seated, seat]

theorem advance_seat
    (h : m.Seats index f.ip.id) :
    advance f.ip.id (m.seat index f) =
      m.seated index ((Focus.skip >>= fun _ => pure true) f) := by
  unfold advance
  rw [ip?_seat h]
  have hspace : (m.seat index f).space = f.space := rfl
  cases hmove : f.space.move f.ip.position f.ip.direction with
  | ok position =>
      have hskip :
          Focus.skip f = .ok () { f with ip := { f.ip with position } } := by
        simp [Focus.skip, hmove]
      rw [Act.bind_ok hskip]
      simp only [hspace, hmove, modifyIp, indexOf?_seat h]
      simp [seated, seat, pure, EStateM.pure, List.modify_eq_set_getElem?, h.lt]
  | error fault =>
      have hskip : Focus.skip f = .error fault f := by
        simp [Focus.skip, hmove]
      rw [Act.bind_error hskip]
      simp only [hspace, hmove]
      rfl

section Places

variable {ip : Ip}

theorem left_seated
    (m : Machine UInt8) (index : Nat)
    (r : EStateM.Result Fault Focus α) :
    Act.left (m.seated index r) = m.seat index (Act.left r) := by
  cases r with
  | ok a f =>
      rfl
  | error fault f =>
      rfl

theorem onFocus_seated
    (act : Act Focus (Decision UInt8))
    (hip : m.ips[index]? = some ip) :
    onFocus index act m = m.seated index (act ⟨ip, m.space, m.shared⟩) := by
  unfold onFocus
  rw [hip]
  dsimp only
  cases act ⟨ip, m.space, m.shared⟩ with
  | ok decision f =>
      rfl
  | error fault f =>
      rfl

theorem seat_self
    (hip : m.ips[index]? = some ip) :
    m.seat index ⟨ip, m.space, m.shared⟩ = m := by
  obtain ⟨hlt, rfl⟩ := List.getElem?_eq_some_iff.1 hip
  simp [seat]

/-- A pointer that keeps its number keeps the numbers of its machine, distinct or not. -/
theorem ids_seat_of_id
    (hip : m.ips[index]? = some ip)
    (hid : f.ip.id = ip.id) :
    (m.seat index f).ids = m.ids := by
  have hat : m.ids[index]? = some ip.id := by
    simp [ids, hip]
  obtain ⟨hlt, hget⟩ := List.getElem?_eq_some_iff.1 hat
  calc
    (m.seat index f).ids = m.ids.set index f.ip.id := List.map_set
    _ = m.ids := by rw [hid, ← hget, List.set_getElem_self]

end Places

end Machine

namespace Engine

open Act Befunge

variable {σ α : Type} {e : Engine UInt8 σ} {index : Nat} {f : Focus}

/-- The engine with other live pointers. -/
def withIps (e : Engine UInt8 σ) (ips : List Ip) : Engine UInt8 σ :=
  { e with scene := { e.scene with machine := { e.machine with ips } } }

/-- The engine with a pointer at a place of its machine. -/
def seat (e : Engine UInt8 σ) (index : Nat) (f : Focus) : Engine UInt8 σ :=
  { e with scene := { e.scene with machine := e.machine.seat index f } }

/-- What an engine reaches when the pointer at a place reaches a result. -/
def seated (e : Engine UInt8 σ) (index : Nat) :
    EStateM.Result Fault Focus α → Reached UInt8 σ α
  | .ok a f => .ok a (e.seat index f)
  | .error fault f => .error fault (e.seat index f)

theorem onMachine_seat
    {act : Act (Machine UInt8) α} {r : EStateM.Result Fault Focus α}
    (h : act (e.machine.seat index f) = e.machine.seated index r) :
    onMachine act (e.seat index f) = e.seated index r := by
  unfold onMachine zoom
  have hmachine : (e.seat index f).machine = e.machine.seat index f := rfl
  rw [hmachine, h]
  cases r with
  | ok a g =>
      rfl
  | error fault g =>
      rfl

theorem indexOf?_seat
    (h : e.machine.Seats index f.ip.id) :
    indexOf? f.ip.id (e.seat index f) = .ok (some index) (e.seat index f) := by
  change EStateM.Result.ok ((e.machine.seat index f).indexOf? f.ip.id) _ = _
  rw [Machine.indexOf?_seat h]

/-- The end of a visit whose pointer has moved. -/
def arrive {C : Type} (index id : Nat) : Act (Engine C σ) (Visit C) := do
  notify .afterMove
  return .next (((← indexOf? id).map (· + 1)).getD index)

theorem depart_seated
    (hseats : e.machine.Seats index f.ip.id)
    (hafter : Silent e.observers .afterCommand) :
    depart index f.ip.id (e.seat index f) =
      match Focus.skip f with
      | .error fault g => .error fault (e.seat index g)
      | .ok _ g => arrive index f.ip.id (e.seat index g) := by
  have hquiet : notify .afterCommand (e.seat index f) = .ok () (e.seat index f) :=
    notify_silent hafter
  have hadvance := onMachine_seat (e := e) (Machine.advance_seat hseats)
  unfold depart
  rw [bind_ok hquiet]
  cases hskip : Focus.skip f with
  | error fault g =>
      rw [bind_error hskip] at hadvance
      rw [bind_error hadvance]
  | ok _ g =>
      rw [bind_ok hskip] at hadvance
      rw [bind_ok hadvance]
      rfl

theorem perform_seated
    (hlanguage : e.language = Befunge.language)
    (hcurrent : e.current = some f.ip.id)
    (hseats : e.machine.Seats index f.ip.id)
    (hafter : Silent e.observers .afterCommand)
    (cell : UInt8) :
    perform index f.ip.id cell (e.seat index f) =
      match react cell f with
      | .error fault g => .error fault (e.seat index g)
      | .ok (.halt result) g =>
        .ok (.halted result) ({ e with current := none }.seat index g)
      | .ok .proceed g =>
        match Focus.skip g with
        | .error fault g => .error fault (e.seat index g)
        | .ok _ g => arrive index f.ip.id (e.seat index g) := by
  have hoperation :
      onMachine (e.language.operation cell e.current) (e.seat index f) =
        e.seated index (react cell f) := by
    rw [hlanguage, hcurrent]
    exact onMachine_seat (Machine.operation_seat hseats cell)
  unfold perform
  rw [get_bind]
  change
    (onMachine (e.language.operation cell e.current) >>= _) (e.seat index f) = _
  cases hreact : react cell f with
  | error fault g =>
      rw [hreact] at hoperation
      rw [bind_error hoperation]
  | ok decision g =>
      rw [hreact] at hoperation
      rw [bind_ok hoperation]
      have hid : g.ip.id = f.ip.id :=
        diagonal_ok (react_agree (respects_id f.ip.id) cell) rfl hreact
      cases decision with
      | halt result =>
          rfl
      | proceed =>
          -- The pointer kept its number, so it is found where it stood.
          rw [← hid] at hseats ⊢
          change
            (indexOf? g.ip.id >>= fun place =>
              if place.isSome then depart index g.ip.id else pure (.next index))
                (e.seat index g) = _
          rw [bind_ok (indexOf?_seat hseats)]
          exact depart_seated hseats hafter

/-- A visit of the pointer at a place is a stride of it, up to the notification after the move. -/
theorem visit_seated
    (hlanguage : e.language = Befunge.language)
    (hseats : e.machine.Seats index f.ip.id)
    (hbefore : Silent e.observers .beforeCommand)
    (hafter : Silent e.observers .afterCommand) :
    visit index f.ip.id (e.seat index f) =
      match stride f with
      | .error fault g =>
        .error fault ({ e with current := some f.ip.id }.seat index g)
      | .ok (.halt result) g =>
        .ok (.halted result) ({ e with current := none }.seat index g)
      | .ok .proceed g =>
        arrive index f.ip.id ({ e with current := some f.ip.id }.seat index g) := by
  let named : Engine UInt8 σ := { e with current := some f.ip.id }
  have hset :
      setCurrent (some f.ip.id) (e.seat index f) = .ok () (named.seat index f) :=
    rfl
  have hquiet :
      notify .beforeCommand (named.seat index f) = .ok () (named.seat index f) :=
    notify_silent hbefore
  have hcell :
      (named.seat index f).machine.cellUnder? f.ip.id =
        some (f.space.read f.ip.position) :=
    Machine.cellUnder?_seat hseats
  unfold visit
  rw [bind_ok hset, bind_ok hquiet, bind_ok (indexOf?_seat (e := named) hseats)]
  dsimp only
  rw [get_bind, hcell, stride_eq_react]
  dsimp only
  cases hread : f.space.read f.ip.position with
  | error fault =>
      rw [bind_error (underfoot_error hread)]
      rfl
  | ok cell =>
      rw [bind_ok (underfoot_ok hread)]
      have hperform :=
        perform_seated (e := named) (f := f) hlanguage rfl hseats hafter cell
      change perform index f.ip.id cell (named.seat index f) = _
      rw [hperform]
      cases hreact : react cell f with
      | error fault g =>
          rw [bind_error hreact]
      | ok decision g =>
          rw [bind_ok hreact]
          cases decision with
          | halt result =>
              rfl
          | proceed =>
              dsimp only
              cases hskip : Focus.skip g with
              | error fault g =>
                  rw [bind_error hskip]
              | ok _ g =>
                  rw [bind_ok hskip]
                  rfl

end Engine

end FungeTrace
