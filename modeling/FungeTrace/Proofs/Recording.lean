import FungeTrace.Debug.Debugger
import FungeTrace.Proofs.Loading
import FungeTrace.Proofs.Mirror
import FungeTrace.Proofs.Rows
import FungeTrace.Proofs.Soundness

/-!
# Recorded runs

A recorder does not disturb the run that it records.  The recorded engine and a plain one, whose
output goes to a writer without limit, stay in lock step: their pointers mirror each other after
every tick, and every move adds one snapshot to the history that shows the plain engine as it stands
then.

`tick_recorded` says what one recorded tick can do, `tickWithin_recorded` what a whole run does, and
`record_loaded` puts them together for programs loaded from a source text.  Snapshots that do not fit
in memory end a recorded run; the statements say when, and how much memory is enough.
-/

namespace FungeTrace

namespace History

/-- The history with further snapshots, in the order they were taken. -/
def extend (h : History) (new : List Snapshot) : History :=
  { h with
    recent := new.reverse ++ h.recent
    used := h.used + Snapshot.costs Snapshot.cost new }

theorem push_eq
    (h : History) (s : Snapshot) :
    h.push s =
      if h.used + s.cost ≤ h.limit then .ok (h.extend [s])
      else .error (.snapshotLimitExceeded (h.used + s.cost) h.limit) := by
  rfl

theorem extend_cons
    (h : History) (s : Snapshot) (new : List Snapshot) :
    (h.extend [s]).extend new = h.extend (s :: new) := by
  simp [extend, Snapshot.costs, Nat.add_assoc]

end History

section Snapshots

open Befunge

/-- What a snapshot shows: the tick, the plane with all its cells, the only pointer with its stack and
its string mode, and the output written so far. -/
structure Shows (tick : Nat) (m : Machine UInt8) (s : Snapshot) : Prop where
  tick : s.tick = tick
  plane : m.space.shape.plane? = some (s.grid.width, s.grid.height)
  cells :
    ∀ x y, x < s.grid.width → y < s.grid.height →
      ∃ cell,
        m.space.read (.planar (Int64.ofNat x) (Int64.ofNat y)) = .ok cell ∧
        s.grid.cell? x y = some cell
  pointer :
    ∃ ip view,
      m.ips = [ip] ∧
      s.ips = [view] ∧
      view.id = ip.id ∧
      view.position = ip.position ∧
      view.direction = ip.direction ∧
      ip.state.get stackKey = .ok view.stack ∧
      ip.state.get stringModeKey = .ok view.stringMode
  output :
    ∃ w,
      m.shared.get outputKey = .ok (.writer w) ∧
      Spells w.bytes s.terminal.contents

variable {shape : Shape} {typed : Prop} {width height : Nat} {f g : Focus}

theorem get?_of_get
    {α : Type} [Storable α] {b : Bag} {key : Key α} {value : α}
    (h : b.get key = .ok value) :
    b.get? key = some value := by
  unfold Bag.get?
  rw [h]
  rfl

/-- What is captured of a pointer shows its mirror image. -/
theorem capture_mirrors
    (hplane : shape.plane? = some (width, height))
    (hf : Sound shape typed f)
    (hm : Mirrors f g)
    (event : Event) :
    ∃ s,
      (∀ m, Shows event.tick (Machine.withFocus m f) s) ∧
      ∀ m,
        Snapshot.capture event (Machine.withFocus m g)
          (Recorder.captured (Machine.withFocus m g)) = .ok s := by
  obtain ⟨w, t, tick, hwriter, rfl, hechoes⟩ := hm
  have hplane' : f.space.shape.plane? = some (width, height) := by
    rw [hf.shape]
    exact hplane
  obtain ⟨grid, hgrid, hwidth, hheight, _, hcells⟩ := Picture.ofSpace_of_plane hplane'
  obtain ⟨stack, hstack⟩ := hf.furnished.stack
  obtain ⟨mode, hmode⟩ := hf.furnished.stringMode
  refine
    ⟨{ tick := event.tick
       phase := event.phase
       current := event.ip
       grid
       ips := [IpView.ofIp f.ip]
       terminal := t }, ?_, ?_⟩
  · intro m
    exact {
      tick := rfl
      plane := by
        rw [hwidth, hheight]
        exact hplane'
      cells := by
        intro x y hx hy
        rw [hwidth] at hx
        rw [hheight] at hy
        obtain ⟨cell, hcell, hentry⟩ := hcells x y hx hy
        refine ⟨cell, hcell, ?_⟩
        rw [grid.cell?_of_inside (by rw [hwidth]; exact hx) (by rw [hheight]; exact hy), hwidth]
        exact hentry
      pointer :=
        ⟨f.ip, IpView.ofIp f.ip, rfl, rfl, rfl, rfl, rfl,
          by simp [IpView.ofIp, get?_of_get hstack, hstack],
          by simp [IpView.ofIp, get?_of_get hmode, hmode]⟩
      output := ⟨w, hwriter, hechoes.spells⟩ }
  · intro m
    have hcaptured :
        Recorder.captured (Machine.withFocus m
          { f with shared := f.shared.insert outputKey (.terminal t tick) }) = t := by
      simp [Recorder.captured, Machine.withFocus, Sink.captured]
    rw [hcaptured]
    simp [Snapshot.capture, Machine.withFocus, hgrid, bind, Except.bind, pure, Except.pure]

end Snapshots

namespace Recorder

open Engine

variable {event : Event}

theorem notifyAll_captured
    (hphase : captures event.phase = true)
    (scene : Scene UInt8 History) :
    Observer.notifyAll event [observer] scene = record event scene := by
  obtain ⟨phase, tick, current⟩ := event
  have hrecord : record ⟨phase, tick, current⟩ scene =
      (record ⟨phase, tick, current⟩ >>= fun _ => pure ()) scene := by
    cases h : record ⟨phase, tick, current⟩ scene with
    | ok _ scene' =>
        rw [Act.bind_ok h]
        rfl
    | error fault scene' =>
        rw [Act.bind_error h]
  rw [hrecord]
  cases phase with
  | launch =>
      rfl
  | afterMove =>
      rfl
  | halt =>
      rfl
  | _ =>
      contradiction

theorem silent_observer
    {phase : Phase}
    (h : phase = .beforeCommand ∨ phase = .afterCommand ∨ phase = .tickFinish) :
    Silent [observer] phase := by
  rintro ⟨_, tick, current⟩ rfl scene
  rcases h with rfl | rfl | rfl <;> rfl

theorem record_eq
    {m : Machine UInt8} {s : Snapshot}
    (hcapture : Snapshot.capture event m (captured m) = .ok s)
    (h : History) :
    record event { machine := m, memory := h } =
      if h.used + s.cost ≤ h.limit then
        .ok () { machine := m, memory := h.extend [s] }
      else
        .error (.snapshotLimitExceeded (h.used + s.cost) h.limit) { machine := m, memory := h } := by
  unfold record
  simp only [hcapture, History.push_eq]
  by_cases hfits : h.used + s.cost ≤ h.limit
  · simp only [if_pos hfits]
  · simp only [if_neg hfits]

theorem watching_observer :
    Watching [observer] .afterMove := by
  intro event hphase scene scene' h
  rw [notifyAll_captured (by rw [hphase]; rfl)] at h
  unfold record at h
  split at h
  · contradiction
  · split at h
    · contradiction
    · simp only [EStateM.Result.ok.injEq, true_and] at h
      rw [← h]

end Recorder

namespace Engine

open Befunge Act

/-- A Befunge-93 engine under recording. -/
structure Recording (e : Engine UInt8 History) : Prop where
  language : e.language = Befunge.language
  observers : e.observers = [Recorder.observer]

/-- The engine with another history. -/
def remember (e : Engine UInt8 History) (h : History) : Engine UInt8 History :=
  { e with scene := { e.scene with memory := h } }

variable {e : Engine UInt8 History} {f g : Focus}
  {shape : Shape} {typed : Prop} {width height : Nat}

/-- A notification that is captured adds a snapshot to the history, if there is room. -/
theorem notify_recorded
    {phase : Phase}
    (hplane : shape.plane? = some (width, height))
    (he : Recording e)
    (hf : Sound shape typed f)
    (hm : Mirrors f g)
    (hphase : Recorder.captures phase = true) :
    ∃ s,
      (∀ m, Shows e.ticks (Machine.withFocus m f) s) ∧
      ∀ h,
        notify phase ((e.remember h).withFocus g) =
          if h.used + s.cost ≤ h.limit then
            .ok () ((e.remember (h.extend [s])).withFocus g)
          else
            .error (.snapshotLimitExceeded (h.used + s.cost) h.limit)
              ((e.remember h).withFocus g) := by
  obtain ⟨s, hshows, hcapture⟩ :=
    capture_mirrors hplane hf hm { phase, tick := e.ticks, current := e.current }
  refine ⟨s, hshows, ?_⟩
  intro h
  have hobservers : ((e.remember h).withFocus g).observers = [Recorder.observer] :=
    he.observers
  have hscene :
      ((e.remember h).withFocus g).scene =
        { machine := e.machine.withFocus g, memory := h } :=
    rfl
  have hevent :
      ({ phase
         tick := ((e.remember h).withFocus g).ticks
         current := ((e.remember h).withFocus g).current } : Event) =
        { phase, tick := e.ticks, current := e.current } :=
    rfl
  have hrecord := Recorder.record_eq (hcapture e.machine) h
  unfold notify zoom
  rw [hobservers, Recorder.notifyAll_captured hphase, hscene, hevent, hrecord]
  by_cases hfits : h.used + s.cost ≤ h.limit
  · simp only [if_pos hfits]
    rfl
  · simp only [if_neg hfits]
    rfl

/-- A recorded tick opens with the output put down to it, which mirrors the same pointer. -/
theorem openTick_recorded
    (he : Recording e)
    (hm : Mirrors f g) :
    ∃ g',
      Mirrors f g' ∧
      ∀ h,
        openTick ((e.remember h).withFocus g) =
          .ok () (({ e with ticks := e.ticks + 1 }.remember h).withFocus g') := by
  obtain ⟨w, t, tick, hwriter, rfl, hechoes⟩ := hm
  refine
    ⟨{ f with shared := f.shared.insert outputKey (.terminal t (e.ticks + 1)) },
      ⟨w, t, e.ticks + 1, hwriter, rfl, hechoes⟩, ?_⟩
  intro h
  have hstamp :
      Recorder.stamp (e.ticks + 1)
          (e.machine.withFocus
            { f with shared := f.shared.insert outputKey (.terminal t tick) }) =
        e.machine.withFocus
          { f with shared := f.shared.insert outputKey (.terminal t (e.ticks + 1)) } := by
    simp [Recorder.stamp, Machine.withFocus, Sink.atTick, Bag.insert_insert]
  change notify .tickStart (({ e with ticks := e.ticks + 1 }.remember h).withFocus _) = _
  have hobservers :
      (({ e with ticks := e.ticks + 1 }.remember h).withFocus
        { f with shared := f.shared.insert outputKey (.terminal t tick) }).observers =
          [Recorder.observer] :=
    he.observers
  unfold notify zoom
  rw [hobservers]
  change
    EStateM.Result.ok ()
      { e with
        ticks := e.ticks + 1
        scene := {
          machine := Recorder.stamp (e.ticks + 1)
            (e.machine.withFocus
              { f with shared := f.shared.insert outputKey (.terminal t tick) })
          memory := h } } = _
  rw [hstamp]
  rfl

/-- The engine after a tick that ended without fault. -/
def ticked (e : Engine UInt8 History) : Engine UInt8 History :=
  { e with ticks := e.ticks + 1, current := none }

theorem Recording.ticked
    (he : Recording e) :
    Recording e.ticked :=
  ⟨he.language, he.observers⟩

/-- A recorded tick is the stride of the mirrored pointer.  It fails as the stride does, halts as
the stride does, or adds a snapshot of the pointer after its move if there is room. -/
theorem tick_recorded
    (hplane : shape.plane? = some (width, height))
    (he : Recording e)
    (hf : Sound shape typed f)
    (hm : Mirrors f g) :
    (∃ fault f₁,
      stride f = .error fault f₁ ∧
      ∀ h, ∃ e',
        tick ((e.remember h).withFocus g) = some (.error fault e') ∧
        e'.scene.memory = h ∧
        e'.ticks = e.ticks + 1) ∨
    (∃ result f₁ g₁,
      stride f = .ok (.halt result) f₁ ∧
      Mirrors f₁ g₁ ∧
      ∀ h,
        tick ((e.remember h).withFocus g) =
          some (.ok (.halt result) ((e.ticked.remember h).withFocus g₁))) ∨
    (∃ f₁ g₁ s,
      stride f = .ok .proceed f₁ ∧
      Mirrors f₁ g₁ ∧
      (∀ m, Shows (e.ticks + 1) (Machine.withFocus m f₁) s) ∧
      ∀ h,
        (h.used + s.cost ≤ h.limit →
          tick ((e.remember h).withFocus g) =
            some (.ok .proceed ((e.ticked.remember (h.extend [s])).withFocus g₁))) ∧
        (h.limit < h.used + s.cost →
          ∃ e',
            tick ((e.remember h).withFocus g) =
              some (.error (.snapshotLimitExceeded (h.used + s.cost) h.limit) e') ∧
            e'.scene.memory = h)) := by
  obtain ⟨g', hm', hopen⟩ := openTick_recorded he hm
  have htick : ∀ h : History, _ := fun h =>
    tick_lone (e := e.remember h) (f := g)
      he.language
      (he.observers ▸ Recorder.silent_observer (.inl rfl))
      (he.observers ▸ Recorder.silent_observer (.inr (.inl rfl)))
      (he.observers ▸ Recorder.watching_observer)
      (he.observers ▸ Recorder.silent_observer (.inr (.inr rfl)))
      (hopen h)
  have halike := stride_agree respects_mirrors f g' hm'
  generalize hstride : stride f = r at halike
  generalize hstride' : stride g' = r' at halike
  cases halike with
  | @error fault f₁ g₁ _ _ =>
      refine .inl ⟨fault, f₁, rfl, ?_⟩
      intro h
      rw [htick h, hstride']
      exact ⟨_, rfl, rfl, rfl⟩
  | @ok decision f₁ g₁ hm₁ =>
      cases decision with
      | halt result =>
          refine .inr (.inl ⟨result, f₁, g₁, rfl, hm₁, ?_⟩)
          intro h
          rw [htick h, hstride']
          rfl
      | proceed =>
          have hmoved : Recording { e with ticks := e.ticks + 1, current := some g'.ip.id } :=
            ⟨he.language, he.observers⟩
          obtain ⟨s, hshows, hpush⟩ :=
            notify_recorded hplane hmoved (stride_sound hplane hf hstride) hm₁
              (rfl : Recorder.captures .afterMove = true)
          have hnotify :
              ∀ h : History,
                notify .afterMove
                    ({ e.remember h with
                      ticks := (e.remember h).ticks + 1
                      current := some g'.ip.id }.withFocus g₁) = _ :=
            hpush
          refine .inr (.inr ⟨f₁, g₁, s, rfl, hm₁, hshows, ?_⟩)
          intro h
          rw [htick h, hstride']
          dsimp only
          rw [hnotify h]
          constructor
          · intro hfits
            rw [if_pos hfits]
            rfl
          · intro hfull
            rw [if_neg (by omega)]
            exact ⟨_, rfl, rfl⟩

/-- Halting adds a snapshot to the history, if there is room. -/
theorem finish_recorded
    (hplane : shape.plane? = some (width, height))
    (he : Recording e)
    (hf : Sound shape typed f)
    (hm : Mirrors f g)
    (result : Option UInt8) :
    ∃ s,
      (∀ m, Shows e.ticks (Machine.withFocus m f) s) ∧
      ∀ h,
        (h.used + s.cost ≤ h.limit →
          finish result ((e.remember h).withFocus g) =
            .ok result (({ e with halted := true }.remember (h.extend [s])).withFocus g)) ∧
        (h.limit < h.used + s.cost →
          ∃ e',
            finish result ((e.remember h).withFocus g) =
              .error (.snapshotLimitExceeded (h.used + s.cost) h.limit) e' ∧
            e'.scene.memory = h) := by
  have hhalted : Recording { e with halted := true } :=
    ⟨he.language, he.observers⟩
  obtain ⟨s, hshows, hnotify⟩ :=
    notify_recorded hplane hhalted hf hm (rfl : Recorder.captures .halt = true)
  refine ⟨s, hshows, ?_⟩
  intro h
  have hpush := hnotify h
  have hset :
      (modify fun e => { e with halted := true } : Act (Engine UInt8 History) Unit)
          ((e.remember h).withFocus g) =
        .ok () (({ e with halted := true }.remember h).withFocus g) :=
    rfl
  unfold finish
  rw [bind_ok hset]
  constructor
  · intro hfits
    rw [if_pos hfits] at hpush
    rw [bind_ok hpush]
    rfl
  · intro hfull
    rw [if_neg (by omega)] at hpush
    rw [bind_error hpush]
    exact ⟨_, rfl, rfl⟩

section Runs

/-- The outcome of a run of the only pointer, with the engine that it leaves. -/
def endsAs {α : Type} (e : Engine UInt8 History) :
    EStateM.Result Fault Focus α → Reached UInt8 History α
  | .ok a _ => .ok a e
  | .error fault _ => .error fault e

/-- The snapshots that `n` ticks from a pointer add: one for each tick that did not fail, which shows
the pointer after that many strides. -/
structure Filmed (tick : Nat) (f : Focus) (n : Nat) (new : List Snapshot) : Prop where
  size :
    match strides n f with
    | (k, .ok _ _) => new.length = k
    | (k, .error _ _) => new.length + 1 = k
  shows :
    ∀ k s, new[k]? = some s →
      ∃ outcome g,
        strides (k + 1) f = (k + 1, .ok outcome g) ∧
        ∀ m, Shows (tick + (k + 1)) (Machine.withFocus m g) s

/-- How a recorded run ends: with the outcome of the run itself and all snapshots if there is room
for them, and otherwise at the first snapshot for which there is none, with those before it. -/
structure Reeled
    (h : History) (tick : Nat) (new : List Snapshot)
    (run : Nat × EStateM.Result Fault Focus (RunOutcome UInt8))
    (r : Option (Reached UInt8 History (RunOutcome UInt8))) : Prop where
  fits :
    h.used + Snapshot.costs Snapshot.cost new ≤ h.limit →
      ∃ e' : Engine UInt8 History,
        r = some (e'.endsAs run.2) ∧
        e'.scene.memory = h.extend new ∧
        e'.ticks = tick + run.1
  full :
    h.limit < h.used + Snapshot.costs Snapshot.cost new →
      ∃ kept s rest e',
        new = kept ++ s :: rest ∧
        (h.extend kept).used ≤ h.limit ∧
        h.limit < (h.extend kept).used + s.cost ∧
        r = some
          (.error (.snapshotLimitExceeded ((h.extend kept).used + s.cost) h.limit) e') ∧
        e'.scene.memory = h.extend kept

section Reels

variable {tick n : Nat} {f₁ : Focus} {s : Snapshot} {new : List Snapshot} {h : History}
  {run : Nat × EStateM.Result Fault Focus (RunOutcome UInt8)}
  {r : Option (Reached UInt8 History (RunOutcome UInt8))}

theorem costs_cons :
    Snapshot.costs Snapshot.cost (s :: new) =
      s.cost + Snapshot.costs Snapshot.cost new := by
  rfl

/-- A run that adds no snapshot needs no room. -/
theorem Reeled.of_none
    {e' : Engine UInt8 History}
    (hroom : h.used ≤ h.limit)
    (hr : r = some (e'.endsAs run.2))
    (hmemory : e'.scene.memory = h)
    (hticks : e'.ticks = tick + run.1) :
    Reeled h tick [] run r where
  fits _ := ⟨e', hr, hmemory, hticks⟩
  full hfull := absurd hroom (Nat.not_le.2 hfull)

/-- A run that has no room for its first snapshot. -/
theorem Reeled.of_full
    {e' : Engine UInt8 History}
    (hroom : h.used ≤ h.limit)
    (hfull : h.limit < h.used + s.cost)
    (hr : r = some (.error (.snapshotLimitExceeded (h.used + s.cost) h.limit) e'))
    (hmemory : e'.scene.memory = h) :
    Reeled h tick (s :: new) run r where
  fits hfits := by
    rw [costs_cons] at hfits
    omega
  full _ := ⟨[], s, new, e', rfl, hroom, hfull, hr, hmemory⟩

/-- A run that goes on as another one after its first snapshot. -/
theorem Reeled.cons
    {tick' : Nat} {run' : Nat × EStateM.Result Fault Focus (RunOutcome UInt8)}
    (hreeled : Reeled (h.extend [s]) tick' new run' r)
    (hrun : run.2 = run'.2)
    (hticks : tick + run.1 = tick' + run'.1) :
    Reeled h tick (s :: new) run r where
  fits hfits := by
    rw [costs_cons, ← Nat.add_assoc] at hfits
    obtain ⟨e', hr, hmemory, he'⟩ := hreeled.fits hfits
    refine ⟨e', ?_, ?_, ?_⟩
    · rw [hrun]
      exact hr
    · rw [hmemory, History.extend_cons]
    · rw [he', hticks]
  full hfull := by
    rw [costs_cons, ← Nat.add_assoc] at hfull
    obtain ⟨kept, s', rest, e', rfl, hroom, hnext, hr, hmemory⟩ := hreeled.full hfull
    rw [History.extend_cons] at hroom hnext hr hmemory
    exact ⟨s :: kept, s', rest, e', rfl, hroom, hnext, hr, hmemory⟩

theorem Filmed.none_of_error
    {fault : Fault}
    (hstride : stride f = .error fault f₁) :
    Filmed tick f (n + 1) [] where
  size := by
    simp [strides, hstride]
  shows := by
    simp

theorem Filmed.single
    {result : Option UInt8}
    (hstride : stride f = .ok (.halt result) f₁)
    (hshows : ∀ m, Shows (tick + 1) (Machine.withFocus m f₁) s) :
    Filmed tick f (n + 1) [s] where
  size := by
    simp [strides, hstride]
  shows := by
    intro k s' hs'
    obtain ⟨rfl, rfl⟩ : k = 0 ∧ s = s' := by
      cases k with
      | zero =>
          simpa using hs'
      | succ k =>
          simp at hs'
    exact ⟨.halted result, f₁, by simp [strides, hstride], hshows⟩

theorem Filmed.cons
    (hstride : stride f = .ok .proceed f₁)
    (hshows : ∀ m, Shows (tick + 1) (Machine.withFocus m f₁) s)
    (h : Filmed (tick + 1) f₁ n new) :
    Filmed tick f (n + 1) (s :: new) where
  size := by
    have hsize := h.size
    unfold strides
    rw [hstride]
    dsimp only
    generalize strides n f₁ = run at hsize ⊢
    obtain ⟨k, r⟩ := run
    cases r with
    | ok outcome g =>
        simpa using hsize
    | error fault g =>
        simpa using hsize
  shows := by
    intro k s' hs'
    cases k with
    | zero =>
        simp only [List.getElem?_cons_zero, Option.some.injEq] at hs'
        subst hs'
        refine ⟨.tickLimit, f₁, ?_, hshows⟩
        simp [strides, hstride]
    | succ k =>
        obtain ⟨outcome, g, hstrides, hg⟩ := h.shows k s' (by simpa using hs')
        refine ⟨outcome, g, ?_, ?_⟩
        · unfold strides
          rw [hstride]
          dsimp only
          rw [hstrides]
        · intro m
          have htick : tick + (k + 1 + 1) = tick + 1 + (k + 1) := by
            omega
          rw [htick]
          exact hg m

end Reels

/-- The snapshots that `n` recorded ticks from a mirrored pointer add.  They depend neither on the
history nor on its limit. -/
structure Reel
    (e : Engine UInt8 History) (f g : Focus) (n : Nat) (new : List Snapshot) : Prop where
  filmed : Filmed e.ticks f n new
  reeled :
    ∀ h, h.used ≤ h.limit →
      Reeled h e.ticks new (strides n f) (tickWithin ((e.remember h).withFocus g) n)

theorem reel_zero
    (e : Engine UInt8 History) (f g : Focus) :
    Reel e f g 0 [] where
  filmed := ⟨rfl, by simp⟩
  reeled _ hroom := .of_none hroom rfl rfl rfl

/-- The first recorded tick either ends the run, whatever the budget, or adds one snapshot to those of
the ticks after it. -/
theorem reel_succ
    (hplane : shape.plane? = some (width, height))
    (he : Recording e)
    (hf : Sound shape typed f)
    (hm : Mirrors f g) :
    (∃ new, ∀ n, Reel e f g (n + 1) new) ∨
    ∃ f₁ g₁ s,
      Sound shape typed f₁ ∧
      Mirrors f₁ g₁ ∧
      ∀ n new, Reel e.ticked f₁ g₁ n new → Reel e f g (n + 1) (s :: new) := by
  rcases tick_recorded hplane he hf hm with
    ⟨fault, f₁, hstride, htick⟩ |
    ⟨result, f₁, g₁, hstride, hm₁, htick⟩ |
    ⟨f₁, g₁, s, hstride, hm₁, hshows, htick⟩
  · refine .inl ⟨[], fun n => ⟨.none_of_error hstride, ?_⟩⟩
    have hstrides : strides (n + 1) f = (1, .error fault f₁) := by
      simp [strides, hstride]
    intro h hroom
    obtain ⟨e', herror, hmemory, hticks⟩ := htick h
    unfold tickWithin
    rw [hstrides, herror]
    exact .of_none hroom rfl hmemory hticks
  · obtain ⟨s, hshows, hfinish⟩ :=
      finish_recorded hplane he.ticked (stride_sound hplane hf hstride) hm₁ result
    refine .inl ⟨[s], fun n => ⟨.single hstride hshows, ?_⟩⟩
    have hstrides : strides (n + 1) f = (1, .ok (.halted result) f₁) := by
      simp [strides, hstride]
    intro h hroom
    unfold tickWithin
    rw [hstrides, htick h]
    dsimp only
    by_cases hnext : h.used + s.cost ≤ h.limit
    · rw [(hfinish h).1 hnext]
      exact .cons (.of_none hnext rfl rfl rfl) rfl rfl
    · obtain ⟨e', herror, hmemory⟩ := (hfinish h).2 (Nat.not_le.1 hnext)
      rw [herror]
      exact .of_full hroom (Nat.not_le.1 hnext) rfl hmemory
  · refine .inr ⟨f₁, g₁, s, stride_sound hplane hf hstride, hm₁, ?_⟩
    intro n new hreel
    refine ⟨hreel.filmed.cons hstride hshows, ?_⟩
    have hstrides := strides_succ hstride n
    intro h hroom
    unfold tickWithin
    rw [hstrides]
    by_cases hnext : h.used + s.cost ≤ h.limit
    · rw [(htick h).1 hnext]
      refine .cons (hreel.reeled (h.extend [s]) hnext) rfl ?_
      change e.ticks + ((strides n f₁).1 + 1) = e.ticks + 1 + (strides n f₁).1
      omega
    · obtain ⟨e', herror, hmemory⟩ := (htick h).2 (Nat.not_le.1 hnext)
      rw [herror]
      exact .of_full hroom (Nat.not_le.1 hnext) rfl hmemory

theorem tickWithin_recorded
    (hplane : shape.plane? = some (width, height))
    (he : Recording e)
    (hf : Sound shape typed f)
    (hm : Mirrors f g)
    (n : Nat) :
    ∃ new, Reel e f g n new := by
  induction n generalizing e f g with
  | zero =>
      exact ⟨[], reel_zero e f g⟩
  | succ n ih =>
      rcases reel_succ hplane he hf hm with ⟨new, hreel⟩ | ⟨f₁, g₁, s, hf₁, hm₁, hreel⟩
      · exact ⟨new, hreel n⟩
      · obtain ⟨new, hrest⟩ := ih he.ticked hf₁ hm₁
        exact ⟨s :: new, hreel n new hrest⟩

/-- A recorded run of an engine that was not launched yet: the first snapshot shows the pointer as it
stands before the first tick, and those of the ticks follow it. -/
theorem runFor_recorded
    (hplane : shape.plane? = some (width, height))
    (he : Recording e)
    (hlaunched : e.launched = false)
    (hf : Sound shape typed f)
    (hm : Mirrors f g) :
    ∃ s,
      (∀ m, Shows e.ticks (Machine.withFocus m f) s) ∧
      ∀ n new, Reel { e with launched := true } f g n new →
        ∀ h, h.used ≤ h.limit →
          Reeled h e.ticks (s :: new) (strides n f) (runFor n ((e.remember h).withFocus g)) := by
  have hready : Recording { e with launched := true } :=
    ⟨he.language, he.observers⟩
  obtain ⟨s, hshows, hnotify⟩ :=
    notify_recorded hplane hready hf hm (rfl : Recorder.captures .launch = true)
  refine ⟨s, hshows, ?_⟩
  intro n new hreel h hroom
  have hlaunch :
      launch ((e.remember h).withFocus g) =
        notify .launch (({ e with launched := true }.remember h).withFocus g) := by
    change
      (if !e.launched then
        (do
          modify fun e => { e with launched := true }
          notify .launch)
      else pure () : Act (Engine UInt8 History) Unit) ((e.remember h).withFocus g) = _
    rw [hlaunched]
    rfl
  unfold runFor
  rw [hlaunch, hnotify h]
  by_cases hnext : h.used + s.cost ≤ h.limit
  · rw [if_pos hnext]
    exact .cons (hreel.reeled (h.extend [s]) hnext) rfl rfl
  · rw [if_neg hnext]
    exact .of_full hroom (Nat.not_le.1 hnext) rfl rfl

end Runs

end Engine

namespace Befunge

/-- A program is loaded into a plane. -/
theorem plane_of_load
    {source : String} {t : Torus UInt8}
    (h : load source = .ok t) :
    ∃ width height,
      (Space.ground (.torus t)).shape.plane? = some (width, height) := by
  unfold load Torus.ofRows Torus.plane at h
  dsimp only at h
  generalize max _ gridWidth = width at h
  generalize max _ gridHeight = height at h
  refine ⟨width, height, ?_⟩
  cases hextent : Extent.ofSizes [width, height] with
  | error fault =>
      rw [hextent] at h
      contradiction
  | ok extent =>
      rw [hextent] at h
      refine Space.plane?_eq_some_iff.2 ⟨t, rfl, ?_⟩
      rw [← Except.ok.inj h]
      exact Extent.sizes_of_ofSizes hextent

end Befunge

namespace Debugger

open Befunge Engine

/-- Whether there is room for every snapshot of `n` recorded ticks. -/
def Roomy (e : Engine UInt8 History) (limit n : Nat) : Prop :=
  ∀ used e',
    (prepare e limit).runFor n ≠ some (.error (.snapshotLimitExceeded used limit) e')

/-- A debugger takes over a history that is not empty. -/
theorem ofHistory_kept
    (limit : Nat) {kept : List Snapshot}
    (hkept : kept ≠ [])
    (outcome : Outcome) :
    ∃ d,
      ofHistory ((History.empty limit).extend kept) outcome = .ok d ∧
      d.snapshots = kept.toArray ∧
      d.used = Snapshot.costs Snapshot.cost kept ∧
      d.outcome = outcome := by
  have hsnapshots : ((History.empty limit).extend kept).snapshots = kept := by
    simp [History.snapshots, History.extend, History.empty]
  have hsize : 0 < kept.toArray.size := by
    simpa using List.length_pos_iff.2 hkept
  unfold ofHistory
  rw [hsnapshots]
  refine ⟨_, dif_pos hsize, rfl, ?_, rfl⟩
  exact Nat.zero_add _

theorem ofHistory_extend
    (limit : Nat) (s : Snapshot) (new : List Snapshot) (outcome : Outcome) :
    ∃ d,
      ofHistory ((History.empty limit).extend (s :: new)) outcome = .ok d ∧
      d.snapshots = (s :: new).toArray ∧
      d.outcome = outcome := by
  obtain ⟨d, hd, hsnapshots, _, houtcome⟩ :=
    ofHistory_kept limit (List.cons_ne_nil s new) outcome
  exact ⟨d, hd, hsnapshots, houtcome⟩

section Fresh

variable {space : Space UInt8} {width height : Nat}

/-- The engine that is recorded mirrors one that prints to a writer. -/
theorem mirrors_prepared
    (ip : Ip) (space : Space UInt8) (shared : Bag) :
    Mirrors
      { ip, space, shared := shared.insert outputKey (.writer {}) }
      { ip, space, shared := shared.insert outputKey (.terminal .empty 0) } := by
  refine ⟨{}, .empty, 0, Bag.get_insert_self _ _ _, ?_, rfl, rfl, ?_⟩
  · rw [Bag.insert_insert]
  · rw [Terminal.contents_empty]
    exact Spells.nil

/-- The pointer that a plain run starts with, its output going to a writer. -/
def opening (space : Space UInt8) (shared : Bag) (supply : Supply) : Focus :=
  { ip := (newIp space supply).1
    space
    shared := shared.insert outputKey (.writer {}) }

/-- The same pointer with its output going to a terminal. -/
def captured (space : Space UInt8) (shared : Bag) (supply : Supply) : Focus :=
  { ip := (newIp space supply).1
    space
    shared := shared.insert outputKey (.terminal .empty 0) }

/-- The engine that a recorded run starts with, once it is launched. -/
def rolling (space : Space UInt8) (shared : Bag) (supply : Supply) (memory : History) :
    Engine UInt8 History :=
  { fresh space shared supply memory with
    observers := [Recorder.observer]
    launched := true }

theorem launch_prepared
    (hplane : space.shape.plane? = some (width, height))
    (shared : Bag) (supply : Supply) (memory : History) :
    ∃ s,
      (∀ m, Shows 0 (Machine.withFocus m (opening space shared supply)) s) ∧
      ∀ n new,
        Reel (rolling space shared supply memory) (opening space shared supply)
          (captured space shared supply) n new →
        ∀ limit,
          Reeled (History.empty limit) 0 (s :: new) (strides n (opening space shared supply))
            ((prepare (fresh space shared supply memory) limit).runFor n) := by
  have hrecording :
      Recording { fresh space shared supply memory with observers := [Recorder.observer] } :=
    ⟨rfl, rfl⟩
  obtain ⟨s, hshows, hlaunch⟩ :=
    runFor_recorded hplane hrecording rfl (newIp_sound hplane _ supply)
      (mirrors_prepared (newIp space supply).1 space shared)
  refine ⟨s, hshows, ?_⟩
  intro n new hreel limit
  exact hlaunch n new hreel (History.empty limit) (Nat.zero_le limit)

theorem runFor_prepared
    (hplane : space.shape.plane? = some (width, height))
    (shared : Bag) (supply : Supply) (memory : History) (n : Nat) :
    ∃ s new,
      (∀ m, Shows 0 (Machine.withFocus m (opening space shared supply)) s) ∧
      Filmed 0 (opening space shared supply) n new ∧
      ∀ limit,
        Reeled (History.empty limit) 0 (s :: new) (strides n (opening space shared supply))
          ((prepare (fresh space shared supply memory) limit).runFor n) := by
  have hrecording : Recording (rolling space shared supply memory) :=
    ⟨rfl, rfl⟩
  obtain ⟨s, hshows, hlaunch⟩ := launch_prepared hplane shared supply memory
  obtain ⟨new, hreel⟩ :=
    tickWithin_recorded hplane hrecording (newIp_sound hplane _ supply)
      (mirrors_prepared (newIp space supply).1 space shared) n
  exact ⟨s, new, hshows, hreel.filmed, hlaunch n new hreel⟩

theorem roomy_of_enough
    {shared : Bag} {supply : Supply} {memory : History}
    {n limit : Nat} {new : List Snapshot}
    (hplane : space.shape.plane? = some (width, height))
    (hreeled :
      Reeled (History.empty limit) 0 new (strides n (opening space shared supply))
        ((prepare (fresh space shared supply memory) limit).runFor n))
    (henough : Snapshot.costs Snapshot.cost new ≤ limit) :
    Roomy (fresh space shared supply memory) limit n := by
  intro used e' hrun
  obtain ⟨e₁, hr, _, _⟩ := hreeled.fits (by simpa [History.empty] using henough)
  have hends := Option.some.inj (hr.symm.trans hrun)
  cases hstrides : (strides n (opening space shared supply)).2 with
  | ok outcome g =>
      rw [hstrides] at hends
      contradiction
  | error fault g =>
      rw [hstrides] at hends
      injection hends with hfault _
      obtain ⟨command, hfail⟩ :=
        strides_error hplane (newIp_sound hplane _ supply) (Prod.ext rfl hstrides)
      rw [hfault] at hfail
      rcases hfail with hraise | ⟨_, key, hkey⟩
      · exact hraise
      · contradiction

theorem fits_of_roomy
    {e : Engine UInt8 History} {n limit : Nat} {new : List Snapshot}
    {run : Nat × EStateM.Result Fault Focus (RunOutcome UInt8)}
    (hreeled : Reeled (History.empty limit) 0 new run ((prepare e limit).runFor n))
    (hroomy : Roomy e limit n) :
    ∃ e' : Engine UInt8 History,
      (prepare e limit).runFor n = some (e'.endsAs run.2) ∧
      e'.scene.memory = (History.empty limit).extend new ∧
      e'.ticks = run.1 := by
  have hroom :
      (History.empty limit).used + Snapshot.costs Snapshot.cost new ≤
        (History.empty limit).limit := by
    apply Nat.not_lt.1
    intro hfull
    obtain ⟨_, _, _, e', _, _, _, hrun, _⟩ := hreeled.full hfull
    exact hroomy _ e' hrun
  obtain ⟨e', hrun, hmemory, hticks⟩ := hreeled.fits hroom
  exact ⟨e', hrun, hmemory, by simpa using hticks⟩

/-- The snapshots of a recorded run, the first of them taken before the first tick, show the plain
run after as many ticks. -/
theorem shows_runFor
    {shared : Bag} {supply : Supply} {memory : History}
    {n k : Nat} {s₀ s : Snapshot} {new : List Snapshot}
    (hshows : ∀ m, Shows 0 (Machine.withFocus m (opening space shared supply)) s₀)
    (hfilmed : Filmed 0 (opening space shared supply) n new)
    (hs : (s₀ :: new)[k]? = some s) :
    ∃ outcome p',
      (fresh space (shared.insert outputKey (.writer {})) supply memory).runFor k =
        some (.ok outcome p') ∧
      Shows p'.ticks p'.machine s := by
  have hstrides :
      ∃ outcome g,
        strides k (opening space shared supply) = (k, .ok outcome g) ∧
        ∀ m, Shows k (Machine.withFocus m g) s := by
    cases k with
    | zero =>
        simp only [List.getElem?_cons_zero, Option.some.injEq] at hs
        subst hs
        exact ⟨.tickLimit, _, rfl, hshows⟩
    | succ k =>
        obtain ⟨outcome, g, hstrides, hg⟩ := hfilmed.shows k s (by simpa using hs)
        rw [Nat.zero_add] at hg
        exact ⟨outcome, g, hstrides, hg⟩
  obtain ⟨outcome, g, hstrides, hg⟩ := hstrides
  have hrun := runFor_fresh space (shared.insert outputKey (.writer {})) supply memory k
  change _ = some (Engine.ran _ (strides k (opening space shared supply))) at hrun
  rw [hstrides] at hrun
  obtain ⟨p', hran, hticks, hmachine⟩ :=
    ran_ok
      { fresh space (shared.insert outputKey (.writer {})) supply memory with launched := true }
      k outcome g
  rw [hran] at hrun
  refine ⟨outcome, p', hrun, ?_⟩
  rw [hticks, hmachine]
  change Shows (0 + k) _ s
  rw [Nat.zero_add]
  exact hg _

end Fresh

section Outcomes

variable {e p : Engine UInt8 History}
  {run : Nat × EStateM.Result Fault Focus (RunOutcome UInt8)}

/-- The outcome of a run of the only pointer. -/
def ending : Nat × EStateM.Result Fault Focus (RunOutcome UInt8) → Outcome
  | (_, .ok (.halted result) _) => .halted result
  | (k, .ok .tickLimit _) => .tickLimit k
  | (_, .error fault _) => .faulted fault.message

theorem outcomeOf_ending
    (hticks : e.ticks = run.1) :
    outcomeOf (e.endsAs run.2) = (ending run, e.scene.memory) := by
  obtain ⟨k, r⟩ := run
  cases r with
  | error fault f =>
      rfl
  | ok outcome f =>
      cases outcome with
      | halted result =>
          rfl
      | tickLimit =>
          simp only at hticks
          simp [endsAs, outcomeOf, ending, hticks]

/-- How a recording says that the plain run ended, and the number of its snapshots, the one before
the first tick included. -/
theorem ends_ran
    {f : Focus} {n : Nat} {new : List Snapshot} {d : Debugger}
    (hfresh : p.ticks = 0)
    (hfilmed : Filmed 0 f n new)
    (houtcome : d.outcome = ending (strides n f))
    (htotal : d.total = new.length + 1) :
    match p.ran (strides n f) with
    | .ok (.halted result) p' => d.outcome = .halted result ∧ d.total = p'.ticks + 1
    | .ok .tickLimit p' => d.outcome = .tickLimit p'.ticks ∧ d.total = p'.ticks + 1
    | .error fault p' => d.outcome = .faulted fault.message ∧ d.total = p'.ticks := by
  have hsize := hfilmed.size
  generalize strides n f = run at hsize houtcome ⊢
  obtain ⟨k, r⟩ := run
  have hticks : p.ticks + k = k := by
    rw [hfresh, Nat.zero_add]
  cases r with
  | error fault g =>
      refine ⟨houtcome, ?_⟩
      change d.total = p.ticks + k
      rw [hticks, htotal]
      exact hsize
  | ok outcome g =>
      have hcount : d.total = p.ticks + k + 1 := by
        rw [hticks, htotal]
        exact congrArg (· + 1) hsize
      cases outcome with
      | halted result =>
          exact ⟨houtcome, hcount⟩
      | tickLimit =>
          refine ⟨houtcome.trans ?_, hcount⟩
          exact congrArg Outcome.tickLimit hticks.symm

end Outcomes

/-- Recording a loaded program does not disturb it.  Given room for the snapshots, of which some
amount is enough, the debugger has the outcome of the plain run whose output goes to a writer: the
result that it halted with, the ticks that it came to, or the wording of its fault.  The snapshots
show that run tick by tick; there is one for each tick and one more, or one for each tick if the
last of them failed. -/
theorem record_loaded
    {source : String} {t : Torus UInt8}
    (hload : load source = .ok t)
    (shared : Bag) (supply : Supply) (memory : History) (n : Nat) :
    ∃ e p,
      start (.ground (.torus t)) Befunge.language shared supply memory = .ok e ∧
      start (.ground (.torus t)) Befunge.language
        (shared.insert outputKey (.writer {})) supply memory = .ok p ∧
      (∃ enough, ∀ limit, enough ≤ limit → Roomy e limit n) ∧
      ∀ limit, Roomy e limit n →
        ∃ d r,
          record e limit n = some (.ok d) ∧
          p.runFor n = some r ∧
          (match r with
            | .ok (.halted result) p' =>
              d.outcome = .halted result ∧ d.total = p'.ticks + 1
            | .ok .tickLimit p' => d.outcome = .tickLimit p'.ticks ∧ d.total = p'.ticks + 1
            | .error fault p' => d.outcome = .faulted fault.message ∧ d.total = p'.ticks) ∧
          ∀ k s, d.snapshots[k]? = some s →
            ∃ outcome p',
              p.runFor k = some (.ok outcome p') ∧
              Shows p'.ticks p'.machine s := by
  obtain ⟨width, height, hplane⟩ := plane_of_load hload
  have hsome : (Space.ground (.torus t)).shape.plane?.isSome := by
    rw [hplane]
    rfl
  obtain ⟨s₀, new, hshows, hfilmed, hreeled⟩ :=
    runFor_prepared hplane shared supply memory n
  refine
    ⟨_, _, start_of_plane hsome _ supply memory, start_of_plane hsome _ supply memory, ?_, ?_⟩
  · exact ⟨_, fun limit henough => roomy_of_enough hplane (hreeled limit) henough⟩
  · intro limit hroomy
    obtain ⟨e', hrun, hmemory, hticks⟩ := fits_of_roomy (hreeled limit) hroomy
    obtain ⟨d, hd, hsnapshots, houtcome⟩ :=
      ofHistory_extend limit s₀ new
        (ending (strides n (opening (.ground (.torus t)) shared supply)))
    refine ⟨d, _, ?_, runFor_fresh _ _ supply memory n, ?_, ?_⟩
    · simp only [record, hrun, outcomeOf_ending hticks, hmemory, hd]
    · refine ends_ran rfl hfilmed houtcome ?_
      rw [total, hsnapshots]
      simp
    · intro k s hs
      rw [hsnapshots] at hs
      exact shows_runFor hshows hfilmed (by simpa using hs)

section Digit

theorem load_digit :
    ∃ t,
      load "9,@" = .ok t ∧
      t.sizes = [80, 25] ∧
      ∀ x y, x < 80 → y < 25 →
        t.read (.planar (Int64.ofNat x) (Int64.ofNat y)) = .ok (byteAt [[57, 44, 64]] x y) := by
  have hlines : Lines.ofText "9,@" = [[57, 44, 64]] := by
    simp only [Lines.ofText, Utf8.encode_ofList]
    decide
  have hload : load "9,@" = Torus.plane 80 25 (byteAt [[57, 44, 64]]) := by
    rw [load_eq_plane, columns, rowCount, hlines]
    rfl
  obtain ⟨t, ht⟩ : ∃ t, Torus.plane 80 25 (byteAt [[57, 44, 64]]) = .ok t :=
    Torus.exists_plane (by decide) (by decide) (by decide) _
  exact
    ⟨t, hload.trans ht, (Torus.plane_ok ht).1, fun x y hx hy => Torus.read_of_plane ht hx hy⟩

/-- The pointer in column `x` of the first row, with another stack and other output. -/
def digitAt (t : Torus UInt8) (x : Int64) (stack : Stack) (written : List UInt8) : Focus :=
  let f := opening (.ground (.torus t)) .empty { dice := .loaded }
  { f with
    ip := { f.ip with position := .planar x 0, state := f.ip.state.insert stackKey stack }
    shared := f.shared.insert outputKey (.writer { recent := written }) }

/-- The program pushes nine, writes it as a byte and halts. -/
theorem strides_digit
    {t : Torus UInt8}
    (hsizes : t.sizes = [80, 25])
    (hread :
      ∀ x y, x < 80 → y < 25 →
        t.read (.planar (Int64.ofNat x) (Int64.ofNat y)) = .ok (byteAt [[57, 44, 64]] x y))
    (n : Nat) :
    strides (n + 3) (opening (.ground (.torus t)) .empty { dice := .loaded }) =
      (3, .ok (.halted (some 0)) (digitAt t 2 [] [9])) := by
  have hnine := hread 0 0 (by decide) (by decide)
  have hcomma := hread 1 0 (by decide) (by decide)
  have hstop := hread 2 0 (by decide) (by decide)
  obtain ⟨⟨sizes, ne_nil, bounds, hcount⟩, cells, hcells⟩ := t
  obtain rfl : sizes = [80, 25] := hsizes
  generalize ht :
    (⟨⟨[80, 25], ne_nil, bounds, hcount⟩, cells, hcells⟩ : Torus UInt8) = t at *
  have hpush :
      stride (opening (.ground (.torus t)) .empty { dice := .loaded }) =
        .ok .proceed (digitAt t 1 [9] []) := by
    subst ht
    exact stride_of_skip hnine rfl rfl
  have hwrite : stride (digitAt t 1 [9] []) = .ok .proceed (digitAt t 2 [] [9]) := by
    subst ht
    exact stride_of_skip hcomma rfl rfl
  have hhalt : stride (digitAt t 2 [] [9]) = .ok (.halt (some 0)) (digitAt t 2 [] [9]) := by
    subst ht
    exact stride_of_halt hstop rfl
  rw [strides_succ hpush, strides_succ hwrite, strides, hhalt]

/-- From the third tick on, the plain run has halted. -/
theorem runFor_digit
    {t : Torus UInt8} {p : Engine UInt8 History}
    (hload : load "9,@" = .ok t)
    (hstart :
      start (.ground (.torus t)) Befunge.language (Bag.empty.insert outputKey (.writer {}))
        { dice := .loaded } (History.empty 0) = .ok p)
    (n : Nat) :
    ∃ p',
      p.runFor (n + 3) = some (.ok (.halted (some 0)) p') ∧
      p'.ticks = 3 ∧
      p'.machine.shared.get outputKey = .ok (.writer { recent := [9] }) := by
  obtain ⟨t', ht', hsizes, hread⟩ := load_digit
  obtain rfl : t' = t := Except.ok.inj (ht'.symm.trans hload)
  obtain rfl := Except.ok.inj ((start_of_plane (plane_of_start hstart) _ _ _).symm.trans hstart)
  have hrun := runFor_fresh (.ground (.torus t')) (Bag.empty.insert outputKey (.writer {}))
    { dice := .loaded } (History.empty 0) (n + 3)
  change _ = some (Engine.ran _ (strides (n + 3) (opening (.ground (.torus t')) .empty _))) at hrun
  rw [strides_digit hsizes hread n] at hrun
  exact ⟨_, hrun, rfl, Bag.get_insert_self _ _ _⟩

end Digit

/-- The program halts in its third tick, so there are four snapshots.  The last one shows the byte
that was written. -/
theorem record_loaded_digit :
    ∃ t e p limit d p' s,
      load "9,@" = .ok t ∧
      start (.ground (.torus t)) Befunge.language .empty { dice := .loaded }
        (History.empty 0) = .ok e ∧
      start (.ground (.torus t)) Befunge.language
        (Bag.empty.insert outputKey (.writer {})) { dice := .loaded } (History.empty 0) = .ok p ∧
      Roomy e limit 5 ∧
      record e limit 5 = some (.ok d) ∧
      p.runFor 5 = some (.ok (.halted (some 0)) p') ∧
      p'.ticks = 3 ∧
      d.outcome = .halted (some 0) ∧
      d.total = 4 ∧
      d.snapshots[3]? = some s ∧
      s.tick = 3 ∧
      s.terminal.contents = "\t" := by
  obtain ⟨t, hload, _⟩ := load_digit
  obtain ⟨e, p, hstart, hplain, ⟨limit, henough⟩, hrecord⟩ :=
    record_loaded hload .empty { dice := .loaded } (History.empty 0) 5
  have hroomy := henough limit (Nat.le_refl limit)
  obtain ⟨d, r, hd, hr, hends, hshows⟩ := hrecord limit hroomy
  obtain ⟨p', hrun, hticks, _⟩ := runFor_digit hload hplain 2
  obtain rfl := Option.some.inj (hr.symm.trans hrun)
  obtain ⟨houtcome, htotal⟩ := hends
  rw [hticks] at htotal
  have hlast : 3 < d.snapshots.size := Nat.lt_of_lt_of_eq (Nat.lt_succ_self 3) htotal.symm
  obtain ⟨outcome, p₃, hrun₃, hshown⟩ := hshows 3 _ (Array.getElem?_eq_getElem hlast)
  obtain ⟨p₃', hrun₃', hticks₃, hwritten⟩ := runFor_digit hload hplain 0
  obtain ⟨rfl, rfl⟩ := EStateM.Result.ok.inj (Option.some.inj (hrun₃.symm.trans hrun₃'))
  obtain ⟨w, hw, hspells⟩ := hshown.output
  obtain rfl : w = { recent := [9] } := by
    simpa using hw.symm.trans hwritten
  refine
    ⟨t, e, p, limit, d, p', _, hload, hstart, hplain, hroomy, hd, hrun, hticks, houtcome, htotal,
      Array.getElem?_eq_getElem hlast, hshown.tick.trans hticks₃, ?_⟩
  exact String.toList_inj.1 hspells

end Debugger

end FungeTrace
