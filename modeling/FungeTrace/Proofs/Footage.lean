import FungeTrace.Proofs.Recording
import Mathlib

/-!
# Footage under budgets

A recording is bounded twice: by a number of ticks and by the memory for its snapshots.  Both bounds
only cut it short.

* More ticks add snapshots behind those of fewer ticks, as the first tick either ends the run
  whatever the budget, or is followed by the same ticks as in the larger budget.
* A limit keeps the longest start of the snapshots that fits in it.  The snapshot that does not fit
  ends the run with a fault, in whatever notification it was to be taken.

`record_cut_short` puts these together for every Befunge-93 engine as it was started.
-/

namespace FungeTrace

namespace Snapshot

variable {limit : Nat} {film kept : List Snapshot}

theorem costs_append
    {α : Type} (cost : α → Nat) (parts parts' : List α) :
    costs cost (parts ++ parts') = costs cost parts + costs cost parts' := by
  induction parts with
  | nil =>
      simp [costs]
  | cons part parts ih =>
      simp only [costs, List.cons_append, List.foldr_cons] at ih ⊢
      omega

/-- The longest start of a sequence of snapshots that fits in a limit. -/
structure Longest (limit : Nat) (film kept : List Snapshot) : Prop where
  start : kept <+: film
  fits : costs cost kept ≤ limit
  longest : ∀ other, other <+: film → costs cost other ≤ limit → other <+: kept

theorem longest_of_fits
    (hfits : costs cost film ≤ limit) :
    Longest limit film film where
  start := List.prefix_refl film
  fits := hfits
  longest _ hother _ := hother

theorem Longest.unique
    {kept' : List Snapshot}
    (h : Longest limit film kept)
    (h' : Longest limit film kept') :
    kept = kept' :=
  (h'.longest kept h.start h.fits).eq_of_length_le (h.longest kept' h'.start h'.fits).length_le

/-- Snapshots up to one that does not fit. -/
theorem longest_of_full
    {s : Snapshot} {rest : List Snapshot}
    (hfits : costs cost kept ≤ limit)
    (hfull : limit < costs cost kept + s.cost) :
    Longest limit (kept ++ s :: rest) kept where
  start := List.prefix_append kept (s :: rest)
  fits := hfits
  longest other hother hroom := by
    have hnext : kept ++ [s] <+: kept ++ s :: rest := ⟨rest, by simp⟩
    by_cases hlength : other.length ≤ kept.length
    · exact List.prefix_of_prefix_length_le hother (List.prefix_append _ _) hlength
    · -- A longer start contains the snapshot that does not fit.
      obtain ⟨tail, rfl⟩ : kept ++ [s] <+: other :=
        List.prefix_of_prefix_length_le hnext hother (by simp; omega)
      simp only [costs_append] at hroom
      have hs : costs cost [s] = s.cost := rfl
      omega

end Snapshot

namespace Engine

open Befunge

variable {e : Engine UInt8 History} {f g : Focus}
  {shape : Shape} {typed : Prop} {width height : Nat}

/-- The snapshots of fewer ticks are the first ones of more ticks. -/
theorem reel_le
    (hplane : shape.plane? = some (width, height))
    (he : Recording e)
    (hf : Sound shape typed f)
    (hm : Mirrors f g)
    {m n : Nat}
    (hle : m ≤ n) :
    ∃ short long,
      Reel e f g m short ∧
      Reel e f g n long ∧
      short <+: long := by
  induction m generalizing e f g n with
  | zero =>
      obtain ⟨long, hlong⟩ := tickWithin_recorded hplane he hf hm n
      exact ⟨[], long, reel_zero e f g, hlong, List.nil_prefix⟩
  | succ m ih =>
      obtain ⟨n, rfl⟩ : ∃ k, n = k + 1 := ⟨n - 1, by omega⟩
      rcases reel_succ hplane he hf hm with ⟨new, hreel⟩ | ⟨f₁, g₁, s, hf₁, hm₁, hreel⟩
      · exact ⟨new, new, hreel m, hreel n, List.prefix_refl new⟩
      · obtain ⟨short, long, hshort, hlong, hstart⟩ :=
          ih he.ticked hf₁ hm₁ (Nat.le_of_succ_le_succ hle)
        exact
          ⟨s :: short, s :: long, hreel m short hshort, hreel n long hlong,
            (List.prefix_cons_inj s).2 hstart⟩

end Engine

namespace Debugger

open Befunge Engine

variable {e : Engine UInt8 History} {n limit : Nat} {film : List Snapshot}
  {run : Nat × EStateM.Result Fault Focus (RunOutcome UInt8)}

/-- A recording for which there is room. -/
theorem record_of_fits
    (hreeled : Reeled (History.empty limit) 0 film run ((prepare e limit).runFor n))
    (hfilm : film ≠ [])
    (hfits : Snapshot.costs Snapshot.cost film ≤ limit) :
    ∃ d,
      record e limit n = some (.ok d) ∧
      d.snapshots = film.toArray ∧
      d.used = Snapshot.costs Snapshot.cost film ∧
      d.outcome = ending run := by
  obtain ⟨e', hrun, hmemory, hticks⟩ :=
    hreeled.fits (by simpa [History.empty] using hfits)
  rw [Nat.zero_add] at hticks
  obtain ⟨d, hd, hparts⟩ := ofHistory_kept limit hfilm (ending run)
  refine ⟨d, ?_, hparts⟩
  simp only [record, hrun, outcomeOf_ending hticks, hmemory, hd]

/-- A recording for which there is not enough room. -/
theorem record_of_full
    (hreeled : Reeled (History.empty limit) 0 film run ((prepare e limit).runFor n))
    (hfull : limit < Snapshot.costs Snapshot.cost film) :
    ∃ kept s rest,
      film = kept ++ s :: rest ∧
      Snapshot.costs Snapshot.cost kept ≤ limit ∧
      limit < Snapshot.costs Snapshot.cost kept + s.cost ∧
      record e limit n = some
        (ofHistory ((History.empty limit).extend kept)
          (.faulted
            (Fault.snapshotLimitExceeded
              (Snapshot.costs Snapshot.cost kept + s.cost) limit).message)) := by
  obtain ⟨kept, s, rest, e', hparts, hroom, hnext, hrun, hmemory⟩ :=
    hreeled.full (by simpa [History.empty] using hfull)
  have hused :
      ((History.empty limit).extend kept).used = Snapshot.costs Snapshot.cost kept :=
    Nat.zero_add _
  rw [hused] at hroom hnext hrun
  refine ⟨kept, s, rest, hparts, hroom, hnext, ?_⟩
  simp only [record, hrun, outcomeOf, hmemory]
  rfl

/-- What a recording of `n` ticks gives without a limit, which is what every large enough limit
gives. -/
def Unlimited (e : Engine UInt8 History) (n : Nat) (film : List Snapshot) (outcome : Outcome) :
    Prop :=
  ∃ enough, ∀ limit, enough ≤ limit →
    ∃ d,
      record e limit n = some (.ok d) ∧
      d.snapshots.toList = film ∧
      d.outcome = outcome

theorem Unlimited.unique
    {film' : List Snapshot} {outcome outcome' : Outcome}
    (h : Unlimited e n film outcome)
    (h' : Unlimited e n film' outcome') :
    film = film' := by
  obtain ⟨enough, hrecord⟩ := h
  obtain ⟨enough', hrecord'⟩ := h'
  obtain ⟨d, hd, rfl, _⟩ := hrecord (max enough enough') (Nat.le_max_left _ _)
  obtain ⟨d', hd', rfl, _⟩ := hrecord' (max enough enough') (Nat.le_max_right _ _)
  rw [hd, Option.some.injEq, Except.ok.injEq] at hd'
  rw [hd']

theorem unlimited_of_reeled
    (hreeled : ∀ limit, Reeled (History.empty limit) 0 film run ((prepare e limit).runFor n))
    (hfilm : film ≠ []) :
    Unlimited e n film (ending run) := by
  refine ⟨Snapshot.costs Snapshot.cost film, ?_⟩
  intro limit hfits
  obtain ⟨d, hd, hsnapshots, _, houtcome⟩ := record_of_fits (hreeled limit) hfilm hfits
  exact ⟨d, hd, by rw [hsnapshots], houtcome⟩

/-- What a limit leaves of a recording: the snapshots `kept` of all those in `film`, with their
memory, and the outcome without a limit unless one of them did not fit. -/
structure Leaves
    (limit : Nat) (film kept : List Snapshot) (outcome : Outcome) (d : Debugger) : Prop where
  snapshots : d.snapshots.toList = kept
  used : d.used = Snapshot.costs Snapshot.cost kept
  used_le : d.used ≤ limit
  whole : kept = film → d.outcome = outcome
  cut :
    kept ≠ film →
      d.outcome = .faulted
        (Fault.snapshotLimitExceeded
          (Snapshot.costs Snapshot.cost (film.take (kept.length + 1))) limit).message

theorem record_limited
    (hreeled : Reeled (History.empty limit) 0 film run ((prepare e limit).runFor n))
    (hfilm : film ≠ []) :
    ∃ kept,
      Snapshot.Longest limit film kept ∧
      (kept = [] → record e limit n = some (.error (.history .noSnapshots))) ∧
      (kept ≠ [] →
        ∃ d, record e limit n = some (.ok d) ∧ Leaves limit film kept (ending run) d) := by
  by_cases hfits : Snapshot.costs Snapshot.cost film ≤ limit
  · refine ⟨film, Snapshot.longest_of_fits hfits, fun hnil => absurd hnil hfilm, fun _ => ?_⟩
    obtain ⟨d, hd, hsnapshots, hused, houtcome⟩ := record_of_fits hreeled hfilm hfits
    exact
      ⟨d, hd, by rw [hsnapshots], hused, hused ▸ hfits, fun _ => houtcome,
        fun hne => absurd rfl hne⟩
  · obtain ⟨kept, s, rest, rfl, hroom, hnext, hrecord⟩ :=
      record_of_full hreeled (Nat.not_le.1 hfits)
    refine ⟨kept, Snapshot.longest_of_full hroom hnext, ?_, ?_⟩
    · rintro rfl
      exact hrecord
    · intro hkept
      have hcosts :
          Snapshot.costs Snapshot.cost ((kept ++ s :: rest).take (kept.length + 1)) =
            Snapshot.costs Snapshot.cost kept + s.cost := by
        rw [List.take_length_add_append, Snapshot.costs_append]
        rfl
      obtain ⟨d, hd, hsnapshots, hused, houtcome⟩ :=
        ofHistory_kept limit hkept
          (.faulted
            (Fault.snapshotLimitExceeded
              (Snapshot.costs Snapshot.cost kept + s.cost) limit).message)
      refine
        ⟨d, by rw [hrecord, hd], by rw [hsnapshots], hused, hused ▸ hroom, ?_, fun _ => ?_⟩
      · intro hwhole
        simp at hwhole
      · rw [houtcome, hcosts]

/-- The snapshots of a started engine for every number of ticks. -/
theorem exists_film
    {space : Space UInt8} {width height : Nat}
    (hplane : space.shape.plane? = some (width, height))
    (shared : Bag) (supply : Supply) (memory : History) :
    ∃ film : Nat → List Snapshot,
      (∀ n, film n ≠ []) ∧
      (∀ m n, m ≤ n → film m <+: film n) ∧
      ∀ n limit,
        Reeled (History.empty limit) 0 (film n) (strides n (opening space shared supply))
          ((prepare (fresh space shared supply memory) limit).runFor n) := by
  have hrecording : Recording (rolling space shared supply memory) :=
    ⟨rfl, rfl⟩
  have hsound := newIp_sound hplane (shared.insert outputKey (.writer {})) supply
  have hmirrors := mirrors_prepared (newIp space supply).1 space shared
  obtain ⟨s, _, hlaunch⟩ := launch_prepared hplane shared supply memory
  have hunlimited := fun n new hreel =>
    unlimited_of_reeled (hlaunch n new hreel) (List.cons_ne_nil s new)
  choose new hnew using tickWithin_recorded hplane hrecording hsound hmirrors
  refine ⟨fun n => s :: new n, fun n => List.cons_ne_nil s (new n), ?_,
    fun n => hlaunch n (new n) (hnew n)⟩
  intro m n hle
  -- The lists of `reel_le` need not be those chosen for `m` and `n`, but a recording has one only.
  obtain ⟨short, long, hshort, hlong, hfirst⟩ :=
    reel_le hplane hrecording hsound hmirrors hle
  have hm : s :: new m = s :: short :=
    (hunlimited m _ (hnew m)).unique (hunlimited m _ hshort)
  have hn : s :: new n = s :: long :=
    (hunlimited n _ (hnew n)).unique (hunlimited n _ hlong)
  change s :: new m <+: s :: new n
  rw [hm, hn]
  exact (List.prefix_cons_inj s).2 hfirst

/-- Budgets only cut a recording short.  More ticks add snapshots behind those of fewer ticks, and a
limit keeps the longest start of the snapshots that fits in it: all of them with the outcome of the
run, some of them with the fault of the first one that did not fit, or none, and then there is no
recording.  The memory in use is that of the snapshots that were kept. -/
theorem record_cut_short
    {space : Space UInt8} {shared : Bag} {supply : Supply} {memory : History}
    (hstart : start space Befunge.language shared supply memory = .ok e) :
    ∃ (film : Nat → List Snapshot) (outcome : Nat → Outcome),
      (∀ n, Unlimited e n (film n) (outcome n)) ∧
      (∀ m n, m ≤ n → film m <+: film n) ∧
      ∀ limit n, ∃ kept,
        Snapshot.Longest limit (film n) kept ∧
        (kept = [] → record e limit n = some (.error (.history .noSnapshots))) ∧
        (kept ≠ [] →
          ∃ d,
            record e limit n = some (.ok d) ∧
            Leaves limit (film n) kept (outcome n) d) := by
  have hsome := plane_of_start hstart
  obtain ⟨⟨width, height⟩, hplane⟩ := Option.isSome_iff_exists.1 hsome
  obtain rfl : fresh space shared supply memory = e :=
    Except.ok.inj ((start_of_plane hsome shared supply memory).symm.trans hstart)
  obtain ⟨film, hfilm, hgrows, hreeled⟩ := exists_film hplane shared supply memory
  refine ⟨film, fun n => ending (strides n (opening space shared supply)), ?_, hgrows, ?_⟩
  · intro n
    exact unlimited_of_reeled (hreeled n) (hfilm n)
  · intro limit n
    exact record_limited (hreeled n limit) (hfilm n)

section ShortRing

/-- What a limit leaves of a recording of which something is known. -/
theorem exists_leaves
    {β : Type} {b : β} {kept : List Snapshot} {outcome : Outcome}
    (view : Debugger → β)
    (hnone : kept = [] → record e limit n = some (.error (.history .noSnapshots)))
    (hsome : kept ≠ [] → ∃ d, record e limit n = some (.ok d) ∧ Leaves limit film kept outcome d)
    (hview : (record e limit n).map (Except.map view) = some (.ok b)) :
    ∃ d, record e limit n = some (.ok d) ∧ Leaves limit film kept outcome d ∧ view d = b := by
  have hkept : kept ≠ [] := by
    intro hnil
    rw [hnone hnil] at hview
    cases Option.some.inj hview
  obtain ⟨d, hd, hleaves⟩ := hsome hkept
  rw [hd] at hview
  exact ⟨d, hd, hleaves, Except.ok.inj (Option.some.inj hview)⟩

/-- The engine of a program that pushes a digit and halts. -/
def digitRing : Engine UInt8 History :=
  fresh (.ground (.torus Torus.shortRing)) .empty { dice := .loaded } (History.empty 0)

end ShortRing

/-- The program halts in its second tick.  Its three snapshots take 66, 70 and 70 bytes, so a limit
of 150 bytes keeps two of them, and one of 65 bytes none. -/
theorem record_cut_short_shortRing :
    start (.ground (.torus Torus.shortRing)) Befunge.language .empty { dice := .loaded }
      (History.empty 0) = .ok digitRing ∧
    ∃ (film : List Snapshot) (d : Debugger),
      Unlimited digitRing 5 film (.halted (some 0)) ∧
      film.map Snapshot.cost = [66, 70, 70] ∧
      record digitRing 150 5 = some (.ok d) ∧
      d.snapshots.toList = film.take 2 ∧
      d.used = 136 ∧
      d.outcome = .faulted (Fault.snapshotLimitExceeded 206 150).message ∧
      record digitRing 65 5 = some (.error (.history .noSnapshots)) := by
  have hstart :
      start (.ground (.torus Torus.shortRing)) Befunge.language .empty { dice := .loaded }
        (History.empty 0) = .ok digitRing :=
    start_of_plane rfl .empty { dice := .loaded } (History.empty 0)
  obtain ⟨film, outcome, hunlimited, _, hlimited⟩ := record_cut_short hstart
  obtain ⟨all, _, hnone, hsome⟩ := hlimited 206 5
  obtain ⟨whole, _, hwhole, hview⟩ :=
    exists_leaves (fun d => (d.outcome, d.snapshots.toList.map Snapshot.cost))
      (b := (.halted (some 0), [66, 70, 70])) hnone hsome (by cbv)
  obtain ⟨houtcome, hcosts⟩ := Prod.mk.inj hview
  -- With room for all of it the program halts, so nothing was cut off.
  have hall : all = film 5 := by
    by_contra hcut
    have hfault := hwhole.cut hcut
    rw [houtcome] at hfault
    contradiction
  have hhalted : outcome 5 = .halted (some 0) := by
    rw [← hwhole.whole hall, houtcome]
  rw [hwhole.snapshots, hall] at hcosts
  obtain ⟨s₀, _, hfilm, hfirst, hrest⟩ := List.map_eq_cons_iff.1 hcosts
  obtain ⟨s₁, _, rfl, hsecond, hrest⟩ := List.map_eq_cons_iff.1 hrest
  obtain ⟨s₂, _, rfl, hthird, hrest⟩ := List.map_eq_cons_iff.1 hrest
  obtain rfl := List.map_eq_nil_iff.1 hrest
  change film 5 = [s₀, s₁] ++ [s₂] at hfilm
  have hlongest : Snapshot.Longest 150 (film 5) [s₀, s₁] := by
    rw [hfilm]
    apply Snapshot.longest_of_full
    · simp [Snapshot.costs, hfirst, hsecond]
    · simp [Snapshot.costs, hfirst, hsecond, hthird]
  obtain ⟨kept, hkept, _, hsome⟩ := hlimited 150 5
  obtain rfl := hkept.unique hlongest
  obtain ⟨d, hd, hleaves⟩ := hsome (by simp)
  refine
    ⟨hstart, film 5, d, hhalted ▸ hunlimited 5, hcosts, hd, hleaves.snapshots.trans ?_,
      hleaves.used.trans ?_, (hleaves.cut ?_).trans ?_, rfl⟩
  · rw [hfilm]
    rfl
  · simp [Snapshot.costs, hfirst, hsecond]
  · simp [hfilm]
  · simp [hfilm, Snapshot.costs, hfirst, hsecond, hthird]

end Debugger

end FungeTrace
