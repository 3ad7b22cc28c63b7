import FungeTrace.Proofs.Budget
import FungeTrace.Proofs.Succession

/-!
# Pointers that remove themselves

After a pointer has removed itself the tick goes on at the place it had before its operation.  The
waiting pointers begin there as long as the turn is level: whoever outlives it stays on the same
side of that place.

* `next_after_removal`: the tick goes on right behind the removed pointer exactly after level turns,
  and while turns are level nobody is passed over and nobody has a second turn.
* `unlevel_turns`: an operation that also removes a pointer in front makes the tick pass over one
  that waits, and an operation that places one in front makes it visit a pointer again.
-/

namespace FungeTrace

namespace Turn

variable {C : Type}

/-- A turn after which every surviving pointer stands on the same side of the place of the one at
turn. -/
def Level (t : Turn C) : Prop :=
  ∀ x ∈ t.before.ids, x ∈ t.after.ids →
    (x ∈ t.after.ids.take t.place ↔ x ∈ t.before.ids.take t.place)

instance (t : Turn C) : Decidable t.Level :=
  inferInstanceAs (Decidable (∀ x ∈ t.before.ids, x ∈ t.after.ids → (_ ↔ _)))

theorem next_of_gone
    {t : Turn C}
    (hgone : t.id ∉ t.after.ids) :
    t.next = t.place := by
  unfold next
  rw [Machine.indexOf?_eq_none_iff.2 hgone]
  rfl

end Turn

namespace Engine

open Act

variable {C σ : Type} {e e₀ e₁ e' : Engine C σ} {index next x : Nat} {t : Turn C}
  {turns : List (Turn C)}

section Stretches

/-- The turns that a tick has given so far, and where it goes on. -/
inductive Stretch (e₀ : Engine C σ) :
    List (Turn C) →
      Nat →
      Engine C σ →
      Prop
  | start :
      Stretch e₀ [] 0 e₀
  | turn
      {index next : Nat} {ip : Ip} {t : Turn C} {turns : List (Turn C)}
      {e e₁ : Engine C σ}
      (hstretch : Stretch e₀ turns index e)
      (hip : e.machine.ips[index]? = some ip)
      (hturn : e.turn? ip.id = some t)
      (hvisit : visit index ip.id e = .ok (.next next) e₁) :
      Stretch e₀ (turns ++ [t]) next e₁

theorem Stretch.visits_eq
    (h : Stretch e₀ turns index e) :
    visits e₀ = visitsFrom index e := by
  induction h with
  | start =>
      rfl
  | turn _ hip _ hvisit ih =>
      rw [ih, visitsFrom_next hip hvisit]

theorem Stretch.ready
    (he : Ready e₀)
    (h : Stretch e₀ turns index e) :
    Ready e ∧ e₀.machine.supply.nextId ≤ e.machine.supply.nextId := by
  induction h with
  | start =>
      exact ⟨he, Nat.le_refl _⟩
  | turn _ hip hturn hvisit ih =>
      have hpasses := passes_of_turn ih.1 hip hturn hvisit
      exact ⟨hpasses.ready, Nat.le_trans ih.2 hpasses.nextId_le⟩

theorem Stretch.last
    (he : Ready e₀)
    (h : Stretch e₀ (turns ++ [t]) next e') :
    ∃ index e, Ready e ∧ Stretch e₀ turns index e ∧ Passes e index t next e' := by
  generalize hall : turns ++ [t] = all at h
  cases h with
  | start =>
      simp at hall
  | turn hstretch hip hturn hvisit =>
      obtain ⟨rfl, hlast⟩ := List.append_inj' hall rfl
      obtain rfl : t = _ := List.singleton_inj.1 hlast
      obtain ⟨hready, _⟩ := hstretch.ready he
      exact ⟨_, _, hready, hstretch, passes_of_turn hready hip hturn hvisit⟩

end Stretches

section Sides

/-- Behind the place of a removed pointer stand the survivors among those that waited, if and only
if the turn is level. -/
theorem Passes.level_iff
    (he : Ready e)
    (h : Passes e index t next e')
    (hgone : t.id ∉ t.after.ids) :
    t.Level ↔
      ∀ x ∈ t.before.ids, x ∈ t.after.ids →
        (x ∈ t.after.ids.drop t.place ↔ x ∈ t.waiting) := by
  have hbefore : t.before.ids.Nodup := by
    rw [h.before]
    exact he.numbered.distinct
  have hafter : t.after.ids.Nodup := by
    rw [← h.after]
    exact h.ready.numbered.distinct
  have hat : t.before.ids[t.place]? = some t.id := by
    rw [h.before, h.place]
    exact h.atPlace
  refine forall₃_congr fun x hx hx' => ?_
  have hne : x ≠ t.id := by
    rintro rfl
    exact hgone hx'
  -- in either sequence a pointer other than the one at turn stands on exactly one side
  have hside' : x ∈ t.after.ids.drop t.place ↔ x ∉ t.after.ids.take t.place := by
    constructor
    · exact not_mem_take_of_mem_drop hafter
    · intro hnot
      rw [← List.take_append_drop t.place t.after.ids, List.mem_append] at hx'
      exact hx'.resolve_left hnot
  have hside : x ∈ t.waiting ↔ x ∉ t.before.ids.take t.place := by
    unfold Turn.waiting
    constructor
    · intro hdrop
      exact not_mem_take_of_mem_drop hbefore (List.mem_of_mem_drop (List.drop_drop ▸ hdrop))
    · intro hnot
      rw [cut_at hat, List.mem_append, List.mem_cons] at hx
      rcases hx with hfront | rfl | hwait
      · exact absurd hfront hnot
      · exact absurd rfl hne
      · exact hwait
  rw [hside', hside, not_iff_not]

/-- After a level turn, or one that its pointer outlives, the tick goes on in front of exactly those
survivors that stood behind the pointer at turn. -/
theorem Passes.mem_drop_iff_of_level
    (he : Ready e)
    (h : Passes e index t next e')
    (hlevel : t.id ∈ t.after.ids ∨ t.Level)
    (hx : x < t.before.supply.nextId)
    (hmem : x ∈ t.after.ids) :
    x ∈ e'.machine.ids.drop next ↔ x ∈ e.machine.ids.drop (index + 1) := by
  by_cases hlive : t.id ∈ t.after.ids
  · exact h.mem_drop_iff he (.inl hlive) hx hmem
  · have hnext : next = t.place := h.next.trans (Turn.next_of_gone hlive)
    have hbehind := (h.level_iff he hlive).1 (hlevel.resolve_left hlive)
    have hold : x ∈ t.before.ids := by
      rw [h.before]
      exact h.mem_of_mem_after hx hmem
    rw [hnext, h.after, hbehind x hold hmem, Turn.waiting, h.before, h.place]

end Sides

section Enumeration

/-- Whoever has had a turn is not waiting for another one. -/
theorem Stretch.not_mem_drop
    (he : Ready e₀)
    (h : Stretch e₀ turns index e)
    (hlevel : ∀ u ∈ turns, u.id ∈ u.after.ids ∨ u.Level) :
    ∀ u ∈ turns, u.id < e.machine.supply.nextId ∧ u.id ∉ e.machine.ids.drop index := by
  induction h with
  | start =>
      simp
  | @turn index next ip t turns e e₁ hstretch hip hturn hvisit ih =>
      obtain ⟨hready, _⟩ := hstretch.ready he
      have hpasses := passes_of_turn hready hip hturn hvisit
      have hearlier := ih fun u hu => hlevel u (List.mem_append_left _ hu)
      have hlast := hlevel t (by simp)
      -- whoever waits after the turn waited behind the pointer at turn
      have hback :
          ∀ x < e.machine.supply.nextId,
            x ∈ e₁.machine.ids.drop next → x ∈ e.machine.ids.drop (index + 1) := by
        intro x hx hdrop
        have hmem : x ∈ t.after.ids := by
          rw [← hpasses.after]
          exact List.mem_of_mem_drop hdrop
        exact
          (hpasses.mem_drop_iff_of_level hready hlast
            (Nat.lt_of_lt_of_le hx hpasses.drawn) hmem).1 hdrop
      intro u hu
      rcases List.mem_append.1 hu with hu | hu
      · obtain ⟨hlt, hnot⟩ := hearlier u hu
        refine ⟨Nat.lt_of_lt_of_le hlt hpasses.nextId_le, fun hdrop => hnot ?_⟩
        rw [hpasses.drop_eq]
        exact List.mem_cons_of_mem _ (hback _ hlt hdrop)
      · obtain rfl := List.mem_singleton.1 hu
        have hlt := hpasses.id_lt hready
        refine ⟨Nat.lt_of_lt_of_le hlt hpasses.nextId_le, fun hdrop => ?_⟩
        exact (not_mem_of_cut hready.numbered.distinct hpasses.atPlace).2 (hback _ hlt hdrop)

/-- Whoever is live since the beginning of the tick has had a turn or is waiting for it. -/
theorem Stretch.covered
    (he : Ready e₀)
    (h : Stretch e₀ turns index e)
    (hlevel : ∀ u ∈ turns, u.id ∈ u.after.ids ∨ u.Level)
    (hx : x ∈ e₀.machine.ids)
    (hx' : x ∈ e.machine.ids) :
    (∃ u ∈ turns, u.id = x) ∨ x ∈ e.machine.ids.drop index := by
  induction h with
  | start =>
      exact .inr hx
  | @turn index next ip t turns e e₁ hstretch hip hturn hvisit ih =>
      obtain ⟨hready, hgrown⟩ := hstretch.ready he
      have hpasses := passes_of_turn hready hip hturn hvisit
      have hdrawn : x < t.before.supply.nextId := by
        have hlt := he.numbered.drawn x hx
        have hle := hpasses.drawn
        omega
      rw [hpasses.after] at hx'
      have hold := hpasses.mem_of_mem_after hdrawn hx'
      rcases ih (fun u hu => hlevel u (List.mem_append_left _ hu)) hold with ⟨u, hu, hid⟩ | hdrop
      · exact .inl ⟨u, List.mem_append_left _ hu, hid⟩
      · rw [hpasses.drop_eq, List.mem_cons] at hdrop
        rcases hdrop with rfl | hdrop
        · exact .inl ⟨t, by simp, rfl⟩
        · exact
            .inr ((hpasses.mem_drop_iff_of_level hready (hlevel t (by simp)) hdrawn hx').2 hdrop)

/-- After a pointer has removed itself the tick goes on at the place it had.  From there on stand
exactly those survivors that waited behind it if and only if the turn is level; and if all turns so
far are level, or are outlived by their pointers, then nobody who had a turn is waiting for another,
and whoever is live since the beginning of the tick had a turn or is waiting for it. -/
theorem next_after_removal
    {opened : Engine C σ} {earlier : List (Turn C)}
    (hlanguage : Disciplined e.language)
    (hobservers : Unobtrusive e.observers)
    (hnumbered : e.machine.Numbered)
    (hopen : openTick e = .ok () opened)
    (hstretch : Stretch opened (earlier ++ [t]) index e')
    (hgone : t.id ∉ t.after.ids) :
    visits opened = visitsFrom t.place e' ∧
    e'.machine.ids = t.after.ids ∧
    (t.Level ↔
      ∀ x ∈ t.before.ids, x ∈ e'.machine.ids →
        (x ∈ e'.machine.ids.drop t.place ↔ x ∈ t.waiting)) ∧
    ((∀ u ∈ earlier ++ [t], u.id ∈ u.after.ids ∨ u.Level) →
      (∀ u ∈ earlier ++ [t], u.id ∉ e'.machine.ids.drop t.place) ∧
      ∀ x ∈ e.machine.ids, x ∈ e'.machine.ids →
        (∃ u ∈ earlier ++ [t], u.id = x) ∨ x ∈ e'.machine.ids.drop t.place) := by
  have he : Ready e := ⟨hlanguage, hobservers, hnumbered⟩
  have hkept := openTick_kept he hopen
  have hopened := hkept.ready he
  obtain ⟨index', e₁, hready, _, hpasses⟩ := hstretch.last hopened
  obtain rfl : index = t.place := hpasses.next.trans (Turn.next_of_gone hgone)
  refine ⟨hstretch.visits_eq, hpasses.after, ?_, ?_⟩
  · rw [hpasses.after]
    exact hpasses.level_iff hready hgone
  · intro hlevel
    refine ⟨fun u hu => (hstretch.not_mem_drop hopened hlevel u hu).2, ?_⟩
    intro x hx hx'
    rw [← hkept.ids] at hx
    exact hstretch.covered hopened hlevel hx hx'

end Enumeration

section Leaving

/-- A language in which pointers edit the live sequence and remove themselves on one cell, and do
nothing on all others. -/
def leaving (edit : Nat → Machine UInt8 → Machine UInt8) : Language UInt8 where
  name := "leaving"
  accepts _ := true
  operation cell current := fun m =>
    .ok .proceed
      (match current with
      | none => m
      | some id => if cell = 64 then ((edit id m).remove id).2 else m)
  populate := pure ()

/-- Removes the pointer in front. -/
def behead (m : Machine UInt8) : Machine UInt8 :=
  match m.ips with
  | [] => m
  | ip :: _ => (m.remove ip.id).2

theorem edited_behead
    (m : Machine UInt8) :
    Machine.Edited m (behead m) := by
  unfold behead
  split
  · exact edited_refl m
  · exact edited_remove m _

theorem disciplined_leaving
    {edit : Nat → Machine UInt8 → Machine UInt8}
    (hedit : ∀ id m, Machine.Edited m (edit id m)) :
    Disciplined (leaving edit) := by
  intro cell current m decision m' h
  injection h with _ hm'
  rw [← hm']
  cases current with
  | none =>
      exact edited_refl m
  | some id =>
      dsimp only
      split
      · exact (hedit id m).trans (edited_remove (edit id m) id)
      · exact edited_refl m

/-- A pointer that stays in its column of a ring with two columns. -/
def post (x : Int64) (id : Nat) : Ip :=
  { id, position := .planar x 0, direction := .north, state := .empty }

/-- Pointers on a ring whose second cell is the one on which they remove themselves. -/
def posted (ips : List Ip) (nextId : Nat) : Machine UInt8 :=
  { space := .ground (.torus Torus.shortRing)
    ips
    shared := .empty
    supply := { nextId, dice := .loaded } }

/-- Three pointers, the second of which is going to remove itself. -/
def trio : Machine UInt8 := posted [post 0 1, post 1 2, post 0 3] 4

/-- An engine in its first tick. -/
def during (edit : Nat → Machine UInt8 → Machine UInt8) (machine : Machine UInt8)
    (current : Option Nat) : Engine UInt8 Unit :=
  { assemble machine (leaving edit) () with ticks := 1, current }

theorem numbered_trio :
    trio.Numbered :=
  ⟨by decide, by decide⟩

/-- Removes the pointer in front and puts a copy in its place. -/
def exchange (id : Nat) (m : Machine UInt8) : Machine UInt8 := shed id (behead m)

theorem edited_exchange
    (id : Nat) (m : Machine UInt8) :
    Machine.Edited m (exchange id m) :=
  (edited_behead m).trans (edited_shed (behead m) id)

theorem next_after_removal_exchange :
    ∃ t₁ t₂ e',
      Stretch (during exchange trio none) [t₁, t₂] 1 e' ∧
      t₂.id ∉ t₂.after.ids ∧
      t₂.Level ∧
      ¬ t₂.Orderly ∧
      visits (during exchange trio none) = visitsFrom 1 e' ∧
      e'.machine.ids = [4, 3] ∧
      t₁.id ∉ e'.machine.ids.drop 1 ∧
      3 ∈ e'.machine.ids.drop 1 := by
  let t₁ : Turn UInt8 := ⟨1, trio, trio⟩
  let t₂ : Turn UInt8 := ⟨2, trio, posted [post 1 4, post 0 3] 5⟩
  have hfirst : Stretch (during exchange trio none) [t₁] 1 (during exchange trio (some 1)) :=
    .turn .start rfl rfl rfl
  have hstretch :
      Stretch (during exchange trio none) ([t₁] ++ [t₂]) 1
        (during exchange (posted [post 1 4, post 0 3] 5) (some 2)) :=
    .turn hfirst rfl rfl rfl
  have hgone : t₂.id ∉ t₂.after.ids := by
    decide
  have hlevel : ∀ u ∈ [t₁] ++ [t₂], u.id ∈ u.after.ids ∨ u.Level := by
    decide
  have hopen :
      openTick (assemble trio (leaving exchange) ()) = .ok () (during exchange trio none) :=
    rfl
  have hunobtrusive : Unobtrusive (assemble trio (leaving exchange) ()).observers := by
    intro observer hobserver
    contradiction
  obtain ⟨hvisits, hids, _, hfair⟩ :=
    next_after_removal (disciplined_leaving edited_exchange) hunobtrusive numbered_trio hopen
      hstretch hgone
  obtain ⟨honce, hall⟩ := hfair hlevel
  have hfront : ¬ t₂.Orderly :=
    not_or.2 ⟨hgone, by decide⟩
  refine ⟨t₁, t₂, _, hstretch, hgone, by decide, hfront, hvisits, hids, ?_, ?_⟩
  · exact honce t₁ (by simp)
  · rcases hall 3 (by decide) (by decide) with ⟨u, hu, hid⟩ | hwaiting
    · revert u
      decide
    · exact hwaiting

/-- The second pointer removes the first one and itself, and the third one is passed over. -/
theorem tour_behead :
    Tour 0 (during (fun _ => behead) trio none)
      [⟨1, trio, trio⟩, ⟨2, trio, posted [post 0 3] 4⟩]
      (during (fun _ => behead) (posted [post 0 3] 4) (some 2)) := by
  have hsecond :
      Tour 1 (during (fun _ => behead) trio (some 1))
        [⟨2, trio, posted [post 0 3] 4⟩]
        (during (fun _ => behead) (posted [post 0 3] 4) (some 2)) :=
    .turn rfl rfl rfl (.rest rfl)
  exact .turn rfl rfl rfl hsecond

/-- The second pointer leaves a copy in front and removes itself, and the first one is visited
again. -/
theorem tour_shed :
    Tour 0 (during shed trio none)
      [⟨1, trio, trio⟩,
        ⟨2, trio, posted [post 1 4, post 0 1, post 0 3] 5⟩,
        ⟨1, posted [post 1 4, post 0 1, post 0 3] 5, posted [post 1 4, post 0 1, post 0 3] 5⟩,
        ⟨3, posted [post 1 4, post 0 1, post 0 3] 5, posted [post 1 4, post 0 1, post 0 3] 5⟩]
      (during shed (posted [post 1 4, post 0 1, post 0 3] 5) (some 3)) := by
  let shifted := posted [post 1 4, post 0 1, post 0 3] 5
  have hfourth :
      Tour 2 (during shed shifted (some 1)) [⟨3, shifted, shifted⟩]
        (during shed shifted (some 3)) :=
    .turn rfl rfl rfl (.rest rfl)
  have hthird :
      Tour 1 (during shed shifted (some 2)) [⟨1, shifted, shifted⟩, ⟨3, shifted, shifted⟩]
        (during shed shifted (some 3)) :=
    .turn rfl rfl rfl hfourth
  have hsecond :
      Tour 1 (during shed trio (some 1))
        [⟨2, trio, shifted⟩, ⟨1, shifted, shifted⟩, ⟨3, shifted, shifted⟩]
        (during shed shifted (some 3)) :=
    .turn rfl rfl rfl hthird
  exact .turn rfl rfl rfl hsecond

theorem tick_of_tour
    {edit : Nat → Machine UInt8 → Machine UInt8} {turns : List (Turn UInt8)} {m : Machine UInt8}
    {current : Option Nat}
    (h : Tour 0 (during edit trio none) turns (during edit m current)) :
    tick (assemble trio (leaving edit) ()) = some (.ok .proceed (during edit m none)) :=
  tick_of_visits rfl h.visitsFrom_eq

/-- Ticks with turns that are not level: in one a pointer that waits and lives on has no turn, in
the other a pointer has two. -/
theorem unlevel_turns :
    trio.Numbered ∧
    (∃ turns m current,
      Disciplined (leaving fun _ => behead) ∧
      Tour 0 (during (fun _ => behead) trio none) turns (during (fun _ => behead) m current) ∧
      tick (assemble trio (leaving fun _ => behead) ()) =
        some (.ok .proceed (during (fun _ => behead) m none)) ∧
      (∃ t ∈ turns, t.id ∉ t.after.ids ∧ 3 ∈ t.waiting) ∧
      3 ∈ m.ids ∧
      turns.map (·.id) = [1, 2]) ∧
    ∃ turns m current,
      Disciplined (leaving shed) ∧
      Tour 0 (during shed trio none) turns (during shed m current) ∧
      tick (assemble trio (leaving shed) ()) = some (.ok .proceed (during shed m none)) ∧
      (∃ t ∈ turns, t.id ∉ t.after.ids) ∧
      turns.map (·.id) = [1, 2, 1, 3] := by
  refine ⟨numbered_trio, ?_, ?_⟩
  · refine ⟨_, _, _, disciplined_leaving fun _ => edited_behead, tour_behead,
      tick_of_tour tour_behead, ⟨⟨2, trio, posted [post 0 3] 4⟩, by simp, ?_, ?_⟩, ?_, rfl⟩
    · decide
    · decide
    · decide
  · refine ⟨_, _, _, disciplined_leaving fun id m => edited_shed m id, tour_shed,
      tick_of_tour tour_shed, ⟨⟨2, trio, _⟩, List.mem_cons_of_mem _ List.mem_cons_self, ?_⟩, rfl⟩
    decide

end Leaving

end Engine

end FungeTrace
