import FungeTrace.Engine.Machine
import Mathlib.Data.List.InsertIdx
import Mathlib.Data.List.Nodup

/-!
# The live sequence under edits

Operations change the live sequence of a machine by spawning, inserting and removing pointers.  The
numbers of new pointers come from the supply, so none of them was live before.  Whatever an operation
does, the pointers that survive it keep their order: `Edited.survivors`.

From this follows where a pointer stands with respect to another one that lives on, or that was
removed while everything in front of it stayed: `mem_drop_of_kept` and `mem_drop_of_removed`.
-/

namespace FungeTrace

section Sequences

variable {S S' : List Nat} {a i j n x : Nat}

/-- A sublist that is cut at a number which the whole list holds once. -/
theorem sublist_of_cut
    {l₁ l₂ r₁ r₂ : List Nat}
    (h₁ : a ∉ r₁)
    (h₂ : a ∉ r₂)
    (h : (l₁ ++ a :: l₂).Sublist (r₁ ++ a :: r₂)) :
    l₁.Sublist r₁ ∧ l₂.Sublist r₂ := by
  have hin : ∀ l : List Nat, (l ++ a :: l₂).Sublist r₂ → False := by
    intro l hl
    exact h₂ (hl.subset (by simp))
  induction r₁ generalizing l₁ with
  | nil =>
      cases l₁ with
      | nil =>
          exact ⟨.slnil, by simpa using h⟩
      | cons b l₁ =>
          rw [List.nil_append] at h
          cases h with
          | cons _ h =>
              exact (hin (b :: l₁) h).elim
          | cons_cons _ h =>
              exact (hin l₁ h).elim
  | cons c r₁ ih =>
      have hc : a ≠ c := by
        rintro rfl
        exact h₁ List.mem_cons_self
      have hr₁ : a ∉ r₁ := by
        intro ha
        exact h₁ (List.mem_cons_of_mem c ha)
      rw [List.cons_append] at h
      generalize hl : l₁ ++ a :: l₂ = l at h
      cases h with
      | cons _ h =>
          rw [← hl] at h
          obtain ⟨hleft, hright⟩ := ih hr₁ h
          exact ⟨hleft.cons c, hright⟩
      | cons_cons _ h =>
          cases l₁ with
          | nil =>
              simp only [List.nil_append, List.cons.injEq] at hl
              exact absurd hl.1 hc
          | cons b l₁ =>
              simp only [List.cons_append, List.cons.injEq] at hl
              obtain ⟨rfl, rfl⟩ := hl
              obtain ⟨hleft, hright⟩ := ih hr₁ h
              exact ⟨hleft.cons_cons b, hright⟩

/-- A list cut at one of its places. -/
theorem cut_at
    (hi : S[i]? = some a) :
    S = S.take i ++ a :: S.drop (i + 1) := by
  obtain ⟨hlt, rfl⟩ := List.getElem?_eq_some_iff.1 hi
  rw [← List.drop_eq_getElem_cons hlt, List.take_append_drop]

theorem not_mem_of_cut
    (hS : S.Nodup)
    (hi : S[i]? = some a) :
    a ∉ S.take i ∧ a ∉ S.drop (i + 1) := by
  have hcut := cut_at hi
  rw [hcut, List.nodup_append] at hS
  obtain ⟨_, hright, hapart⟩ := hS
  constructor
  · intro ha
    exact hapart a ha a List.mem_cons_self rfl
  · exact (List.nodup_cons.1 hright).1

theorem not_mem_take_of_mem_drop
    (hS : S.Nodup)
    (hx : x ∈ S.drop i) :
    x ∉ S.take i := by
  intro htake
  exact List.disjoint_take_drop hS (Nat.le_refl i) htake hx

theorem mem_filter_lt
    (hx : x ∈ S)
    (hn : x < n) :
    x ∈ S.filter (· < n) := by
  simp [hx, hn]

/-- Behind a pointer that lives on stand, of the older pointers that are still live, those that stood
behind it before. -/
theorem mem_drop_of_kept
    (hS : S.Nodup)
    (hsurvivors : (S'.filter (· < n)).Sublist S)
    (hi : S[i]? = some a)
    (hj : S'[j]? = some a)
    (ha : a < n)
    (hx : x < n)
    (hmem : x ∈ S') :
    x ∈ S'.drop (j + 1) ↔ x ∈ S.drop (i + 1) := by
  have hcut := cut_at hi
  have hcut' := cut_at hj
  obtain ⟨hleft, hright⟩ := not_mem_of_cut hS hi
  have hfilter :
      S'.filter (· < n) =
        (S'.take j).filter (· < n) ++ a :: (S'.drop (j + 1)).filter (· < n) := by
    conv_lhs => rw [hcut']
    simp [ha]
  rw [hfilter, hcut] at hsurvivors
  obtain ⟨hfront, hback⟩ := sublist_of_cut hleft hright hsurvivors
  constructor
  · intro hdrop
    exact hback.subset (mem_filter_lt hdrop hx)
  · intro hdrop
    rw [hcut', List.mem_append, List.mem_cons] at hmem
    rcases hmem with hfirst | rfl | hlast
    · have htake : x ∈ S.take i := hfront.subset (mem_filter_lt hfirst hx)
      have hdrop' : x ∈ S.drop i := List.mem_of_mem_drop (by simpa using hdrop)
      exact absurd htake (not_mem_take_of_mem_drop hS hdrop')
    · exact absurd hdrop hright
    · exact hlast

/-- Behind the place of a removed pointer, in front of which nothing changed, stand of the older
pointers that are still live those that stood behind it before. -/
theorem mem_drop_of_removed
    (hS : S.Nodup)
    (hS' : S'.Nodup)
    (hsurvivors : (S'.filter (· < n)).Sublist S)
    (hi : S[i]? = some a)
    (hgone : a ∉ S')
    (hfront : S'.take i = S.take i)
    (hx : x < n)
    (hmem : x ∈ S') :
    x ∈ S'.drop i ↔ x ∈ S.drop (i + 1) := by
  have hold : x ∈ S := hsurvivors.subset (mem_filter_lt hmem hx)
  constructor
  · intro hdrop
    have htake : x ∉ S.take i := by
      rw [← hfront]
      exact not_mem_take_of_mem_drop hS' hdrop
    rw [cut_at hi, List.mem_append, List.mem_cons] at hold
    rcases hold with hfirst | rfl | hlast
    · exact absurd hfirst htake
    · exact absurd hmem hgone
    · exact hlast
  · intro hdrop
    rw [← List.take_append_drop i S', List.mem_append] at hmem
    rcases hmem with hfirst | hlast
    · rw [hfront] at hfirst
      have hdrop' : x ∈ S.drop i := List.mem_of_mem_drop (by simpa using hdrop)
      exact absurd hfirst (not_mem_take_of_mem_drop hS hdrop')
    · exact hlast

theorem filter_insertIdx
    (hx : n ≤ x) :
    (S.insertIdx i x).filter (· < n) = S.filter (· < n) := by
  have hnot : ¬ x < n := Nat.not_lt.2 hx
  induction S generalizing i with
  | nil =>
      cases i with
      | zero =>
          simp [hnot]
      | succ i =>
          simp
  | cons y S ih =>
      cases i with
      | zero =>
          simp [hnot]
      | succ i =>
          simp [List.filter_cons, ih]

theorem nodup_insertIdx
    (hS : S.Nodup)
    (hx : x ∉ S)
    (hi : i ≤ S.length) :
    (S.insertIdx i x).Nodup := by
  rw [(List.perm_insertIdx x S hi).nodup_iff, List.nodup_cons]
  exact ⟨hx, hS⟩

end Sequences

namespace Machine

variable {C : Type} {m m' : Machine C}

/-- The numbers of the live pointers in the order they run. -/
def ids (m : Machine C) : List Nat := m.ips.map (·.id)

theorem indexOf?_eq
    (m : Machine C) (id : Nat) :
    m.indexOf? id = m.ids.findIdx? (· == id) := by
  simp [indexOf?, ids, List.findIdx?_map, Function.comp_def]

theorem indexOf?_eq_none_iff
    {id : Nat} :
    m.indexOf? id = none ↔ id ∉ m.ids := by
  rw [indexOf?_eq, List.findIdx?_eq_none_iff]
  constructor
  · intro h hid
    simpa using h id hid
  · intro h x hx
    have hne : x ≠ id := by
      rintro rfl
      exact h hx
    simpa using hne

theorem getElem_of_indexOf?
    {id i : Nat}
    (h : m.indexOf? id = some i) :
    m.ids[i]? = some id := by
  rw [indexOf?_eq, List.findIdx?_eq_some_iff_getElem] at h
  obtain ⟨hlt, hid, _⟩ := h
  rw [List.getElem?_eq_getElem hlt, beq_iff_eq.1 hid]

theorem indexOf?_of_getElem
    {id i : Nat}
    (hdistinct : m.ids.Nodup)
    (h : m.ids[i]? = some id) :
    m.indexOf? id = some i := by
  have hmem : id ∈ m.ids := List.mem_of_getElem? h
  cases hj : m.indexOf? id with
  | none =>
      exact absurd hmem (indexOf?_eq_none_iff.1 hj)
  | some j =>
      have hget := getElem_of_indexOf? hj
      obtain ⟨hi, hid⟩ := List.getElem?_eq_some_iff.1 h
      obtain ⟨hj, hjd⟩ := List.getElem?_eq_some_iff.1 hget
      have heq : j = i :=
        hdistinct.getElem_inj_iff.1 (hjd.trans hid.symm)
      rw [heq]

theorem ids_modifyIp
    (m : Machine C) (id : Nat)
    {change : Ip → Ip}
    (hchange : ∀ ip, (change ip).id = ip.id) :
    (m.modifyIp id change).ids = m.ids := by
  unfold modifyIp
  split
  · apply List.ext_getElem?
    intro i
    simp only [ids, List.getElem?_map, List.getElem?_modify]
    split
    · simp [hchange, Function.comp_def]
    · simp
  · rfl

theorem ip?_eq_none_iff
    {id : Nat} :
    m.ip? id = none ↔ id ∉ m.ids := by
  unfold ip? ids
  simp

/-- Moving a pointer leaves the live sequence alone. -/
theorem advance_ok
    {id : Nat} {live : Bool}
    (h : advance id m = .ok live m') :
    m'.ids = m.ids ∧
      m'.supply = m.supply ∧
      (id ∈ m.ids → live = true) := by
  unfold advance at h
  split at h
  · rename_i hnone
    simp only [EStateM.Result.ok.injEq] at h
    obtain ⟨rfl, rfl⟩ := h
    exact ⟨rfl, rfl, fun hid => absurd hid (ip?_eq_none_iff.1 hnone)⟩
  · split at h
    · simp only [EStateM.Result.ok.injEq] at h
      obtain ⟨rfl, rfl⟩ := h
      refine ⟨ids_modifyIp m id fun _ => rfl, ?_, fun _ => rfl⟩
      unfold modifyIp
      split <;> rfl
    · contradiction

/-- A machine whose live pointers have different numbers, all of them handed out by its supply, so
that the numbers it hands out next are fresh. -/
structure Numbered (m : Machine C) : Prop where
  distinct : m.ids.Nodup
  drawn : ∀ id ∈ m.ids, id < m.supply.nextId

/-- Changes of a machine that reach the live sequence by spawning, inserting and removing pointers
only, with the numbers of the pointers placed on the way. -/
inductive Edits
    (m : Machine C) :
    List Nat →
      Machine C →
      Prop
  | refl :
      Edits m [] m
  | alter
      {placed : List Nat} {m₁ m₂ : Machine C}
      (h : Edits m placed m₁)
      (hids : m₂.ids = m₁.ids) :
      Edits m placed m₂
  | spawn
      {placed : List Nat} {m₁ : Machine C}
      (h : Edits m placed m₁)
      (ip : Ip) :
      Edits m (ip.id :: placed) (m₁.spawn ip)
  | insertAt
      {placed : List Nat} {m₁ : Machine C}
      (h : Edits m placed m₁)
      (index : Nat)
      (ip : Ip) :
      Edits m (ip.id :: placed) (m₁.insertAt index ip)
  | remove
      {placed : List Nat} {m₁ : Machine C}
      (h : Edits m placed m₁)
      (id : Nat) :
      Edits m placed (m₁.remove id).2

/-- What one operation makes of a machine: edits whose new pointers have numbers that the supply
handed out meanwhile, each to one of them. -/
structure Edited (m m' : Machine C) : Prop where
  grows : m.supply.nextId ≤ m'.supply.nextId
  edits :
    ∃ placed,
      Edits m placed m' ∧
      placed.Nodup ∧
      ∀ id ∈ placed, m.supply.nextId ≤ id ∧ id < m'.supply.nextId

theorem ids_spawn
    (m : Machine C) (ip : Ip) :
    (m.spawn ip).ids = m.ids ++ [ip.id] := by
  simp [spawn, ids]

theorem ids_insertAt
    (m : Machine C) (index : Nat) (ip : Ip) :
    (m.insertAt index ip).ids = m.ids.insertIdx (min index m.ids.length) ip.id := by
  simp [insertAt, ids, List.map_insertIdx]

theorem ids_remove_sublist
    (m : Machine C) (id : Nat) :
    (m.remove id).2.ids.Sublist m.ids := by
  unfold remove
  split
  · exact (List.eraseIdx_sublist _ _).map _
  · exact List.Sublist.refl _

section Edits

variable {placed : List Nat} {n x : Nat}

theorem Edits.mem_or_placed
    (h : Edits m placed m')
    (hx : x ∈ m'.ids) :
    x ∈ m.ids ∨ x ∈ placed := by
  induction h with
  | refl =>
      exact .inl hx
  | alter _ hids ih =>
      rw [hids] at hx
      exact ih hx
  | spawn _ ip ih =>
      rw [ids_spawn, List.mem_append, List.mem_singleton] at hx
      rcases hx with hx | rfl
      · exact (ih hx).imp_right (List.mem_cons_of_mem _)
      · exact .inr List.mem_cons_self
  | insertAt _ index ip ih =>
      rw [ids_insertAt, List.mem_insertIdx (Nat.min_le_right _ _)] at hx
      rcases hx with rfl | hx
      · exact .inr List.mem_cons_self
      · exact (ih hx).imp_right (List.mem_cons_of_mem _)
  | remove _ id ih =>
      exact ih ((ids_remove_sublist _ id).subset hx)

/-- The older pointers that are still live stand in their old order. -/
theorem Edits.survivors
    (h : Edits m placed m')
    (hplaced : ∀ id ∈ placed, n ≤ id) :
    (m'.ids.filter (· < n)).Sublist m.ids := by
  induction h with
  | refl =>
      exact List.filter_sublist
  | alter _ hids ih =>
      rw [hids]
      exact ih hplaced
  | spawn _ ip ih =>
      have hip : ¬ ip.id < n := Nat.not_lt.2 (hplaced _ List.mem_cons_self)
      rw [ids_spawn, List.filter_append]
      simpa [hip] using ih fun id hid => hplaced id (List.mem_cons_of_mem _ hid)
  | insertAt _ index ip ih =>
      rw [ids_insertAt, filter_insertIdx (hplaced _ List.mem_cons_self)]
      exact ih fun id hid => hplaced id (List.mem_cons_of_mem _ hid)
  | remove _ id ih =>
      exact ((ids_remove_sublist _ id).filter _).trans (ih hplaced)

theorem Edits.nodup
    (hm : m.Numbered)
    (h : Edits m placed m')
    (hdistinct : placed.Nodup)
    (hplaced : ∀ id ∈ placed, m.supply.nextId ≤ id) :
    m'.ids.Nodup := by
  have hnew :
      ∀ {placed : List Nat} {m₁ : Machine C} (ip : Ip),
        Edits m placed m₁ →
        (ip.id :: placed).Nodup →
        (∀ id ∈ ip.id :: placed, m.supply.nextId ≤ id) →
        ip.id ∉ m₁.ids := by
    intro placed m₁ ip hedits hnodup hfresh hmem
    rcases hedits.mem_or_placed hmem with hold | hold
    · have hlt := hm.drawn _ hold
      have hle := hfresh _ List.mem_cons_self
      omega
    · exact (List.nodup_cons.1 hnodup).1 hold
  induction h with
  | refl =>
      exact hm.distinct
  | alter _ hids ih =>
      rw [hids]
      exact ih hdistinct hplaced
  | spawn h ip ih =>
      have hrest := ih (List.nodup_cons.1 hdistinct).2
        fun id hid => hplaced id (List.mem_cons_of_mem _ hid)
      rw [ids_spawn, List.nodup_append]
      refine ⟨hrest, List.nodup_singleton _, ?_⟩
      intro y hy z hz
      rw [List.mem_singleton] at hz
      rintro rfl
      rw [hz] at hy
      exact hnew ip h hdistinct hplaced hy
  | insertAt h index ip ih =>
      have hrest := ih (List.nodup_cons.1 hdistinct).2
        fun id hid => hplaced id (List.mem_cons_of_mem _ hid)
      rw [ids_insertAt]
      exact nodup_insertIdx hrest (hnew ip h hdistinct hplaced) (Nat.min_le_right _ _)
  | remove _ id ih =>
      exact (ih hdistinct hplaced).sublist (ids_remove_sublist _ id)

end Edits

theorem Edited.survivors
    (h : Edited m m') :
    (m'.ids.filter (· < m.supply.nextId)).Sublist m.ids := by
  obtain ⟨placed, hedits, _, hfresh⟩ := h.edits
  exact hedits.survivors fun id hid => (hfresh id hid).1

theorem Edited.numbered
    (hm : m.Numbered)
    (h : Edited m m') :
    m'.Numbered := by
  obtain ⟨placed, hedits, hdistinct, hfresh⟩ := h.edits
  refine ⟨hedits.nodup hm hdistinct fun id hid => (hfresh id hid).1, ?_⟩
  intro id hid
  rcases hedits.mem_or_placed hid with hold | hnew
  · exact Nat.lt_of_lt_of_le (hm.drawn id hold) h.grows
  · exact (hfresh id hnew).2

/-- A pointer that an operation placed has a number that was not handed out before. -/
theorem Edited.nextId_le_of_placed
    {x : Nat}
    (h : Edited m m')
    (hold : x ∉ m.ids)
    (hnew : x ∈ m'.ids) :
    m.supply.nextId ≤ x := by
  apply Nat.not_lt.1
  intro hlt
  exact hold (h.survivors.subset (mem_filter_lt hnew hlt))

theorem Edits.trans
    {placed placed' : List Nat} {m'' : Machine C}
    (h : Edits m placed m')
    (h' : Edits m' placed' m'') :
    Edits m (placed' ++ placed) m'' := by
  induction h' with
  | refl =>
      exact h
  | alter _ hids ih =>
      exact .alter ih hids
  | spawn _ ip ih =>
      exact .spawn ih ip
  | insertAt _ index ip ih =>
      exact .insertAt ih index ip
  | remove _ id ih =>
      exact .remove ih id

/-- Operations can be made of others, for the second one has numbers of its own. -/
theorem Edited.trans
    {m'' : Machine C}
    (h : Edited m m')
    (h' : Edited m' m'') :
    Edited m m'' := by
  obtain ⟨hgrows, placed, hedits, hdistinct, hfresh⟩ := h
  obtain ⟨hgrows', placed', hedits', hdistinct', hfresh'⟩ := h'
  refine ⟨Nat.le_trans hgrows hgrows', placed' ++ placed, hedits.trans hedits', ?_, ?_⟩
  · refine List.nodup_append.2 ⟨hdistinct', hdistinct, ?_⟩
    rintro id hid _ hid' rfl
    have hle := (hfresh' id hid).1
    have hlt := (hfresh id hid').2
    omega
  · intro id hid
    rcases List.mem_append.1 hid with hid | hid
    · have hbounds := hfresh' id hid
      omega
    · have hbounds := hfresh id hid
      omega

end Machine

end FungeTrace
