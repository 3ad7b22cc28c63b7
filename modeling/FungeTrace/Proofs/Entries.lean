import FungeTrace.Proofs.Agreement
import FungeTrace.State.Bag

/-!
# Laws of named state

Entries of different names do not meddle with each other: an insertion changes what its own name
holds and nothing else, insertions under different names commute, and of two insertions under one
name the later one stays.  The other statements say why a look-up can fail and all that running an
action on an entry can do.
-/

namespace FungeTrace
namespace Bag

variable {α β γ : Type} [Storable α] [Storable β]

theorem get_insert_of_ne
    {key : Key α} {key' : Key β}
    (h : key.name ≠ key'.name)
    (b : Bag) (value : α) :
    (b.insert key value).get key' = b.get key' := by
  simp [insert, get, Std.ExtTreeMap.getElem?_insert, h]

theorem insert_insert
    (b : Bag) (key : Key α) (value value' : α) :
    (b.insert key value).insert key value' = b.insert key value' := by
  unfold insert
  congr 1
  apply Std.ExtTreeMap.ext_getElem?
  intro name
  simp only [Std.ExtTreeMap.getElem?_insert]
  split <;> rfl

theorem insert_comm
    {key : Key α} {key' : Key β}
    (h : key.name ≠ key'.name)
    (b : Bag) (value : α) (value' : β) :
    (b.insert key value).insert key' value' =
      (b.insert key' value').insert key value := by
  unfold insert
  congr 1
  apply Std.ExtTreeMap.ext_getElem?
  intro name
  simp only [Std.ExtTreeMap.getElem?_insert, Std.LawfulEqCmp.compare_eq_iff_eq]
  by_cases hname : key.name = name
  · subst hname
    simp [Ne.symm h]
  · simp [hname]

theorem entries_insert_of_ne
    {key : Key α} {name : String}
    (h : key.name ≠ name)
    (b : Bag) (value : α) :
    (b.insert key value).entries[name]? = b.entries[name]? := by
  simp [insert, Std.ExtTreeMap.getElem?_insert, h]

theorem get_congr
    {key : Key α} {b b' : Bag}
    (h : b'.entries[key.name]? = b.entries[key.name]?) :
    b'.get key = b.get key := by
  unfold get
  rw [h]

theorem entry_of_get
    {key : Key α} {b : Bag} {value : α}
    (h : b.get key = .ok value) :
    b.entries[key.name]? = some (Storable.pack value) := by
  unfold get at h
  split at h
  · contradiction
  · rename_i packed hpacked
    split at h
    · rename_i a hunpack
      obtain rfl : a = value := Except.ok.inj h
      rw [hpacked, Storable.pack_of_unpack packed a hunpack]
    · contradiction

/-- A value put where it was found changes nothing. -/
theorem insert_self
    {key : Key α} {b : Bag} {value : α}
    (h : b.get key = .ok value) :
    b.insert key value = b := by
  unfold insert
  congr 1
  apply Std.ExtTreeMap.ext_getElem?
  intro name
  rw [Std.ExtTreeMap.getElem?_insert]
  split
  · rename_i heq
    rw [← Std.LawfulEqCmp.eq_of_compare heq, entry_of_get h]
  · rfl

/-- A look-up fails because there is no entry or because it is of another type. -/
theorem get_error
    {key : Key α} {b : Bag} {fault : Fault}
    (h : b.get key = .error fault) :
    fault = .missingState key.name ∨ fault = .stateTypeMismatch key.name := by
  unfold get at h
  split at h
  · exact .inl (Except.error.inj h).symm
  · split at h
    · contradiction
    · exact .inr (Except.error.inj h).symm

theorem update_ok
    {key : Key α} {act : Act α γ}
    {b b' : Bag} {x : γ}
    (h : update key act b = .ok x b') :
    ∃ value value',
      b.get key = .ok value ∧
      act value = .ok x value' ∧
      b' = b.insert key value' := by
  unfold update at h
  cases hget : b.get key with
  | error fault =>
      rw [hget] at h
      contradiction
  | ok value =>
      rw [hget] at h
      dsimp only at h
      cases hact : act value with
      | error fault value' =>
          rw [hact] at h
          contradiction
      | ok y value' =>
          rw [hact] at h
          simp only [EStateM.Result.ok.injEq] at h
          obtain ⟨rfl, rfl⟩ := h
          exact ⟨value, value', rfl, hact, rfl⟩

theorem update_error
    {key : Key α} {act : Act α γ}
    {b b' : Bag} {fault : Fault}
    (h : update key act b = .error fault b') :
    (b.get key = .error fault ∧ b' = b) ∨
      ∃ value value',
        b.get key = .ok value ∧
        act value = .error fault value' ∧
        b' = b.insert key value' := by
  unfold update at h
  cases hget : b.get key with
  | error fault' =>
      rw [hget] at h
      simp only [EStateM.Result.error.injEq] at h
      obtain ⟨rfl, rfl⟩ := h
      exact .inl ⟨rfl, rfl⟩
  | ok value =>
      rw [hget] at h
      dsimp only at h
      cases hact : act value with
      | ok y value' =>
          rw [hact] at h
          contradiction
      | error fault' value' =>
          rw [hact] at h
          simp only [EStateM.Result.error.injEq] at h
          obtain ⟨rfl, rfl⟩ := h
          exact .inr ⟨value, value', rfl, hact, rfl⟩

/-- What an action on an entry leaves: the bag as it was, or one with another value under the
key. -/
theorem left_update
    (key : Key α) (act : Act α γ) (b : Bag) :
    (Act.left (update key act b) = b ∧ ∃ fault, b.get key = .error fault) ∨
      ∃ value,
        b.get key = .ok value ∧
        Act.left (update key act b) = b.insert key (Act.left (act value)) := by
  cases h : update key act b with
  | ok x b' =>
      obtain ⟨value, value', hget, hact, rfl⟩ := update_ok h
      refine .inr ⟨value, hget, ?_⟩
      rw [hact]
      rfl
  | error fault b' =>
      rcases update_error h with ⟨hget, rfl⟩ | ⟨value, value', hget, hact, rfl⟩
      · exact .inl ⟨rfl, fault, hget⟩
      · refine .inr ⟨value, hget, ?_⟩
        rw [hact]
        rfl

theorem entries_update_of_ne
    {key : Key α} {name : String}
    (h : key.name ≠ name)
    (act : Act α γ) (b : Bag) :
    (Act.left (update key act b)).entries[name]? = b.entries[name]? := by
  rcases left_update key act b with ⟨hleft, _⟩ | ⟨value, _, hleft⟩
  · rw [hleft]
  · rw [hleft, entries_insert_of_ne h]

end Bag
end FungeTrace
