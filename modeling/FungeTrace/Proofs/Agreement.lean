import FungeTrace.Fault

/-!
# Actions that agree

Two actions agree along a relation of states if they end alike from related states: with the same
answer or the same fault, and in related states again.  A predicate bounds the faults that may
arise.  Agreement of composed actions follows from that of their parts, so that a relation which the
few primitive actions of a program respect is respected by the whole program.

An invariant is the special case of a relation between equal states.

The last section is about one action: along which relation it changes every state, or those that it
fails in.
-/

namespace FungeTrace
namespace Act

variable {σ α β : Type}

section Sequencing

theorem bind_ok
    {act : Act σ α} {next : α → Act σ β}
    {s t : σ} {a : α}
    (h : act s = .ok a t) :
    (act >>= next) s = next a t := by
  change EStateM.bind act next s = next a t
  unfold EStateM.bind
  rw [h]

theorem bind_error
    {act : Act σ α} {next : α → Act σ β}
    {s t : σ} {f : Fault}
    (h : act s = .error f t) :
    (act >>= next) s = .error f t := by
  change EStateM.bind act next s = .error f t
  unfold EStateM.bind
  rw [h]

theorem get_bind
    (next : σ → Act σ α) (s : σ) :
    (get >>= next) s = next s s := by
  rfl

theorem of_bind_ok
    {act : Act σ α} {next : α → Act σ β}
    {s t : σ} {b : β}
    (h : (act >>= next) s = .ok b t) :
    ∃ a s', act s = .ok a s' ∧ next a s' = .ok b t := by
  cases hs : act s with
  | ok a s' =>
      rw [bind_ok hs] at h
      exact ⟨a, s', rfl, h⟩
  | error f s' =>
      rw [bind_error hs] at h
      contradiction

end Sequencing

/-- Results of one kind with equal answers or faults, in related states. -/
inductive Alike
    (R : σ → σ → Prop) (Q : Fault → Prop) :
    EStateM.Result Fault σ α →
      EStateM.Result Fault σ α →
      Prop
  | ok
      (a : α) {s t : σ}
      (hR : R s t) :
      Alike R Q (.ok a s) (.ok a t)
  | error
      {f : Fault} {s t : σ}
      (hQ : Q f)
      (hR : R s t) :
      Alike R Q (.error f s) (.error f t)

/-- Two actions that end alike from related states. -/
def Agree
    (R : σ → σ → Prop) (Q : Fault → Prop)
    (act act' : Act σ α) : Prop :=
  ∀ s t, R s t → Alike R Q (act s) (act' t)

/-- The relation of a state with `P` to itself. -/
def Diagonal
    (P : σ → Prop) (s t : σ) : Prop :=
  s = t ∧ P s

section Composition

variable {R : σ → σ → Prop} {Q : Fault → Prop}

theorem agree_mono
    {S : Fault → Prop}
    {act act' : Act σ α}
    (hQ : ∀ f, Q f → S f)
    (hact : Agree R Q act act') :
    Agree R S act act' := by
  intro s t hR
  have h := hact s t hR
  generalize act s = r at h ⊢
  generalize act' t = r' at h ⊢
  cases h with
  | ok a hR' =>
      exact .ok a hR'
  | error hf hR' =>
      exact .error (hQ _ hf) hR'

theorem agree_pure
    (a : α) :
    Agree R Q (pure a) (pure a) := by
  intro s t hR
  exact .ok a hR

theorem agree_bind
    {act act' : Act σ α}
    {next next' : α → Act σ β}
    (hact : Agree R Q act act')
    (hnext : ∀ a, Agree R Q (next a) (next' a)) :
    Agree R Q (act >>= next) (act' >>= next') := by
  intro s t hR
  have h := hact s t hR
  change
    Alike R Q
      (EStateM.bind act next s)
      (EStateM.bind act' next' t)
  unfold EStateM.bind
  generalize act s = r at h ⊢
  generalize act' t = r' at h ⊢
  cases h with
  | ok a hR' =>
      exact hnext a _ _ hR'
  | error hQ hR' =>
      exact .error hQ hR'

theorem agree_ite
    {act₁ act₁' act₂ act₂' : Act σ α}
    (c : Prop) [Decidable c]
    (h₁ : Agree R Q act₁ act₁')
    (h₂ : Agree R Q act₂ act₂') :
    Agree R Q
      (if c then act₁ else act₂)
      (if c then act₁' else act₂') := by
  by_cases hc : c
  · simpa [hc] using h₁
  · simpa [hc] using h₂

end Composition

section Likeness

variable {R : σ → σ → Prop} {Q : Fault → Prop}

/-- A question that related states answer alike. -/
theorem agree_ask_alike
    {ask : σ → Except Fault α}
    (hask : ∀ s t, R s t → ask s = ask t)
    (hQ : ∀ f, Q f) :
    Agree R Q
      (fun s => ofExcept (ask s) s)
      (fun s => ofExcept (ask s) s) := by
  intro s t hR
  dsimp only
  rw [hask s t hR]
  cases ask t with
  | ok a =>
      exact .ok a hR
  | error f =>
      exact .error (hQ f) hR

theorem agree_change_alike
    {change : σ → σ}
    (h : ∀ s t, R s t → R (change s) (change t)) :
    Agree R Q (modify change) (modify change) := by
  intro s t hR
  exact .ok () (h s t hR)

/-- An action on a part that related states have in common. -/
theorem agree_zoom_alike
    {τ : Type}
    {view : σ → τ} {put : τ → σ → σ} {part : Act τ α}
    (hview : ∀ s t, R s t → view s = view t)
    (hput : ∀ s t x, R s t → R (put x s) (put x t))
    (hQ : ∀ f, Q f) :
    Agree R Q (zoom view put part) (zoom view put part) := by
  intro s t hR
  unfold zoom
  rw [hview s t hR]
  cases part (view t) with
  | ok a x =>
      exact .ok a (hput s t x hR)
  | error f x =>
      exact .error (hQ f) (hput s t x hR)

end Likeness

section Invariants

variable {P : σ → Prop} {Q : Fault → Prop} {act : Act σ α}

/-- A question about the state keeps every invariant. -/
theorem agree_ask
    {ask : σ → Except Fault α}
    (h : ∀ s f, P s → ask s = .error f → Q f) :
    Agree (Diagonal P) Q
      (fun s => ofExcept (ask s) s)
      (fun s => ofExcept (ask s) s) := by
  rintro s _ ⟨rfl, hP⟩
  cases hs : ask s with
  | ok a =>
      simpa only [hs] using .ok a ⟨rfl, hP⟩
  | error f =>
      simpa only [hs] using .error (h s f hP hs) ⟨rfl, hP⟩

theorem agree_change
    {change : σ → σ}
    (h : ∀ s, P s → P (change s)) :
    Agree (Diagonal P) Q (modify change) (modify change) := by
  rintro s _ ⟨rfl, hP⟩
  exact .ok () ⟨rfl, h s hP⟩

/-- An action on a part of the state keeps an invariant of the whole. -/
theorem agree_zoom
    {τ : Type}
    {view : σ → τ} {put : τ → σ → σ} {part : Act τ α}
    (hok : ∀ s a t, P s → part (view s) = .ok a t → P (put t s))
    (herror : ∀ s f t, P s → part (view s) = .error f t → Q f ∧ P (put t s)) :
    Agree (Diagonal P) Q (zoom view put part) (zoom view put part) := by
  rintro s _ ⟨rfl, hP⟩
  unfold zoom
  cases h : part (view s) with
  | ok a t =>
      exact .ok a ⟨rfl, hok s a t hP h⟩
  | error f t =>
      obtain ⟨hQ, hP'⟩ := herror s f t hP h
      exact .error hQ ⟨rfl, hP'⟩

theorem diagonal_ok
    (h : Agree (Diagonal P) Q act act)
    {s t : σ} {a : α}
    (hP : P s)
    (hs : act s = .ok a t) :
    P t := by
  have halike := h s s ⟨rfl, hP⟩
  rw [hs] at halike
  cases halike with
  | ok _ hR =>
      exact hR.2

theorem diagonal_error
    (h : Agree (Diagonal P) Q act act)
    {s t : σ} {f : Fault}
    (hP : P s)
    (hs : act s = .error f t) :
    Q f ∧ P t := by
  have halike := h s s ⟨rfl, hP⟩
  rw [hs] at halike
  cases halike with
  | error hQ hR =>
      exact ⟨hQ, hR.2⟩

end Invariants

section Changes

/-- The state that a result leaves. -/
def left : EStateM.Result Fault σ α → σ
  | .ok _ s => s
  | .error _ s => s

/-- An action that changes states along a relation, also when it fails. -/
def Moves (R : σ → σ → Prop) (act : Act σ α) : Prop :=
  ∀ s, R s (left (act s))

/-- An action that changes states along a relation when it fails. -/
def Fails (R : σ → σ → Prop) (act : Act σ α) : Prop :=
  ∀ s f t, act s = .error f t → R s t

variable {R : σ → σ → Prop}

theorem moves_pure
    (hrefl : ∀ s, R s s)
    (a : α) :
    Moves R (pure a) :=
  hrefl

theorem moves_bind
    (htrans : ∀ s t u, R s t → R t u → R s u)
    {act : Act σ α} {next : α → Act σ β}
    (hact : Moves R act)
    (hnext : ∀ a, Moves R (next a)) :
    Moves R (act >>= next) := by
  intro s
  have hfirst := hact s
  cases hs : act s with
  | ok a t =>
      rw [hs] at hfirst
      rw [bind_ok hs]
      exact htrans _ _ _ hfirst (hnext a t)
  | error f t =>
      rw [hs] at hfirst
      rw [bind_error hs]
      exact hfirst

/-- A question about the state changes nothing. -/
theorem moves_ask
    (hrefl : ∀ s, R s s)
    (ask : σ → Except Fault α) :
    Moves R fun s => ofExcept (ask s) s := by
  intro s
  dsimp only
  cases ask s with
  | ok a =>
      exact hrefl s
  | error f =>
      exact hrefl s

theorem moves_zoom
    {τ : Type}
    {view : σ → τ} {put : τ → σ → σ} {part : Act τ α}
    (h : ∀ s, R s (put (left (part (view s))) s)) :
    Moves R (zoom view put part) := by
  intro s
  have hs := h s
  unfold zoom
  cases hpart : part (view s) with
  | ok a t =>
      rw [hpart] at hs
      exact hs
  | error f t =>
      rw [hpart] at hs
      exact hs

theorem Moves.fails
    {act : Act σ α}
    (h : Moves R act) :
    Fails R act := by
  intro s f t hs
  have hmoves := h s
  rw [hs] at hmoves
  exact hmoves

/-- An invariant holds of whatever is left. -/
theorem diagonal_left
    {P : σ → Prop} {Q : Fault → Prop} {act : Act σ α}
    (h : Agree (Diagonal P) Q act act)
    {s : σ}
    (hP : P s) :
    P (left (act s)) := by
  cases hs : act s with
  | ok a t =>
      exact diagonal_ok h hP hs
  | error f t =>
      exact (diagonal_error h hP hs).2

/-- Only what comes before the part that fails has to move along the relation. -/
theorem fails_bind
    (htrans : ∀ s t u, R s t → R t u → R s u)
    {act : Act σ α} {next : α → Act σ β}
    (hact : Moves R act)
    (hnext : ∀ a, Fails R (next a)) :
    Fails R (act >>= next) := by
  intro s f u h
  have hfirst := hact s
  cases hs : act s with
  | ok a t =>
      rw [hs] at hfirst
      rw [bind_ok hs] at h
      exact htrans _ _ _ hfirst (hnext a t f u h)
  | error f' t =>
      rw [hs] at hfirst
      rw [bind_error hs] at h
      injection h with _ hu
      rw [← hu]
      exact hfirst

end Changes

end Act
end FungeTrace
