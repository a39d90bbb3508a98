import ApiClient.Client.Draft
import Mathlib

/-!
# Work on a state

Resolving and drafting are work of one kind: from a state it gives a result or a failure, and a
state in either case. `outcome_bind` and its neighbours say what each part of a `do` block does to
the outcome. `Moves R work` says that `work` leads from every state to one that is related to it by
`R`; for a preorder `R` it holds of a block when it holds of its parts, and so does `Delivers R
work`, which speaks of the runs that give a result only. `Agrees E work` compares two runs: from
states that are related by `E` they give the same result and end in related states.
-/

namespace ApiClient

/-- Work on a state: a result or a failure, and the state after it in either case. -/
abbrev Working (σ : Type) := ExceptT Failure (StateM σ)

namespace Working

variable {σ α β : Type}

/-! ## Outcomes -/

/-- The result of work from a state or its failure, and the state after it. -/
def outcome (x : Working σ α) (s : σ) : Except Failure α × σ :=
  x.run s

theorem outcome_bind (x : Working σ α) (f : α → Working σ β) (s : σ) :
    outcome (x >>= f) s = match (outcome x s).1 with
      | .ok a => outcome (f a) (outcome x s).2
      | .error e => (.error e, (outcome x s).2) := by
  have hbind : outcome (x >>= f) s = ExceptT.bindCont f (outcome x s).1 (outcome x s).2 := rfl
  rw [hbind]
  cases (outcome x s).1 <;> rfl

theorem outcome_pure (a : α) (s : σ) : outcome (pure a : Working σ α) s = (.ok a, s) :=
  rfl

theorem of_outcome_pure {a b : α} {s s' : σ}
    (h : outcome (pure a : Working σ α) s = (.ok b, s')) : b = a ∧ s' = s := by
  obtain ⟨hb, rfl⟩ := Prod.mk.inj h
  exact ⟨(Except.ok.inj hb).symm, rfl⟩

theorem outcome_get (s : σ) : outcome (get : Working σ σ) s = (.ok s, s) :=
  rfl

theorem outcome_modify (f : σ → σ) (s : σ) :
    outcome (modify f : Working σ Unit) s = (.ok (), f s) :=
  rfl

/-- Noting the place of a failure changes nothing else. -/
theorem outcome_within (place : String) (x : Working σ α) (s : σ) :
    outcome (tryCatch x fun f => throw (f.within place)) s =
      ((outcome x s).1.mapError (Failure.within place), (outcome x s).2) := by
  rcases h : outcome x s with ⟨_ | a, s₁⟩ <;>
  · simp only [outcome, ExceptT.run, tryCatch, tryCatchThe, MonadExceptOf.tryCatch,
      ExceptT.tryCatch, ExceptT.mk, bind, StateT.bind] at h ⊢
    rw [h]
    rfl

theorem outcome_bind_of_ok {x : Working σ α} {f : α → Working σ β} {s s₁ : σ} {a : α}
    (h : outcome x s = (.ok a, s₁)) : outcome (x >>= f) s = outcome (f a) s₁ := by
  rw [outcome_bind, h]

/-- A block that succeeds has parts that do. -/
theorem exists_of_outcome_bind {x : Working σ α} {f : α → Working σ β} {s s' : σ} {b : β}
    (h : outcome (x >>= f) s = (.ok b, s')) :
    ∃ a s₁, outcome x s = (.ok a, s₁) ∧ outcome (f a) s₁ = (.ok b, s') := by
  rw [outcome_bind] at h
  rcases hx : outcome x s with ⟨_ | a, s₁⟩
  · simp [hx] at h
  · exact ⟨a, s₁, rfl, by simpa [hx] using h⟩

theorem outcome_of_toOption {x : Working σ α} {s : σ} {a : α}
    (h : (outcome x s).1.toOption = some a) : outcome x s = (.ok a, (outcome x s).2) := by
  rcases hx : outcome x s with ⟨_ | b, s₁⟩
  · simp [hx, Except.toOption] at h
  · simpa [hx, Except.toOption] using h

theorem outcome_of_within {place : String} {x : Working σ α} {s s' : σ} {a : α}
    (h : outcome (tryCatch x fun f => throw (f.within place)) s = (.ok a, s')) :
    outcome x s = (.ok a, s') := by
  rw [outcome_within] at h
  rcases hx : outcome x s with ⟨_ | b, s₁⟩
  · simp [hx, Except.mapError] at h
  · simpa [hx, Except.mapError] using h

/-! ## Moves -/

/-- Every run leads to a related state. -/
def Moves (R : σ → σ → Prop) (x : Working σ α) : Prop :=
  ∀ s, R s (outcome x s).2

variable {R : σ → σ → Prop}

/-- A block leads where its first part and, if that gives a result, the rest lead. -/
theorem after_bind [IsTrans σ R] {x : Working σ α} {f : α → Working σ β} {s : σ}
    (hx : R s (outcome x s).2)
    (hf : ∀ a s₁, outcome x s = (.ok a, s₁) → R s₁ (outcome (f a) s₁).2) :
    R s (outcome (x >>= f) s).2 := by
  rw [outcome_bind]
  rcases h : outcome x s with ⟨_ | a, s₁⟩
  · simpa [h] using hx
  · rw [h] at hx
    exact IsTrans.trans _ _ _ hx (hf a s₁ h)

theorem Moves.leads {x : Working σ α} (hx : Moves R x) {s s' : σ} {result : Except Failure α}
    (h : outcome x s = (result, s')) : R s s' := by
  have hs := hx s
  rwa [h] at hs

theorem Moves.pure [Std.Refl R] (a : α) : Moves R (Pure.pure a : Working σ α) :=
  fun s => Std.Refl.refl s

theorem Moves.throw [Std.Refl R] (e : Failure) : Moves R (MonadExcept.throw e : Working σ α) :=
  fun s => Std.Refl.refl s

theorem Moves.bind [IsTrans σ R] {x : Working σ α} {f : α → Working σ β} (hx : Moves R x)
    (hf : ∀ a, Moves R (f a)) : Moves R (x >>= f) :=
  fun s => after_bind (hx s) fun a s₁ _ => hf a s₁

theorem Moves.within {x : Working σ α} (hx : Moves R x) (place : String) :
    Moves R (tryCatch x fun f => MonadExcept.throw (f.within place)) := by
  intro s
  rw [outcome_within]
  exact hx s

/-- Every run that gives a result leads to a related state. -/
def Delivers (R : σ → σ → Prop) (x : Working σ α) : Prop :=
  ∀ s s' a, outcome x s = (.ok a, s') → R s s'

theorem Delivers.pure [Std.Refl R] (a : α) : Delivers R (Pure.pure a : Working σ α) := by
  intro s s' b h
  obtain ⟨-, rfl⟩ := of_outcome_pure h
  exact Std.Refl.refl s'

theorem Delivers.throw (e : Failure) : Delivers R (MonadExcept.throw e : Working σ α) :=
  fun _ _ _ h => by cases h

theorem Delivers.bind [IsTrans σ R] {x : Working σ α} {f : α → Working σ β} (hx : Delivers R x)
    (hf : ∀ a, Delivers R (f a)) : Delivers R (x >>= f) := by
  intro s s' b h
  obtain ⟨a, s₁, hfirst, hrest⟩ := exists_of_outcome_bind h
  exact IsTrans.trans _ _ _ (hx s s₁ a hfirst) (hf a s₁ s' b hrest)

theorem Delivers.within {x : Working σ α} (hx : Delivers R x) (place : String) :
    Delivers R (tryCatch x fun f => MonadExcept.throw (f.within place)) :=
  fun s s' a h => hx s s' a (outcome_of_within h)

/-! ## Two runs -/

/-- Two runs that start in related states give the same result and end in related states. -/
def Agrees (E : σ → σ → Prop) (x : Working σ α) : Prop :=
  ∀ s t, E s t → (outcome x s).1 = (outcome x t).1 ∧ E (outcome x s).2 (outcome x t).2

variable {E : σ → σ → Prop}

theorem Agrees.pure (a : α) : Agrees E (Pure.pure a : Working σ α) :=
  fun _ _ h => ⟨rfl, h⟩

theorem Agrees.throw (e : Failure) : Agrees E (MonadExcept.throw e : Working σ α) :=
  fun _ _ h => ⟨rfl, h⟩

theorem Agrees.modify {f : σ → σ} (hf : ∀ s t, E s t → E (f s) (f t)) :
    Agrees E (modify f : Working σ Unit) :=
  fun s t h => ⟨rfl, hf s t h⟩

theorem Agrees.bind {x : Working σ α} {f : α → Working σ β} (hx : Agrees E x)
    (hf : ∀ a, Agrees E (f a)) : Agrees E (x >>= f) := by
  intro s t h
  obtain ⟨hresult, hstate⟩ := hx s t h
  rw [outcome_bind, outcome_bind, hresult]
  cases (outcome x t).1 with
  | error e => exact ⟨rfl, hstate⟩
  | ok a => exact hf a _ _ hstate

theorem Agrees.within {x : Working σ α} (hx : Agrees E x) (place : String) :
    Agrees E (tryCatch x fun f => MonadExcept.throw (f.within place)) := by
  intro s t h
  obtain ⟨hresult, hstate⟩ := hx s t h
  rw [outcome_within, outcome_within, hresult]
  exact ⟨rfl, hstate⟩

/-! ## Closed properties -/

/-- A property of work that holds of results and of failures, and of a block when it holds of its
parts. -/
structure Closed (P : ∀ α : Type, Working σ α → Prop) : Prop where
  pure : ∀ {α : Type} (a : α), P α (Pure.pure a)
  throw : ∀ {α : Type} (e : Failure), P α (MonadExcept.throw e)
  bind : ∀ {α β : Type} {x : Working σ α} {f : α → Working σ β}, P α x → (∀ a, P β (f a)) →
    P β (x >>= f)
  within : ∀ {α : Type} {x : Working σ α} (place : String), P α x →
    P α (tryCatch x fun f => MonadExcept.throw (f.within place))

theorem closed_moves [Std.Refl R] [IsTrans σ R] : Closed fun _ (x : Working σ _) => Moves R x where
  pure := Moves.pure
  throw := Moves.throw
  bind := Moves.bind
  within place hx := hx.within place

theorem closed_delivers [Std.Refl R] [IsTrans σ R] :
    Closed fun _ (x : Working σ _) => Delivers R x where
  pure := Delivers.pure
  throw := Delivers.throw
  bind := Delivers.bind
  within place hx := hx.within place

theorem closed_agrees : Closed fun _ (x : Working σ _) => Agrees E x where
  pure := Agrees.pure
  throw := Agrees.throw
  bind := Agrees.bind
  within place hx := hx.within place

end Working

/-! ## Steps of resolving -/

namespace Resolver

open Working

theorem outcome_record (entries : Journal) (s : TypeState) :
    outcome (record entries) s = (.ok (), { s with journal := s.journal ++ entries }) :=
  rfl

theorem outcome_note (level : Level) (reporter : Reporter) (message : String) (s : TypeState) :
    outcome (note level reporter message) s =
      (.ok (), { s with journal := s.journal ++ [⟨level, reporter, message⟩] }) :=
  rfl

end Resolver

end ApiClient
