import ApiClient.Proofs.Client.SignatureRun
import ApiClient.Proofs.Json.Sameness
import ApiClient.Proofs.Naming.Fresh
import Mathlib

/-!
# The parameters of an operation

The parameters of a path and of an operation are declared one after another, each in place or by a
pointer (`Signature.parameterOf`). `Signature.Merges` says what is left of them: one for every name and
place, in the order of their first declaration, each as it is declared last. Putting one more
parameter keeps this (`Signature.Merges.put`), so it holds of what a run gives
(`Signature.merges_of_mergeParameters`).
-/

namespace ApiClient.Signature

open Naming Working

variable {r : Resolver} {s s' : TypeState} {p q : Parameter} {merged declared : List Parameter}

/-! ## The same name and place -/

theorem sameKey_refl (p : Parameter) : sameKey p p = true := by
  simp [sameKey, Json.same_refl]

theorem sameKey_comm (p q : Parameter) : sameKey p q = sameKey q p := by
  have hsymm : ∀ p q : Parameter, sameKey p q = true → sameKey q p = true := by
    intro p q h
    simp only [sameKey, Bool.and_eq_true] at h ⊢
    exact ⟨Json.same_symm h.1, Json.same_symm h.2⟩
  exact Bool.eq_iff_iff.2 ⟨hsymm p q, hsymm q p⟩

theorem sameKey_trans {x : Parameter} (h : sameKey p q = true) (h' : sameKey q x = true) :
    sameKey p x = true := by
  simp only [sameKey, Bool.and_eq_true] at h h' ⊢
  exact ⟨Json.same_trans h.1 h'.1, Json.same_trans h.2 h'.2⟩

theorem sameKey_congr (h : sameKey p q = true) (x : Parameter) : sameKey p x = sameKey q x :=
  Bool.eq_iff_iff.2 ⟨sameKey_trans (sameKey_comm p q ▸ h), sameKey_trans h⟩

/-! ## One more parameter -/

theorem putParameter_of_forall (h : ∀ q ∈ merged, sameKey q p = false) :
    putParameter p merged = merged ++ [p] := by
  induction merged with
  | nil => rfl
  | cons q rest ih =>
    rw [putParameter, if_neg (by simp [h q List.mem_cons_self]),
      ih fun x hx => h x (List.mem_cons_of_mem q hx), List.cons_append]

/-- A parameter takes the place of the one with its name and place. -/
theorem forall₂_putParameter {firsts : List Parameter}
    (h : List.Forall₂ (fun p q => sameKey p q = true) firsts merged)
    (hp : ∃ q ∈ merged, sameKey q p = true) :
    List.Forall₂ (fun p q => sameKey p q = true) firsts (putParameter p merged) := by
  induction h with
  | nil => simp at hp
  | @cons f q firsts rest hfq hrest ih =>
    rw [putParameter]
    split_ifs with hq
    · exact .cons (sameKey_trans hfq hq) hrest
    · exact .cons hfq (ih (by simpa [hq] using hp))

theorem mem_putParameter (h : merged.Pairwise fun p q => sameKey p q = false) :
    q ∈ putParameter p merged ↔ q = p ∨ q ∈ merged ∧ sameKey q p = false := by
  induction merged with
  | nil => simp [putParameter]
  | cons x rest ih =>
    obtain ⟨hx, hrest⟩ := List.pairwise_cons.1 h
    rw [putParameter]
    split_ifs with hxp
    · have hother : ∀ q ∈ rest, sameKey q p = false := fun q hq => by
        rw [sameKey_comm, ← sameKey_congr hxp, hx q hq]
      constructor
      · intro hq
        exact (List.mem_cons.1 hq).imp_right fun hq => ⟨List.mem_cons_of_mem x hq, hother q hq⟩
      · rintro (rfl | ⟨hq, hqp⟩)
        · exact List.mem_cons_self
        · rcases List.mem_cons.1 hq with rfl | hq
          · simp [hxp] at hqp
          · exact List.mem_cons_of_mem p hq
    · rw [List.mem_cons, ih hrest, List.mem_cons]
      constructor
      · rintro (rfl | rfl | ⟨hq, hqp⟩)
        · exact Or.inr ⟨Or.inl rfl, by simpa using hxp⟩
        · exact Or.inl rfl
        · exact Or.inr ⟨Or.inr hq, hqp⟩
      · rintro (rfl | ⟨rfl | hq, hqp⟩)
        · exact Or.inr (Or.inl rfl)
        · exact Or.inl rfl
        · exact Or.inr (Or.inr ⟨hq, hqp⟩)

theorem pairwise_putParameter (p : Parameter) (h : merged.Pairwise fun p q => sameKey p q = false) :
    (putParameter p merged).Pairwise fun p q => sameKey p q = false := by
  induction merged with
  | nil => simp [putParameter]
  | cons x rest ih =>
    obtain ⟨hx, hrest⟩ := List.pairwise_cons.1 h
    rw [putParameter]
    split_ifs with hxp
    · exact .cons (fun q hq => by rw [← sameKey_congr hxp, hx q hq]) hrest
    · refine .cons (fun q hq => ?_) (ih hrest)
      obtain rfl | ⟨hq, -⟩ := (mem_putParameter hrest).1 hq
      · simpa using hxp
      · exact hx q hq

/-! ## Merging -/

/-- What is left of the parameters that are declared one after another. -/
structure Merges (declared merged : List Parameter) : Prop where
  /-- No two of them have the same name and place. -/
  distinct : merged.Pairwise fun p q => sameKey p q = false
  /-- There is one for every declaration. -/
  covers : ∀ p ∈ declared, ∃ q ∈ merged, sameKey p q = true
  /-- Each is the last declaration of its name and place. -/
  last : ∀ p ∈ merged, ∃ before after, declared = before ++ p :: after ∧
    ∀ q ∈ after, sameKey p q = false
  /-- They stand in the order of the first declarations. -/
  order : List.Forall₂ (fun p q => sameKey p q = true) (firstUses sameKey declared) merged

theorem merges_nil : Merges [] [] :=
  ⟨.nil, by simp, by simp, .nil⟩

theorem Merges.mem_of_mem (h : Merges declared merged) (hp : p ∈ merged) : p ∈ declared := by
  obtain ⟨before, after, rfl, -⟩ := h.last p hp
  simp

theorem Merges.order_put (h : Merges declared merged) (p : Parameter) :
    List.Forall₂ (fun p q => sameKey p q = true) (firstUses sameKey (declared ++ [p]))
      (putParameter p merged) := by
  rw [firstUses_append_singleton]
  split_ifs with hany
  · obtain ⟨d, hd, hdp⟩ := List.any_eq_true.1 hany
    obtain ⟨q, hq, hdq⟩ := h.covers d hd
    rw [List.append_nil]
    exact forall₂_putParameter h.order ⟨q, hq, by rw [← sameKey_congr hdq, hdp]⟩
  · have hnew : ∀ q ∈ merged, sameKey q p = false := fun q hq => by
      by_contra hqp
      exact hany (List.any_eq_true.2 ⟨q, h.mem_of_mem hq, by simpa using hqp⟩)
    rw [putParameter_of_forall hnew]
    exact List.rel_append h.order (.cons (sameKey_refl p) .nil)

/-- One more declaration is put where its name and place were declared first. -/
theorem Merges.put (h : Merges declared merged) (p : Parameter) :
    Merges (declared ++ [p]) (putParameter p merged) where
  distinct := pairwise_putParameter p h.distinct
  covers := by
    intro d hd
    by_cases hdp : sameKey d p = true
    · exact ⟨p, (mem_putParameter h.distinct).2 (Or.inl rfl), hdp⟩
    · rcases List.mem_append.1 hd with hd | hd
      · obtain ⟨q, hq, hdq⟩ := h.covers d hd
        refine ⟨q, (mem_putParameter h.distinct).2 (Or.inr ⟨hq, ?_⟩), hdq⟩
        rw [← sameKey_congr hdq]
        simpa using hdp
      · obtain rfl := List.mem_singleton.1 hd
        exact absurd (sameKey_refl d) hdp
  last := by
    intro q hq
    obtain rfl | ⟨hq, hqp⟩ := (mem_putParameter h.distinct).1 hq
    · exact ⟨declared, [], rfl, by simp⟩
    · obtain ⟨before, after, rfl, hafter⟩ := h.last q hq
      refine ⟨before, after ++ [p], by simp, fun x hx => ?_⟩
      rcases List.mem_append.1 hx with hx | hx
      · exact hafter x hx
      · rwa [List.mem_singleton.1 hx]
  order := h.order_put p

theorem merges_of_mergeParameters : ∀ {values : List (RefOr Parameter)} {s s' : TypeState}
    {declared merged result : List Parameter}, Merges declared merged →
      outcome (mergeParameters r merged values) s = (.ok result, s') →
        ∃ more, values.map (parameterOf r) = more.map some ∧ Merges (declared ++ more) result
  | [], s, s', declared, merged, result, hmerged, h => by
    obtain ⟨rfl, -⟩ := of_outcome_pure h
    exact ⟨[], rfl, by simpa using hmerged⟩
  | value :: rest, s, s', declared, merged, result, hmerged, h => by
    obtain ⟨p, s₁, hp, hrest⟩ := exists_of_outcome_bind h
    split at hrest
    · obtain ⟨more, hmore, hresult⟩ := merges_of_mergeParameters (hmerged.put p) hrest
      refine ⟨p :: more, ?_, by simpa using hresult⟩
      have htarget : parameterOf r value = some p := target_of_followed hp
      rw [List.map_cons, List.map_cons, htarget, hmore]
    · cases hrest

end ApiClient.Signature
