import ApiClient.Text.Replace
import Mathlib

/-!
# Occurrences and replacements

What `replaceChars` does from the left, one occurrence or one other character at a time
(`replaceChars_append`, `replaceChars_cons`), and what `occursIn` finds (`occursIn_iff`). A part
without a character occurs in a text with that character in it only on one side of it
(`isInfix_append_cons_iff`), so it does not reach into characters it does not have.
-/

namespace ApiClient.Text

variable {old new part cs rest : List Char} {c : Char}

/-! ## Replacements -/

theorem replaceChars_append (hold : old ≠ []) (new rest : List Char) :
    replaceChars old new (old ++ rest) = new ++ replaceChars old new rest := by
  obtain ⟨c, old, rfl⟩ := List.exists_cons_of_ne_nil hold
  have hdrop : dropFront? (c :: old) (c :: (old ++ rest)) = some rest :=
    dropFront?_eq_some_iff.2 rfl
  rw [List.cons_append, replaceChars]
  split
  · rename_i after h
    obtain rfl : after = rest := Option.some.inj (h.symm.trans hdrop)
    rw [dif_neg hold]
  · rename_i h
    rw [hdrop] at h
    cases h

theorem replaceChars_cons (h : dropFront? old (c :: rest) = none) (new : List Char) :
    replaceChars old new (c :: rest) = c :: replaceChars old new rest := by
  rw [replaceChars]
  split
  · rename_i after hafter
    rw [h] at hafter
    cases hafter
  · rfl

theorem after?_eq_some_iff {front s rest : String} :
    after? front s = some rest ↔ s = front ++ rest := by
  rw [after?, Option.map_eq_some_iff]
  constructor
  · rintro ⟨cs, hcs, rfl⟩
    refine String.toList_injective ?_
    rw [dropFront?_eq_some_iff.1 hcs, String.toList_append, String.toList_ofList]
  · rintro rfl
    exact ⟨rest.toList, dropFront?_eq_some_iff.2 String.toList_append, String.ofList_toList⟩

/-- A single character is replaced wherever it stands. -/
theorem replaceChars_singleton (c : Char) (new cs : List Char) :
    replaceChars [c] new cs = cs.flatMap fun d => if d = c then new else [d] := by
  induction cs with
  | nil => rw [replaceChars, List.flatMap_nil]
  | cons d rest ih =>
    rw [List.flatMap_cons, ← ih]
    by_cases h : d = c
    · subst h
      rw [if_pos rfl]
      exact replaceChars_append (List.cons_ne_nil d []) new rest
    · rw [if_neg h]
      exact replaceChars_cons (by simp [dropFront?, Ne.symm h]) new

/-! ## Occurrences -/

theorem occursIn_iff : occursIn part cs = true ↔ part <:+: cs := by
  induction cs with
  | nil => rw [occursIn, List.isEmpty_iff, List.infix_nil]
  | cons c cs ih =>
    rw [occursIn, Bool.or_eq_true, ih, List.infix_cons_iff, Option.isSome_iff_exists]
    refine or_congr_left (exists_congr fun rest => ?_)
    rw [dropFront?_eq_some_iff, eq_comm]

variable {a b : List Char} {sep : Char}

theorem isPrefix_append_cons_iff (hsep : sep ∉ part) : part <+: a ++ sep :: b ↔ part <+: a := by
  refine ⟨fun h => ?_, fun h => h.trans (List.prefix_append a _)⟩
  have hfront : a ++ [sep] <+: a ++ sep :: b := ⟨b, by simp⟩
  rcases List.prefix_or_prefix_of_prefix h hfront with h | h
  · rcases List.prefix_concat_iff.1 h with rfl | h
    · exact absurd (List.mem_concat_self) hsep
    · exact h
  · exact absurd (h.subset List.mem_concat_self) hsep

/-- A part without the character that stands between two texts occurs in one of them. -/
theorem isInfix_append_cons_iff (hsep : sep ∉ part) :
    part <:+: a ++ sep :: b ↔ part <:+: a ∨ part <:+: b := by
  induction a with
  | nil =>
    have hprefix := isPrefix_append_cons_iff (a := []) (b := b) hsep
    rw [List.nil_append] at hprefix ⊢
    rw [List.infix_cons_iff, hprefix, List.prefix_nil, List.infix_nil]
  | cons c a ih =>
    rw [List.cons_append, List.infix_cons_iff, ih, List.infix_cons_iff, ← List.cons_append,
      isPrefix_append_cons_iff hsep, or_assoc]

theorem not_isInfix_of_forall (hne : part ≠ []) (h : ∀ c ∈ cs, c ∉ part) : ¬part <:+: cs := by
  intro hpart
  obtain ⟨c, rest, rfl⟩ := List.exists_cons_of_ne_nil hne
  exact h c (hpart.subset List.mem_cons_self) List.mem_cons_self

/-- A part does not reach into what is in front of a text, if that shares no character with it. -/
theorem isInfix_append_left_iff (hne : part ≠ []) (h : ∀ c ∈ a, c ∉ part) :
    part <:+: a ++ b ↔ part <:+: b := by
  induction a with
  | nil => rfl
  | cons c a ih =>
    obtain ⟨hc, ha⟩ := List.forall_mem_cons.1 h
    have hcut := isInfix_append_cons_iff (a := []) (b := a ++ b) hc
    rw [List.nil_append, List.infix_nil, or_iff_right hne, ih ha] at hcut
    exact hcut

/-- A part does not reach into what is behind a text, if that shares no character with it. -/
theorem isInfix_append_right_iff (hne : part ≠ []) (h : ∀ c ∈ b, c ∉ part) :
    part <:+: a ++ b ↔ part <:+: a := by
  cases b with
  | nil => rw [List.append_nil]
  | cons c b =>
    obtain ⟨hc, hb⟩ := List.forall_mem_cons.1 h
    rw [isInfix_append_cons_iff hc, or_iff_left (not_isInfix_of_forall hne hb)]

theorem isInfix_pair_cons_iff {d e : Char} :
    [d, e] <:+: c :: rest ↔ (c = d ∧ rest.head? = some e) ∨ [d, e] <:+: rest := by
  rw [List.infix_cons_iff, List.cons_prefix_cons]
  cases rest with
  | nil => simp
  | cons f rest => simp [List.cons_prefix_cons, eq_comm]

end ApiClient.Text
