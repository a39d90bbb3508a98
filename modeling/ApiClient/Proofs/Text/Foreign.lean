import ApiClient.Proofs.Text.Blank
import ApiClient.Proofs.Text.Occurrence
import Mathlib

/-!
# Characters that a part does not have

A part does not reach across a character that it does not have. So it occurs in joined texts exactly if it
occurs in one of them, when the text between them is foreign to it (`isInfix_join_iff`), and in the words
of a text exactly if it occurs in the text, when it has no white space (`isInfix_words_iff`). Foreign
characters may be replaced by other foreign ones wherever they stand (`Recast`): this neither makes up an
occurrence nor takes one away (`Recast.isInfix_iff`).
-/

namespace ApiClient.Text

variable {part cs cs' old new sep a b : List Char}

/-- A text of characters that the part does not have. -/
structure IsForeign (part cs : List Char) : Prop where
  ne_nil : cs ≠ []
  notMem : ∀ c ∈ cs, c ∉ part

instance (part cs : List Char) : Decidable (IsForeign part cs) :=
  decidable_of_iff (cs ≠ [] ∧ cs.all (· ∉ part) = true)
    ⟨fun h => ⟨h.1, by simpa using h.2⟩, fun h => ⟨h.ne_nil, by simpa using h.notMem⟩⟩

/-! ## Ends of a part -/

/-- A part does not begin in front of a text, if its first character is not there. -/
theorem isInfix_append_iff_of_head {c : Char} (hc : c ∉ a) :
    c :: part <:+: a ++ b ↔ c :: part <:+: b := by
  induction a with
  | nil => rfl
  | cons d a ih =>
    obtain ⟨hd, ha⟩ := List.ne_and_not_mem_of_not_mem_cons hc
    rw [List.cons_append, List.infix_cons_iff, ih ha, List.cons_prefix_cons,
      or_iff_right fun h => hd h.1]

/-- A part does not end behind a text, if its last character is not there. -/
theorem isInfix_append_iff_of_last {c : Char} (hc : c ∉ b) :
    part ++ [c] <:+: a ++ b ↔ part ++ [c] <:+: a := by
  have hreverse : c ∉ b.reverse := by simpa using hc
  rw [← List.reverse_infix, ← @List.reverse_infix _ _ a, List.reverse_append, List.reverse_append,
    List.reverse_singleton, List.singleton_append, isInfix_append_iff_of_head hreverse]

/-! ## Joined texts -/

theorem IsForeign.isInfix_append_iff (hne : part ≠ []) (h : IsForeign part sep) :
    part <:+: a ++ (sep ++ b) ↔ part <:+: a ∨ part <:+: b := by
  obtain ⟨c, more, rfl⟩ := List.exists_cons_of_ne_nil h.ne_nil
  obtain ⟨hc, hmore⟩ := List.forall_mem_cons.1 h.notMem
  rw [List.cons_append, isInfix_append_cons_iff hc, isInfix_append_left_iff hne hmore]

theorem isInfix_join_iff (hne : part ≠ []) {separator : String}
    (h : IsForeign part separator.toList) {texts : List String} :
    part <:+: (join separator texts).toList ↔ ∃ text ∈ texts, part <:+: text.toList := by
  induction texts with
  | nil => simpa [join] using hne
  | cons text rest ih =>
    cases rest with
    | nil => simp [join]
    | cons next more =>
      rw [join_cons_cons, String.toList_append, String.toList_append, List.append_assoc,
        h.isInfix_append_iff hne, ih]
      simp only [List.mem_cons, exists_eq_or_imp]

/-! ## Words -/

theorem isInfix_wordsFrom_iff (hne : part ≠ []) (hpart : ∀ c ∈ part, isBlank c = false)
    (begun cs : List Char) :
    part <:+: begun ++ cs ↔ ∃ word ∈ wordsFrom begun cs, part <:+: word := by
  have hnil : ¬part <:+: [] := by simpa using hne
  induction cs generalizing begun with
  | nil =>
    rw [wordsFrom, List.append_nil]
    split_ifs with hbegun
    · simpa [hbegun] using hne
    · simp
  | cons c rest ih =>
    rw [wordsFrom]
    split_ifs with hblank hbegun
    · rw [isInfix_append_cons_iff (notMem_of_isBlank hpart hblank), hbegun, or_iff_right hnil]
      exact ih []
    · rw [isInfix_append_cons_iff (notMem_of_isBlank hpart hblank), List.exists_mem_cons_iff]
      exact or_congr_right (ih [])
    · have hmore := ih (begun ++ [c])
      rwa [List.append_assoc, List.singleton_append] at hmore

theorem isInfix_words_iff (hne : part ≠ []) (hpart : ∀ c ∈ part, isBlank c = false) (s : String) :
    part <:+: s.toList ↔ ∃ word ∈ words s, part <:+: word.toList := by
  have hwords := isInfix_wordsFrom_iff hne hpart [] s.toList
  simpa [words, String.toList_ofList] using hwords

/-! ## Replacements -/

/-- The second text is the first one with foreign characters in the place of some foreign ones. -/
inductive Recast (part : List Char) : List Char → List Char → Prop
  | nil : Recast part [] []
  | keep (c : Char) {cs cs' : List Char} (h : Recast part cs cs') : Recast part (c :: cs) (c :: cs')
  | swap {old new cs cs' : List Char} (hold : IsForeign part old) (hnew : IsForeign part new)
    (h : Recast part cs cs') : Recast part (old ++ cs) (new ++ cs')

theorem IsForeign.isPrefix_append_iff (h : IsForeign part sep) {front : List Char}
    (hfront : ∀ c ∈ front, c ∈ part) : front <+: sep ++ b ↔ front = [] := by
  obtain ⟨c, more, rfl⟩ := List.exists_cons_of_ne_nil h.ne_nil
  refine ⟨fun hprefix => ?_, fun hnil => hnil ▸ List.nil_prefix⟩
  cases front with
  | nil => rfl
  | cons d rest =>
    obtain ⟨rfl, -⟩ := List.cons_prefix_cons.1 hprefix
    exact absurd (hfront d List.mem_cons_self) (h.notMem d List.mem_cons_self)

theorem Recast.isPrefix_iff (h : Recast part cs cs') {front : List Char}
    (hfront : ∀ c ∈ front, c ∈ part) : front <+: cs ↔ front <+: cs' := by
  induction h generalizing front with
  | nil => rfl
  | keep c h ih =>
    cases front with
    | nil => simp
    | cons d rest =>
      rw [List.cons_prefix_cons, List.cons_prefix_cons,
        ih fun e he => hfront e (List.mem_cons_of_mem d he)]
  | swap hold hnew h ih => rw [hold.isPrefix_append_iff hfront, hnew.isPrefix_append_iff hfront]

/-- A part occurs in the recast text exactly if it occurs in the text. -/
theorem Recast.isInfix_iff (hne : part ≠ []) (h : Recast part cs cs') :
    part <:+: cs ↔ part <:+: cs' := by
  induction h with
  | nil => rfl
  | keep c h ih =>
    rw [List.infix_cons_iff, List.infix_cons_iff, ih, (h.keep c).isPrefix_iff fun c hc => hc]
  | swap hold hnew h ih =>
    rw [isInfix_append_left_iff hne hold.notMem, isInfix_append_left_iff hne hnew.notMem, ih]

theorem recast_replaceChars (hold : IsForeign part old) (hnew : IsForeign part new)
    (cs : List Char) : Recast part cs (replaceChars old new cs) := by
  induction hlength : cs.length using Nat.strong_induction_on generalizing cs with
  | _ n ih =>
    subst hlength
    cases cs with
    | nil =>
      rw [replaceChars]
      exact .nil
    | cons c rest =>
      cases hdrop : dropFront? old (c :: rest) with
      | none =>
        rw [replaceChars_cons hdrop]
        exact .keep c (ih rest.length (Nat.lt_succ_self _) rest rfl)
      | some after =>
        have hcut := dropFront?_eq_some_iff.1 hdrop
        have hless : after.length < (c :: rest).length := by
          have hpos := List.length_pos_iff.2 hold.ne_nil
          rw [hcut, List.length_append]
          omega
        rw [hcut, replaceChars_append hold.ne_nil]
        exact .swap hold hnew (ih after.length hless after rfl)

theorem recast_flatMap {write : Char → List Char}
    (h : ∀ c ∈ cs, write c = [c] ∨ c ∉ part ∧ IsForeign part (write c)) :
    Recast part cs (cs.flatMap write) := by
  induction cs with
  | nil => exact .nil
  | cons c rest ih =>
    obtain ⟨hc, hrest⟩ := List.forall_mem_cons.1 h
    rw [List.flatMap_cons]
    rcases hc with hself | ⟨hforeign, hwrite⟩
    · rw [hself]
      exact .keep c (ih hrest)
    · have hself : IsForeign part [c] := ⟨List.cons_ne_nil _ _, by simpa using hforeign⟩
      exact .swap hself hwrite (ih hrest)

end ApiClient.Text
