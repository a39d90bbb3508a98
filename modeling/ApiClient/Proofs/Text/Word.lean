import ApiClient.Text.Blank
import ApiClient.Text.CharClass
import Mathlib

/-!
# Words of a text

A word is a run of letters, digits and underscores that is not part of a longer one. The words of two
texts with another character between them are the words of either (`isWord_append_cons_iff`). An
identifier holds only characters that start or continue one (`isIdentifierChar_of_mem`).
-/

namespace ApiClient.Text

/-- `word` stands in `text` as a word. -/
def IsWord (word text : List Char) : Prop :=
  word ≠ [] ∧ (∀ c ∈ word, isWordChar c = true) ∧ ∃ before after, text = before ++ word ++ after ∧
    (∀ c ∈ before.getLast?, isWordChar c = false) ∧ ∀ c ∈ after.head?, isWordChar c = false

variable {word a b : List Char} {c : Char}

theorem not_isWord_nil (word : List Char) : ¬IsWord word [] := by
  rintro ⟨hne, -, before, after, h, -⟩
  simp only [List.nil_eq, List.append_eq_nil_iff] at h
  exact hne h.1.2

/-- A text of word characters only is its own word. -/
theorem IsWord.eq_of_all (h : IsWord word a) (ha : ∀ c ∈ a, isWordChar c = true) : word = a := by
  obtain ⟨-, -, before, after, rfl, hbefore, hafter⟩ := h
  have hfront : before = [] := by
    rcases List.eq_nil_or_concat before with rfl | ⟨front, d, rfl⟩
    · rfl
    · exact absurd (hbefore d (by simp)) (by simp [ha d (by simp)])
  have hback : after = [] := by
    rcases after with _ | ⟨d, back⟩
    · rfl
    · exact absurd (hafter d rfl) (by simp [ha d (by simp)])
  simp [hfront, hback]

theorem IsWord.append_left (h : IsWord word a) (hc : isWordChar c = false) :
    IsWord word (a ++ c :: b) := by
  obtain ⟨hne, hword, before, after, rfl, hbefore, hafter⟩ := h
  refine ⟨hne, hword, before, after ++ c :: b, by simp, hbefore, fun d hd => ?_⟩
  cases after with
  | nil =>
    obtain rfl : c = d := by simpa using hd
    exact hc
  | cons e rest => exact hafter d (by simpa using hd)

theorem IsWord.append_right (h : IsWord word b) (hc : isWordChar c = false) :
    IsWord word (a ++ c :: b) := by
  obtain ⟨hne, hword, before, after, rfl, hbefore, hafter⟩ := h
  refine ⟨hne, hword, a ++ c :: before, after, by simp, fun d hd => ?_, hafter⟩
  rcases List.eq_nil_or_concat before with rfl | ⟨front, e, rfl⟩
  · obtain rfl : c = d := by simpa using hd
    exact hc
  · exact hbefore d (by simpa [List.getLast?_append, List.getLast?_cons] using hd)

theorem isWord_append_cons_iff (hc : isWordChar c = false) :
    IsWord word (a ++ c :: b) ↔ IsWord word a ∨ IsWord word b := by
  refine ⟨?_, fun h => h.elim (·.append_left hc) (·.append_right hc)⟩
  rintro ⟨hne, hword, before, after, h, hbefore, hafter⟩
  have hmem : c ∉ word := fun hcw => by simp [hword c hcw] at hc
  rw [List.append_assoc] at h
  rcases List.append_eq_append_iff.1 h with ⟨front, rfl, hcut⟩ | ⟨back, rfl, hcut⟩
  · -- the word stands behind the character
    refine Or.inr ⟨hne, hword, ?_⟩
    rcases front with _ | ⟨d, front⟩
    · obtain ⟨d, rest, rfl⟩ := List.exists_cons_of_ne_nil hne
      obtain rfl : c = d := (List.cons.inj hcut).1
      exact absurd List.mem_cons_self hmem
    · obtain ⟨rfl, rfl⟩ := List.cons.inj hcut
      refine ⟨front, after, by simp, fun d hd => hbefore d ?_, hafter⟩
      rcases List.eq_nil_or_concat front with rfl | ⟨front', e, rfl⟩
      · cases hd
      · simpa [List.getLast?_append, List.getLast?_cons] using hd
  · -- the word stands in front of it
    refine Or.inl ⟨hne, hword, ?_⟩
    rcases List.append_eq_append_iff.1 hcut with ⟨rest, rfl, hrest⟩ | ⟨rest, rfl, hrest⟩
    · refine ⟨before, rest, by simp, hbefore, fun d hd => hafter d ?_⟩
      rw [hrest]
      cases rest with
      | nil => cases hd
      | cons e more => simpa using hd
    · rcases rest with _ | ⟨d, rest⟩
      · exact ⟨before, [], by simp, hbefore, fun d hd => by cases hd⟩
      · obtain ⟨rfl, -⟩ := List.cons.inj hrest
        exact absurd (by simp) hmem

/-- The words of texts that are joined by a character that is none of words are those of the
texts. -/
theorem IsWord.join {sep : Char} (hsep : isWordChar sep = false) {texts : List String}
    {text : String} (hmem : text ∈ texts) (h : IsWord word text.toList) :
    IsWord word (Text.join (String.singleton sep) texts).toList := by
  induction texts with
  | nil => cases hmem
  | cons s rest ih =>
    cases rest with
    | nil =>
      obtain rfl := List.mem_singleton.1 hmem
      exact h
    | cons t rest =>
      have hcut : (Text.join (String.singleton sep) (s :: t :: rest)).toList =
          s.toList ++ sep :: (Text.join (String.singleton sep) (t :: rest)).toList := by
        simp [Text.join, String.toList_append]
      rw [hcut]
      rcases List.mem_cons.1 hmem with rfl | hmem
      · exact h.append_left hsep
      · exact (ih hmem).append_right hsep

/-! ## Identifiers -/

/-- A character that may stand somewhere in an identifier. -/
def isIdentifierChar (c : Char) : Bool :=
  isIdentifierStart c || isIdentifierContinue c

theorem isIdentifierChar_of_mem {name : String} (h : isIdentifier name = true) :
    ∀ c ∈ name.toList, isIdentifierChar c = true := by
  intro c hc
  unfold isIdentifier at h
  split at h
  · cases h
  · rename_i d rest hchars
    rw [hchars] at hc
    rw [Bool.and_eq_true, List.all_eq_true] at h
    rcases List.mem_cons.1 hc with rfl | hc
    · simp [isIdentifierChar, h.1]
    · simp [isIdentifierChar, h.2 c hc]

end ApiClient.Text
