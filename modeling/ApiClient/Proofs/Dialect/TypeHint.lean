import ApiClient.Dialect.Python
import ApiClient.Proofs.Naming.Character
import ApiClient.Proofs.Text.Word
import ApiClient.Proofs.Types.Expression
import Mathlib

/-!
# Type hints of Python types

The words of a type hint are builtin types, the name for any type, and the names that its expression
mentions (`isWord_text`). The search for a word that decides about an import finds every word
(`hasWord_of_isWord`).
-/

namespace ApiClient.Dialect.Python

open Naming Template Text

/-! ## Words of type hints -/

/-- The builtin types that type hints use. -/
def builtins : List String :=
  ["str", "int", "float", "bool", "bytes", "list", "dict"]

/-- The type hint of a field. -/
def typeHint (f : Field) : String :=
  if f.required then f.type.short else "NotRequired[" ++ f.type.short ++ "]"

theorem eq_of_isWord {word text : String} (htext : IsPlainName text)
    (h : IsWord word.toList text.toList) : word = text :=
  String.toList_injective (h.eq_of_all fun c hc => (htext c hc).isWordChar)

theorem isWord_mapType {word value : String}
    (h : IsWord word.toList (mapType .python value).toList) :
    word = "dict" ∨ word = "str" ∨ IsWord word.toList value.toList := by
  have hcut : (mapType .python value).toList = "dict".toList ++ '[' :: ("str".toList ++
      ',' :: ([] ++ ' ' :: (value.toList ++ ']' :: []))) := by
    have hfront : "dict[str, ".toList = "dict".toList ++ '[' :: ("str".toList ++ [',', ' ']) := by
      decide
    have hback : "]".toList = [']'] := by decide
    simp [mapType, String.toList_append, hfront, hback]
  rw [hcut, isWord_append_cons_iff (by decide), isWord_append_cons_iff (by decide),
    isWord_append_cons_iff (by decide), isWord_append_cons_iff (by decide)] at h
  rcases h with h | h | h | h | h
  · exact Or.inl (eq_of_isWord (isPlainName_of_all (by decide)) h)
  · exact Or.inr (Or.inl (eq_of_isWord (isPlainName_of_all (by decide)) h))
  · exact absurd h (not_isWord_nil _)
  · exact Or.inr (Or.inr h)
  · exact absurd h (not_isWord_nil _)

theorem isWord_bracket {word front opened inner : String} (hopened : opened = front ++ "[")
    (hfront : IsPlainName front) (h : IsWord word.toList (opened ++ inner ++ "]").toList) :
    word = front ∨ IsWord word.toList inner.toList := by
  have hcut : (opened ++ inner ++ "]").toList =
      front.toList ++ '[' :: (inner.toList ++ ']' :: []) := by
    have hopen : "[".toList = ['['] := by decide
    have hclose : "]".toList = [']'] := by decide
    simp [hopened, String.toList_append, hopen, hclose]
  rw [hcut, isWord_append_cons_iff (by decide), isWord_append_cons_iff (by decide)] at h
  rcases h with h | h | h
  · exact Or.inl (eq_of_isWord hfront h)
  · exact Or.inr h
  · exact absurd h (not_isWord_nil _)

theorem mem_builtins_of_scalarType {type text : String} {format : Json}
    (h : scalarType .python type format = some text) : text ∈ builtins := by
  unfold scalarType at h
  split at h
  case h_1 =>
    obtain rfl := Option.some.inj h
    split <;> decide
  case h_2 | h_3 | h_4 =>
    obtain rfl := Option.some.inj h
    decide
  case h_9 => cases h
  -- the other cases are those of the other dialect
  all_goals contradiction

theorem isPlainName_of_mem_builtins {name : String} (h : name ∈ builtins) : IsPlainName name := by
  have hall : builtins.all (fun name => name.toList.all isAsciiAlphanumeric) = true := by decide
  exact isPlainName_of_all (List.all_eq_true.1 hall name h)

/-- The words of a type expression are builtin types, the name for any type, and the names that the
expression mentions. -/
theorem isWord_text {e : TypeExpr} (hproper : e.IsProper .python)
    (hnames : ∀ n ∈ e.names, IsPlainName n) {word : String}
    (h : IsWord word.toList (e.text .python id).toList) :
    word ∈ builtins ∨ word = "Any" ∨ word ∈ e.names := by
  induction e with
  | plain text =>
    have htext : IsWord word.toList text.toList := h
    obtain rfl | ⟨type, format, htype⟩ := hproper
    · have hunit : unitType .python = mapType .python "Any" := by decide
      rw [hunit] at htext
      rcases isWord_mapType htext with rfl | rfl | hany
      · exact Or.inl (by decide)
      · exact Or.inl (by decide)
      · exact Or.inr (Or.inl (eq_of_isWord (isPlainName_of_all (by decide)) hany))
    · have hmem : text ∈ builtins := mem_builtins_of_scalarType htype
      rw [eq_of_isWord (isPlainName_of_mem_builtins hmem) htext]
      exact Or.inl hmem
  | named name =>
    have hname : name ∈ (TypeExpr.named name).names := List.mem_singleton_self name
    rw [eq_of_isWord (hnames name hname) h]
    exact Or.inr (Or.inr hname)
  | list item ih =>
    have htext : IsWord word.toList ("list[" ++ item.text .python id ++ "]").toList := h
    have hopened : "list[" = "list" ++ "[" := by decide
    rcases isWord_bracket hopened (isPlainName_of_all (by decide)) htext with rfl | hitem
    · exact Or.inl (by decide)
    · exact ih hproper hnames hitem
  | table value ih =>
    have htext : IsWord word.toList (mapType .python (value.text .python id)).toList := h
    rcases isWord_mapType htext with rfl | rfl | hvalue
    · exact Or.inl (by decide)
    · exact Or.inl (by decide)
    · exact ih hproper hnames hvalue

/-- What stands in a text as a word is found there. -/
theorem hasWord_of_isWord {word text : List Char} (h : IsWord word text) :
    hasWord word none text = true := by
  obtain ⟨hne, -, before, after, rfl, hbefore, hafter⟩ := h
  obtain ⟨w, rest, rfl⟩ := List.exists_cons_of_ne_nil hne
  have hdrop : dropFront? (w :: rest) (w :: rest ++ after) = some after :=
    dropFront?_eq_some_iff.2 rfl
  have hahead : (!after.head?.any isWordChar) = true := by
    cases after with
    | nil => rfl
    | cons c more => simp [hafter c rfl]
  suffices hgeneral : ∀ (before : List Char) (previous : Option Char),
      (∀ c ∈ before.getLast?.or previous, isWordChar c = false) →
        hasWord (w :: rest) previous (before ++ (w :: rest) ++ after) = true by
    exact hgeneral before none (by simpa using hbefore)
  intro before
  induction before with
  | nil =>
    intro previous hprevious
    have hbehind : (!previous.any isWordChar) = true := by
      cases previous with
      | none => rfl
      | some c => simp [hprevious c rfl]
    rw [List.nil_append, List.cons_append, hasWord, ← List.cons_append, hdrop, hbehind]
    simp [hahead]
  | cons c more ih =>
    intro previous hprevious
    rw [List.cons_append, List.cons_append, hasWord, ih]
    · simp
    · intro d hd
      refine hprevious d ?_
      rw [List.getLast?_cons]
      cases hlast : more.getLast? with
      | none => simpa [hlast] using hd
      | some e => simpa [hlast] using hd

end ApiClient.Dialect.Python
