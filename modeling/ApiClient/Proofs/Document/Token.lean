import ApiClient.Document.Pointer
import ApiClient.Proofs.Text.Line
import ApiClient.Proofs.Text.Occurrence
import Mathlib

/-!
# Tokens of pointers

A pointer to a component ends in a token that stands for the key. Escaping writes a key character by
character (`Pointer.toList_escape`), so the token has no slash and is not empty unless the key is, and
the key comes back from it (`Pointer.unescape_escape`). A pointer is taken apart into a section and a
token if neither is empty or has a slash (`Pointer.split_eq_ok_iff`).
-/

namespace ApiClient

namespace Pointer

/-! ## Characters of a token -/

/-- What is written in a token for a character of a key. -/
def tokenChar (c : Char) : List Char :=
  if c = '~' then ['~', '0'] else if c = '/' then ['~', '1'] else [c]

theorem toList_escape (key : String) : (escape key).toList = key.toList.flatMap tokenChar := by
  have htilde : "~".toList = ['~'] := by decide
  have hzero : "~0".toList = ['~', '0'] := by decide
  have hslash : "/".toList = ['/'] := by decide
  have hone : "~1".toList = ['~', '1'] := by decide
  rw [escape, Text.replaceAll, Text.replaceAll, htilde, hzero, hslash, hone, String.toList_ofList,
    String.toList_ofList, Text.replaceChars_singleton, Text.replaceChars_singleton,
    List.flatMap_assoc]
  refine List.flatMap_congr fun c _ => ?_
  by_cases h : c = '~'
  · subst h
    decide
  · simp [tokenChar, h]

/-- Slashes come back first: a tilde is still written as two characters then. -/
theorem replaceChars_slash (cs : List Char) :
    Text.replaceChars ['~', '1'] ['/'] (cs.flatMap tokenChar) =
      cs.flatMap fun c => if c = '~' then ['~', '0'] else [c] := by
  induction cs with
  | nil => rw [List.flatMap_nil, List.flatMap_nil, Text.replaceChars]
  | cons c rest ih =>
    rw [List.flatMap_cons, List.flatMap_cons, ← ih, tokenChar]
    by_cases htilde : c = '~'
    · rw [if_pos htilde, if_pos htilde]
      exact (Text.replaceChars_cons (by simp [Text.dropFront?]) _).trans
        (congrArg _ (Text.replaceChars_cons (by simp [Text.dropFront?]) _))
    · rw [if_neg htilde, if_neg htilde]
      by_cases hslash : c = '/'
      · rw [if_pos hslash, hslash]
        exact Text.replaceChars_append (List.cons_ne_nil _ _) _ _
      · rw [if_neg hslash]
        exact Text.replaceChars_cons (by simp [Text.dropFront?, Ne.symm htilde]) _

theorem replaceChars_tilde (cs : List Char) : Text.replaceChars ['~', '0'] ['~']
    (cs.flatMap fun c => if c = '~' then ['~', '0'] else [c]) = cs := by
  induction cs with
  | nil => rw [List.flatMap_nil, Text.replaceChars]
  | cons c rest ih =>
    rw [List.flatMap_cons]
    by_cases htilde : c = '~'
    · rw [if_pos htilde, Text.replaceChars_append (List.cons_ne_nil _ _), ih, htilde]
      rfl
    · rw [if_neg htilde, List.singleton_append,
        Text.replaceChars_cons (by simp [Text.dropFront?, Ne.symm htilde]), ih]

/-- A key comes back from its token. -/
theorem unescape_escape (key : String) : unescape (escape key) = key := by
  have hzero : "~0".toList = ['~', '0'] := by decide
  have hone : "~1".toList = ['~', '1'] := by decide
  have htilde : "~".toList = ['~'] := by decide
  have hslash : "/".toList = ['/'] := by decide
  rw [unescape, Text.replaceAll, Text.replaceAll, hzero, hone, htilde, hslash, String.toList_ofList,
    toList_escape, replaceChars_slash, replaceChars_tilde, String.ofList_toList]

/-! ## Pointers to components -/

theorem slash_notMem_escape (key : String) : '/' ∉ (escape key).toList := by
  rw [toList_escape, List.mem_flatMap]
  rintro ⟨c, -, hc⟩
  rw [tokenChar] at hc
  split at hc
  · simp at hc
  · split at hc
    · simp at hc
    · rename_i hne
      exact hne (List.mem_singleton.1 hc).symm

theorem escape_ne_empty {key : String} (h : key ≠ "") : escape key ≠ "" := by
  have hempty : escape "" = "" := by
    refine String.toList_injective ?_
    rw [toList_escape]
    rfl
  intro hescape
  refine h ?_
  calc key = unescape (escape key) := (unescape_escape key).symm
    _ = unescape (escape "") := by rw [hescape, hempty]
    _ = "" := unescape_escape ""

/-- The pointer to the component under a key. -/
def toComponent (s : Section) (key : String) : String :=
  "#/components/" ++ s.key ++ "/" ++ escape key

/-- A text is cut at one slash into two parts without one. -/
theorem split_slash_iff {rest area token : String} : Text.split '/' rest = [area, token] ↔
    rest = area ++ "/" ++ token ∧ '/' ∉ area.toList ∧ '/' ∉ token.toList := by
  have hslash : "/".toList = ['/'] := by decide
  constructor
  · intro h
    have hjoin := Text.join_split hslash rest
    rw [h] at hjoin
    have hnot : ∀ s ∈ [area, token], '/' ∉ s.toList := by
      intro s hs
      obtain ⟨piece, hpiece, rfl⟩ := List.mem_map.1 (h ▸ hs)
      rw [String.toList_ofList]
      exact Text.notMem_of_mem_splitOnChar hpiece
    exact ⟨hjoin.symm, hnot area (by simp), hnot token (by simp)⟩
  · rintro ⟨rfl, harea, htoken⟩
    rw [Text.split, String.toList_append, String.toList_append, hslash, List.append_assoc,
      List.singleton_append, Text.splitOnChar_append, Text.splitOnChar_of_notMem harea,
      Text.splitOnChar_of_notMem htoken]
    simp

/-- A pointer is taken apart if it is the path of the components, a section and a token. -/
theorem split_eq_ok_iff {pointer area token : String} :
    split pointer = .ok (area, token) ↔
      pointer = "#/components/" ++ area ++ "/" ++ token ∧ area ≠ "" ∧ token ≠ "" ∧
        '/' ∉ area.toList ∧ '/' ∉ token.toList := by
  constructor
  · intro h
    rw [split] at h
    split at h
    · cases h
    · rename_i rest hrest
      split at h
      · rename_i area' token' hpieces
        split at h
        · cases h
        · rename_i hne
          obtain ⟨rfl, rfl⟩ := Prod.mk.inj (Except.ok.inj h)
          obtain ⟨rfl, harea, htoken⟩ := split_slash_iff.1 hpieces
          refine ⟨?_, fun h => hne (Or.inl h), fun h => hne (Or.inr h), harea, htoken⟩
          rw [Text.after?_eq_some_iff.1 hrest]
          simp only [String.append_assoc]
      · cases h
  · rintro ⟨rfl, harea, htoken, hareaSlash, htokenSlash⟩
    have hafter : Text.after? "#/components/" ("#/components/" ++ area ++ "/" ++ token) =
        some (area ++ "/" ++ token) :=
      Text.after?_eq_some_iff.2 (by simp only [String.append_assoc])
    have hpieces := split_slash_iff.2 ⟨rfl, hareaSlash, htokenSlash⟩
    rw [split, hafter]
    simp only [hpieces]
    rw [if_neg (by simp [harea, htoken])]

theorem key_ne_empty (s : Section) : s.key ≠ "" := by
  cases s <;> decide

theorem slash_notMem_key (s : Section) : '/' ∉ s.key.toList := by
  cases s <;> decide

theorem ofKey?_key (s : Section) : Section.ofKey? s.key = some s := by
  cases s <;> decide

end Pointer

end ApiClient
