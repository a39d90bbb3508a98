import ApiClient.Proofs.Document.Token
import Mathlib

/-!
# One step of a pointer

A pointer leads to an entry if it is the path of the components, the key of a section and a token
without a slash, and the section has an entry under the key that the token stands for. Such a pointer
leads there (`Pointer.resolve_of_entry`), any other text leads nowhere (`Pointer.exists_of_resolve`),
and every key has a token (`Pointer.entry_of_pointer_iff`).
-/

namespace ApiClient

theorem Section.eq_key_of_ofKey? {key : String} {s : Section} (h : ofKey? key = some s) :
    key = s.key := by
  rw [ofKey?] at h
  have hkey := List.find?_some h
  exact (of_decide_eq_true hkey).symm

namespace Pointer

variable {components : Option Components} {expected : Option (List Section)} {pointer name : String}
  {entry : RefOr Component}

/-- What is expected of an entry: an object is to be of one of the sections, if any are given. -/
def IsWelcome (expected : Option (List Section)) (entry : RefOr Component) : Prop :=
  ∀ found, entry = .inline found → ∀ sections ∈ expected, found.home ∈ sections

theorem isWelcome_ref (expected : Option (List Section)) (next : String) :
    IsWelcome expected (.ref next) :=
  fun _ h => nomatch h

theorem isWelcome_inline_iff {found : Component} :
    IsWelcome expected (.inline found) ↔ isExpected expected found = true := by
  have hone : IsWelcome expected (.inline found) ↔ ∀ sections ∈ expected, found.home ∈ sections :=
    ⟨fun h => h found rfl, fun h _ heq => RefOr.inline.inj heq ▸ h⟩
  rw [hone]
  cases expected with
  | none => simp [isExpected]
  | some sections => simp [isExpected]

/-- A token that stands for the key of an entry makes a pointer to this entry. -/
theorem resolve_of_entry {c : Components} {s : Section} {token : String} (htoken : token ≠ "")
    (hslash : '/' ∉ token.toList) (hentry : (c.table s).get? (unescape token) = some entry)
    (hwelcome : IsWelcome expected entry) :
    resolve (some c) expected ("#/components/" ++ s.key ++ "/" ++ token) =
      .ok (Naming.className (unescape token), entry) := by
  have hsplit : split ("#/components/" ++ s.key ++ "/" ++ token) = .ok (s.key, token) :=
    split_eq_ok_iff.2 ⟨rfl, key_ne_empty s, htoken, slash_notMem_key s, hslash⟩
  rw [resolve, hsplit]
  simp only [bind, Except.bind, ofKey?_key, hentry]
  cases entry with
  | ref next => rfl
  | inline found => exact if_pos (isWelcome_inline_iff.1 hwelcome)

/-- A pointer that leads to an entry has such a token. -/
theorem exists_of_resolve (h : resolve components expected pointer = .ok (name, entry)) :
    ∃ c s token, components = some c ∧ pointer = "#/components/" ++ s.key ++ "/" ++ token ∧
      token ≠ "" ∧ '/' ∉ token.toList ∧ (c.table s).get? (unescape token) = some entry ∧
      IsWelcome expected entry ∧ name = Naming.className (unescape token) := by
  rw [resolve] at h
  cases hsplit : split pointer with
  | error e => simp [hsplit, bind, Except.bind] at h
  | ok parts =>
    obtain ⟨area, token⟩ := parts
    obtain ⟨hpointer, -, htoken, -, hslash⟩ := split_eq_ok_iff.1 hsplit
    simp only [hsplit, bind, Except.bind] at h
    split at h
    · cases h
    · rename_i c
      split at h
      · cases h
      · rename_i s harea
        obtain rfl := Section.eq_key_of_ofKey? harea
        split at h
        · cases h
        · rename_i found hfound
          refine ⟨c, s, token, rfl, hpointer, htoken, hslash, ?_⟩
          split at h
          · obtain ⟨rfl, rfl⟩ := Prod.mk.inj (Except.ok.inj h)
            exact ⟨hfound, isWelcome_ref _ _, rfl⟩
          · split at h
            · rename_i hexpected
              obtain ⟨rfl, rfl⟩ := Prod.mk.inj (Except.ok.inj h)
              exact ⟨hfound, isWelcome_inline_iff.2 hexpected, rfl⟩
            · cases h

/-- The pointers that lead to an entry: those of the nine sections with a token that is not empty, has
no slash and stands for a key of the section, where the entry is a pointer or an object of those
that are expected. Such a pointer leads to this entry, under the class name of the key. Every key
comes back from its token. -/
theorem entry_of_pointer_iff (components : Option Components) (expected : Option (List Section))
    (pointer : String) :
    (∀ name entry, resolve components expected pointer = .ok (name, entry) ↔
      ∃ c s token, components = some c ∧ pointer = "#/components/" ++ s.key ++ "/" ++ token ∧
        token ≠ "" ∧ '/' ∉ token.toList ∧ (c.table s).get? (unescape token) = some entry ∧
        IsWelcome expected entry ∧ name = Naming.className (unescape token)) ∧
    ∀ key, unescape (escape key) = key := by
  refine ⟨fun name entry => ⟨exists_of_resolve, ?_⟩, unescape_escape⟩
  rintro ⟨c, s, token, rfl, rfl, htoken, hslash, hentry, hwelcome, rfl⟩
  exact resolve_of_entry htoken hslash hentry hwelcome

end Pointer

end ApiClient
