import ApiClient.Json.Printer
import ApiClient.Proofs.Naming.Character
import ApiClient.Proofs.Template.Characters
import Mathlib

/-!
# Characters of spelt values

A value that is spelt for a message or printed as JSON has escapes in the place of control characters. So
the character that a marker begins with is in none of its texts (`Json.unmarked_spelling`,
`Json.unmarked_write`); only a text that stands by itself keeps its characters (`Json.unmarked_display`).
-/

namespace ApiClient

open Template

theorem Template.unmarked_flatMap {write : Char → List Char} {cs : List Char}
    (h : ∀ c ∈ cs, Unmarked (write c)) : Unmarked (cs.flatMap write) := by
  intro hmem
  obtain ⟨c, hc, hnul⟩ := List.mem_flatMap.1 hmem
  exact h c hc hnul

/-! ## Numbers -/

theorem unmarked_toString_nat (n : Nat) : Unmarked (toString n).toList := fun hmem =>
  absurd (Naming.isPlainName_toString n _ hmem) (by decide)

theorem unmarked_toString_int (n : Int) : Unmarked (toString n).toList := by
  cases n with
  | ofNat n => exact unmarked_toString_nat n
  | negSucc n =>
    have hminus : Unmarked "-".toList := by decide
    have hcut : (toString (Int.negSucc n)).toList = "-".toList ++ (toString (n + 1)).toList := by
      rw [← String.toList_append]
      rfl
    rw [hcut]
    exact unmarked_append.2 ⟨hminus, unmarked_toString_nat (n + 1)⟩

namespace Floating

theorem unmarked_zeros (n : Nat) : Unmarked (zeros n).toList := by
  rw [zeros, String.toList_ofList]
  exact fun hmem => absurd (List.eq_of_mem_replicate hmem) (by decide)

theorem unmarked_exponentText (e : Int) : Unmarked (exponentText e).toList := by
  simp only [exponentText, String.toList_append, unmarked_append]
  refine ⟨⟨?_, unmarked_zeros _⟩, unmarked_toString_nat _⟩
  split_ifs <;> decide

theorem unmarked_decimalText (d : Decimal) : Unmarked (decimalText d).toList := by
  have hdigits : Unmarked (toString d.digits).toList := unmarked_toString_nat d.digits
  have htake : ∀ n, Unmarked ((toString d.digits).toList.take n) := fun n =>
    hdigits.sublist (List.take_sublist _ _)
  have hdrop : ∀ n, Unmarked ((toString d.digits).toList.drop n) := fun n =>
    hdigits.sublist (List.drop_sublist _ _)
  have hpoint : Unmarked ".".toList ∧ Unmarked "e".toList ∧ Unmarked "0.".toList ∧
      Unmarked ".0".toList := by decide
  simp only [decimalText]
  split_ifs <;> simp only [String.toList_append, String.toList_ofList, unmarked_append]
  · exact ⟨⟨⟨htake 1, List.not_mem_nil⟩, hpoint.2.1⟩, unmarked_exponentText _⟩
  · exact ⟨⟨⟨htake 1, hpoint.1, hdrop 1⟩, hpoint.2.1⟩, unmarked_exponentText _⟩
  · exact ⟨⟨hpoint.2.2.1, unmarked_zeros _⟩, hdigits⟩
  · exact ⟨⟨htake _, hpoint.1⟩, hdrop _⟩
  · exact ⟨⟨hdigits, unmarked_zeros _⟩, hpoint.2.2.2⟩

theorem unmarked_text (x : Floating) : Unmarked x.text.toList := by
  cases x with
  | infinite negative => cases negative <;> decide
  | finite negative significand exponent =>
    rw [text, String.toList_append, unmarked_append]
    refine ⟨by cases negative <;> decide, ?_⟩
    split_ifs
    · decide
    · exact unmarked_decimalText _

end Floating

namespace Json

/-! ## Quoted texts -/

theorem unmarked_hexDigits (width n : Nat) : Unmarked (hexDigits width n) := by
  have hdigit : ∀ m < 16, Char.ofNat 0 ≠ hexDigit m := by decide
  induction width generalizing n with
  | zero => exact List.not_mem_nil
  | succ width ih =>
    rw [hexDigits]
    refine unmarked_append.2 ⟨ih _, unmarked_cons.2 ⟨?_, List.not_mem_nil⟩⟩
    exact hdigit _ (Nat.mod_lt _ (by decide))

theorem unmarked_codeEscape (n : Nat) : Unmarked (codeEscape n) := by
  rw [codeEscape]
  split_ifs <;>
    exact unmarked_cons.2 ⟨by decide, unmarked_cons.2 ⟨by decide, unmarked_hexDigits _ _⟩⟩

theorem unmarked_quotedChar {quote : Char} (hquote : Char.ofNat 0 ≠ quote) (c : Char) :
    Unmarked (quotedChar quote c) := by
  rw [quotedChar]
  split_ifs with hescape hfeed hreturn htab hprintable
  · refine unmarked_cons.2 ⟨by decide, unmarked_cons.2 ⟨?_, List.not_mem_nil⟩⟩
    rcases hescape with rfl | rfl
    · exact hquote
    · decide
  · decide
  · decide
  · decide
  · refine unmarked_cons.2 ⟨?_, List.not_mem_nil⟩
    rintro rfl
    exact absurd hprintable (by decide)
  · exact unmarked_codeEscape c.toNat

theorem unmarked_quoted (s : String) : Unmarked (quoted s).toList := by
  have hends : ∀ quote, Char.ofNat 0 ≠ quote →
      Unmarked (quote :: s.toList.flatMap (quotedChar quote) ++ [quote]) := fun quote hquote =>
    unmarked_append.2 ⟨unmarked_cons.2 ⟨hquote, unmarked_flatMap fun c _ => unmarked_quotedChar hquote c⟩,
      unmarked_cons.2 ⟨hquote, List.not_mem_nil⟩⟩
  simp only [quoted, String.toList_ofList]
  split_ifs <;> exact hends _ (by decide)

/-! ## Spelt values -/

mutual

theorem unmarked_spelling : ∀ j : Json, Unmarked j.spelling.toList
  | null => by decide
  | bool b => by cases b <;> decide
  | int n => unmarked_toString_int n
  | float x => x.unmarked_text
  | str s => unmarked_quoted s
  | arr items => by
    have hends : Unmarked "[".toList ∧ Unmarked "]".toList := by decide
    rw [spelling, String.toList_append, String.toList_append, unmarked_append, unmarked_append]
    exact ⟨⟨hends.1, unmarked_itemSpellings items⟩, hends.2⟩
  | obj members => by
    have hends : Unmarked "\x7b".toList ∧ Unmarked "\x7d".toList := by decide
    rw [spelling, String.toList_append, String.toList_append, unmarked_append, unmarked_append]
    exact ⟨⟨hends.1, unmarked_memberSpellings members⟩, hends.2⟩

theorem unmarked_itemSpellings : ∀ items : List Json, Unmarked (itemSpellings items).toList
  | [] => by decide
  | [x] => unmarked_spelling x
  | x :: y :: rest => by
    have hcomma : Unmarked ", ".toList := by decide
    rw [itemSpellings, String.toList_append, String.toList_append, unmarked_append, unmarked_append]
    · exact ⟨⟨unmarked_spelling x, hcomma⟩, unmarked_itemSpellings (y :: rest)⟩
    · simp

theorem unmarked_memberSpellings : ∀ members : List (String × Json),
    Unmarked (memberSpellings members).toList
  | [] => by decide
  | [(k, v)] => by
    have hcolon : Unmarked ": ".toList := by decide
    rw [memberSpellings, String.toList_append, String.toList_append, unmarked_append,
      unmarked_append]
    exact ⟨⟨unmarked_quoted k, hcolon⟩, unmarked_spelling v⟩
  | (k, v) :: next :: rest => by
    have hends : Unmarked ": ".toList ∧ Unmarked ", ".toList := by decide
    rw [memberSpellings]
    · simp only [String.toList_append, unmarked_append]
      exact ⟨⟨⟨⟨unmarked_quoted k, hends.1⟩, unmarked_spelling v⟩, hends.2⟩,
        unmarked_memberSpellings (next :: rest)⟩
    · simp

end

theorem unmarked_display {j : Json} (h : ∀ s, j = .str s → Unmarked s.toList) :
    Unmarked j.display.toList := by
  cases j with
  | str s => exact h s rfl
  | _ => exact unmarked_spelling _

/-! ## Printed values -/

theorem unmarked_literalChar (c : Char) : Unmarked (literalChar c) := by
  rw [literalChar]
  split_ifs with _ _ _ _ _ _ _ hcontrol
  all_goals try decide
  · exact unmarked_cons.2 ⟨by decide, unmarked_cons.2 ⟨by decide, unmarked_hexDigits _ _⟩⟩
  · refine unmarked_cons.2 ⟨?_, List.not_mem_nil⟩
    rintro rfl
    exact hcontrol (by decide)

theorem unmarked_literal (s : String) : Unmarked (literal s).toList := by
  rw [literal, String.toList_ofList]
  refine unmarked_append.2 ⟨unmarked_cons.2 ⟨by decide, ?_⟩, by decide⟩
  exact unmarked_flatMap fun c _ => unmarked_literalChar c

theorem unmarked_numberText (x : Floating) : Unmarked (numberText x).toList := by
  cases x with
  | infinite negative => cases negative <;> decide
  | finite negative significand exponent => exact (Floating.finite ..).unmarked_text

theorem unmarked_word : Unmarked "null".toList ∧ Unmarked "true".toList ∧ Unmarked "false".toList ∧
    Unmarked "".toList := by
  decide

/-- A style that writes texts, and what stands between values, without the character. -/
structure Style.IsUnmarked (style : Style) : Prop where
  text (s : String) : Unmarked (style.text s).toList
  comma : Unmarked style.comma.toList
  colon : Unmarked style.colon.toList

variable {style : Style} (hstyle : style.IsUnmarked)

include hstyle

mutual

theorem unmarked_write : ∀ j : Json, Unmarked (j.write style).toList
  | null => unmarked_word.1
  | bool true => unmarked_word.2.1
  | bool false => unmarked_word.2.2.1
  | int n => unmarked_toString_int n
  | float x => unmarked_numberText x
  | str s => hstyle.text s
  | arr items => by
    have hends : Unmarked "[".toList ∧ Unmarked "]".toList := by decide
    rw [write, String.toList_append, String.toList_append, unmarked_append, unmarked_append]
    exact ⟨⟨hends.1, unmarked_writeItems items⟩, hends.2⟩
  | obj members => by
    have hends : Unmarked "\x7b".toList ∧ Unmarked "\x7d".toList := by decide
    rw [write, String.toList_append, String.toList_append, unmarked_append, unmarked_append]
    exact ⟨⟨hends.1, unmarked_writeMembers members⟩, hends.2⟩

theorem unmarked_writeItems : ∀ items : List Json, Unmarked (writeItems style items).toList
  | [] => unmarked_word.2.2.2
  | [x] => unmarked_write x
  | x :: y :: rest => by
    rw [writeItems, String.toList_append, String.toList_append, unmarked_append, unmarked_append]
    · exact ⟨⟨unmarked_write x, hstyle.comma⟩, unmarked_writeItems (y :: rest)⟩
    · simp

theorem unmarked_writeMembers : ∀ members : List (String × Json),
    Unmarked (writeMembers style members).toList
  | [] => unmarked_word.2.2.2
  | [(k, v)] => by
    rw [writeMembers, String.toList_append, String.toList_append, unmarked_append, unmarked_append]
    exact ⟨⟨hstyle.text k, hstyle.colon⟩, unmarked_write v⟩
  | (k, v) :: next :: rest => by
    rw [writeMembers]
    · simp only [String.toList_append, unmarked_append]
      exact ⟨⟨⟨⟨hstyle.text k, hstyle.colon⟩, unmarked_write v⟩, hstyle.comma⟩,
        unmarked_writeMembers (next :: rest)⟩
    · simp

end

omit hstyle in
theorem unmarked_spaced (j : Json) : Unmarked j.spaced.toList := by
  have hmarks : Unmarked ", ".toList ∧ Unmarked ": ".toList := by decide
  have hliteral : Style.IsUnmarked ⟨literal, ", ", ": "⟩ := ⟨unmarked_literal, hmarks.1, hmarks.2⟩
  exact unmarked_write hliteral j

end Json

end ApiClient
