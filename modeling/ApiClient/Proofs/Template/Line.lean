import ApiClient.Proofs.Result
import ApiClient.Proofs.Text.Line
import ApiClient.Template.Basic
import Mathlib

/-!
# Lines of a template that is filled in

Filling a template in keeps every line of what its pieces give that does not hold the marker
(`mem_splitOnChar_finish`). So the lines of a piece which stands on lines of its own are lines of the
text (`exists_piece_of_fill`). What a placeholder gives is its formatted value (`format_of_fillPart`),
and a branch is taken when its value is true (`fill_of_fillPart`).
-/

namespace ApiClient.Template

open Text

variable {values : Table Json}

/-! ## Lines that are kept -/

theorem splitOnChar_joinLines : ∀ lines : List (List Char), lines ≠ [] →
    (∀ line ∈ lines, '\n' ∉ line) → splitOnChar '\n' (joinLines lines) = lines
  | [line], _, h => splitOnChar_of_notMem (h line List.mem_cons_self)
  | line :: next :: rest, _, h => by
    have hrest := splitOnChar_joinLines (next :: rest) (by simp) fun l hl =>
      h l (List.mem_cons_of_mem _ hl)
    rw [joinLines, splitOnChar_append, splitOnChar_of_notMem (h line List.mem_cons_self), hrest]
    · rfl
    · simp

theorem indentLines_zero (lines : List (List Char)) : indentLines 0 lines = lines := by
  have hrest : ∀ rest, indentRest 0 rest = rest := fun rest => by
    simp [indentRest]
  cases lines with
  | nil => rfl
  | cons line rest => rw [indentLines, hrest]

theorem occursIn_of_notMem {c : Char} {part line : List Char} (h : c ∉ line) :
    occursIn (c :: part) line = false := by
  induction line with
  | nil => rfl
  | cons d rest ih =>
    obtain ⟨hd, hrest⟩ := List.ne_and_not_mem_of_not_mem_cons h
    rw [occursIn, dropFront?, if_neg hd, ih hrest]
    rfl

/-- A line of a text that does not hold the marker is a line of the finished text. -/
theorem mem_splitOnChar_finish {indent : Int} (hindent : indent ≤ 0) {text line : List Char}
    (h : line ∈ splitOnChar '\n' text) (hmarker : Char.ofNat 0 ∉ line) :
    line ∈ splitOnChar '\n' (finish indent text) := by
  have hkept : line ∈ (splitOnChar '\n' text).filter fun line => !occursIn dropMarker line :=
    List.mem_filter.2 ⟨h, by rw [dropMarker, List.cons_append, occursIn_of_notMem hmarker]; rfl⟩
  rw [finish, Int.toNat_of_nonpos hindent, indentLines_zero, splitOnChar_joinLines]
  · exact hkept
  · exact List.ne_nil_of_mem hkept
  · exact fun l hl => notMem_of_mem_splitOnChar (List.mem_of_mem_filter hl)

/-! ## Values -/

theorem texts_map_str (xs : List String) : texts (xs.map .str) = .ok xs := by
  induction xs with
  | nil => rfl
  | cons x rest ih => simp [texts, ih, bind, Except.bind, pure, Except.pure]

theorem joined_map_str (separator : String) (xs : List String) :
    joined separator (.arr (xs.map .str)) = .ok (Text.join separator xs) := by
  simp [joined, Json.elements, texts_map_str, bind, Except.bind, pure, Except.pure]

variable {inputs : List Variable} {found : List (Variable × Option Json)} {name : String}
  {v : Variable}

theorem get?_of_lookup {value : Json} (h : v.lookup values = .ok (some value)) :
    values.get? v.name = some value := by
  rw [Variable.lookup] at h
  split at h
  · split_ifs at h
    cases h
  · split_ifs at h
    cases h
  · rename_i hvalue
    split_ifs at h
    obtain rfl := Option.some.inj (Except.ok.inj h)
    exact hvalue

theorem find?_of_resolve (h : resolve values inputs = .ok found)
    (hv : inputs.find? (·.name = name) = some v) :
    ∃ value, v.lookup values = .ok value ∧ found.find? (·.1.name = name) = some (v, value) := by
  induction inputs generalizing found with
  | nil => cases hv
  | cons w rest ih =>
    rw [resolve] at h
    obtain ⟨value, hvalue, h₁⟩ := exists_of_bind h
    obtain ⟨more, hrest, hpure⟩ := exists_of_bind h₁
    obtain rfl := Except.ok.inj hpure
    by_cases hw : w.name = name
    · obtain rfl : w = v := by simpa [hw] using hv
      exact ⟨value, hvalue, by simp [hw]⟩
    · simp only [List.find?_cons, hw, decide_false] at hv ⊢
      exact ih hrest hv

theorem lookup_eq_some {value : Json} {x : Option Json} (hvalue : values.get? v.name = some value)
    (hnull : value ≠ .null) (h : v.lookup values = .ok x) : x = some value := by
  rw [Variable.lookup, hvalue] at h
  cases value with
  | null => exact absurd rfl hnull
  | _ =>
    dsimp only at h
    split at h
    · exact (Except.ok.inj h).symm
    · cases h

theorem found_of_resolve {value : Json} (h : resolve values inputs = .ok found)
    (hv : inputs.find? (·.name = name) = some v) (hvalue : values.get? name = some value)
    (hnull : value ≠ .null) : found.find? (·.1.name = name) = some (v, some value) := by
  obtain ⟨x, hx, hfound⟩ := find?_of_resolve h hv
  have hname : v.name = name := by simpa using List.find?_some hv
  rw [← hname] at hvalue
  rw [hfound, lookup_eq_some hvalue hnull hx]

/-- A placeholder gives its formatted value. -/
theorem format_of_fillPart {value : Json} {piece : List Char}
    (h : resolve values inputs = .ok found) (hv : inputs.find? (·.name = name) = some v)
    (hvalue : values.get? name = some value) (hnull : value ≠ .null)
    (hpiece : fillPart values found (.slot name) = .ok piece) :
    ∃ text, v.format value = .ok text ∧ piece = text.toList := by
  rw [fillPart, formatted, found_of_resolve h hv hvalue hnull] at hpiece
  cases htext : v.format value with
  | error e => simp [htext] at hpiece
  | ok text =>
    simp only [htext, Except.ok.injEq] at hpiece
    exact ⟨text, rfl, hpiece.symm⟩

/-- A branch whose value is true gives what its own template does. -/
theorem fill_of_fillPart {body : Template} {wholeLine : Bool} {piece : List Char}
    (h : resolve values inputs = .ok found) (hv : inputs.find? (·.name = name) = some v)
    (hvalue : values.get? name = some (.bool true))
    (hpiece : fillPart values found (.branch name wholeLine body) = .ok piece) :
    fill values none body = .ok piece := by
  have hholds : holds found name = true := by
    rw [holds, found_of_resolve h hv hvalue (by simp)]
  rw [fillPart, hholds] at hpiece
  exact hpiece

/-! ## Pieces on lines of their own -/

theorem exists_of_fillParts_append (front back : List (Part Template)) {text : List Char}
    (h : fillParts values found (front ++ back) = .ok text) :
    ∃ a b, fillParts values found front = .ok a ∧ fillParts values found back = .ok b ∧
      text = a ++ b := by
  induction front generalizing text with
  | nil => exact ⟨[], text, rfl, h, rfl⟩
  | cons part rest ih =>
    rw [List.cons_append, fillParts] at h
    obtain ⟨piece, hpart, h₁⟩ := exists_of_bind h
    obtain ⟨more, hrest, hpure⟩ := exists_of_bind h₁
    obtain rfl := Except.ok.inj hpure
    obtain ⟨a, b, ha, hb, rfl⟩ := ih hrest
    refine ⟨piece ++ a, b, ?_, hb, (List.append_assoc ..).symm⟩
    rw [fillParts, hpart, ha]
    rfl

/-- A template is filled in if its variables are found and its pieces give a text, which is finished. -/
theorem fill_eq_ok_iff {t : Template} {indent : Option Int} {out : List Char} :
    t.fill values indent = .ok out ↔ ∃ found text, resolve values t.inputs = .ok found ∧
      fillParts values found t.parts = .ok text ∧ out = finish (indent.getD t.indent) text := by
  obtain ⟨parts, inputs, own⟩ := t
  rw [fill]
  constructor
  · intro h
    obtain ⟨found, hfound, h₁⟩ := exists_of_bind h
    obtain ⟨text, htext, hpure⟩ := exists_of_bind h₁
    exact ⟨found, text, hfound, htext, (Except.ok.inj hpure).symm⟩
  · rintro ⟨found, text, hfound, htext, rfl⟩
    simp only [hfound, htext, bind, Except.bind, pure, Except.pure]

theorem exists_of_fill {t : Template} {out : List Char} (h : t.fill values none = .ok out) :
    ∃ found text, resolve values t.inputs = .ok found ∧
      fillParts values found t.parts = .ok text ∧ out = finish t.indent text :=
  fill_eq_ok_iff.1 h

theorem fill_of_build {t : Template} {text : String} (h : t.build values = .ok text) :
    t.fill values none = .ok text.toList := by
  obtain ⟨out, hfill, rfl⟩ := exists_of_map h
  rw [hfill, String.toList_ofList]

theorem fillPart_of_singleton {part : Part Template} {text : List Char}
    (h : fillParts values found [part] = .ok text) : fillPart values found part = .ok text := by
  rw [fillParts] at h
  obtain ⟨piece, hpart, hpure⟩ := exists_of_bind h
  obtain rfl := Except.ok.inj hpure
  rw [hpart, List.append_nil]

/-- What follows a piece begins a new line, if there is anything. -/
def BeginsLine : List (Part Template) → Prop
  | [] => True
  | .text after :: _ => ∃ rest, after.toList = '\n' :: rest
  | _ => False

theorem BeginsLine.of_fillParts {back : List (Part Template)} (h : BeginsLine back) {b : List Char}
    (hfill : fillParts values found back = .ok b) : b = [] ∨ ∃ rest, b = '\n' :: rest := by
  cases back with
  | nil => exact Or.inl (Except.ok.inj hfill).symm
  | cons part more =>
    cases part with
    | slot _ => exact h.elim
    | branch _ _ _ => exact h.elim
    | text after =>
      obtain ⟨rest, hafter⟩ := h
      obtain ⟨a, c, ha, -, rfl⟩ := exists_of_fillParts_append [.text after] more hfill
      obtain rfl : after.toList = a := Except.ok.inj (fillPart_of_singleton ha)
      exact Or.inr ⟨rest ++ c, by rw [hafter, List.cons_append]⟩

/-- A piece that stands behind `lead` on lines of its own: its lines, the first with `lead` in front,
are lines of the text, but for those that hold the marker. -/
theorem exists_piece_of_fill {t : Template} {out : List Char} (h : t.fill values none = .ok out)
    (hindent : t.indent ≤ 0) (front : List (Part Template)) {before : String}
    {part : Part Template} {back : List (Part Template)}
    (hparts : t.parts = front ++ .text before :: part :: back) (earlier lead : List Char)
    (hbefore : before.toList = earlier ++ '\n' :: lead) (hback : BeginsLine back) :
    ∃ found piece, resolve values t.inputs = .ok found ∧ fillPart values found part = .ok piece ∧
      ∀ line ∈ splitOnChar '\n' (lead ++ piece), Char.ofNat 0 ∉ line →
        line ∈ splitOnChar '\n' out := by
  obtain ⟨found, text, hfound, htext, rfl⟩ := exists_of_fill h
  rw [hparts] at htext
  obtain ⟨a, rest, -, hrest, rfl⟩ := exists_of_fillParts_append _ _ htext
  obtain ⟨b, c, hb, hc, rfl⟩ :=
    exists_of_fillParts_append [.text before] (part :: back) hrest
  obtain rfl : before.toList = b := Except.ok.inj (fillPart_of_singleton hb)
  obtain ⟨piece, after, hpiece, hafter, rfl⟩ :=
    exists_of_fillParts_append [part] back hc
  replace hpiece := fillPart_of_singleton hpiece
  refine ⟨found, piece, hfound, hpiece, fun line hline hmarker => ?_⟩
  refine mem_splitOnChar_finish hindent ?_ hmarker
  have hcut : a ++ (before.toList ++ (piece ++ after)) =
      (a ++ earlier) ++ '\n' :: (lead ++ piece ++ after) := by
    simp [hbefore]
  rw [hcut, splitOnChar_append]
  refine List.mem_append_right _ ?_
  obtain rfl | ⟨more, rfl⟩ := hback.of_fillParts hafter
  · rwa [List.append_nil]
  · rw [splitOnChar_append]
    exact List.mem_append_left _ hline

end ApiClient.Template
