import ApiClient.Proofs.Template.Characters
import ApiClient.Proofs.Template.Line
import ApiClient.Proofs.Text.Occurrence
import Mathlib

/-!
# Filling a template in

A template is filled in if its variables are found and every one of its pieces gives a text
(`fill_of_pieces`): a placeholder whose value can be formatted does, and a branch whose own template is
filled in. A template that ends in a line feed gives the lines that are kept, each with a line feed behind
it (`finish_append_newline`), so what it gives is put together at its line feeds
(`keptText_append_cons`): a piece without markers stays as it is, and a line with one is gone.
-/

namespace ApiClient.Template

open Text

/-! ## Lines that are kept -/

/-- The lines of a text without the marked ones. -/
def keptLines (text : List Char) : List (List Char) :=
  (splitOnChar '\n' text).filter fun line => !occursIn dropMarker line

theorem finish_eq (indent : Int) (text : List Char) :
    finish indent text = joinLines (indentLines indent.toNat (keptLines text)) :=
  rfl

theorem keptLines_append_cons (a b : List Char) :
    keptLines (a ++ '\n' :: b) = keptLines a ++ keptLines b := by
  rw [keptLines, splitOnChar_append, List.filter_append, keptLines, keptLines]

/-- A text without the character of a marker keeps all of its lines. -/
theorem keptLines_of_unmarked {text : List Char} (h : Unmarked text) :
    keptLines text = splitOnChar '\n' text := by
  refine List.filter_eq_self.2 fun line hline => ?_
  have hmarker : occursIn dropMarker line = false :=
    occursIn_of_notMem (h.sublist (sublist_of_mem_splitOnChar hline))
  rw [hmarker]
  rfl

/-- A line with a marker is gone. -/
theorem keptLines_of_marked {line : List Char} (hline : '\n' ∉ line) (h : dropMarker <:+: line) :
    keptLines line = [] := by
  rw [keptLines, splitOnChar_of_notMem hline]
  simp [occursIn_iff.2 h]

theorem unmarked_join {separator : String} (hseparator : Unmarked separator.toList)
    {texts : List String} (h : ∀ text ∈ texts, Unmarked text.toList) :
    Unmarked (join separator texts).toList := by
  intro hmem
  obtain hsep | ⟨text, htext, hc⟩ := mem_join hmem
  · exact hseparator hsep
  · exact h text htext hc

/-- The lines of a text without the marked ones, each with a line feed behind it. -/
def keptText (text : List Char) : List Char :=
  ((splitOnChar '\n' text).filter fun line => !occursIn dropMarker line).flatMap (· ++ ['\n'])

theorem keptText_eq (text : List Char) : keptText text = (keptLines text).flatMap (· ++ ['\n']) :=
  rfl

theorem keptText_append_cons (a b : List Char) :
    keptText (a ++ '\n' :: b) = keptText a ++ keptText b := by
  simp only [keptText_eq, keptLines_append_cons, List.flatMap_append]

theorem flatMap_splitOnChar (cs : List Char) :
    (splitOnChar '\n' cs).flatMap (· ++ ['\n']) = cs ++ ['\n'] := by
  induction cs with
  | nil => rfl
  | cons c rest ih =>
    obtain ⟨piece, more, hrest⟩ := List.exists_cons_of_ne_nil (splitOnChar_ne_nil '\n' rest)
    by_cases hc : c = '\n'
    · rw [splitOnChar, if_pos hc, List.flatMap_cons, ih, hc]
      rfl
    · rw [hrest, List.flatMap_cons] at ih
      rw [splitOnChar_cons_of_ne hc hrest, List.flatMap_cons, List.cons_append, List.cons_append, ih,
        List.cons_append]

theorem keptText_of_unmarked {text : List Char} (h : Unmarked text) :
    keptText text = text ++ ['\n'] := by
  rw [keptText_eq, keptLines_of_unmarked h, flatMap_splitOnChar]

theorem keptText_of_marked {line : List Char} (hline : '\n' ∉ line) (h : dropMarker <:+: line) :
    keptText line = [] := by
  rw [keptText_eq, keptLines_of_marked hline h, List.flatMap_nil]

theorem joinLines_append_nil : ∀ lines : List (List Char),
    joinLines (lines ++ [[]]) = lines.flatMap (· ++ ['\n'])
  | [] => rfl
  | [line] => by simp [joinLines]
  | line :: next :: rest => by
    have hrest := joinLines_append_nil (next :: rest)
    rw [List.cons_append] at hrest
    rw [List.cons_append, List.cons_append, joinLines, hrest, List.flatMap_cons (x := line)]
    · simp
    · simp

theorem finish_append_newline (text : List Char) : finish 0 (text ++ ['\n']) = keptText text := by
  have hlast : keptLines [] = [[]] := rfl
  rw [finish_eq, keptLines_append_cons, hlast, Int.toNat_zero, indentLines_zero,
    joinLines_append_nil, keptText_eq]

/-! ## Pieces -/

variable {values : Table Json} {inputs : List Variable} {found : List (Variable × Option Json)}
  {name : String} {v : Variable} {value : Json}

theorem lookup_of_fits (hvalue : values.get? v.name = some value) (hnull : value ≠ .null)
    (hfits : v.expected.fits value = true) : v.lookup values = .ok (some value) := by
  rw [Variable.lookup, hvalue]
  cases value with
  | null => exact absurd rfl hnull
  | _ => exact if_pos hfits

theorem lookup_of_null (hvalue : values.get? v.name = some .null) (hv : v.nullable = true) :
    v.lookup values = .ok none := by
  rw [Variable.lookup, hvalue]
  exact if_pos hv

theorem exists_resolve (h : ∀ v ∈ inputs, ∃ x, v.lookup values = .ok x) :
    ∃ found, resolve values inputs = .ok found := by
  induction inputs with
  | nil => exact ⟨[], rfl⟩
  | cons v rest ih =>
    obtain ⟨⟨x, hx⟩, hrest⟩ := List.forall_mem_cons.1 h
    obtain ⟨more, hmore⟩ := ih hrest
    exact ⟨(v, x) :: more, by rw [resolve, hx, hmore]; rfl⟩

theorem fillPart_slot (h : resolve values inputs = .ok found)
    (hv : inputs.find? (·.name = name) = some v) (hlookup : v.lookup values = .ok (some value))
    {text : String} (htext : v.format value = .ok text) :
    fillPart values found (.slot name) = .ok text.toList := by
  obtain ⟨x, hx, hfound⟩ := find?_of_resolve h hv
  obtain rfl : some value = x := Except.ok.inj (hlookup.symm.trans hx)
  simp only [fillPart, formatted, hfound, htext]

theorem fillPart_eq_error (h : resolve values inputs = .ok found)
    (hv : inputs.find? (·.name = name) = some v) (hlookup : v.lookup values = .ok (some value))
    {misfit : Json.Misfit} (hformat : v.format value = .error misfit) :
    fillPart values found (.slot name) = .error (.format misfit) := by
  obtain ⟨x, hx, hfound⟩ := find?_of_resolve h hv
  obtain rfl : some value = x := Except.ok.inj (hlookup.symm.trans hx)
  simp only [fillPart, formatted, hfound, hformat]

theorem lookup_text {text : String} (h : values.get? name = some (.str text)) :
    ({ name } : Variable).lookup values = .ok (some (.str text)) :=
  lookup_of_fits h (by simp) rfl

theorem fillPart_text (h : resolve values inputs = .ok found)
    (hv : inputs.find? (·.name = name) = some { name }) {text : String}
    (hvalue : values.get? name = some (.str text)) :
    fillPart values found (.slot name) = .ok text.toList :=
  fillPart_slot h hv (lookup_text hvalue) rfl

theorem fillPart_absent (h : resolve values inputs = .ok found)
    (hv : inputs.find? (·.name = name) = some v) (hlookup : v.lookup values = .ok none) :
    fillPart values found (.slot name) = .ok (if v.wholeLine then dropMarker else []) := by
  obtain ⟨x, hx, hfound⟩ := find?_of_resolve h hv
  obtain rfl : none = x := Except.ok.inj (hlookup.symm.trans hx)
  simp only [fillPart, formatted, hfound]

/-- What stands in the place of a whole-line conditional before the lines that are to go are gone. -/
def held (holds : Bool) (piece : List Char) : List Char :=
  if holds then piece else dropMarker

theorem holds_of_resolve (h : resolve values inputs = .ok found)
    (hv : inputs.find? (·.name = name) = some v) {b : Bool}
    (hvalue : values.get? name = some (.bool b)) : holds found name = b := by
  rw [holds, found_of_resolve h hv hvalue (by simp)]

theorem fillPart_branch (h : resolve values inputs = .ok found)
    (hv : inputs.find? (·.name = name) = some v) {b : Bool}
    (hvalue : values.get? name = some (.bool b)) {body : Template} {piece : List Char}
    (hbody : body.fill values none = .ok piece) :
    fillPart values found (.branch name true body) = .ok (held b piece) := by
  rw [fillPart, holds_of_resolve h hv hvalue, hbody]
  cases b <;> rfl

/-- The branch of a condition that does not hold is not filled in. -/
theorem exists_fillPart_of_imp (h : resolve values inputs = .ok found)
    (hv : inputs.find? (·.name = name) = some v) {b : Bool}
    (hvalue : values.get? name = some (.bool b)) {body : Template}
    (hbody : b = true → ∃ piece, body.fill values none = .ok piece) :
    ∃ piece, fillPart values found (.branch name true body) = .ok piece := by
  rw [fillPart, holds_of_resolve h hv hvalue]
  cases b with
  | true => exact hbody rfl
  | false => exact ⟨_, rfl⟩

theorem exists_fillPart_branch {body : Template} (hbody : ∃ piece, body.fill values none = .ok piece)
    (found : List (Variable × Option Json)) (name : String) (wholeLine : Bool) :
    ∃ piece, fillPart values found (.branch name wholeLine body) = .ok piece := by
  rw [fillPart]
  split_ifs
  · exact hbody
  · exact ⟨_, rfl⟩
  · exact ⟨_, rfl⟩

theorem fillParts_cons {part : Part Template} {rest : List (Part Template)} {piece text : List Char}
    (hpart : fillPart values found part = .ok piece) (hrest : fillParts values found rest = .ok text) :
    fillParts values found (part :: rest) = .ok (piece ++ text) := by
  rw [fillParts, hpart, hrest]
  rfl

theorem fillParts_of_pieces {parts : List (Part Template)} {pieces : List (List Char)}
    (h : List.Forall₂ (fun part piece => fillPart values found part = .ok piece) parts pieces) :
    fillParts values found parts = .ok pieces.flatten := by
  induction h with
  | nil => rfl
  | cons hpart _ ih => exact fillParts_cons hpart ih

theorem exists_fillParts {parts : List (Part Template)}
    (h : ∀ part ∈ parts, ∃ piece, fillPart values found part = .ok piece) :
    ∃ text, fillParts values found parts = .ok text := by
  induction parts with
  | nil => exact ⟨[], rfl⟩
  | cons part rest ih =>
    obtain ⟨⟨piece, hpiece⟩, hrest⟩ := List.forall_mem_cons.1 h
    obtain ⟨more, hmore⟩ := ih hrest
    exact ⟨piece ++ more, fillParts_cons hpiece hmore⟩

theorem fillParts_append {front back : List (Part Template)} {a b : List Char}
    (ha : fillParts values found front = .ok a) (hb : fillParts values found back = .ok b) :
    fillParts values found (front ++ back) = .ok (a ++ b) := by
  induction front generalizing a with
  | nil =>
    obtain rfl := Except.ok.inj ha
    exact hb
  | cons part rest ih =>
    rw [fillParts] at ha
    obtain ⟨piece, hpart, h₁⟩ := exists_of_bind ha
    obtain ⟨more, hrest, hpure⟩ := exists_of_bind h₁
    obtain rfl := Except.ok.inj hpure
    rw [List.cons_append, List.append_assoc]
    exact fillParts_cons hpart (ih hrest)

/-- The text of a template whose pieces all give a text. -/
theorem fill_of_pieces {t : Template} (hfound : resolve values t.inputs = .ok found)
    {pieces : List (List Char)}
    (h : List.Forall₂ (fun part piece => fillPart values found part = .ok piece) t.parts pieces) :
    t.fill values none = .ok (finish t.indent pieces.flatten) :=
  fill_eq_ok_iff.2 ⟨found, pieces.flatten, hfound, fillParts_of_pieces h, rfl⟩

theorem exists_fill {t : Template} (hfound : resolve values t.inputs = .ok found)
    (h : ∀ part ∈ t.parts, ∃ piece, fillPart values found part = .ok piece) :
    ∃ out, t.fill values none = .ok out := by
  obtain ⟨text, htext⟩ := exists_fillParts h
  exact ⟨_, fill_eq_ok_iff.2 ⟨found, text, hfound, htext, rfl⟩⟩

theorem exists_build {t : Template} (hfound : resolve values t.inputs = .ok found)
    (h : ∀ part ∈ t.parts, ∃ piece, fillPart values found part = .ok piece) :
    ∃ text, t.build values = .ok text := by
  obtain ⟨out, hout⟩ := exists_fill hfound h
  exact ⟨String.ofList out, congrArg (Except.map String.ofList) hout⟩

/-- Pieces fail at the first of them that gives no text. -/
theorem fillParts_eq_error {front back : List (Part Template)} {part : Part Template} {a : List Char}
    (hfront : fillParts values found front = .ok a) {e : Error}
    (hpart : fillPart values found part = .error e) :
    fillParts values found (front ++ part :: back) = .error e := by
  induction front generalizing a with
  | nil =>
    rw [List.nil_append, fillParts, hpart]
    rfl
  | cons p rest ih =>
    rw [fillParts] at hfront
    obtain ⟨piece, hpiece, h₁⟩ := exists_of_bind hfront
    obtain ⟨more, hmore, -⟩ := exists_of_bind h₁
    rw [List.cons_append, fillParts, hpiece, ih hmore]
    rfl

theorem build_eq_error {t : Template} (hfound : resolve values t.inputs = .ok found) {e : Error}
    (h : fillParts values found t.parts = .error e) : t.build values = .error e := by
  obtain ⟨parts, inputs, own⟩ := t
  dsimp only at hfound h
  rw [build, fill, hfound]
  simp only [bind, Except.bind, h, Except.map]

end ApiClient.Template
