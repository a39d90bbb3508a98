import ApiClient.Proofs.Template.Characters
import ApiClient.Proofs.Template.Line
import ApiClient.Proofs.Template.Rows
import ApiClient.Proofs.Text.Occurrence
import Mathlib

/-!
# Marked lines and rows

A text that is put together with markers stands for the rows that are put together without them
(`StandsFor`): a line of the text holds the marker if its row is to go, and is the text of its row
otherwise. Putting texts one behind the other keeps this (`StandsFor.append`), and so does every piece
of a template (`Agree`). So a template is filled in as the evaluator does it, as long as no text of the
template and no formatted value holds the character of the marker (`refines`).
-/

namespace ApiClient.Template

open Text

/-! ## Lines -/

/-- A line of a text with markers, and the row it stands for. -/
inductive LineOf : List Char → Row → Prop
  | kept {line : List Char} (h : Unmarked line) : LineOf line ⟨line, false⟩
  | marked {line text : List Char} (h : dropMarker <:+: line) : LineOf line ⟨text, true⟩

theorem LineOf.append {a b : List Char} {r s : Row} (ha : LineOf a r) (hb : LineOf b s) :
    LineOf (a ++ b) (r.append s) := by
  cases ha with
  | marked ha => exact .marked (ha.trans (List.prefix_append a b).isInfix)
  | kept ha =>
    cases hb with
    | marked hb => exact .marked (hb.trans (List.suffix_append a b).isInfix)
    | kept hb => exact .kept (unmarked_append.2 ⟨ha, hb⟩)

theorem occursIn_dropMarker {line : List Char} (h : Unmarked line) :
    occursIn dropMarker line = false :=
  occursIn_of_notMem h

/-- The lines of a text with markers are those of the rows. -/
def StandsFor (text : List Char) (rows : List Row) : Prop :=
  List.Forall₂ LineOf (splitOnChar '\n' text) rows

theorem standsFor_rowsOf {text : List Char} (h : Unmarked text) : StandsFor text (rowsOf text) := by
  rw [StandsFor, rowsOf, List.forall₂_map_right_iff, List.forall₂_same]
  exact fun line hline => .kept (h.sublist (sublist_of_mem_splitOnChar hline))

theorem standsFor_absent (wholeLine : Bool) :
    StandsFor (if wholeLine then dropMarker else []) [⟨[], wholeLine⟩] := by
  cases wholeLine with
  | false => exact .cons (.kept List.not_mem_nil) .nil
  | true => exact .cons (.marked List.infix_rfl) .nil

theorem StandsFor.append {a b : List Char} {rows more : List Row} (ha : StandsFor a rows)
    (hb : StandsFor b more) : StandsFor (a ++ b) (glue Row.append rows more) := by
  rw [StandsFor, splitOnChar_glue]
  exact forall₂_glue LineOf.append ha hb

/-! ## Closing -/

theorem LineOf.occursIn_eq {line : List Char} {row : Row} (h : LineOf line row) :
    occursIn dropMarker line = row.dropped := by
  cases h with
  | kept h => exact occursIn_dropMarker h
  | marked h => exact occursIn_iff.2 h

theorem LineOf.eq_text {line : List Char} {row : Row} (h : LineOf line row)
    (hstays : row.dropped = false) : line = row.text := by
  cases h with
  | kept h => rfl
  | marked h => cases hstays

theorem LineOf.unmarked {line : List Char} {row : Row} (h : LineOf line row)
    (hstays : row.dropped = false) : Unmarked row.text := by
  cases h with
  | kept h => exact h
  | marked h => cases hstays

theorem StandsFor.finish_eq {text : List Char} {rows : List Row} (h : StandsFor text rows)
    (indent : Int) : finish indent text = close indent rows :=
  finish_eq_close LineOf.occursIn_eq LineOf.eq_text h indent

theorem unmarked_spaces {line : List Char} (n : Nat) (h : Unmarked line) :
    Unmarked (List.replicate n ' ' ++ line) :=
  unmarked_append.2 ⟨fun hmem => absurd (List.eq_of_mem_replicate hmem) (by decide), h⟩

theorem unmarked_break {a b : List Char} (ha : Unmarked a) (hb : Unmarked b) :
    Unmarked (a ++ '\n' :: b) :=
  unmarked_append.2 ⟨ha, unmarked_cons.2 ⟨by decide, hb⟩⟩

theorem unmarked_joinLines {lines : List (List Char)} (h : ∀ line ∈ lines, Unmarked line) :
    Unmarked (joinLines lines) :=
  joinLines_of_forall List.not_mem_nil unmarked_break h

theorem StandsFor.unmarked_close {text : List Char} {rows : List Row} (h : StandsFor text rows)
    (indent : Int) : Unmarked (close indent rows) :=
  close_of_forall₂ LineOf.unmarked List.not_mem_nil unmarked_spaces unmarked_break h indent

/-! ## Pieces -/

/-- The same error, or a text and the rows it stands for. -/
inductive Agree : Except Error (List Char) → Except Error (List Row) → Prop
  | error (e : Error) : Agree (.error e) (.error e)
  | ok {text : List Char} {rows : List Row} (h : StandsFor text rows) : Agree (.ok text) (.ok rows)

theorem Agree.append {x y : Except Error (List Char)} {r s : Except Error (List Row)}
    (hx : Agree x r) (hy : Agree y s) :
    Agree (do let a ← x; let b ← y; return a ++ b)
      (do let a ← r; let b ← s; return glue Row.append a b) := by
  cases hx with
  | error e => exact .error e
  | ok hx =>
    cases hy with
    | error e => exact .error e
    | ok hy => exact .ok (hx.append hy)

theorem Agree.finish_eq {x : Except Error (List Char)} {r : Except Error (List Row)}
    (h : Agree x r) (indent : Int) :
    (do let text ← x; return finish indent text) = (do let rows ← r; return close indent rows) := by
  cases h with
  | error e => rfl
  | ok h => exact congrArg Except.ok (h.finish_eq indent)

theorem Agree.unmarked_close {x : Except Error (List Char)} {r : Except Error (List Row)}
    (h : Agree x r) {indent : Int} {out : List Char}
    (hout : (do let rows ← r; return close indent rows) = .ok out) : Unmarked out := by
  cases h with
  | error e => cases hout
  | ok h =>
    obtain rfl := Except.ok.inj hout
    exact h.unmarked_close indent

/-- A template is filled in as the evaluator does it, and no text it gives can hold a marker. -/
structure Refines (values : Table Json) (t : Template) : Prop where
  fill_eq (indent : Option Int) : fill values indent t = render values indent t
  unmarked {indent : Option Int} {out : List Char} (h : render values indent t = .ok out) :
    Unmarked out

variable {values : Table Json} {found : List (Variable × Option Json)} {name : String}

theorem agree_slot
    (hvalue : ∀ v value text, found.find? (·.1.name = name) = some (v, some value) →
      v.format value = .ok text → Unmarked text.toList) :
    Agree (formatted found name) (slotRows found name) := by
  obtain ⟨e, htext, hrows⟩ | ⟨wholeLine, htext, hrows⟩ |
    ⟨v, value, text, hfind, hformat, htext, hrows⟩ := slot_cases found name <;> rw [htext, hrows]
  · exact .error e
  · exact .ok (standsFor_absent wholeLine)
  · exact .ok (standsFor_rowsOf (hvalue v value text hfind hformat))

theorem agree_branch {body : Template} (wholeLine : Bool)
    (hbody : holds found name = true → Refines values body) :
    Agree (fillPart values found (.branch name wholeLine body))
      (partRows values found (.branch name wholeLine body)) := by
  obtain ⟨e, htext, hrows⟩ | ⟨htext, hrows⟩ | ⟨out, hholds, hout, htext, hrows⟩ :=
    branch_cases name wholeLine fun hholds => (hbody hholds).fill_eq none <;> rw [htext, hrows]
  · exact .error e
  · exact .ok (standsFor_absent wholeLine)
  · exact .ok (standsFor_rowsOf ((hbody hholds).unmarked hout))

theorem agree_parts {parts : List (Part Template)}
    (h : ∀ part ∈ parts, Agree (fillPart values found part) (partRows values found part)) :
    Agree (fillParts values found parts) (partsRows values found parts) := by
  induction parts with
  | nil =>
    rw [fillParts, partsRows]
    exact .ok (standsFor_rowsOf List.not_mem_nil)
  | cons part rest ih =>
    obtain ⟨hpart, hrest⟩ := List.forall_mem_cons.1 h
    rw [fillParts, partsRows]
    exact hpart.append (ih hrest)

/-! ## Templates -/

/-- A text that a value is formatted to for a placeholder of the template, or of a branch that is
taken. -/
inductive Formats (values : Table Json) : Template → String → Prop
  | here {t : Template} {found : List (Variable × Option Json)} {name : String} {v : Variable}
    {value : Json} {text : String} (hfound : resolve values t.inputs = .ok found)
    (hslot : .slot name ∈ t.parts)
    (hvalue : found.find? (·.1.name = name) = some (v, some value))
    (htext : v.format value = .ok text) : Formats values t text
  | inBranch {t body : Template} {found : List (Variable × Option Json)} {name : String}
    {wholeLine : Bool} {text : String} (hfound : resolve values t.inputs = .ok found)
    (hbranch : .branch name wholeLine body ∈ t.parts) (hholds : holds found name = true)
    (h : Formats values body text) : Formats values t text

/-- Without the character of the marker in its texts and in the values it formats, a template is filled
in as the evaluator does it. -/
theorem refines : ∀ t : Template, (∀ text, HasText t text → Unmarked text.toList) →
    (∀ text, Formats values t text → Unmarked text.toList) → Refines values t
  | ⟨parts, inputs, own⟩, htext, hvalue => by
    have hparts : ∀ found, resolve values inputs = .ok found →
        Agree (fillParts values found parts) (partsRows values found parts) := by
      refine fun found hfound => agree_parts fun part hpart => ?_
      cases part with
      | text text =>
        rw [fillPart, partRows]
        exact .ok (standsFor_rowsOf (htext text (.here hpart)))
      | slot name =>
        rw [fillPart, partRows]
        exact agree_slot fun v value text hv hformat => hvalue text (.here hfound hpart hv hformat)
      | branch name wholeLine body =>
        -- a branch that is not taken is not filled in, so its values may hold anything
        exact agree_branch wholeLine fun hholds => refines body
          (fun text h => htext text (.inBranch hpart h))
          (fun text h => hvalue text (.inBranch hfound hpart hholds h))
    refine ⟨fun indent => ?_, fun {indent out} hout => ?_⟩
    · rw [fill, render]
      cases hfound : resolve values inputs with
      | error e => rfl
      | ok found => exact (hparts found hfound).finish_eq _
    · rw [render] at hout
      obtain ⟨found, hfound, hclose⟩ := exists_of_bind hout
      exact (hparts found hfound).unmarked_close hclose
  termination_by t => sizeOf t
  decreasing_by
    have := List.sizeOf_lt_of_mem hpart
    simp only [Part.branch.sizeOf_spec, mk.sizeOf_spec] at this ⊢
    omega

end ApiClient.Template
