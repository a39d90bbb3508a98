import ApiClient.Proofs.Text.Line
import ApiClient.Template.Basic
import Mathlib

/-!
# Filling a template in by rows

`Template.render` fills a template in without marking anything in its text: it keeps the lines it has
put together as rows, each with a flag that says whether the row is to go, and takes the flagged rows
away before it indents. A value comes in as rows of its own, so its characters are put in as they are.
-/

namespace ApiClient

/-- A line that is being put together, and whether it is to go. -/
structure Template.Row where
  text : List Char
  dropped : Bool
  deriving DecidableEq, Repr

namespace Template

open Text

/-! ## Rows -/

/-- Two pieces of one line. The line goes if one of them is to go. -/
def Row.append (first second : Row) : Row :=
  ⟨first.text ++ second.text, first.dropped || second.dropped⟩

/-- The lines of a text, all of which stay. -/
def rowsOf (text : List Char) : List Row :=
  (splitOnChar '\n' text).map (⟨·, false⟩)

/-- Lines behind others: the first of the one sort continues the last of the other. -/
def glue {α : Type} (merge : α → α → α) : List α → List α → List α
  | [], behind => behind
  | [last], [] => [last]
  | [last], first :: rest => merge last first :: rest
  | row :: next :: more, behind => row :: glue merge (next :: more) behind

/-- The rows that stay as one text, indented. -/
def close (indent : Int) (rows : List Row) : List Char :=
  joinLines (indentLines indent.toNat ((rows.filter (!·.dropped)).map (·.text)))

/-! ## The evaluator -/

/-- The rows of a plain placeholder. An absent value flags its row if it takes its line along. -/
def slotRows (found : List (Variable × Option Json)) (name : String) :
    Except Error (List Row) :=
  match found.find? (·.1.name = name) with
  | none => .ok (rowsOf [])
  | some (v, none) => .ok [⟨[], v.wholeLine⟩]
  | some (v, some value) =>
    match v.format value with
    | .ok text => .ok (rowsOf text.toList)
    | .error misfit => .error (.format misfit)

mutual

/-- The text of a template for some values, with `indent` in the place of its own if it is given. -/
def render (values : Table Json) (indent : Option Int) : Template → Except Error (List Char)
  | { parts, inputs, indent := own } => do
    let found ← resolve values inputs
    let rows ← partsRows values found parts
    return close (indent.getD own) rows

/-- The rows of the pieces of a template. -/
def partsRows (values : Table Json) (found : List (Variable × Option Json)) :
    List (Part Template) → Except Error (List Row)
  | [] => .ok (rowsOf [])
  | part :: rest => do
    let rows ← partRows values found part
    let more ← partsRows values found rest
    return glue Row.append rows more

/-- The rows of one piece of a template. A branch is filled in by itself, with the indent of its own;
one that is not taken flags its row if it stands for whole lines. -/
def partRows (values : Table Json) (found : List (Variable × Option Json)) :
    Part Template → Except Error (List Row)
  | .text text => .ok (rowsOf text.toList)
  | .slot name => slotRows found name
  | .branch name wholeLine body =>
    if holds found name then do return rowsOf (← render values none body)
    else .ok [⟨[], wholeLine⟩]

end

/-! ## Glued lines -/

section Glue

variable {α β : Type} {merge : α → α → α} {merge' : β → β → β}

theorem splitOnChar_glue (sep : Char) (a b : List Char) :
    splitOnChar sep (a ++ b) = glue (· ++ ·) (splitOnChar sep a) (splitOnChar sep b) := by
  induction a with
  | nil =>
    obtain ⟨first, rest, hb⟩ := List.exists_cons_of_ne_nil (splitOnChar_ne_nil sep b)
    rw [List.nil_append, splitOnChar, hb, glue, List.nil_append]
  | cons c cs ih =>
    obtain ⟨piece, more, hcs⟩ := List.exists_cons_of_ne_nil (splitOnChar_ne_nil sep cs)
    by_cases hc : c = sep
    · rw [List.cons_append, splitOnChar, if_pos hc, ih, splitOnChar, if_pos hc, hcs, glue]
    · rw [hcs] at ih
      rw [List.cons_append, splitOnChar_cons_of_ne hc hcs]
      -- the piece that `c` begins is glued to `b` only if it is the last one
      cases more with
      | nil =>
        obtain ⟨first, rest, hb⟩ := List.exists_cons_of_ne_nil (splitOnChar_ne_nil sep b)
        rw [hb, glue] at ih ⊢
        rw [splitOnChar_cons_of_ne hc ih, List.cons_append]
      | cons next more =>
        rw [glue] at ih ⊢
        exact splitOnChar_cons_of_ne hc ih

theorem map_glue {f : α → β} (hf : ∀ a b, f (merge a b) = merge' (f a) (f b)) :
    ∀ front behind, (glue merge front behind).map f = glue merge' (front.map f) (behind.map f)
  | [], _ => rfl
  | [last], [] => rfl
  | [last], first :: rest => by
    simp only [glue, List.map_cons, List.map_nil, hf]
  | row :: next :: more, behind => by
    have ih := map_glue hf (next :: more) behind
    simp only [glue, List.map_cons] at ih ⊢
    rw [ih]

/-- What is glued is related if what it is glued of is, and the two lines that meet are when they are one. -/
theorem forall₂_glue_of_meet {R : α → β → Prop} :
    ∀ {front behind front' behind'}, List.Forall₂ R front front' → List.Forall₂ R behind behind' →
      (∀ last ∈ front.getLast?, ∀ first ∈ behind.head?, ∀ last' first', R last last' →
        R first first' → R (merge last first) (merge' last' first')) →
      List.Forall₂ R (glue merge front behind) (glue merge' front' behind')
  | _, _, _, _, .nil, hbehind, _ => hbehind
  | _, _, _, _, .cons hlast .nil, .nil, _ => .cons hlast .nil
  | _, _, _, _, .cons hlast .nil, .cons hfirst hrest, hmeet =>
    .cons (hmeet _ rfl _ rfl _ _ hlast hfirst) hrest
  | _, _, _, _, .cons hrow (.cons hnext hmore), hbehind, hmeet =>
    .cons hrow (forall₂_glue_of_meet (.cons hnext hmore) hbehind fun last hlast =>
      hmeet last (by rwa [List.getLast?_cons_cons]))

theorem forall₂_glue {R : α → β → Prop}
    (hmerge : ∀ {a b a' b'}, R a a' → R b b' → R (merge a b) (merge' a' b'))
    {front behind : List α} {front' behind' : List β} (hfront : List.Forall₂ R front front')
    (hbehind : List.Forall₂ R behind behind') :
    List.Forall₂ R (glue merge front behind) (glue merge' front' behind') :=
  forall₂_glue_of_meet hfront hbehind fun _ _ _ _ _ _ hlast hfirst => hmerge hlast hfirst

end Glue

/-! ## Closing -/

section Closing

variable {R : List Char → Row → Prop} {P : List Char → Prop} {lines : List (List Char)}
  {rows : List Row}

/-- A text is finished as rows are closed that its lines are related to: the lines with a marker are those
of the rows that are to go, and the others are the texts of their rows. -/
theorem finish_eq_close
    (hgoes : ∀ {line row}, R line row → occursIn dropMarker line = row.dropped)
    (hstays : ∀ {line row}, R line row → row.dropped = false → line = row.text) {text : List Char}
    (h : List.Forall₂ R (splitOnChar '\n' text) rows) (indent : Int) :
    finish indent text = close indent rows := by
  have hkept : ∀ {lines rows}, List.Forall₂ R lines rows →
      (lines.filter fun line => !occursIn dropMarker line) =
        (rows.filter (!·.dropped)).map (·.text) := by
    intro lines rows h
    induction h with
    | nil => rfl
    | @cons line row _ _ hline _ ih =>
      cases hrow : row.dropped with
      | true => simp [hgoes hline, hrow, ih]
      | false =>
        obtain rfl := hstays hline hrow
        simp [hgoes hline, hrow, ih]
  rw [finish, close, hkept h]

theorem forall_kept (hP : ∀ {line row}, R line row → row.dropped = false → P row.text)
    (h : List.Forall₂ R lines rows) : ∀ line ∈ (rows.filter (!·.dropped)).map (·.text), P line := by
  induction h with
  | nil => exact List.forall_mem_nil _
  | @cons line row _ _ hline _ ih =>
    cases hrow : row.dropped with
    | true => simpa [hrow] using ih
    | false => simpa [hrow] using ⟨hP hline hrow, by simpa using ih⟩

theorem forall_indentLines (hspaces : ∀ {line} n, P line → P (List.replicate n ' ' ++ line))
    (h : ∀ line ∈ lines, P line) (indent : Nat) : ∀ line ∈ indentLines indent lines, P line := by
  cases lines with
  | nil => exact h
  | cons first rest =>
    obtain ⟨hfirst, hrest⟩ := List.forall_mem_cons.1 h
    refine List.forall_mem_cons.2 ⟨hfirst, List.forall_mem_map.2 fun line hline => ?_⟩
    split_ifs
    · exact hrest line hline
    · exact hspaces indent (hrest line hline)

theorem joinLines_of_forall (hnil : P []) (hbreak : ∀ {a b}, P a → P b → P (a ++ '\n' :: b)) :
    ∀ {lines : List (List Char)}, (∀ line ∈ lines, P line) → P (joinLines lines)
  | [], _ => hnil
  | [line], h => h line List.mem_cons_self
  | line :: next :: rest, h => by
    obtain ⟨hline, hrest⟩ := List.forall_mem_cons.1 h
    exact hbreak hline (joinLines_of_forall hnil hbreak hrest)

/-- What is true of the rows that stay is true of the text they are closed to, if spaces in front of a line
and lines one below the other do it no harm. -/
theorem close_of_forall₂ (hP : ∀ {line row}, R line row → row.dropped = false → P row.text)
    (hnil : P []) (hspaces : ∀ {line} n, P line → P (List.replicate n ' ' ++ line))
    (hbreak : ∀ {a b}, P a → P b → P (a ++ '\n' :: b)) (h : List.Forall₂ R lines rows)
    (indent : Int) : P (close indent rows) :=
  joinLines_of_forall hnil hbreak (forall_indentLines hspaces (forall_kept hP h) _)

end Closing

/-! ## Pieces -/

section Pieces

variable {values : Table Json} {found : List (Variable × Option Json)}

/-- A placeholder fails alike in both ways of filling in, or has no value, or has the text of one. -/
theorem slot_cases (found : List (Variable × Option Json)) (name : String) :
    (∃ e, formatted found name = .error e ∧ slotRows found name = .error e) ∨
    (∃ wholeLine, formatted found name = .ok (if wholeLine then dropMarker else []) ∧
      slotRows found name = .ok [⟨[], wholeLine⟩]) ∨
    ∃ v value text, found.find? (·.1.name = name) = some (v, some value) ∧ v.format value = .ok text ∧
      formatted found name = .ok text.toList ∧ slotRows found name = .ok (rowsOf text.toList) := by
  rw [formatted, slotRows]
  cases hfind : found.find? (·.1.name = name) with
  | none => exact Or.inr (Or.inl ⟨false, rfl, rfl⟩)
  | some entry =>
    obtain ⟨v, _ | value⟩ := entry
    · exact Or.inr (Or.inl ⟨v.wholeLine, rfl, rfl⟩)
    · cases htext : v.format value with
      | error misfit => exact Or.inl ⟨.format misfit, by simp only [htext], by simp only [htext]⟩
      | ok text =>
        exact Or.inr (Or.inr ⟨v, value, text, rfl, htext, by simp only [htext], by simp only [htext]⟩)

/-- A branch that both ways fill in alike fails in both, or is not taken, or has its text. -/
theorem branch_cases {body : Template} (name : String) (wholeLine : Bool)
    (hbody : holds found name = true → fill values none body = render values none body) :
    (∃ e, fillPart values found (.branch name wholeLine body) = .error e ∧
      partRows values found (.branch name wholeLine body) = .error e) ∨
    (fillPart values found (.branch name wholeLine body) =
        .ok (if wholeLine then dropMarker else []) ∧
      partRows values found (.branch name wholeLine body) = .ok [⟨[], wholeLine⟩]) ∨
    ∃ out, holds found name = true ∧ render values none body = .ok out ∧
      fillPart values found (.branch name wholeLine body) = .ok out ∧
      partRows values found (.branch name wholeLine body) = .ok (rowsOf out) := by
  rw [fillPart, partRows]
  by_cases hholds : holds found name = true
  · rw [if_pos hholds, if_pos hholds, hbody hholds]
    cases hout : render values none body with
    | error e => exact Or.inl ⟨e, rfl, rfl⟩
    | ok out => exact Or.inr (Or.inr ⟨out, hholds, rfl, rfl, rfl⟩)
  · rw [if_neg hholds, if_neg hholds]
    exact Or.inr (Or.inl ⟨rfl, rfl⟩)

end Pieces

end Template

end ApiClient
