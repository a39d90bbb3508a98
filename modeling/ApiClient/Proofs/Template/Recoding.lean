import ApiClient.Proofs.Template.Marker
import Mathlib

/-!
# Other characters in a template

`recode g` puts `g c` in the place of every character `c` of the texts of a template and of the values
it formats. If `g` leaves the layout alone (`IsRecoding`), the recoded template gives the recoded text
(`render_recode`). So no other character of a text or of a value means anything once a template is made:
a percent sign in a value is as good as any letter.
-/

namespace ApiClient

open Text

/-- A change of characters that keeps the line feeds, the blanks and the space, and makes up no
character that a marker begins with. -/
structure Template.IsRecoding (g : Char → Char) : Prop where
  newline_iff (c : Char) : g c = '\n' ↔ c = '\n'
  isBlank_eq (c : Char) : isBlank (g c) = isBlank c
  space_eq : g ' ' = ' '
  eq_nul {c : Char} (h : g c = Char.ofNat 0) : c = Char.ofNat 0

namespace Template

variable {g : Char → Char}

/-- A variable with its text recoded. -/
def Variable.recode (g : Char → Char) (v : Variable) : Variable :=
  { v with format := fun value => (v.format value).map (String.map g) }

mutual

/-- A template with its texts and its formatted values recoded, at every depth. -/
def recode (g : Char → Char) : Template → Template
  | { parts, inputs, indent } =>
    { parts := recodeParts g parts, inputs := inputs.map (Variable.recode g), indent }

/-- Pieces with their texts recoded. -/
def recodeParts (g : Char → Char) : List (Part Template) → List (Part Template)
  | [] => []
  | part :: rest => recodePart g part :: recodeParts g rest

/-- A piece with its text recoded. -/
def recodePart (g : Char → Char) : Part Template → Part Template
  | .text text => .text (text.map g)
  | .slot name => .slot name
  | .branch name wholeLine body => .branch name wholeLine (recode g body)

end

/-! ## Rows -/

/-- A row with its text recoded. -/
def Row.recode (g : Char → Char) (row : Row) : Row :=
  ⟨row.text.map g, row.dropped⟩

theorem recode_append (first second : Row) :
    (first.append second).recode g = (first.recode g).append (second.recode g) := by
  simp [Row.append, Row.recode]

variable (hg : IsRecoding g)

include hg

theorem splitOnChar_map (cs : List Char) :
    splitOnChar '\n' (cs.map g) = (splitOnChar '\n' cs).map (List.map g) := by
  induction cs with
  | nil => rfl
  | cons c rest ih =>
    obtain ⟨piece, more, hrest⟩ := List.exists_cons_of_ne_nil (splitOnChar_ne_nil '\n' rest)
    rw [hrest] at ih
    by_cases hc : c = '\n'
    · rw [List.map_cons, splitOnChar, if_pos ((hg.newline_iff c).2 hc), splitOnChar, if_pos hc, ih,
        hrest]
      rfl
    · rw [List.map_cons, splitOnChar_cons_of_ne (mt (hg.newline_iff c).1 hc) ih,
        splitOnChar_cons_of_ne hc hrest]
      rfl

theorem rowsOf_map (text : List Char) : rowsOf (text.map g) = (rowsOf text).map (Row.recode g) := by
  rw [rowsOf, splitOnChar_map hg, rowsOf, List.map_map, List.map_map]
  rfl

theorem joinLines_map : ∀ lines : List (List Char),
    joinLines (lines.map (List.map g)) = (joinLines lines).map g
  | [] => rfl
  | [line] => rfl
  | line :: next :: rest => by
    have ih := joinLines_map (next :: rest)
    have hnewline : g '\n' = '\n' := (hg.newline_iff _).2 rfl
    simp only [List.map_cons] at ih
    simp only [List.map_cons, joinLines, ih, List.map_append, hnewline]

theorem indentLines_map (indent : Nat) (lines : List (List Char)) :
    indentLines indent (lines.map (List.map g)) = (indentLines indent lines).map (List.map g) := by
  have hblank : ∀ line : List Char, (line.map g).all isBlank = line.all isBlank := fun line => by
    rw [List.all_map]
    exact congrArg line.all (funext hg.isBlank_eq)
  cases lines with
  | nil => rfl
  | cons first rest =>
    simp only [List.map_cons, indentLines, indentRest, List.map_map]
    refine congrArg (List.map g first :: ·) (List.map_congr_left fun line _ => ?_)
    simp only [Function.comp_apply, hblank]
    split_ifs
    · rfl
    · rw [List.map_append, List.map_replicate, hg.space_eq]

theorem close_recode (indent : Int) (rows : List Row) :
    close indent (rows.map (Row.recode g)) = (close indent rows).map g := by
  have htexts : ((rows.map (Row.recode g)).filter (!·.dropped)).map (·.text) =
      ((rows.filter (!·.dropped)).map (·.text)).map (List.map g) := by
    rw [List.filter_map, List.map_map, List.map_map]
    rfl
  rw [close, htexts, indentLines_map hg, joinLines_map hg, close]

omit hg

/-! ## Values -/

/-- A variable that has been looked up, recoded. -/
def recodeEntry (g : Char → Char) (entry : Variable × Option Json) : Variable × Option Json :=
  (entry.1.recode g, entry.2)

theorem resolve_recode (values : Table Json) (inputs : List Variable) :
    resolve values (inputs.map (Variable.recode g)) =
      (resolve values inputs).map (List.map (recodeEntry g)) := by
  induction inputs with
  | nil => rfl
  | cons v rest ih =>
    have hlookup : (v.recode g).lookup values = v.lookup values := rfl
    rw [List.map_cons, resolve, hlookup, ih, resolve]
    cases v.lookup values with
    | error e => rfl
    | ok value =>
      cases resolve values rest with
      | error e => rfl
      | ok more => rfl

theorem find?_recode (found : List (Variable × Option Json)) (name : String) :
    (found.map (recodeEntry g)).find? (·.1.name = name) =
      (found.find? (·.1.name = name)).map (recodeEntry g) := by
  rw [List.find?_map]
  rfl

theorem holds_recode (found : List (Variable × Option Json)) (name : String) :
    holds (found.map (recodeEntry g)) name = holds found name := by
  rw [holds, find?_recode, holds]
  cases found.find? (·.1.name = name) with
  | none => rfl
  | some entry =>
    obtain ⟨v, value⟩ := entry
    cases value with
    | none => rfl
    | some value => cases value <;> rfl

include hg in
theorem slotRows_recode (found : List (Variable × Option Json)) (name : String) :
    slotRows (found.map (recodeEntry g)) name =
      (slotRows found name).map (List.map (Row.recode g)) := by
  rw [slotRows, find?_recode, slotRows]
  cases found.find? (·.1.name = name) with
  | none => rfl
  | some entry =>
    obtain ⟨v, value⟩ := entry
    cases value with
    | none => rfl
    | some value =>
      simp only [Option.map_some, recodeEntry, Variable.recode]
      cases v.format value with
      | error misfit => rfl
      | ok text =>
        simp only [Except.map, String.toList_map, rowsOf_map hg]

/-! ## Templates -/

mutual

theorem render_recode (hg : IsRecoding g) (values : Table Json) (indent : Option Int) :
    ∀ t : Template, render values indent (recode g t) = (render values indent t).map (List.map g)
  | ⟨parts, inputs, own⟩ => by
    rw [recode, render, resolve_recode, render]
    cases resolve values inputs with
    | error e => rfl
    | ok found =>
      have hparts := partsRows_recode hg values found parts
      simp only [Except.map, bind, Except.bind, hparts]
      cases partsRows values found parts with
      | error e => rfl
      | ok rows => exact congrArg Except.ok (close_recode hg _ rows)

theorem partsRows_recode (hg : IsRecoding g) (values : Table Json)
    (found : List (Variable × Option Json)) : ∀ parts : List (Part Template),
      partsRows values (found.map (recodeEntry g)) (recodeParts g parts) =
        (partsRows values found parts).map (List.map (Row.recode g))
  | [] => rfl
  | part :: rest => by
    rw [recodeParts, partsRows, partRows_recode hg values found part,
      partsRows_recode hg values found rest, partsRows]
    cases partRows values found part with
    | error e => rfl
    | ok rows =>
      cases partsRows values found rest with
      | error e => rfl
      | ok more => exact congrArg Except.ok (map_glue recode_append rows more).symm

theorem partRows_recode (hg : IsRecoding g) (values : Table Json)
    (found : List (Variable × Option Json)) : ∀ part : Part Template,
      partRows values (found.map (recodeEntry g)) (recodePart g part) =
        (partRows values found part).map (List.map (Row.recode g))
  | .text text => by
    rw [recodePart, partRows, String.toList_map, rowsOf_map hg, partRows]
    rfl
  | .slot name => slotRows_recode hg found name
  | .branch name wholeLine body => by
    rw [recodePart, partRows, holds_recode, render_recode hg values none body, partRows]
    cases holds found name with
    | false => rfl
    | true =>
      cases render values none body with
      | error e => rfl
      | ok out => exact congrArg Except.ok (rowsOf_map hg out)

end

/-! ## Marked characters -/

theorem recodeParts_eq (parts : List (Part Template)) :
    recodeParts g parts = parts.map (recodePart g) := by
  induction parts with
  | nil => rfl
  | cons part rest ih => rw [recodeParts, List.map_cons, ih]

theorem exists_of_mem_recode {t : Template} {part : Part Template}
    (h : part ∈ (recode g t).parts) : ∃ p ∈ t.parts, recodePart g p = part := by
  obtain ⟨parts, inputs, indent⟩ := t
  rw [recode, recodeParts_eq] at h
  exact List.mem_map.1 h

theorem resolve_inputs_recode (values : Table Json) (t : Template) :
    resolve values (recode g t).inputs =
      (resolve values t.inputs).map (List.map (recodeEntry g)) := by
  obtain ⟨parts, inputs, indent⟩ := t
  rw [recode, resolve_recode]

theorem exists_text_of_mem_recode {t : Template} {text : String} (h : .text text ∈ (recode g t).parts) :
    ∃ s, .text s ∈ t.parts ∧ text = s.map g := by
  obtain ⟨p, hp, hpart⟩ := exists_of_mem_recode h
  cases p with
  | text s => exact ⟨s, hp, (Part.text.inj hpart).symm⟩
  | slot name => cases hpart
  | branch name wholeLine body => cases hpart

theorem slot_mem_of_mem_recode {t : Template} {name : String} (h : .slot name ∈ (recode g t).parts) :
    .slot name ∈ t.parts := by
  obtain ⟨p, hp, hpart⟩ := exists_of_mem_recode h
  cases p with
  | text s => cases hpart
  | slot name' => exact Part.slot.inj hpart ▸ hp
  | branch name' wholeLine body => cases hpart

theorem exists_branch_of_mem_recode {t recoded : Template} {name : String} {wholeLine : Bool}
    (h : .branch name wholeLine recoded ∈ (recode g t).parts) :
    ∃ body, .branch name wholeLine body ∈ t.parts ∧ recode g body = recoded := by
  obtain ⟨p, hp, hpart⟩ := exists_of_mem_recode h
  cases p with
  | text s => cases hpart
  | slot name' => cases hpart
  | branch name' wholeLine' body =>
    obtain ⟨rfl, rfl, hbody⟩ := Part.branch.inj hpart
    exact ⟨body, hp, hbody⟩

theorem exists_of_hasText_recode {t : Template} {text : String} (h : HasText (recode g t) text) :
    ∃ s, HasText t s ∧ text = s.map g := by
  generalize hr : recode g t = r at h
  induction h generalizing t with
  | here hmem =>
    subst hr
    obtain ⟨s, hs, rfl⟩ := exists_text_of_mem_recode hmem
    exact ⟨s, .here hs, rfl⟩
  | inBranch hmem _ ih =>
    subst hr
    obtain ⟨body, hbranch, hbody⟩ := exists_branch_of_mem_recode hmem
    obtain ⟨s, hs, rfl⟩ := ih hbody
    exact ⟨s, .inBranch hbranch hs, rfl⟩

theorem exists_of_formats_recode {values : Table Json} {t : Template} {text : String}
    (h : Formats values (recode g t) text) : ∃ s, Formats values t s ∧ text = s.map g := by
  generalize hr : recode g t = r at h
  induction h generalizing t with
  | here hfound hslot hvalue htext =>
    subst hr
    rw [resolve_inputs_recode] at hfound
    obtain ⟨found, hfound', rfl⟩ := exists_of_map hfound
    rw [find?_recode] at hvalue
    obtain ⟨⟨v, value⟩, hvalue', hentry⟩ := Option.map_eq_some_iff.1 hvalue
    obtain ⟨rfl, rfl⟩ := Prod.mk.inj hentry
    obtain ⟨s, hs, rfl⟩ := exists_of_map htext
    exact ⟨s, .here hfound' (slot_mem_of_mem_recode hslot) hvalue' hs, rfl⟩
  | inBranch hfound hbranch hholds _ ih =>
    subst hr
    rw [resolve_inputs_recode] at hfound
    obtain ⟨found, hfound', rfl⟩ := exists_of_map hfound
    rw [holds_recode] at hholds
    obtain ⟨body, hbranch', hbody⟩ := exists_branch_of_mem_recode hbranch
    obtain ⟨s, hs, rfl⟩ := ih hbody
    exact ⟨s, .inBranch hfound' hbranch' hholds hs, rfl⟩

theorem unmarked_map (hg : IsRecoding g) {s : String} (h : Unmarked s.toList) :
    Unmarked (s.map g).toList := by
  rw [String.toList_map]
  intro hmem
  obtain ⟨c, hc, hnul⟩ := List.mem_map.1 hmem
  exact h (hg.eq_nul hnul ▸ hc)

theorem refines_recode (hg : IsRecoding g) {values : Table Json} {t : Template}
    (htext : ∀ text, HasText t text → Unmarked text.toList)
    (hvalue : ∀ text, Formats values t text → Unmarked text.toList) :
    Refines values (recode g t) := by
  refine refines _ (fun text h => ?_) fun text h => ?_
  · obtain ⟨s, hs, rfl⟩ := exists_of_hasText_recode h
    exact unmarked_map hg (htext s hs)
  · obtain ⟨s, hs, rfl⟩ := exists_of_formats_recode h
    exact unmarked_map hg (hvalue s hs)

end Template

end ApiClient
