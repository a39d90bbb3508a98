import ApiClient.Proofs.Template.Marker
import ApiClient.Proofs.Text.Foreign
import Mathlib

/-!
# Values that hold no marker

A marker can come into a text by a value that holds it, and by two values that hold a part of it each.
Between any two values of a divided template (`isDivided`) there is a text with a character that the marker
does not have, so that a marker does not reach from the one into the other. Such a template is filled in
as the evaluator by rows does it as long as no formatted value holds the marker, whatever other characters
the values have (`spares_of_isDivided`).
-/

namespace ApiClient.Template

open Text

/-! ## Texts without a marker -/

/-- No marker stands in the text. -/
def MarkerFree (text : List Char) : Prop :=
  ¬dropMarker <:+: text

instance (text : List Char) : Decidable (MarkerFree text) :=
  decidable_of_iff (occursIn dropMarker text = false) (by rw [MarkerFree, ← occursIn_iff]; simp)

variable {a b line text : List Char}

theorem dropMarker_ne_nil : dropMarker ≠ [] :=
  List.cons_ne_nil _ _

theorem isBlank_of_mem_dropMarker : ∀ c ∈ dropMarker, isBlank c = false := by
  have hall : (dropMarker.all fun c => !isBlank c) = true := by decide
  simpa using hall

theorem markerFree_append_of_unmarked (h : Unmarked a) : MarkerFree (a ++ b) ↔ MarkerFree b :=
  not_congr (isInfix_append_iff_of_head h)

theorem markerFree_append_unmarked (h : Unmarked b) : MarkerFree (a ++ b) ↔ MarkerFree a :=
  have hlast : dropMarker <:+: a ++ b ↔ dropMarker <:+: a :=
    @isInfix_append_iff_of_last (Char.ofNat 0 :: "drop-line".toList) a b _ h
  not_congr hlast

theorem markerFree_append_cons {c : Char} (hc : c ∉ dropMarker) :
    MarkerFree (a ++ c :: b) ↔ MarkerFree a ∧ MarkerFree b := by
  rw [MarkerFree, isInfix_append_cons_iff hc, not_or]
  rfl

theorem markerFree_nil : MarkerFree [] := by
  simpa [MarkerFree] using dropMarker_ne_nil

theorem markerFree_of_unmarked (h : Unmarked text) : MarkerFree text := by
  have hmore := markerFree_append_of_unmarked (b := []) h
  rw [List.append_nil] at hmore
  exact hmore.2 markerFree_nil

/-! ## Lines -/

/-- A line of a text, and the row it is: a row that is to go holds the marker, and no other does. -/
inductive RowIn : List Char → Row → Prop
  | kept {line : List Char} (h : MarkerFree line) : RowIn line ⟨line, false⟩
  | marked {line text : List Char} (h : dropMarker <:+: line) : RowIn line ⟨text, true⟩

theorem RowIn.append {r s : Row} (ha : RowIn a r) (hb : RowIn b s)
    (hjoin : MarkerFree a → MarkerFree b → MarkerFree (a ++ b)) : RowIn (a ++ b) (r.append s) := by
  cases ha with
  | marked ha => exact .marked (ha.trans (List.prefix_append a b).isInfix)
  | kept ha =>
    cases hb with
    | marked hb => exact .marked (hb.trans (List.suffix_append a b).isInfix)
    | kept hb => exact .kept (hjoin ha hb)

/-- The lines of a text are the rows. -/
def Shows (text : List Char) (rows : List Row) : Prop :=
  List.Forall₂ RowIn (splitOnChar '\n' text) rows

theorem shows_rowsOf (h : MarkerFree text) : Shows text (rowsOf text) := by
  have hbreak : ∀ a b, MarkerFree (a ++ '\n' :: b) ↔ MarkerFree a ∧ MarkerFree b := fun a b =>
    markerFree_append_cons (by decide)
  rw [Shows, rowsOf, List.forall₂_map_right_iff, List.forall₂_same]
  exact fun line hline => .kept ((forall_splitOnChar_iff hbreak text).1 h line hline)

theorem shows_absent (wholeLine : Bool) :
    Shows (if wholeLine then dropMarker else []) [⟨[], wholeLine⟩] := by
  cases wholeLine with
  | false => exact .cons (.kept markerFree_nil) .nil
  | true => exact .cons (.marked List.infix_rfl) .nil

/-- The last line of a text and the first of the text behind it make up no marker together. -/
def Joins (a b : List Char) : Prop :=
  ∀ last ∈ (splitOnChar '\n' a).getLast?, ∀ first ∈ (splitOnChar '\n' b).head?,
    MarkerFree last → MarkerFree first → MarkerFree (last ++ first)

theorem Shows.append {rows more : List Row} (ha : Shows a rows) (hb : Shows b more)
    (hjoins : Joins a b) : Shows (a ++ b) (glue Row.append rows more) := by
  rw [Shows, splitOnChar_glue]
  exact forall₂_glue_of_meet ha hb fun last hlast first hfirst _ _ hl hf =>
    hl.append hf (hjoins last hlast first hfirst)

/-! ## Texts that meet -/

theorem joins_of_unmarked (h : Unmarked a) (b : List Char) : Joins a b := by
  intro last hlast first _ _ hfirst
  have hsub := sublist_of_mem_splitOnChar (List.mem_of_mem_getLast? hlast)
  exact (markerFree_append_of_unmarked (h.sublist hsub)).2 hfirst

theorem joins_unmarked (a : List Char) (h : Unmarked b) : Joins a b := by
  intro last _ first hfirst hlast _
  have hsub := sublist_of_mem_splitOnChar (List.mem_of_mem_head? hfirst)
  exact (markerFree_append_unmarked (h.sublist hsub)).2 hlast

/-- A text of a template that has a character which the marker does not have. -/
def divides (text : String) : Bool :=
  text.toList.any fun c => !dropMarker.contains c

theorem divides_append (a b : String) : divides (a ++ b) = (divides a || divides b) := by
  rw [divides, String.toList_append, List.any_append]
  rfl

/-- No marker reaches across such a text. -/
theorem joins_of_divides {between : String} (hbetween : Unmarked between.toList)
    (h : divides between = true) (a b : List Char) : Joins a (between.toList ++ b) := by
  intro last _ first hfirst hlast hfree
  rw [head?_splitOnChar, Option.mem_def, Option.some.injEq] at hfirst
  subst hfirst
  by_cases hfeed : '\n' ∈ between.toList
  · have hshort : (between.toList ++ b).takeWhile (· ≠ '\n') <+: between.toList := by
      rw [List.takeWhile_append, if_neg]
      · exact List.takeWhile_prefix _
      · intro hlength
        have hall := List.takeWhile_eq_self_iff.1
          ((List.takeWhile_sublist (· ≠ '\n')).eq_of_length hlength)
        simpa using hall _ hfeed
    exact (markerFree_append_unmarked (hbetween.sublist hshort.sublist)).2 hlast
  · have hline : ∀ c ∈ between.toList, (c ≠ '\n' : Bool) = true := fun c hc =>
      decide_eq_true fun heq => hfeed (heq ▸ hc)
    rw [List.takeWhile_append_of_pos hline] at hfree ⊢
    obtain ⟨c, hc, hforeign⟩ := List.any_eq_true.1 h
    obtain ⟨front, back, hcut⟩ := List.append_of_mem hc
    have hfront : Unmarked front := hbetween.sublist (hcut ▸ List.sublist_append_left _ _)
    have hnot : c ∉ dropMarker := by simpa using hforeign
    rw [hcut, List.append_assoc, List.cons_append] at hfree ⊢
    rw [← List.append_assoc, markerFree_append_cons hnot, markerFree_append_unmarked hfront]
    exact ⟨hlast, ((markerFree_append_cons hnot).1 hfree).2⟩

/-! ## Divided templates -/

/-- No marker reaches from a value into these pieces: there are none, or a text that divides is the first. -/
def opensDivided : List (Part Template) → Bool
  | [] => true
  | .text text :: _ => divides text
  | _ => false

/-- Whether a piece is a text. -/
def Part.isText : Part Template → Bool
  | .text _ => true
  | _ => false

mutual

/-- Between any two values of the template or of a branch there is a text that divides. -/
def isDivided : Template → Bool
  | ⟨parts, _, _⟩ => areDivided parts

/-- Behind every value and branch among the pieces stands a text that divides, if anything does. -/
def areDivided : List (Part Template) → Bool
  | [] => true
  | part :: rest => isDividedPart part && (part.isText || opensDivided rest) && areDivided rest

/-- A branch is divided in itself. -/
def isDividedPart : Part Template → Bool
  | .branch _ _ body => isDivided body
  | _ => true

end

/-! ## Closing -/

theorem RowIn.occursIn_eq {row : Row} (h : RowIn line row) :
    occursIn dropMarker line = row.dropped := by
  cases h with
  | kept h => exact Bool.eq_false_iff.2 fun hoccurs => h (occursIn_iff.1 hoccurs)
  | marked h => exact occursIn_iff.2 h

theorem RowIn.eq_text {row : Row} (h : RowIn line row) (hstays : row.dropped = false) :
    line = row.text := by
  cases h with
  | kept h => rfl
  | marked h => cases hstays

theorem RowIn.markerFree {row : Row} (h : RowIn line row) (hstays : row.dropped = false) :
    MarkerFree row.text := by
  cases h with
  | kept h => exact h
  | marked h => cases hstays

theorem Shows.finish_eq {rows : List Row} (h : Shows text rows) (indent : Int) :
    finish indent text = close indent rows :=
  finish_eq_close RowIn.occursIn_eq RowIn.eq_text h indent

theorem markerFree_spaces (n : Nat) (h : MarkerFree line) :
    MarkerFree (List.replicate n ' ' ++ line) :=
  (markerFree_append_of_unmarked
    fun hmem => absurd (List.eq_of_mem_replicate hmem) (by decide)).2 h

theorem markerFree_break (ha : MarkerFree a) (hb : MarkerFree b) : MarkerFree (a ++ '\n' :: b) :=
  (markerFree_append_cons (by decide)).2 ⟨ha, hb⟩

theorem Shows.markerFree_close {rows : List Row} (h : Shows text rows) (indent : Int) :
    MarkerFree (close indent rows) :=
  close_of_forall₂ RowIn.markerFree markerFree_nil markerFree_spaces markerFree_break h indent

/-! ## Pieces -/

/-- The same error, or a text and its rows. -/
inductive Matches : Except Error (List Char) → Except Error (List Row) → Prop
  | error (e : Error) : Matches (.error e) (.error e)
  | ok {text : List Char} {rows : List Row} (h : Shows text rows) : Matches (.ok text) (.ok rows)

theorem Matches.append {x y : Except Error (List Char)} {r s : Except Error (List Row)}
    (hx : Matches x r) (hy : Matches y s) (hjoins : ∀ a b, x = .ok a → y = .ok b → Joins a b) :
    Matches (do let a ← x; let b ← y; return a ++ b)
      (do let a ← r; let b ← s; return glue Row.append a b) := by
  cases hx with
  | error e => exact .error e
  | ok hx =>
    cases hy with
    | error e => exact .error e
    | ok hy => exact .ok (hx.append hy (hjoins _ _ rfl rfl))

theorem Matches.finish_eq {x : Except Error (List Char)} {r : Except Error (List Row)}
    (h : Matches x r) (indent : Int) :
    (do let text ← x; return finish indent text) = (do let rows ← r; return close indent rows) := by
  cases h with
  | error e => rfl
  | ok h => exact congrArg Except.ok (h.finish_eq indent)

theorem Matches.markerFree_close {x : Except Error (List Char)} {r : Except Error (List Row)}
    (h : Matches x r) {indent : Int} {out : List Char}
    (hout : (do let rows ← r; return close indent rows) = .ok out) : MarkerFree out := by
  cases h with
  | error e => cases hout
  | ok h =>
    obtain rfl := Except.ok.inj hout
    exact h.markerFree_close indent

/-- A template is filled in as the evaluator does it, and no text it gives holds a marker. -/
structure Spares (values : Table Json) (t : Template) : Prop where
  fill_eq (indent : Option Int) : fill values indent t = render values indent t
  markerFree {indent : Option Int} {out : List Char} (h : render values indent t = .ok out) :
    MarkerFree out

variable {values : Table Json} {found : List (Variable × Option Json)} {name : String}

theorem matches_slot
    (hvalue : ∀ v value text, found.find? (·.1.name = name) = some (v, some value) →
      v.format value = .ok text → MarkerFree text.toList) :
    Matches (formatted found name) (slotRows found name) := by
  obtain ⟨e, htext, hrows⟩ | ⟨wholeLine, htext, hrows⟩ |
    ⟨v, value, text, hfind, hformat, htext, hrows⟩ := slot_cases found name <;> rw [htext, hrows]
  · exact .error e
  · exact .ok (shows_absent wholeLine)
  · exact .ok (shows_rowsOf (hvalue v value text hfind hformat))

theorem matches_branch {body : Template} (wholeLine : Bool)
    (hbody : holds found name = true → Spares values body) :
    Matches (fillPart values found (.branch name wholeLine body))
      (partRows values found (.branch name wholeLine body)) := by
  obtain ⟨e, htext, hrows⟩ | ⟨htext, hrows⟩ | ⟨out, hholds, hout, htext, hrows⟩ :=
    branch_cases name wholeLine fun hholds => (hbody hholds).fill_eq none <;> rw [htext, hrows]
  · exact .error e
  · exact .ok (shows_absent wholeLine)
  · exact .ok (shows_rowsOf ((hbody hholds).markerFree hout))

/-- The text of a piece and that of the pieces behind it make up no marker. -/
theorem joins_of_areDivided {part : Part Template} {rest : List (Part Template)}
    (hdivided : areDivided (part :: rest) = true)
    (htext : ∀ text, .text text ∈ part :: rest → Unmarked text.toList)
    (ha : fillPart values found part = .ok a) (hb : fillParts values found rest = .ok b) :
    Joins a b := by
  simp only [areDivided, Bool.and_eq_true, Bool.or_eq_true] at hdivided
  obtain ⟨⟨-, hopens⟩, -⟩ := hdivided
  rcases hopens with hpart | hrest
  · cases part with
    | text text =>
      rw [fillPart] at ha
      obtain rfl := Except.ok.inj ha
      exact joins_of_unmarked (htext text List.mem_cons_self) b
    | slot name => cases hpart
    | branch name wholeLine body => cases hpart
  · cases rest with
    | nil =>
      rw [fillParts] at hb
      obtain rfl := Except.ok.inj hb
      exact joins_unmarked a List.not_mem_nil
    | cons next more =>
      cases next with
      | text text =>
        rw [fillParts, fillPart] at hb
        obtain ⟨_, hnext, hb⟩ := exists_of_bind hb
        obtain rfl := Except.ok.inj hnext
        obtain ⟨behind, -, hb⟩ := exists_of_bind hb
        obtain rfl := Except.ok.inj hb
        exact joins_of_divides (htext text (by simp)) hrest a behind
      | slot name => cases hrest
      | branch name wholeLine body => cases hrest

theorem matches_parts {parts : List (Part Template)} (hdivided : areDivided parts = true)
    (htext : ∀ text, .text text ∈ parts → Unmarked text.toList)
    (h : ∀ part ∈ parts, Matches (fillPart values found part) (partRows values found part)) :
    Matches (fillParts values found parts) (partsRows values found parts) := by
  induction parts with
  | nil =>
    rw [fillParts, partsRows]
    exact .ok (shows_rowsOf markerFree_nil)
  | cons part rest ih =>
    obtain ⟨hpart, hrest⟩ := List.forall_mem_cons.1 h
    have hmore : areDivided rest = true := by
      simp only [areDivided, Bool.and_eq_true] at hdivided
      exact hdivided.2
    rw [fillParts, partsRows]
    refine hpart.append (ih hmore (fun text hmem => htext text (List.mem_cons_of_mem _ hmem)) hrest) ?_
    exact fun a b ha hb => joins_of_areDivided hdivided htext ha hb

theorem isDividedPart_of_mem {parts : List (Part Template)} (h : areDivided parts = true) :
    ∀ part ∈ parts, isDividedPart part = true := by
  induction parts with
  | nil => exact fun part hpart => absurd hpart List.not_mem_nil
  | cons part rest ih =>
    simp only [areDivided, Bool.and_eq_true] at h
    exact List.forall_mem_cons.2 ⟨h.1.1, ih h.2⟩

/-! ## Templates -/

/-- As long as no formatted value holds the marker, a divided template is filled in as the evaluator does
it. -/
theorem spares_of_isDivided : ∀ t : Template, isDivided t = true →
    (∀ text, HasText t text → Unmarked text.toList) →
    (∀ text, Formats values t text → MarkerFree text.toList) → Spares values t
  | ⟨parts, inputs, own⟩, hdivided, htext, hvalue => by
    rw [isDivided] at hdivided
    have hparts : ∀ found, resolve values inputs = .ok found →
        Matches (fillParts values found parts) (partsRows values found parts) := by
      intro found hfound
      refine matches_parts hdivided (fun text hmem => htext text (.here hmem)) fun part hpart => ?_
      cases part with
      | text text =>
        rw [fillPart, partRows]
        exact .ok (shows_rowsOf (markerFree_of_unmarked (htext text (.here hpart))))
      | slot name =>
        rw [fillPart, partRows]
        exact matches_slot fun v value text hv hformat => hvalue text (.here hfound hpart hv hformat)
      | branch name wholeLine body =>
        have hbody : isDivided body = true := isDividedPart_of_mem hdivided _ hpart
        exact matches_branch wholeLine fun hholds => spares_of_isDivided body hbody
          (fun text h => htext text (.inBranch hpart h))
          (fun text h => hvalue text (.inBranch hfound hpart hholds h))
    refine ⟨fun indent => ?_, fun {indent out} hout => ?_⟩
    · rw [fill, render]
      cases hfound : resolve values inputs with
      | error e => rfl
      | ok found => exact (hparts found hfound).finish_eq _
    · rw [render] at hout
      obtain ⟨found, hfound, hclose⟩ := exists_of_bind hout
      exact (hparts found hfound).markerFree_close hclose
  termination_by t => sizeOf t
  decreasing_by
    have := List.sizeOf_lt_of_mem hpart
    simp only [Part.branch.sizeOf_spec, mk.sizeOf_spec] at this ⊢
    omega

end ApiClient.Template
