import ApiClient.Proofs.Dialect.UrlExpression
import Mathlib

/-!
# String literals of Kotlin

What a client of Kotlin writes for a text is a literal with the text as its value if no line ends within
the text, and is no literal at all otherwise: line feeds and carriage returns are left as they are
(`Dialect.kotlin_literals_denote`). The same holds for the segments that the expression for a URL keeps.

A text that is read as pieces is followed by what `Literal.Breaks` says no literal goes on with, so that
one line end makes the whole unreadable wherever it stands.
-/

namespace ApiClient

/-- No line ends within the text. -/
def Text.IsOneLine (text : String) : Prop :=
  ∀ c ∈ text.toList, c ≠ '\n' ∧ c ≠ '\r'

instance (text : String) : Decidable (Text.IsOneLine text) :=
  List.decidableBAll _ _

namespace Literal

/-! ## What no literal goes on with -/

/-- No literal is read from here on, whatever follows. -/
def Breaks (form : Form) (cs : List Char) : Prop :=
  ∀ rest, form.pieces (cs ++ rest) = none

variable {form : Form} {cs cs' : List Char} {pieces : List Piece}

theorem Breaks.append (h : Breaks form cs) (more : List Char) : Breaks form (cs ++ more) := by
  intro rest
  rw [List.append_assoc, h]

theorem Writes.breaks (h : Writes form cs pieces) (h' : Breaks form cs') :
    Breaks form (cs ++ cs') := by
  intro rest
  rw [List.append_assoc, h, h']
  rfl

theorem breaks_lineEnd (form : Form) {c : Char} (h : c = '\n' ∨ c = '\r') : Breaks form [c] := by
  intro rest
  have hnone : form.piece? (c :: rest) = none := by
    have hescape : c ≠ '\\' := by rcases h with rfl | rfl <;> decide
    have hmark : form.isMark c = false := by cases form <;> rcases h with rfl | rfl <;> decide
    have hstand : form.mayStand c = false := by cases form <;> rcases h with rfl | rfl <;> decide
    rw [Form.piece?, if_neg hescape, if_neg (by simp [hmark]), if_neg (by simp [hstand])]
  have hquote : c :: rest ≠ ['"'] := by
    rintro heq
    obtain ⟨rfl, -⟩ := List.cons.inj heq
    exact absurd h (by decide)
  rw [List.singleton_append, Form.pieces, if_neg hquote]
  split
  · rfl
  · rename_i piece rest' hsome
    cases hnone.symm.trans hsome

/-- Texts with slashes between them break where one of them breaks, if the others are read. -/
theorem breaks_join (hslash : Writes form ['/'] [.char '/']) {texts : List String}
    (hread : ∀ text ∈ texts, Breaks form text.toList ∨ ∃ part, Writes form text.toList part)
    (hbreak : ∃ text ∈ texts, Breaks form text.toList) :
    Breaks form (Text.join "/" texts).toList := by
  have hone : "/".toList = ['/'] := by decide
  induction texts with
  | nil => simp at hbreak
  | cons text rest ih =>
    obtain ⟨hfirst, hrest⟩ := List.forall_mem_cons.1 hread
    cases rest with
    | nil =>
      rw [Text.join]
      simpa using hbreak
    | cons next more =>
      rw [Text.join_cons_cons, String.toList_append, String.toList_append, hone, List.append_assoc]
      rcases hfirst with hfirst | ⟨part, hpart⟩
      · exact hfirst.append _
      · by_cases htext : Breaks form text.toList
        · exact htext.append _
        · have hlater := ((List.exists_mem_cons_iff ..).1 hbreak).resolve_left htext
          exact hpart.breaks (hslash.breaks (ih hrest hlater))

end Literal

namespace Dialect

open Literal Text

variable {identifiers : Identifiers} {text segment url : String}

/-! ## Literals of one line -/

theorem kotlinChar_lineEnd {c d : Char} (h : d = '\n' ∨ d = '\r') : d ∈ kotlinChar c ↔ d = c := by
  rw [kotlinChar]
  split_ifs with hescape
  · have hslash : d ≠ '\\' := by rcases h with rfl | rfl <;> decide
    simp [hslash]
  · simp

theorem isOneLine_kotlinInside : IsOneLine (kotlinInside text) ↔ IsOneLine text := by
  have hmem : ∀ {d : Char}, d = '\n' ∨ d = '\r' →
      (d ∈ (kotlinInside text).toList ↔ d ∈ text.toList) := by
    intro d hd
    rw [kotlinInside, String.toList_ofList, List.mem_flatMap]
    simp [kotlinChar_lineEnd hd]
  have hlines : ∀ {cs : List Char}, (∀ c ∈ cs, c ≠ '\n' ∧ c ≠ '\r') ↔ '\n' ∉ cs ∧ '\r' ∉ cs := by
    intro cs
    constructor
    · exact fun h => ⟨fun hn => (h _ hn).1 rfl, fun hr => (h _ hr).2 rfl⟩
    · exact fun h c hc => ⟨fun heq => h.1 (heq ▸ hc), fun heq => h.2 (heq ▸ hc)⟩
  rw [IsOneLine, IsOneLine, hlines, hlines, hmem (.inl rfl), hmem (.inr rfl)]

theorem writes_kotlinInside (h : IsOneLine text) :
    Writes .kotlin (kotlinInside text).toList (text.toList.map .char) := by
  rw [kotlinInside, String.toList_ofList]
  exact writes_flatMap fun c hc => writes_kotlinChar (h c hc).1 (h c hc).2

/-- The first line end of a text breaks the literal, since all before it is read. -/
theorem breaks_kotlinChars {cs : List Char} (h : ∃ c ∈ cs, c = '\n' ∨ c = '\r') :
    Breaks .kotlin (cs.flatMap kotlinChar) := by
  induction cs with
  | nil => simp at h
  | cons c rest ih =>
    rw [List.flatMap_cons]
    by_cases hc : c = '\n' ∨ c = '\r'
    · have hself : kotlinChar c = [c] := by rcases hc with rfl | rfl <;> decide
      rw [hself]
      exact (breaks_lineEnd .kotlin hc).append _
    · have hrest := ((List.exists_mem_cons_iff ..).1 h).resolve_left hc
      exact (writes_kotlinChar (not_or.1 hc).1 (not_or.1 hc).2).breaks (ih hrest)

theorem breaks_kotlinInside (h : ¬IsOneLine text) : Breaks .kotlin (kotlinInside text).toList := by
  rw [kotlinInside, String.toList_ofList]
  exact breaks_kotlinChars (by simpa only [IsOneLine, not_forall, exists_prop, not_and_or, not_not]
    using h)

theorem isOneLine_append {front back : String} :
    IsOneLine (front ++ back) ↔ IsOneLine front ∧ IsOneLine back := by
  simp only [IsOneLine, String.toList_append, List.forall_mem_append]

theorem isOneLine_join {texts : List String} :
    IsOneLine (join "/" texts) ↔ ∀ text ∈ texts, IsOneLine text := by
  have hslash : IsOneLine "/" := by decide
  induction texts with
  | nil => simp [join, IsOneLine]
  | cons text rest ih =>
    cases rest with
    | nil => simp [join]
    | cons next more =>
      rw [join_cons_cons, isOneLine_append, isOneLine_append, List.forall_mem_cons (a := text)]
      exact and_congr (and_iff_left hslash) ih

/-! ## Segments -/

/-- A segment for which no identifier is substituted. -/
def IsKept (identifiers : Identifiers) (segment : String) : Prop :=
  ∀ p identifier, IsParameter segment p → identifierOf? identifiers p ≠ some identifier

theorem isKept_iff : IsKept identifiers segment ↔ identifierFor identifiers segment = none := by
  rw [Option.eq_none_iff_forall_ne_some]
  constructor
  · intro h identifier hidentifier
    obtain ⟨p, hp, hp'⟩ := identifierFor_eq_some_iff.1 hidentifier
    exact h p identifier hp hp'
  · exact fun h p identifier hp hp' => h identifier (identifierFor_eq_some_iff.2 ⟨p, hp, hp'⟩)

theorem isOneLine_of_isKotlinName {name : String} (h : isKotlinName name = true) :
    IsOneLine name := by
  have hfeed : '\n' ∉ name.toList := notMem_of_isKotlinName (by decide) (by decide) (by decide) h
  have hreturn : '\r' ∉ name.toList := notMem_of_isKotlinName (by decide) (by decide) (by decide) h
  exact fun c hc => ⟨fun heq => hfeed (heq ▸ hc), fun heq => hreturn (heq ▸ hc)⟩

theorem isOneLine_kotlinSegment (hnames : ∀ e ∈ identifiers, isKotlinName e.2 = true) :
    IsOneLine (kotlinSegment identifiers segment) ↔
      (IsKept identifiers segment → IsOneLine segment) := by
  have hbraces : IsOneLine "$\x7b" ∧ IsOneLine "\x7d" := by decide
  rw [isKept_iff, kotlinSegment]
  cases hidentifier : identifierFor identifiers segment with
  | some identifier =>
    obtain ⟨e, he, rfl⟩ := exists_of_identifierFor hidentifier
    have hname := isOneLine_of_isKotlinName (hnames e he)
    simp [isOneLine_append, hbraces, hname]
  | none => simp [isOneLine_kotlinInside]

/-- The segments that the expression for a URL keeps have no line ends. -/
def KeepsOneLine (identifiers : Identifiers) (url : String) : Prop :=
  ∀ segment ∈ split '/' url, IsKept identifiers segment → IsOneLine segment

theorem isOneLine_urlExpression (hnames : ∀ e ∈ identifiers, isKotlinName e.2 = true) :
    IsOneLine (kotlin.urlExpression url identifiers) ↔ KeepsOneLine identifiers url := by
  have hquote : IsOneLine "\"" := by decide
  simp only [urlExpression, isOneLine_append, hquote, true_and, and_true, isOneLine_join,
    List.forall_mem_map, isOneLine_kotlinSegment hnames, KeepsOneLine]

/-- A segment with a line end breaks the literal, and the segments before it are read. -/
theorem read_urlExpression_eq_none (hnames : ∀ e ∈ identifiers, isKotlinName e.2 = true)
    (h : ¬KeepsOneLine identifiers url) :
    Literal.read .kotlin (kotlin.urlExpression url identifiers) = none := by
  have hslash : Writes .kotlin ['/'] [.char '/'] :=
    writes_of_piece? (piece?_self (by decide) (by decide) (by decide))
  have hsegment : ∀ segment, (IsKept identifiers segment → IsOneLine segment) →
      ∃ part, Writes .kotlin (kotlinSegment identifiers segment).toList part := fun segment hline =>
    ⟨_, writes_kotlinSegment hnames fun hnone => hline (isKept_iff.2 hnone)⟩
  have hbreaks : ∀ segment, ¬(IsKept identifiers segment → IsOneLine segment) →
      Breaks .kotlin (kotlinSegment identifiers segment).toList := by
    intro segment hline
    obtain ⟨hkept, hends⟩ := Classical.not_imp.1 hline
    rw [kotlinSegment, isKept_iff.1 hkept]
    exact breaks_kotlinInside hends
  have hjoin : Breaks .kotlin
      (join "/" ((split '/' url).map (kotlinSegment identifiers))).toList := by
    refine breaks_join hslash (List.forall_mem_map.2 fun segment _ => ?_) ?_
    · exact (em _).symm.imp (hbreaks segment) (hsegment segment)
    · obtain ⟨segment, hmem, hline⟩ : ∃ segment ∈ split '/' url,
          ¬(IsKept identifiers segment → IsOneLine segment) := by
        simpa only [KeepsOneLine, not_forall, exists_prop] using h
      exact ⟨_, List.mem_map_of_mem hmem, hbreaks segment hline⟩
  simp only [Literal.read, toList_kotlin_urlExpression]
  exact hjoin _

/-! ## Literals for texts -/

/-- A literal of one line, whose value is the text. -/
def IsLiteralOf (literal text : String) : Prop :=
  IsOneLine literal ∧ ∃ pieces, Literal.read .kotlin literal = some pieces ∧
    ∀ env, Literal.value env pieces = some text

theorem toList_kotlinString (text : String) :
    (kotlinString text).toList = '"' :: ((kotlinInside text).toList ++ ['"']) := by
  have hquote : "\"".toList = ['"'] := by decide
  simp [kotlinString, hquote]

theorem isOneLine_kotlinString : IsOneLine (kotlinString text) ↔ IsOneLine text := by
  have hquote : IsOneLine "\"" := by decide
  simp only [kotlinString, isOneLine_append, hquote, true_and, and_true, isOneLine_kotlinInside]

theorem isLiteralOf_kotlinString (h : IsOneLine text) : IsLiteralOf (kotlinString text) text := by
  refine ⟨isOneLine_kotlinString.2 h, text.toList.map .char, ?_, fun env => ?_⟩
  · simp only [Literal.read, toList_kotlinString]
    exact (writes_kotlinInside h).pieces_quote
  · rw [Literal.value, chars_map_char, Option.map_some, String.ofList_toList]

theorem read_kotlinString_eq_none (h : ¬IsOneLine text) :
    Literal.read .kotlin (kotlinString text) = none := by
  simp only [Literal.read, toList_kotlinString]
  exact breaks_kotlinInside h _

/-! ## What the literals denote -/

/-- A text of one line is written as a literal of one line with the text as its value, and a text of
several lines as no literal. The expression for a URL is a literal of one line, with the identifiers and
the other segments as they are, if the segments that it keeps have no line ends, and else no literal. -/
theorem kotlin_literals_denote (text url : String) (identifiers : Identifiers)
    (hnames : ∀ e ∈ identifiers, isKotlinName e.2 = true) :
    let expression := kotlin.urlExpression url identifiers
    (IsOneLine text → IsLiteralOf (kotlinString text) text) ∧
    (¬IsOneLine text → ¬IsOneLine (kotlinString text) ∧
      Literal.read .kotlin (kotlinString text) = none) ∧
    (KeepsOneLine identifiers url → IsOneLine expression ∧
      ∃ parts, Literal.read .kotlin expression = some (joined parts) ∧
        List.Forall₂ (IsSubstituted identifiers (fun identifier => [Piece.slot identifier])
          fun segment => segment.toList.map .char) (split '/' url) parts) ∧
    (¬KeepsOneLine identifiers url → ¬IsOneLine expression ∧
      Literal.read .kotlin expression = none) := by
  refine ⟨isLiteralOf_kotlinString, fun h => ⟨mt isOneLine_kotlinString.1 h,
    read_kotlinString_eq_none h⟩, fun h => ⟨(isOneLine_urlExpression hnames).2 h, _, ?_,
    forall₂_isSubstituted_iff.2 rfl⟩, fun h => ⟨mt (isOneLine_urlExpression hnames).1 h,
    read_urlExpression_eq_none hnames h⟩⟩
  exact read_kotlin_of_kept hnames fun segment hmem hnone => h segment hmem (isKept_iff.2 hnone)

/-- A quote, a backslash and a dollar sign in a text, and a line feed behind the braces of a parameter
that is substituted. -/
theorem kotlin_literals_denote_price :
    isKotlinName "id" = true ∧
    IsLiteralOf (kotlinString "\"$\\") "\"$\\" ∧
    Literal.read .kotlin (kotlin.urlExpression "/$/\x7bid\x7d\n" [(.str "id", "id")]) =
      some ("/$/".toList.map .char ++ [.slot "id"]) := by
  have hname : isKotlinName "id" = true := by decide +kernel
  have hdenote := kotlin_literals_denote "\"$\\" "/$/\x7bid\x7d\n" [(.str "id", "id")]
    (by simpa using hname)
  have hkeeps : KeepsOneLine [(.str "id", "id")] "/$/\x7bid\x7d\n" := by
    intro segment hmem hkept
    rw [isKept_iff] at hkept
    revert segment
    decide +kernel
  refine ⟨hname, hdenote.1 (by decide), ?_⟩
  obtain ⟨-, parts, hread, hparts⟩ := hdenote.2.2.1 hkeeps
  rw [hread, forall₂_isSubstituted_iff.1 hparts]
  decide +kernel

/-- The line feed of a text is left in its literal, and that of a segment in the expression. -/
theorem kotlin_literals_break :
    ¬IsLiteralOf (kotlinString "a\nb") "a\nb" ∧
    kotlinString "a\nb" = "\"a\nb\"" ∧
    kotlin.urlExpression "/a\nb" [] = "\"/a\nb\"" ∧
    Literal.read .kotlin (kotlin.urlExpression "/a\nb" []) = none := by
  have hends : ¬IsOneLine "a\nb" := by decide
  have hkeeps : ¬KeepsOneLine [] "/a\nb" := by
    intro h
    exact hends (h "a\nb" (by decide +kernel) (isKept_iff.2 (by decide +kernel)))
  refine ⟨fun h => hends (isOneLine_kotlinString.1 h.1), by decide +kernel, by decide +kernel, ?_⟩
  exact read_urlExpression_eq_none (by simp) hkeeps

end Dialect

end ApiClient
