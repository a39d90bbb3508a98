import ApiClient.Proofs.Dialect.Escaping
import Mathlib

/-!
# Expressions for URLs

A segment is a parameter if it is the name of one in braces (`Dialect.segmentParameter_eq_some_iff`), and
it is substituted if the parameter has an identifier (`Dialect.identifierFor_eq_some_iff`). The expression
for a URL is a literal that has the identifiers in place of these segments and the other segments as
they are: in Python for every URL (`Dialect.read_python`), in Kotlin for every URL without line ends
(`Dialect.read_kotlin`). So it evaluates to the URL with the values of the parameters in it
(`Dialect.python_url_denotes`), and every parameter that is a segment is substituted
(`Dialect.parameters_substituted`); one that is a part of a segment is left
(`Dialect.parameter_left_in_segment`).
-/

namespace ApiClient.Dialect

open Literal

variable {identifiers : Identifiers} {segment p identifier : String}

/-! ## Parameters in segments -/

/-- A segment is the name of a parameter in braces. A line feed may follow them. -/
def IsParameter (segment p : String) : Prop :=
  p ≠ "" ∧ '\n' ∉ p.toList ∧
    (segment = "\x7b" ++ p ++ "\x7d" ∨ segment = "\x7b" ++ p ++ "\x7d\n")

/-- The identifier of a parameter. -/
def identifierOf? (identifiers : Identifiers) (p : String) : Option String :=
  (identifiers.find? fun e => e.1.same (.str p)).map Prod.snd

theorem beforeBrace_eq_some_iff {cs name : List Char} :
    beforeBrace cs = some name ↔ cs = name ++ ['\x7d'] ∨ cs = name ++ ['\x7d', '\n'] := by
  have hreverse : ∀ back, cs = name ++ back ↔ cs.reverse = back.reverse ++ name.reverse := by
    intro back
    rw [← List.reverse_append, List.reverse_inj]
  rw [hreverse, hreverse, beforeBrace]
  split
  · rename_i rest hrest
    simp [hrest, List.reverse_eq_iff]
  · rename_i rest hrest
    simp [hrest, List.reverse_eq_iff]
  · rename_i hbrace hfeed
    refine iff_of_false nofun (not_or.2 ⟨?_, ?_⟩)
    · exact fun h => hbrace name.reverse h
    · exact fun h => hfeed name.reverse h

theorem segmentParameter_eq_some_iff : segmentParameter segment = some p ↔ IsParameter segment p := by
  have hopen : ∀ back : String, segment = "\x7b" ++ p ++ back ↔
      segment.toList = '\x7b' :: (p.toList ++ back.toList) := by
    intro back
    have hbrace : "\x7b".toList = ['\x7b'] := by decide
    rw [← String.toList_inj, String.toList_append, String.toList_append, hbrace]
    rfl
  have hclose : "\x7d".toList = ['\x7d'] ∧ "\x7d\n".toList = ['\x7d', '\n'] := by decide
  have hempty : p ≠ "" ↔ p.toList ≠ [] := by simp
  rw [IsParameter, hopen, hopen, hclose.1, hclose.2, hempty, segmentParameter]
  split
  · rename_i rest hrest
    rw [hrest, List.cons.injEq, List.cons.injEq, and_iff_right rfl, and_iff_right rfl,
      ← beforeBrace_eq_some_iff]
    split
    · rename_i name hname
      rw [hname, Option.some.injEq]
      constructor
      · intro h
        split_ifs at h with hbad
        obtain rfl := Option.some.inj h
        rw [String.toList_ofList]
        exact ⟨fun hnil => hbad (Or.inl hnil), fun hfeed => hbad (Or.inr hfeed), rfl⟩
      · rintro ⟨hne, hfeed, rfl⟩
        rw [if_neg (not_or.2 ⟨hne, hfeed⟩), String.ofList_toList]
    · rename_i hname
      rw [hname]
      simp
  · rename_i hstart
    refine iff_of_false nofun ?_
    rintro ⟨-, -, h | h⟩ <;> exact hstart _ h

theorem identifierFor_eq_some_iff : identifierFor identifiers segment = some identifier ↔
    ∃ p, IsParameter segment p ∧ identifierOf? identifiers p = some identifier := by
  rw [identifierFor, Option.bind_eq_bind, Option.bind_eq_some_iff]
  constructor
  · rintro ⟨p, hp, h⟩
    obtain ⟨e, he, hpure⟩ := Option.bind_eq_some_iff.1 h
    exact ⟨p, segmentParameter_eq_some_iff.1 hp, Option.map_eq_some_iff.2 ⟨e, he, Option.some.inj hpure⟩⟩
  · rintro ⟨p, hp, h⟩
    obtain ⟨e, he, rfl⟩ := Option.map_eq_some_iff.1 h
    exact ⟨p, segmentParameter_eq_some_iff.2 hp, Option.bind_eq_some_iff.2 ⟨e, he, rfl⟩⟩

theorem exists_of_identifierFor (h : identifierFor identifiers segment = some identifier) :
    ∃ e ∈ identifiers, e.2 = identifier := by
  obtain ⟨p, -, hp⟩ := identifierFor_eq_some_iff.1 h
  obtain ⟨e, he, rfl⟩ := Option.map_eq_some_iff.1 hp
  exact ⟨e, List.mem_of_find?_eq_some he, rfl⟩

/-! ## Substitution in segments -/

/-- What comes of a segment: what is put for the identifier of its parameter, or what is kept of a
segment that is no parameter with an identifier. -/
def IsSubstituted {α : Type} (identifiers : Identifiers) (put keep : String → α) (segment : String)
    (part : α) : Prop :=
  (∀ p identifier, IsParameter segment p → identifierOf? identifiers p = some identifier →
    part = put identifier) ∧
  ((∀ p identifier, IsParameter segment p → identifierOf? identifiers p ≠ some identifier) →
    part = keep segment)

/-- What is put in the place of a segment. -/
def substitute {α : Type} (identifiers : Identifiers) (put keep : String → α) (segment : String) : α :=
  match identifierFor identifiers segment with
  | some identifier => put identifier
  | none => keep segment

theorem isSubstituted_iff {α : Type} {put keep : String → α} {part : α} :
    IsSubstituted identifiers put keep segment part ↔
      part = substitute identifiers put keep segment := by
  have hfor : ∀ {identifier}, identifierFor identifiers segment = some identifier ↔
      ∃ p, IsParameter segment p ∧ identifierOf? identifiers p = some identifier :=
    identifierFor_eq_some_iff
  rw [IsSubstituted, substitute]
  cases hidentifier : identifierFor identifiers segment with
  | some identifier =>
    obtain ⟨p, hp, hidentifierOf⟩ := hfor.1 hidentifier
    constructor
    · exact fun h => h.1 p identifier hp hidentifierOf
    · rintro rfl
      refine ⟨fun p' identifier' hp' h' => ?_, fun h => absurd hidentifierOf (h p identifier hp)⟩
      rw [Option.some.inj (hidentifier.symm.trans (hfor.2 ⟨p', hp', h'⟩))]
  | none =>
    have hnone : ∀ p identifier, IsParameter segment p →
        identifierOf? identifiers p ≠ some identifier := fun p identifier hp h =>
      nomatch hidentifier.symm.trans (hfor.2 ⟨p, hp, h⟩)
    constructor
    · exact fun h => h.2 hnone
    · rintro rfl
      exact ⟨fun p identifier hp h => absurd h (hnone p identifier hp), fun _ => rfl⟩

theorem forall₂_isSubstituted_iff {α : Type} {put keep : String → α} {segments : List String}
    {parts : List α} : List.Forall₂ (IsSubstituted identifiers put keep) segments parts ↔
      parts = segments.map (substitute identifiers put keep) := by
  have heq : IsSubstituted identifiers put keep = fun segment part =>
      part = substitute identifiers put keep segment := by
    funext segment part
    exact propext isSubstituted_iff
  rw [heq]
  induction segments generalizing parts with
  | nil => simp
  | cons segment rest ih =>
    cases parts with
    | nil => simp
    | cons part parts => simp [ih]

/-! ## Reading the expression -/

/-- The pieces for a segment: the identifier that is substituted for it, or its characters. -/
def segmentPieces (identifiers : Identifiers) : String → List Piece :=
  substitute identifiers (fun identifier => [.slot identifier]) fun segment =>
    segment.toList.map .char

theorem joined_map_char (texts : List String) :
    joined (texts.map fun text => text.toList.map .char) =
      (Text.join "/" texts).toList.map .char := by
  have hslash : "/".toList = ['/'] := by decide
  induction texts with
  | nil => rfl
  | cons text rest ih =>
    cases rest with
    | nil => rfl
    | cons next more =>
      rw [List.map_cons, List.map_cons, joined, Text.join_cons_cons]
      · rw [List.map_cons] at ih
        rw [ih]
        simp [hslash]
      · simp

theorem writes_pythonSegment (hnames : ∀ e ∈ identifiers, Naming.isPythonIdentifier e.2 = true)
    (segment : String) : Writes .formatted
      ((pythonSegment identifiers segment).toList.flatMap Json.literalChar)
      (segmentPieces identifiers segment) := by
  rw [pythonSegment, segmentPieces, substitute]
  cases hidentifier : identifierFor identifiers segment with
  | some identifier =>
    obtain ⟨e, he, rfl⟩ := exists_of_identifierFor hidentifier
    exact writes_pythonSlot (hnames e he)
  | none =>
    rw [String.toList_ofList, List.flatMap_assoc]
    exact writes_flatMap fun c _ => writes_doubled c

/-- A formatted literal of segments is read as their pieces. -/
theorem read_formatted (url : String) {identifiers : Identifiers}
    (hnames : ∀ e ∈ identifiers, Naming.isPythonIdentifier e.2 = true) :
    Literal.read .python ("f" ++ pythonString (Text.join "/"
        ((Text.split '/' url).map (pythonSegment identifiers)))) =
      some (joined ((Text.split '/' url).map (segmentPieces identifiers))) := by
  have hsegments : List.Forall₂ (fun text part =>
      Writes .formatted (text.toList.flatMap Json.literalChar) part)
      ((Text.split '/' url).map (pythonSegment identifiers))
      ((Text.split '/' url).map (segmentPieces identifiers)) := by
    rw [List.forall₂_map_left_iff, List.forall₂_map_right_iff, List.forall₂_same]
    exact fun segment _ => writes_pythonSegment hnames segment
  have hwrites := writes_join (writes_literalChar (by decide) (by decide)) hsegments
  have hchars : ("f" ++ pythonString (Text.join "/"
      ((Text.split '/' url).map (pythonSegment identifiers)))).toList = 'f' :: '"' ::
        ((Text.join "/" ((Text.split '/' url).map (pythonSegment identifiers))).toList.flatMap
          Json.literalChar ++ ['"']) := by
    have hf : "f".toList = ['f'] := by decide
    simp [pythonString, Json.literal, hf]
  simp only [Literal.read, hchars]
  exact hwrites.pieces_quote

/-- A plain literal is read as its characters. -/
theorem read_pythonString (text : String) :
    Literal.read .python (pythonString text) = some (text.toList.map .char) := by
  have hwrites : Writes .plain (text.toList.flatMap Json.literalChar) (text.toList.map .char) :=
    writes_flatMap fun c _ => writes_literalChar (by decide) rfl
  have hchars : (pythonString text).toList = '"' :: (text.toList.flatMap Json.literalChar ++ ['"']) := by
    simp [pythonString, Json.literal]
  simp only [Literal.read, hchars]
  exact hwrites.pieces_quote

/-- The expression of Python is read as the segments of the URL, those with an identifier
substituted. -/
theorem read_python (url : String) {identifiers : Identifiers}
    (hnames : ∀ e ∈ identifiers, Naming.isPythonIdentifier e.2 = true) :
    Literal.read .python (python.urlExpression url identifiers) =
      some (joined ((Text.split '/' url).map (segmentPieces identifiers))) := by
  rw [urlExpression]
  split_ifs with hany
  · exact read_formatted url hnames
  · have hnone : (Text.split '/' url).map (segmentPieces identifiers) =
        (Text.split '/' url).map fun text => text.toList.map .char := by
      refine List.map_congr_left fun segment hsegment => ?_
      have hidentifier : identifierFor identifiers segment = none :=
        Option.not_isSome_iff_eq_none.1 fun hsome =>
          hany (List.any_eq_true.2 ⟨segment, hsegment, hsome⟩)
      rw [segmentPieces, substitute, hidentifier]
    rw [hnone, joined_map_char, Text.join_split (by decide)]
    exact read_pythonString url

theorem writes_kotlinSegment (hnames : ∀ e ∈ identifiers, isKotlinName e.2 = true)
    (hkept : identifierFor identifiers segment = none →
      ∀ c ∈ segment.toList, c ≠ '\n' ∧ c ≠ '\r') :
    Writes .kotlin (kotlinSegment identifiers segment).toList (segmentPieces identifiers segment) := by
  rw [kotlinSegment, segmentPieces, substitute]
  cases hidentifier : identifierFor identifiers segment with
  | some identifier =>
    obtain ⟨e, he, rfl⟩ := exists_of_identifierFor hidentifier
    exact writes_kotlinSlot (hnames e he)
  | none =>
    rw [kotlinInside, String.toList_ofList]
    exact writes_flatMap fun c hc =>
      writes_kotlinChar (hkept hidentifier c hc).1 (hkept hidentifier c hc).2

theorem toList_kotlin_urlExpression (url : String) (identifiers : Identifiers) :
    (kotlin.urlExpression url identifiers).toList = '"' ::
      ((Text.join "/" ((Text.split '/' url).map (kotlinSegment identifiers))).toList ++ ['"']) := by
  have hquote : "\"".toList = ['"'] := by decide
  simp [urlExpression, hquote]

/-- The expression of Kotlin is read likewise, if no segment that stays has a line end. -/
theorem read_kotlin_of_kept {url : String} {identifiers : Identifiers}
    (hnames : ∀ e ∈ identifiers, isKotlinName e.2 = true)
    (hkept : ∀ segment ∈ Text.split '/' url, identifierFor identifiers segment = none →
      ∀ c ∈ segment.toList, c ≠ '\n' ∧ c ≠ '\r') :
    Literal.read .kotlin (kotlin.urlExpression url identifiers) =
      some (joined ((Text.split '/' url).map (segmentPieces identifiers))) := by
  have hsegments : List.Forall₂ (fun text part =>
      Writes .kotlin (text.toList.flatMap fun c => [c]) part)
      ((Text.split '/' url).map (kotlinSegment identifiers))
      ((Text.split '/' url).map (segmentPieces identifiers)) := by
    rw [List.forall₂_map_left_iff, List.forall₂_map_right_iff, List.forall₂_same]
    intro segment hsegment
    rw [List.flatMap_singleton']
    exact writes_kotlinSegment hnames (hkept segment hsegment)
  have hslash : Writes .kotlin ['/'] [.char '/'] :=
    writes_of_piece? (piece?_self (by decide) (by decide) (by decide))
  have hwrites := writes_join hslash hsegments
  rw [List.flatMap_singleton'] at hwrites
  simp only [Literal.read, toList_kotlin_urlExpression]
  exact hwrites.pieces_quote

theorem read_kotlin {url : String} {identifiers : Identifiers}
    (hnames : ∀ e ∈ identifiers, isKotlinName e.2 = true)
    (hlines : ∀ c ∈ url.toList, c ≠ '\n' ∧ c ≠ '\r') :
    Literal.read .kotlin (kotlin.urlExpression url identifiers) =
      some (joined ((Text.split '/' url).map (segmentPieces identifiers))) := by
  refine read_kotlin_of_kept hnames fun segment hsegment _ c hc => ?_
  obtain ⟨cs, hcs, rfl⟩ := List.mem_map.1 hsegment
  rw [String.toList_ofList] at hc
  exact hlines c ((Text.sublist_of_mem_splitOnChar hcs).subset hc)

/-! ## The meaning of the expression -/

theorem chars_segmentPieces {env : String → Option String} {values : String → String}
    (henv : ∀ e ∈ identifiers, env e.2 = some (values e.2)) (segment : String) :
    chars env (segmentPieces identifiers segment) =
      some (substitute identifiers values id segment).toList := by
  rw [segmentPieces, substitute, substitute]
  cases hidentifier : identifierFor identifiers segment with
  | some identifier =>
    obtain ⟨e, he, rfl⟩ := exists_of_identifierFor hidentifier
    simp [chars, henv e he]
  | none => exact chars_map_char env segment.toList

/-- The expression of Python is a literal, and its value is the URL with the values of the identifiers
in place of the segments that are their parameters, and every other segment as it is, whatever
characters it has. -/
theorem python_url_denotes (url : String) (identifiers : Identifiers)
    (hnames : ∀ e ∈ identifiers, Naming.isPythonIdentifier e.2 = true) :
    ∃ pieces, Literal.read .python (python.urlExpression url identifiers) = some pieces ∧
      ∀ (env : String → Option String) (values : String → String),
        (∀ e ∈ identifiers, env e.2 = some (values e.2)) →
        ∃ texts, List.Forall₂ (IsSubstituted identifiers values id) (Text.split '/' url) texts ∧
          Literal.value env pieces = some (Text.join "/" texts) := by
  refine ⟨_, read_python url hnames, fun env values henv => ?_⟩
  refine ⟨_, forall₂_isSubstituted_iff.2 rfl, value_joined ?_⟩
  rw [List.forall₂_map_left_iff, List.forall₂_map_right_iff, List.forall₂_same]
  exact fun segment _ => chars_segmentPieces henv segment

/-- A quote, a backslash, braces, a line feed and a letter beyond ASCII beside a parameter. -/
theorem python_url_denotes_quoted :
    Naming.isPythonIdentifier "id_" = true ∧
    ∃ pieces, Literal.read .python (python.urlExpression "/a\x7b\"\\\n\x7d/\x7bid\x7d/\u00e9"
        [(.str "id", "id_")]) = some pieces ∧
      Literal.value (fun _ => some "7") pieces = some "/a\x7b\"\\\n\x7d/7/\u00e9" := by
  have hname : Naming.isPythonIdentifier "id_" = true := by decide +kernel
  obtain ⟨pieces, hread, hvalue⟩ :=
    python_url_denotes "/a\x7b\"\\\n\x7d/\x7bid\x7d/\u00e9" [(.str "id", "id_")] (by simpa using hname)
  obtain ⟨texts, htexts, htext⟩ := hvalue (fun _ => some "7") (fun _ => "7") (by simp)
  refine ⟨hname, pieces, hread, ?_⟩
  rw [htext, forall₂_isSubstituted_iff.1 htexts]
  decide +kernel

/-- A parameter that stands alone in its segment is substituted: the expression is a literal with the
identifier in the place of the segment, and of no other segment. In Kotlin the URL must have no line
ends, which no literal holds. -/
theorem parameters_substituted (d : Dialect) (url : String) (identifiers : Identifiers)
    (hnames : ∀ e ∈ identifiers, Literal.isName d e.2 = true)
    (hlines : d = kotlin → ∀ c ∈ url.toList, c ≠ '\n' ∧ c ≠ '\r') :
    ∃ parts, Literal.read d (d.urlExpression url identifiers) = some (joined parts) ∧
      List.Forall₂ (IsSubstituted identifiers (fun identifier => [Piece.slot identifier])
        fun segment => segment.toList.map .char) (Text.split '/' url) parts := by
  refine ⟨_, ?_, forall₂_isSubstituted_iff.2 rfl⟩
  cases d with
  | python => exact read_python url hnames
  | kotlin => exact read_kotlin hnames (hlines rfl)

/-- A parameter whose identifier is a keyword, beside a dollar sign. -/
theorem parameters_substituted_price :
    Literal.isName kotlin "`in`" = true ∧
    Literal.read kotlin (kotlin.urlExpression "/price$/\x7bin\x7d" [(.str "in", "`in`")]) =
      some ("/price$/".toList.map .char ++ [.slot "`in`"]) := by
  have hname : Literal.isName kotlin "`in`" = true := by decide +kernel
  obtain ⟨parts, hread, hparts⟩ := parameters_substituted kotlin "/price$/\x7bin\x7d"
    [(.str "in", "`in`")] (by simpa using hname) (fun _ => by simp)
  refine ⟨hname, ?_⟩
  rw [hread, forall₂_isSubstituted_iff.1 hparts]
  decide +kernel

/-- A parameter that is a part of its segment is left in the URL, with its braces. -/
theorem parameter_left_in_segment :
    Text.occursIn "\x7bname\x7d".toList "/files/\x7bname\x7d.json".toList = true ∧
    identifierOf? [(.str "name", "name")] "name" = some "name" ∧
    (Literal.isName python "name" = true ∧ Literal.isName kotlin "name" = true) ∧
    Literal.read python (python.urlExpression "/files/\x7bname\x7d.json" [(.str "name", "name")]) =
      some ("/files/\x7bname\x7d.json".toList.map .char) ∧
    Literal.read kotlin (kotlin.urlExpression "/files/\x7bname\x7d.json" [(.str "name", "name")]) =
      some ("/files/\x7bname\x7d.json".toList.map .char) := by
  have hpython : Naming.isPythonIdentifier "name" = true := by decide +kernel
  have hkotlin : isKotlinName "name" = true := by decide +kernel
  refine ⟨by decide +kernel, by decide +kernel, ⟨hpython, hkotlin⟩, ?_, ?_⟩
  · rw [read_python _ (by simpa using hpython)]
    decide +kernel
  · rw [read_kotlin (by simpa using hkotlin) (by simp)]
    decide +kernel

end ApiClient.Dialect
