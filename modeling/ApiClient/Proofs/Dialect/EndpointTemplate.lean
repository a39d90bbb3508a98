import ApiClient.Proofs.Dialect.ScopeTemplate
import Mathlib

/-!
# The templates of endpoints

An endpoint whose fields are texts, or missing where they may be (`Endpoint.IsTyped`), supplies every value
that the template of its callable asks for, so only a formatter can fail. In Kotlin none does
(`Kotlin.exists_renderEndpoint`); in Python only that of the docstring, for a text without a line
(`Python.exists_renderEndpoint`, `Python.renderEndpoint_eq_error`).
-/

namespace ApiClient

/-- An argument whose name, identifier and location are texts. -/
structure Argument.IsTyped (a : Argument) : Prop where
  name_eq : ∃ s, a.name = .str s
  identifier_eq : ∃ s, a.identifier = .str s
  location_eq : ∃ s, a.location = .str s

/-- An endpoint with this summary, whose other fields are texts too. -/
structure Endpoint.IsTyped (e : Endpoint) (summary : Option String) : Prop where
  urlExpression_eq : ∃ s, e.urlExpression = .str s
  returnType_eq : ∃ s, e.returnType = .str s
  arguments_isTyped : ∀ a ∈ e.arguments, a.IsTyped
  summary_eq : e.summary = Dialect.orNull summary

namespace Dialect

open Template

/-! ## Blank texts -/

/-- A text that is there and has nothing but white space in it. -/
def IsBlankText (text : Option String) : Prop :=
  ∃ s, text = some s ∧ Text.allBlank s = true

theorem trim_eq_nil {cs : List Char} (h : ∀ c ∈ cs, Text.isBlank c = true) : Text.trim cs = [] := by
  rw [Text.trim, Text.trimStart, List.dropWhile_eq_nil_iff.2 h]
  rfl

/-- A text without a line has no docstring. -/
theorem docstring_eq_error (indent : Nat) {text : String} (h : Text.allBlank text = true) :
    docstring indent text = .error .empty := by
  have hstrip : (Text.strip text).toList = [] := by
    rw [Text.strip, String.toList_ofList]
    exact trim_eq_nil (List.all_eq_true.1 h)
  rw [docstring, lines_guardQuote, hstrip]
  rfl

theorem exists_docstring (indent : Nat) {text : String} (h : Text.allBlank text = false) :
    ∃ doc, docstring indent text = .ok doc := by
  obtain ⟨doc, hdoc, -⟩ := behind?_docstring indent h
  exact ⟨doc, hdoc⟩

/-! ## Values -/

variable {e : Endpoint} {summary : Option String} {values : Table Json} {inputs : List Variable}
  {found : List (Variable × Option Json)} {name : String}

/-- What is said about an endpoint is blank if its summary is, and it is not deprecated. -/
theorem exists_doc (h : e.IsTyped summary) {word : String} (hword : Text.allBlank word = false) :
    ∃ doc, e.doc word = orNull doc ∧
      (IsBlankText doc ↔ e.deprecated = false ∧ IsBlankText summary) := by
  cases hdeprecated : e.deprecated with
  | false => exact ⟨summary, by simp [Endpoint.doc, hdeprecated, h.summary_eq], by simp⟩
  | true =>
    obtain ⟨front, hfront⟩ : ∃ front, e.doc word = .str (front ++ word) := by
      rw [Endpoint.doc, if_pos hdeprecated]
      split_ifs
      · exact ⟨_, rfl⟩
      · exact ⟨"", by rw [String.empty_append]⟩
    refine ⟨some (front ++ word), hfront, iff_of_false ?_ (by simp)⟩
    rintro ⟨s, hs, hblank⟩
    obtain rfl := Option.some.inj hs
    rw [Text.allBlank, String.toList_append, List.all_append, Bool.and_eq_true] at hblank
    exact absurd hblank.2 (by rw [← Text.allBlank, hword]; decide)

theorem mem_of_mem_located {a : Argument} {location : String} (h : a ∈ e.located location) :
    a ∈ e.arguments :=
  List.mem_of_mem_filter h

/-- The body of a request has an identifier. -/
theorem exists_body (h : e.IsTyped summary) (hbody : e.body.isSome = true) :
    ∃ s, (e.body.map Argument.identifier).getD .null = .str s := by
  obtain ⟨a, ha⟩ := Option.isSome_iff_exists.1 hbody
  obtain ⟨s, hs⟩ := (h.arguments_isTyped a (mem_of_mem_located (List.mem_of_mem_head? ha))).identifier_eq
  exact ⟨s, by rw [ha, Option.map_some, Option.getD_some, hs]⟩

theorem exists_fillPart_list {separator : String} {xs : List String}
    (hfound : resolve values inputs = .ok found)
    (hinput : inputs.find? (·.name = name) = some ⟨linesDeclaration name separator, .plain⟩)
    (h : values.get? name = some (.arr (xs.map .str))) :
    ∃ piece, fillPart values found (.slot name) = .ok piece :=
  ⟨_, fillPart_slot hfound hinput (lookup_list h) (joined_map_str separator xs)⟩

/-- The branch with a text around a value. -/
def wrappingBranch (front name back : String) (indent : Int) : Template where
  parts := [.text front, .slot name, .text back]
  inputs := [{ name }]
  indent

theorem ofSource_wrappingBranch {declarations : List Declaration} {source front back : String}
    {p : Position} (hscan : scan source = .ok [.text front, .placeholder name p, .text back])
    (h : declared declarations name = { name }) (indent : Int) :
    ofSource declarations source indent = .ok (wrappingBranch front name back indent) := by
  rw [ofSource_eq, hscan]
  simp [ofScan, assemble, register, h, wrappingBranch, bind, Except.bind, pure, Except.pure]

theorem exists_fill_wrappingBranch {front back : String} {indent : Int} {s : String}
    (h : values.get? name = some (.str s)) :
    ∃ piece, (wrappingBranch front name back indent).fill values none = .ok piece := by
  have hinput : (wrappingBranch front name back indent).inputs.find? (·.name = name) = some { name } :=
    List.find?_cons_of_pos (by simp)
  have hinputs : ∀ v ∈ (wrappingBranch front name back indent).inputs, ∃ x, v.lookup values = .ok x :=
    List.forall_mem_singleton.2 ⟨_, lookup_text h⟩
  obtain ⟨found, hfound⟩ := exists_resolve hinputs
  refine exists_fill hfound ?_
  simp only [wrappingBranch, List.forall_mem_cons]
  exact ⟨⟨_, rfl⟩, ⟨_, fillPart_text hfound hinput h⟩, ⟨_, rfl⟩, List.forall_mem_nil _⟩

namespace Python

theorem scan_endpointSource : scan endpointSource = .ok [
    .text "@staticmethod\ndef ", .placeholder "name" ⟨2, 4⟩, .text "(",
    .placeholder "parameters" ⟨2, 11⟩, .text ") -> ", .placeholder "return_type" ⟨2, 28⟩,
    .text ":\n    ", .placeholder "doc" ⟨3, 4⟩, .text "\n    return _request(\n        \"",
    .placeholder "method" ⟨5, 9⟩, .text "\",\n        ", .placeholder "url" ⟨6, 8⟩,
    .text ",\n        params=", .placeholder "query" ⟨7, 15⟩, .text ",\n        headers=",
    .placeholder "headers" ⟨8, 16⟩, .text ",\n        ",
    .conditional "has_body" "json=%body%," true ⟨9, 8⟩, .text "\n    )"] :=
  scan_of_agrees (by decide +kernel)

theorem scan_bodySource : scan "json=%body%," = .ok [
    .text "json=", .placeholder "body" ⟨1, 5⟩, .text ","] :=
  scan_of_agrees (by decide +kernel)

/-- What is declared for a callable. -/
def endpointDeclarations : List Declaration :=
  [linesDeclaration "parameters" ", ", docDeclaration "doc" (ofText (docstring 4)),
    { name := "query", nullable := true, wholeLine := true },
    { name := "headers", nullable := true, wholeLine := true }]

/-- A placeholder for a dictionary, which takes its line along when there is none. -/
def dictionaryVariable (name : String) : Variable :=
  { name, nullable := true, wholeLine := true }

/-- The pieces in front of the docstring of a callable. -/
def signatureParts : List (Template.Part Template) :=
  [.text "@staticmethod\ndef ", .slot "name", .text "(", .slot "parameters", .text ") -> ",
    .slot "return_type", .text ":\n    "]

/-- The pieces behind the docstring of a callable. -/
def requestParts : List (Template.Part Template) :=
  [.text "\n    return _request(\n        \"", .slot "method", .text "\",\n        ", .slot "url",
    .text ",\n        params=", .slot "query", .text ",\n        headers=", .slot "headers",
    .text ",\n        ", .branch "has_body" true (wrappingBranch "json=" "body" "," 8), .text "\n    )"]

/-- The template of a callable. -/
def endpointPieces : Template where
  parts := signatureParts ++ .slot "doc" :: requestParts
  inputs := [{ name := "name" }, { linesDeclaration "parameters" ", " with form := .plain },
    { name := "return_type" }, { docDeclaration "doc" (ofText (docstring 4)) with form := .plain },
    { name := "method" }, { name := "url" }, dictionaryVariable "query", dictionaryVariable "headers",
    { name := "has_body", form := .wholeLine }]
  indent := 0

theorem endpointTemplate_eq : endpointTemplate = .ok endpointPieces := by
  have htemplate : endpointTemplate = ofSource endpointDeclarations endpointSource 0 := rfl
  have hbody : ofSource endpointDeclarations "json=%body%," 8 =
      .ok (wrappingBranch "json=" "body" "," 8) := ofSource_wrappingBranch scan_bodySource rfl 8
  have height : ((8 : Nat) : Int) = 8 := rfl
  rw [htemplate, ofSource_eq, scan_endpointSource]
  simp only [ofScan, assemble, height, hbody]
  rfl

/-- The values for a callable, with this said about it. -/
structure Called (values : Table Json) (doc : Option String) : Prop where
  name_eq : ∃ s, values.get? "name" = some (.str s)
  parameters_eq : ∃ xs : List String, values.get? "parameters" = some (.arr (xs.map .str))
  return_type_eq : ∃ s, values.get? "return_type" = some (.str s)
  doc_eq : values.get? "doc" = some (orNull doc)
  method_eq : ∃ s, values.get? "method" = some (.str s)
  url_eq : ∃ s, values.get? "url" = some (.str s)
  query_eq : ∃ query, values.get? "query" = some (orNull query)
  headers_eq : ∃ headers, values.get? "headers" = some (orNull headers)
  has_body_eq : ∃ b, values.get? "has_body" = some (.bool b) ∧
    (b = true → ∃ s, values.get? "body" = some (.str s))

theorem exists_dictionary (arguments : List Argument) :
    ∃ text, dictionary arguments = orNull text := by
  rw [dictionary]
  split_ifs
  · exact ⟨none, rfl⟩
  · exact ⟨some _, rfl⟩

theorem called_endpointValues (h : e.IsTyped summary) {doc : Option String}
    (hdoc : e.doc "Deprecated." = orNull doc) : Called (endpointValues e) doc where
  name_eq := ⟨_, rfl⟩
  parameters_eq := ⟨e.arguments.map renderArgument, by rw [List.map_map]; rfl⟩
  return_type_eq := h.returnType_eq.imp fun _ hs => congrArg some hs
  doc_eq := congrArg some hdoc
  method_eq := ⟨_, rfl⟩
  url_eq := h.urlExpression_eq.imp fun _ hs => congrArg some hs
  query_eq := (exists_dictionary _).imp fun _ hs => congrArg some hs
  headers_eq := (exists_dictionary _).imp fun _ hs => congrArg some hs
  has_body_eq := ⟨_, rfl, fun hbody => (exists_body h hbody).imp fun _ hs => congrArg some hs⟩

theorem exists_resolve_endpointPieces {doc : Option String} (h : Called values doc) :
    ∃ found, resolve values endpointPieces.inputs = .ok found := by
  obtain ⟨_, hname⟩ := h.name_eq
  obtain ⟨_, hparameters⟩ := h.parameters_eq
  obtain ⟨_, htype⟩ := h.return_type_eq
  obtain ⟨_, hmethod⟩ := h.method_eq
  obtain ⟨_, hurl⟩ := h.url_eq
  obtain ⟨_, hquery⟩ := h.query_eq
  obtain ⟨_, hheaders⟩ := h.headers_eq
  obtain ⟨_, hhasBody, -⟩ := h.has_body_eq
  refine exists_resolve ?_
  simp only [endpointPieces, List.forall_mem_cons]
  exact ⟨⟨_, lookup_text hname⟩, ⟨_, lookup_list hparameters⟩, ⟨_, lookup_text htype⟩,
    exists_lookup_orNull ⟨rfl, rfl⟩ h.doc_eq, ⟨_, lookup_text hmethod⟩, ⟨_, lookup_text hurl⟩,
    exists_lookup_orNull ⟨rfl, rfl⟩ hquery, exists_lookup_orNull ⟨rfl, rfl⟩ hheaders,
    exists_lookup_condition hhasBody, List.forall_mem_nil _⟩

theorem exists_signature {doc : Option String} (h : Called values doc)
    (hfound : resolve values endpointPieces.inputs = .ok found) :
    ∀ part ∈ signatureParts, ∃ piece, fillPart values found part = .ok piece := by
  obtain ⟨_, hname⟩ := h.name_eq
  obtain ⟨_, hparameters⟩ := h.parameters_eq
  obtain ⟨_, htype⟩ := h.return_type_eq
  simp only [signatureParts, List.forall_mem_cons]
  exact ⟨⟨_, rfl⟩, ⟨_, fillPart_text hfound rfl hname⟩, ⟨_, rfl⟩,
    exists_fillPart_list hfound rfl hparameters, ⟨_, rfl⟩, ⟨_, fillPart_text hfound rfl htype⟩, ⟨_, rfl⟩,
    List.forall_mem_nil _⟩

theorem exists_request {doc : Option String} (h : Called values doc)
    (hfound : resolve values endpointPieces.inputs = .ok found) :
    ∀ part ∈ requestParts, ∃ piece, fillPart values found part = .ok piece := by
  obtain ⟨_, hmethod⟩ := h.method_eq
  obtain ⟨_, hurl⟩ := h.url_eq
  obtain ⟨_, hquery⟩ := h.query_eq
  obtain ⟨_, hheaders⟩ := h.headers_eq
  obtain ⟨_, hhasBody, hbody⟩ := h.has_body_eq
  have hdictionary : ∀ {name : String} {text : Option String},
      endpointPieces.inputs.find? (·.name = name) = some (dictionaryVariable name) →
      values.get? name = some (orNull text) →
      ∃ piece, fillPart values found (.slot name) = .ok piece := fun hinput hvalue =>
    ⟨_, fillPart_orNull hfound hinput ⟨rfl, rfl, rfl⟩ hvalue
      fun text _ => (rfl : shown (.str text) = .ok (id text))⟩
  -- the body may be null, but then the condition of its branch is false
  have hbranch : ∃ piece, fillPart values found
      (.branch "has_body" true (wrappingBranch "json=" "body" "," 8)) = .ok piece :=
    exists_fillPart_of_imp hfound rfl hhasBody fun hb =>
      (hbody hb).elim fun _ hs => exists_fill_wrappingBranch hs
  simp only [requestParts, List.forall_mem_cons]
  exact ⟨⟨_, rfl⟩, ⟨_, fillPart_text hfound rfl hmethod⟩, ⟨_, rfl⟩, ⟨_, fillPart_text hfound rfl hurl⟩,
    ⟨_, rfl⟩, hdictionary rfl hquery, ⟨_, rfl⟩, hdictionary rfl hheaders, ⟨_, rfl⟩, hbranch, ⟨_, rfl⟩,
    List.forall_mem_nil _⟩

/-- A callable about which nothing is said, or a text that is not blank, is written. -/
theorem exists_renderEndpoint {doc : Option String} (h : e.IsTyped summary)
    (hdoc : e.doc "Deprecated." = orNull doc) (hblank : ¬IsBlankText doc) :
    ∃ text, renderEndpoint e = .ok text := by
  have hvalues := called_endpointValues h hdoc
  obtain ⟨found, hfound⟩ := exists_resolve_endpointPieces hvalues
  have hpiece : ∃ piece, fillPart (endpointValues e) found (.slot "doc") = .ok piece := by
    cases doc with
    | none =>
      exact ⟨_, fillPart_absent hfound rfl (lookup_of_null hvalues.doc_eq rfl)⟩
    | some s =>
      have hs : Text.allBlank s = false := Bool.eq_false_iff.2 fun hs => hblank ⟨s, rfl, hs⟩
      obtain ⟨text, htext⟩ := exists_docstring 4 hs
      exact ⟨_, fillPart_slot hfound rfl (lookup_of_fits hvalues.doc_eq (by simp [orNull]) rfl) htext⟩
  have hparts : ∀ part ∈ endpointPieces.parts, ∃ piece,
      fillPart (endpointValues e) found part = .ok piece := by
    simp only [endpointPieces, List.forall_mem_append, List.forall_mem_cons]
    exact ⟨exists_signature hvalues hfound, hpiece, exists_request hvalues hfound⟩
  obtain ⟨text, htext⟩ := exists_build hfound hparts
  exact ⟨text, by rw [renderEndpoint, endpointTemplate_eq]; exact htext⟩

/-- A callable about which a blank text is said is not written. -/
theorem renderEndpoint_eq_error {doc : Option String} (h : e.IsTyped summary)
    (hdoc : e.doc "Deprecated." = orNull doc) (hblank : IsBlankText doc) :
    renderEndpoint e = .error (.format .empty) := by
  have hvalues := called_endpointValues h hdoc
  obtain ⟨found, hfound⟩ := exists_resolve_endpointPieces hvalues
  obtain ⟨s, rfl, hs⟩ := hblank
  have hpiece : fillPart (endpointValues e) found (.slot "doc") = .error (.format .empty) :=
    fillPart_eq_error hfound rfl (lookup_of_fits hvalues.doc_eq (by simp [orNull]) rfl)
      (docstring_eq_error 4 hs)
  obtain ⟨_, hsignature⟩ := exists_fillParts (exists_signature hvalues hfound)
  rw [renderEndpoint, endpointTemplate_eq]
  exact build_eq_error hfound (fillParts_eq_error hsignature hpiece)

end Python

namespace Kotlin

/-- The branch with the lines of a list. -/
def linesBranch (name : String) : Template where
  parts := [.slot name]
  inputs := [{ linesDeclaration name "\n" with form := .plain }]
  indent := 4

/-- The branch with the type of a body. -/
def contentTypeBranch : Template where
  parts := [.text "contentType(ContentType.Application.Json)"]
  inputs := []
  indent := 4

theorem scan_endpointSource : scan endpointSource = .ok [
    .placeholder "doc" ⟨1, 0⟩, .text "\nsuspend fun ", .placeholder "name" ⟨2, 12⟩, .text "(",
    .placeholder "parameters" ⟨2, 19⟩, .text "): ", .placeholder "return_type" ⟨2, 34⟩,
    .text " = API.client.request(", .placeholder "url" ⟨2, 69⟩, .text ") \x7b\n    method = ",
    .placeholder "method" ⟨3, 13⟩, .text "\n    ",
    .conditional "has_query" "%query%" true ⟨4, 4⟩, .text "\n    ",
    .conditional "has_headers" "%headers%" true ⟨5, 4⟩, .text "\n    ",
    .conditional "has_body" "contentType(ContentType.Application.Json)" true ⟨6, 4⟩, .text "\n    ",
    .conditional "has_body" "setBody(%body%)" true ⟨7, 4⟩, .text "\n\x7d.body()"] :=
  scan_of_agrees (by decide +kernel)

theorem scan_bodySource : scan "setBody(%body%)" = .ok [
    .text "setBody(", .placeholder "body" ⟨1, 8⟩, .text ")"] :=
  scan_of_agrees (by decide +kernel)

/-- What is declared for a callable. -/
def endpointDeclarations : List Declaration :=
  [linesDeclaration "parameters" ", ", commentDeclaration, linesDeclaration "query" "\n",
    linesDeclaration "headers" "\n"]

/-- The template of a callable. -/
def endpointPieces : Template where
  parts := [.slot "doc", .text "\nsuspend fun ", .slot "name", .text "(", .slot "parameters", .text "): ",
    .slot "return_type", .text " = API.client.request(", .slot "url", .text ") \x7b\n    method = ",
    .slot "method", .text "\n    ", .branch "has_query" true (linesBranch "query"), .text "\n    ",
    .branch "has_headers" true (linesBranch "headers"), .text "\n    ",
    .branch "has_body" true contentTypeBranch, .text "\n    ",
    .branch "has_body" true (wrappingBranch "setBody(" "body" ")" 4), .text "\n\x7d.body()"]
  inputs := [{ commentDeclaration with form := .plain }, { name := "name" },
    { linesDeclaration "parameters" ", " with form := .plain }, { name := "return_type" },
    { name := "url" }, { name := "method" }, { name := "has_query", form := .wholeLine },
    { name := "has_headers", form := .wholeLine }, { name := "has_body", form := .wholeLine }]
  indent := 0

theorem endpointTemplate_eq : endpointTemplate = .ok endpointPieces := by
  have htemplate : endpointTemplate = ofSource endpointDeclarations endpointSource 0 := rfl
  have hquery : ofSource endpointDeclarations "%query%" 4 = .ok (linesBranch "query") :=
    ofSource_listing (scan_of_agrees (by decide +kernel)) rfl
  have hheaders : ofSource endpointDeclarations "%headers%" 4 = .ok (linesBranch "headers") :=
    ofSource_listing (scan_of_agrees (by decide +kernel)) rfl
  have hcontent : ofSource endpointDeclarations "contentType(ContentType.Application.Json)" 4 =
      .ok contentTypeBranch := by
    have hscan : scan "contentType(ContentType.Application.Json)" =
        .ok [.text "contentType(ContentType.Application.Json)"] := scan_of_agrees (by decide +kernel)
    rw [ofSource_eq, hscan]
    rfl
  have hbody : ofSource endpointDeclarations "setBody(%body%)" 4 =
      .ok (wrappingBranch "setBody(" "body" ")" 4) := ofSource_wrappingBranch scan_bodySource rfl 4
  have hfour : ((4 : Nat) : Int) = 4 := rfl
  rw [htemplate, ofSource_eq, scan_endpointSource]
  simp only [ofScan, assemble, hfour, hquery, hheaders, hcontent, hbody]
  rfl

/-- The pieces up to the type of the result. -/
def signatureParts : List (Template.Part Template) :=
  [.slot "doc", .text "\nsuspend fun ", .slot "name", .text "(", .slot "parameters", .text "): ",
    .slot "return_type"]

/-- The pieces behind the type of the result. -/
def requestParts : List (Template.Part Template) :=
  [.text " = API.client.request(", .slot "url", .text ") \x7b\n    method = ",
    .slot "method", .text "\n    ", .branch "has_query" true (linesBranch "query"), .text "\n    ",
    .branch "has_headers" true (linesBranch "headers"), .text "\n    ",
    .branch "has_body" true contentTypeBranch, .text "\n    ",
    .branch "has_body" true (wrappingBranch "setBody(" "body" ")" 4), .text "\n\x7d.body()"]

theorem exists_setters (call : String) {arguments : List Argument}
    (h : ∀ a ∈ arguments, a.IsTyped) :
    ∃ xs : List String, setters call arguments = .ok (xs.map .str) := by
  induction arguments with
  | nil => exact ⟨[], rfl⟩
  | cons a rest ih =>
    obtain ⟨ha, hrest⟩ := List.forall_mem_cons.1 h
    obtain ⟨name, hname⟩ := ha.name_eq
    obtain ⟨xs, hxs⟩ := ih hrest
    have hsetter : ∃ line, setter call a = .ok (.str line) := by
      rw [setter, hname]
      exact ⟨_, rfl⟩
    obtain ⟨line, hline⟩ := hsetter
    exact ⟨line :: xs, by rw [setters, hline, hxs]; rfl⟩

theorem fill_linesBranch {xs : List String} (h : values.get? name = some (.arr (xs.map .str))) :
    (linesBranch name).fill values none = .ok (finish 4 (Text.join "\n" xs).toList) :=
  fill_listing h

/-- The values for a callable. -/
structure Called (values : Table Json) : Prop where
  doc_eq : ∃ doc, values.get? "doc" = some (orNull doc)
  name_eq : ∃ s, values.get? "name" = some (.str s)
  parameters_eq : ∃ xs : List String, values.get? "parameters" = some (.arr (xs.map .str))
  return_type_eq : ∃ s, values.get? "return_type" = some (.str s)
  url_eq : ∃ s, values.get? "url" = some (.str s)
  method_eq : ∃ s, values.get? "method" = some (.str s)
  has_query_eq : ∃ b, values.get? "has_query" = some (.bool b)
  query_eq : ∃ xs : List String, values.get? "query" = some (.arr (xs.map .str))
  has_headers_eq : ∃ b, values.get? "has_headers" = some (.bool b)
  headers_eq : ∃ xs : List String, values.get? "headers" = some (.arr (xs.map .str))
  has_body_eq : ∃ b, values.get? "has_body" = some (.bool b) ∧
    (b = true → ∃ s, values.get? "body" = some (.str s))

theorem exists_resolve_endpointPieces (h : Called values) :
    ∃ found, resolve values endpointPieces.inputs = .ok found := by
  obtain ⟨_, hdoc⟩ := h.doc_eq
  obtain ⟨_, hname⟩ := h.name_eq
  obtain ⟨_, hparameters⟩ := h.parameters_eq
  obtain ⟨_, htype⟩ := h.return_type_eq
  obtain ⟨_, hurl⟩ := h.url_eq
  obtain ⟨_, hmethod⟩ := h.method_eq
  obtain ⟨_, hhasQuery⟩ := h.has_query_eq
  obtain ⟨_, hhasHeaders⟩ := h.has_headers_eq
  obtain ⟨_, hhasBody, -⟩ := h.has_body_eq
  refine exists_resolve ?_
  simp only [endpointPieces, List.forall_mem_cons]
  exact ⟨exists_lookup_orNull ⟨rfl, rfl⟩ hdoc, ⟨_, lookup_text hname⟩, ⟨_, lookup_list hparameters⟩,
    ⟨_, lookup_text htype⟩, ⟨_, lookup_text hurl⟩, ⟨_, lookup_text hmethod⟩,
    exists_lookup_condition hhasQuery, exists_lookup_condition hhasHeaders,
    exists_lookup_condition hhasBody, List.forall_mem_nil _⟩

theorem exists_signature (h : Called values)
    (hfound : resolve values endpointPieces.inputs = .ok found) :
    ∀ part ∈ signatureParts, ∃ piece, fillPart values found part = .ok piece := by
  obtain ⟨_, hdoc⟩ := h.doc_eq
  obtain ⟨_, hname⟩ := h.name_eq
  obtain ⟨_, hparameters⟩ := h.parameters_eq
  obtain ⟨_, htype⟩ := h.return_type_eq
  simp only [signatureParts, List.forall_mem_cons]
  exact ⟨⟨_, fillPart_orNull hfound rfl ⟨rfl, rfl, rfl⟩ hdoc fun _ _ => rfl⟩, ⟨_, rfl⟩,
    ⟨_, fillPart_text hfound rfl hname⟩, ⟨_, rfl⟩, exists_fillPart_list hfound rfl hparameters, ⟨_, rfl⟩,
    ⟨_, fillPart_text hfound rfl htype⟩, List.forall_mem_nil _⟩

theorem exists_request (h : Called values)
    (hfound : resolve values endpointPieces.inputs = .ok found) :
    ∀ part ∈ requestParts, ∃ piece, fillPart values found part = .ok piece := by
  obtain ⟨_, hurl⟩ := h.url_eq
  obtain ⟨_, hmethod⟩ := h.method_eq
  obtain ⟨_, hquery⟩ := h.query_eq
  obtain ⟨_, hheaders⟩ := h.headers_eq
  obtain ⟨_, hhasBody, hbody⟩ := h.has_body_eq
  -- the body may be null, but then the condition of its branch is false
  have hbranch : ∃ piece, fillPart values found
      (.branch "has_body" true (wrappingBranch "setBody(" "body" ")" 4)) = .ok piece :=
    exists_fillPart_of_imp hfound rfl hhasBody fun hb =>
      (hbody hb).elim fun _ hs => exists_fill_wrappingBranch hs
  simp only [requestParts, List.forall_mem_cons]
  exact ⟨⟨_, rfl⟩, ⟨_, fillPart_text hfound rfl hurl⟩, ⟨_, rfl⟩, ⟨_, fillPart_text hfound rfl hmethod⟩,
    ⟨_, rfl⟩, exists_fillPart_branch ⟨_, fill_linesBranch hquery⟩ found "has_query" true, ⟨_, rfl⟩,
    exists_fillPart_branch ⟨_, fill_linesBranch hheaders⟩ found "has_headers" true, ⟨_, rfl⟩,
    exists_fillPart_branch ⟨_, rfl⟩ found "has_body" true, ⟨_, rfl⟩, hbranch, ⟨_, rfl⟩,
    List.forall_mem_nil _⟩

theorem exists_build_endpointPieces (h : Called values) :
    ∃ text, endpointPieces.build values = .ok text := by
  obtain ⟨found, hfound⟩ := exists_resolve_endpointPieces h
  have hparts : ∀ part ∈ endpointPieces.parts, ∃ piece, fillPart values found part = .ok piece :=
    List.forall_mem_append.2 ⟨exists_signature h hfound, exists_request h hfound⟩
  exact exists_build hfound hparts

/-- A callable is written, whatever is said about it. -/
theorem exists_renderEndpoint (h : e.IsTyped summary) : ∃ text, renderEndpoint e = .ok text := by
  have hlocated : ∀ location, ∀ a ∈ e.located location, a.IsTyped := fun location a ha =>
    h.arguments_isTyped a (mem_of_mem_located ha)
  obtain ⟨query, hquery⟩ := exists_setters "parameter" (hlocated "query")
  obtain ⟨headers, hheaders⟩ := exists_setters "header" (hlocated "header")
  have hword : Text.allBlank "@deprecated" = false := by decide
  obtain ⟨doc, hdoc, -⟩ := exists_doc h hword
  rw [renderEndpoint, hquery, hheaders, endpointTemplate_eq]
  exact exists_build_endpointPieces
    { doc_eq := ⟨doc, congrArg some hdoc⟩
      name_eq := ⟨_, rfl⟩
      parameters_eq := ⟨e.arguments.map renderArgument, by rw [List.map_map]; rfl⟩
      return_type_eq := h.returnType_eq.imp fun _ hs => congrArg some hs
      url_eq := h.urlExpression_eq.imp fun _ hs => congrArg some hs
      method_eq := ⟨_, rfl⟩
      has_query_eq := ⟨_, rfl⟩
      query_eq := ⟨query, rfl⟩
      has_headers_eq := ⟨_, rfl⟩
      headers_eq := ⟨headers, rfl⟩
      has_body_eq := ⟨_, rfl, fun hbody => (exists_body h hbody).imp fun _ hs => congrArg some hs⟩ }

end Kotlin

end Dialect

end ApiClient
