import ApiClient.Proofs.Dialect.Docstring
import ApiClient.Proofs.Dialect.RootTemplate
import ApiClient.Proofs.Template.Indenting
import Mathlib

/-!
# The templates of scopes

A scope with a name, a URL or none, and the texts of its callables and of the scopes below it
(`Scope.Says`) is written in either dialect. Its text is made of the name, a comment for the URL, and the
members of the scope, which both dialects lay out alike (`memberText`); a conditional that does not hold
leaves its marker behind (`Python.renderScope_eq`, `Kotlin.renderScope_eq`).
-/

namespace ApiClient

/-- A scope with these texts. -/
structure Scope.Says (s : Scope) (name : String) (url : Option String)
    (functions children : List String) : Prop where
  name_eq : s.name = .str name
  url_eq : s.url = Dialect.orNull url
  functions_eq : s.functions = .arr (functions.map .str)
  children_eq : s.children = .arr (children.map .str)

namespace Dialect

open Template

/-! ## Values -/

/-- The comment of a scope for its URL. -/
def scopeComment : Dialect → String → Except Json.Misfit String
  | python, url => docstring 4 ("Endpoint: " ++ url)
  | kotlin, url => .ok (docComment ("Endpoint: " ++ url))

theorem exists_scopeComment (d : Dialect) (url : String) : ∃ doc, scopeComment d url = .ok doc := by
  cases d with
  | python =>
    have hblank : Text.allBlank ("Endpoint: " ++ url) = false := by
      simp [Text.allBlank, String.toList_append, Text.isBlank]
    obtain ⟨doc, hdoc, -⟩ := behind?_docstring 4 hblank
    exact ⟨doc, hdoc⟩
  | kotlin => exact ⟨_, rfl⟩

/-- The values that the templates of scopes read, for a scope with these texts and this comment. -/
structure Scoped (values : Table Json) (name : String) (doc : Option String)
    (functions children : List String) : Prop where
  name_eq : values.get? "name" = some (.str name)
  doc_eq : values.get? "doc" = some (orNull doc)
  functions_eq : values.get? "functions" = some (.arr (functions.map .str))
  children_eq : values.get? "children" = some (.arr (children.map .str))
  is_endpoint_eq : values.get? "is_endpoint" = some (.bool !functions.isEmpty)
  space_eq : values.get? "space" = some (.bool (!functions.isEmpty && !children.isEmpty))
  has_children_eq : values.get? "has_children" = some (.bool !children.isEmpty)
  is_empty_eq : values.get? "is_empty" = some (.bool (functions.isEmpty && children.isEmpty))

theorem truth_map_str (texts : List String) :
    (Json.arr (texts.map .str)).truth = !texts.isEmpty := by
  cases texts <;> rfl

variable {s : Scope} {values : Table Json} {name : String} {url doc : Option String}
  {functions children : List String} {inputs : List Variable} {found : List (Variable × Option Json)}

theorem scoped_values (h : s.Says name url functions children) (doc : Option String) :
    Scoped ([("name", s.name), ("doc", orNull doc), ("functions", s.functions),
      ("children", s.children)] ++ s.conditions) name doc functions children := by
  have hfunctions : s.functions.truth = !functions.isEmpty := h.functions_eq ▸ truth_map_str functions
  have hchildren : s.children.truth = !children.isEmpty := h.children_eq ▸ truth_map_str children
  have hempty : (!(!functions.isEmpty) && !(!children.isEmpty)) =
      (functions.isEmpty && children.isEmpty) := by simp only [Bool.not_not]
  rw [Scope.conditions, hfunctions, hchildren, hempty, h.name_eq, h.functions_eq, h.children_eq]
  exact ⟨rfl, rfl, rfl, rfl, rfl, rfl, rfl, rfl⟩

/-! ## Pieces -/

theorem exists_lookup_orNull {v : Variable} (hv : v.nullable = true ∧ v.expected = .one .str)
    (h : values.get? v.name = some (orNull doc)) : ∃ x, v.lookup values = .ok x := by
  cases doc with
  | none => exact ⟨_, lookup_of_null h hv.1⟩
  | some text => exact ⟨_, lookup_of_fits h (by simp [orNull]) (by rw [hv.2]; rfl)⟩

/-- A placeholder for a text that may be missing, with its line. -/
theorem fillPart_orNull {v : Variable} {format : String → String}
    (hfound : resolve values inputs = .ok found) (hinput : inputs.find? (·.name = name) = some v)
    (hv : v.nullable = true ∧ v.wholeLine = true ∧ v.expected = .one .str)
    (h : values.get? name = some (orNull doc))
    (hformat : ∀ text ∈ doc, v.format (.str text) = .ok (format text)) :
    fillPart values found (.slot name) = .ok (described format doc) := by
  obtain ⟨hnullable, hline, htype⟩ := hv
  have hname : v.name = name := by simpa using List.find?_some hinput
  rw [← hname] at h
  cases doc with
  | none =>
    rw [fillPart_absent hfound hinput (lookup_of_null h hnullable), hline]
    rfl
  | some text =>
    have hlookup : v.lookup values = .ok (some (.str text)) :=
      lookup_of_fits h (by simp) (by rw [htype]; rfl)
    exact fillPart_slot hfound hinput hlookup (hformat text rfl)

/-- The line of a comment is gone if there is none. -/
theorem keptLines_described {lead : String} (hlead : Unmarked lead.toList) (hline : '\n' ∉ lead.toList)
    (hdoc : ∀ text ∈ doc, Unmarked text.toList) :
    keptLines (lead.toList ++ described id doc) = linesOfBlocks (doc.map (lead ++ ·)).toList := by
  cases doc with
  | none => exact keptLines_dropMarker hline
  | some text =>
    have hblock : lead.toList ++ described id (some text) = (lead ++ text).toList :=
      (String.toList_append ..).symm
    have hunmarked : Unmarked (lead ++ text).toList := by
      rw [String.toList_append]
      exact unmarked_append.2 ⟨hlead, hdoc text rfl⟩
    rw [hblock, keptLines_block hunmarked]
    rfl

/-- The pieces for the members of a scope. -/
def memberParts : List (Template.Part Template) :=
  [.branch "is_endpoint" true (listBranch "functions"), .text "\n", .branch "space" true emptyBranch,
    .text "\n    ", .branch "has_children" true (listBranch "children")]

/-- What the pieces for the members of a scope give. -/
def memberText (functions children : List String) : List Char :=
  held (!functions.isEmpty) (finish 4 (Text.join "\n\n" functions).toList) ++
    '\n' :: (held (!functions.isEmpty && !children.isEmpty) [] ++
    '\n' :: ("    ".toList ++ held (!children.isEmpty) (finish 4 (Text.join "\n\n" children).toList)))

/-- The conditions of a scope are variables of a template. -/
structure AsksMembers (inputs : List Variable) : Prop where
  is_endpoint_eq : inputs.find? (·.name = "is_endpoint") =
    some { name := "is_endpoint", form := .wholeLine }
  space_eq : inputs.find? (·.name = "space") = some { name := "space", form := .wholeLine }
  has_children_eq : inputs.find? (·.name = "has_children") =
    some { name := "has_children", form := .wholeLine }

theorem fillParts_memberParts (h : Scoped values name doc functions children)
    (hinputs : AsksMembers inputs) (hfound : resolve values inputs = .ok found) :
    fillParts values found memberParts = .ok (memberText functions children) := by
  have hfunctions := fillPart_branch hfound hinputs.is_endpoint_eq h.is_endpoint_eq
    (fill_listBranch h.functions_eq)
  have hspace : fillPart values found (.branch "space" true emptyBranch) = .ok (held _ []) :=
    fillPart_branch hfound hinputs.space_eq h.space_eq rfl
  have hchildren := fillPart_branch hfound hinputs.has_children_eq h.has_children_eq
    (fill_listBranch h.children_eq)
  have hbreak : "\n".toList = ['\n'] := by simp
  have hindent : "\n    ".toList = '\n' :: "    ".toList := by simp
  rw [memberParts, fillParts_of_pieces (.cons hfunctions (.cons rfl (.cons hspace (.cons rfl
    (.cons hchildren .nil))))), memberText, hbreak, hindent]
  simp only [List.flatten_cons, List.flatten_nil, List.append_nil, List.cons_append, List.nil_append]

namespace Python

/-- The branch of a scope without members. -/
def passBranch : Template where
  parts := [.text "pass"]
  inputs := []
  indent := 4

theorem scan_scopeSource : scan scopeSource = .ok [
    .text "class ", .placeholder "name" ⟨1, 6⟩, .text ":\n    ", .placeholder "doc" ⟨2, 4⟩,
    .text "\n    ", .conditional "is_endpoint" "%functions%" true ⟨3, 4⟩, .text "\n",
    .conditional "space" "" true ⟨4, 0⟩, .text "\n    ",
    .conditional "has_children" "%children%" true ⟨5, 4⟩, .text "\n    ",
    .conditional "is_empty" "pass" true ⟨6, 4⟩] :=
  scan_of_agrees (by decide +kernel)

/-- The variable for the comment of a scope. -/
def docVariable : Variable :=
  { docDeclaration "doc" shown with form := .plain }

/-- The pieces in front of the members of a scope. -/
def headParts : List (Template.Part Template) :=
  [.text "class ", .slot "name", .text ":\n    ", .slot "doc", .text "\n    "]

/-- The pieces behind the members of a scope. -/
def tailParts : List (Template.Part Template) :=
  [.text "\n    ", .branch "is_empty" true passBranch]

/-- The template of a scope. -/
def scopePieces : Template where
  parts := headParts ++ memberParts ++ tailParts
  inputs := [{ name := "name" }, docVariable, { name := "is_endpoint", form := .wholeLine },
    { name := "space", form := .wholeLine }, { name := "has_children", form := .wholeLine },
    { name := "is_empty", form := .wholeLine }]
  indent := 0

theorem ofSource_pass (declarations : List Declaration) :
    ofSource declarations "pass" 4 = .ok passBranch := by
  have hscan : scan "pass" = .ok [.text "pass"] := scan_of_agrees (by decide +kernel)
  rw [ofSource_eq, hscan]
  rfl

theorem scopeTemplate_eq : scopeTemplate = .ok scopePieces := by
  have hmembers : ofSource scopeDeclarations "%functions%" 4 = .ok (listBranch "functions") ∧
      ofSource scopeDeclarations "%children%" 4 = .ok (listBranch "children") := ofSource_members rfl rfl
  have hfour : ((4 : Nat) : Int) = 4 := rfl
  rw [scopeTemplate, ofSource_eq, scan_scopeSource]
  simp only [ofScan, assemble, Int.ofNat_zero, hfour, hmembers, ofSource_empty,
    ofSource_pass]
  rfl

/-- What the pieces of a scope give. -/
def scopeText (name : String) (doc : Option String) (functions children : List String) : List Char :=
  ("class " ++ name ++ ":").toList ++ '\n' :: ("    ".toList ++ described id doc ++
    '\n' :: ("    ".toList ++ memberText functions children ++
    '\n' :: ("    ".toList ++ held (functions.isEmpty && children.isEmpty) "pass".toList)))

theorem build_scopePieces (h : Scoped values name doc functions children) :
    scopePieces.build values =
      .ok (String.ofList (finish 0 (scopeText name doc functions children))) := by
  have hinputs : ∀ v ∈ scopePieces.inputs, ∃ x, v.lookup values = .ok x := by
    simp only [scopePieces, List.forall_mem_cons]
    exact ⟨⟨_, lookup_text h.name_eq⟩, exists_lookup_orNull ⟨rfl, rfl⟩ h.doc_eq,
      exists_lookup_condition h.is_endpoint_eq, exists_lookup_condition h.space_eq,
      exists_lookup_condition h.has_children_eq, exists_lookup_condition h.is_empty_eq,
      List.forall_mem_nil _⟩
  obtain ⟨found, hfound⟩ := exists_resolve hinputs
  have hname : fillPart values found (.slot "name") = .ok name.toList :=
    fillPart_text hfound rfl h.name_eq
  have hdoc : fillPart values found (.slot "doc") = .ok (described id doc) :=
    fillPart_orNull hfound rfl ⟨rfl, rfl, rfl⟩ h.doc_eq fun _ _ => rfl
  have hmembers : fillParts values found memberParts = .ok (memberText functions children) :=
    fillParts_memberParts h ⟨rfl, rfl, rfl⟩ hfound
  have hpass : fillPart values found (.branch "is_empty" true passBranch) =
      .ok (held (functions.isEmpty && children.isEmpty) "pass".toList) :=
    fillPart_branch hfound rfl h.is_empty_eq rfl
  have hfront : fillParts values found headParts = .ok _ :=
    fillParts_of_pieces (.cons rfl (.cons hname (.cons rfl (.cons hdoc (.cons rfl .nil)))))
  have hback : fillParts values found tailParts = .ok _ :=
    fillParts_of_pieces (.cons rfl (.cons hpass .nil))
  have hparts := fillParts_append (fillParts_append hfront hmembers) hback
  have hindent : "\n    ".toList = '\n' :: "    ".toList := by simp
  have hcolon : ":\n    ".toList = ":".toList ++ '\n' :: "    ".toList := by simp
  rw [build, fill_eq_ok_iff.2 ⟨found, _, hfound, hparts, rfl⟩, scopeText]
  -- definitional steps would have the kernel compare the texts themselves
  simp -implicitDefEqProofs only [String.toList_append, hindent, hcolon, List.flatten_cons,
    List.flatten_nil, List.append_assoc, List.cons_append, List.append_nil]
  rfl

theorem scopeDoc_orNull {url : Option String} (h : url.mapM (scopeComment python) = .ok doc) :
    scopeDoc (orNull url) = .ok (orNull doc) := by
  cases url with
  | none =>
    obtain rfl := Except.ok.inj h
    rfl
  | some u =>
    obtain ⟨text, htext, rfl⟩ := exists_of_map h
    have hcomment : docstring 4 ("Endpoint: " ++ u) = .ok text := htext
    have hnull : orNull (some u) ≠ .null := by simp [orNull]
    have hdisplay : (orNull (some u)).display = u := rfl
    rw [scopeDoc, if_neg hnull, hdisplay, hcomment]
    rfl

/-- A scope with these texts and this comment is written so. -/
theorem renderScope_eq (h : s.Says name url functions children)
    (hdoc : url.mapM (scopeComment python) = .ok doc) :
    renderScope s = .ok (String.ofList (finish 0 (scopeText name doc functions children))) := by
  rw [renderScope, h.url_eq, scopeDoc_orNull hdoc, scopeTemplate_eq]
  exact build_scopePieces (scoped_values h doc)

end Python

namespace Kotlin

theorem scan_scopeSource : scan scopeSource = .ok [
    .placeholder "doc" ⟨1, 0⟩, .text "\nobject ", .placeholder "name" ⟨2, 7⟩, .text " \x7b\n    ",
    .conditional "is_endpoint" "%functions%" true ⟨3, 4⟩, .text "\n",
    .conditional "space" "" true ⟨4, 0⟩, .text "\n    ",
    .conditional "has_children" "%children%" true ⟨5, 4⟩, .text "\n\x7d"] :=
  scan_of_agrees (by decide +kernel)

/-- The pieces in front of the members of a scope. -/
def headParts : List (Template.Part Template) :=
  [.slot "doc", .text "\nobject ", .slot "name", .text " \x7b\n    "]

/-- The template of a scope. -/
def scopePieces : Template where
  parts := headParts ++ memberParts ++ [.text "\n\x7d"]
  inputs := [{ commentDeclaration with form := .plain }, { name := "name" },
    { name := "is_endpoint", form := .wholeLine }, { name := "space", form := .wholeLine },
    { name := "has_children", form := .wholeLine }]
  indent := 0

theorem scopeTemplate_eq : scopeTemplate = .ok scopePieces := by
  have hmembers : ofSource scopeDeclarations "%functions%" 4 = .ok (listBranch "functions") ∧
      ofSource scopeDeclarations "%children%" 4 = .ok (listBranch "children") := ofSource_members rfl rfl
  have hfour : ((4 : Nat) : Int) = 4 := rfl
  rw [scopeTemplate, ofSource_eq, scan_scopeSource]
  simp only [ofScan, assemble, Int.ofNat_zero, hfour, hmembers, ofSource_empty]
  rfl

/-- What the pieces of a scope give. -/
def scopeText (name : String) (doc : Option String) (functions children : List String) : List Char :=
  described id doc ++ '\n' :: (("object " ++ name ++ " \x7b").toList ++
    '\n' :: ("    ".toList ++ memberText functions children ++ '\n' :: "\x7d".toList))

theorem build_scopePieces (h : Scoped values name doc functions children) :
    scopePieces.build values =
      .ok (String.ofList (finish 0 (scopeText name (doc.map docComment) functions children))) := by
  have hinputs : ∀ v ∈ scopePieces.inputs, ∃ x, v.lookup values = .ok x := by
    simp only [scopePieces, List.forall_mem_cons]
    exact ⟨exists_lookup_orNull ⟨rfl, rfl⟩ h.doc_eq, ⟨_, lookup_text h.name_eq⟩,
      exists_lookup_condition h.is_endpoint_eq, exists_lookup_condition h.space_eq,
      exists_lookup_condition h.has_children_eq, List.forall_mem_nil _⟩
  obtain ⟨found, hfound⟩ := exists_resolve hinputs
  have hname : fillPart values found (.slot "name") = .ok name.toList :=
    fillPart_text hfound rfl h.name_eq
  have hdoc : fillPart values found (.slot "doc") = .ok (described docComment doc) :=
    fillPart_orNull hfound rfl ⟨rfl, rfl, rfl⟩ h.doc_eq fun _ _ => rfl
  have hmembers : fillParts values found memberParts = .ok (memberText functions children) :=
    fillParts_memberParts h ⟨rfl, rfl, rfl⟩ hfound
  have hfront : fillParts values found headParts = .ok _ :=
    fillParts_of_pieces (.cons hdoc (.cons rfl (.cons hname (.cons rfl .nil))))
  have hback : fillParts values found [.text "\n\x7d"] = .ok _ :=
    fillParts_of_pieces (.cons rfl .nil)
  have hparts := fillParts_append (fillParts_append hfront hmembers) hback
  have hobject : "\nobject ".toList = '\n' :: "object ".toList := by simp
  have hopen : " \x7b\n    ".toList = " \x7b".toList ++ '\n' :: "    ".toList := by simp
  have hclose : "\n\x7d".toList = '\n' :: "\x7d".toList := by simp
  have hdescribed : described id (doc.map docComment) = described docComment doc := by
    cases doc <;> rfl
  rw [build, fill_eq_ok_iff.2 ⟨found, _, hfound, hparts, rfl⟩, scopeText, hdescribed]
  -- definitional steps would have the kernel compare the texts themselves
  simp -implicitDefEqProofs only [String.toList_append, hobject, hopen, hclose, List.flatten_cons,
    List.flatten_nil, List.append_assoc, List.cons_append, List.append_nil]
  rfl

/-- A scope with these texts and this comment is written so. -/
theorem renderScope_eq (h : s.Says name url functions children)
    (hdoc : url.mapM (scopeComment kotlin) = .ok doc) :
    renderScope s = .ok (String.ofList (finish 0 (scopeText name doc functions children))) := by
  have hvalue : scopeDoc s.url = orNull (url.map ("Endpoint: " ++ ·)) := by
    rw [h.url_eq]
    cases url <;> rfl
  have hcomment : doc = (url.map ("Endpoint: " ++ ·)).map docComment := by
    cases url <;> exact (Except.ok.inj hdoc).symm
  rw [renderScope, hvalue, scopeTemplate_eq, hcomment]
  exact build_scopePieces (scoped_values h _)

end Kotlin

end Dialect

end ApiClient
