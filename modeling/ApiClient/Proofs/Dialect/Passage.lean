import ApiClient.Proofs.Dialect.DataClass
import ApiClient.Proofs.Dialect.EndpointTemplate
import ApiClient.Proofs.Dialect.PythonModule
import ApiClient.Proofs.Dialect.RootLayout
import ApiClient.Proofs.Dialect.ScopeTemplate
import ApiClient.Proofs.Template.Formatting
import Mathlib

/-!
# What is handed to templates

Every part of a client is written in the same way: a template is chosen, values are made for it, and the
template is built with them. `Dialect.handed` gives the template and the values of a part, and the text of
the part is what is built of them (`Dialect.renderPassage_eq`). The templates are divided, so no marker
reaches from one value into another (`Template.Plan`).
-/

namespace ApiClient

open Template

/-- A template with what it is made of. -/
structure Template.Plan where
  declarations : List Declaration
  source : String
  template : Template
  made : ofSource declarations source 0 = .ok template
  /-- The source is without the character of the marker. -/
  unmarked : Unmarked source.toList
  /-- No marker reaches from one value into another. -/
  divided : isDivided template = true

/-- A part of a client that is written with a template. -/
inductive Passage where
  | endpoint (e : Endpoint)
  | scope (s : Scope)
  | root (r : Root)
  | type (t : NamedType) (namespaceName : String)

namespace Dialect

/-- The text of a part. -/
def renderPassage (d : Dialect) : Passage → Except Template.Error String
  | .endpoint e => d.renderEndpoint e
  | .scope s => d.renderScope s
  | .root r => d.renderRoot r
  | .type t namespaceName => t.render d namespaceName

theorem isDivided_listBranch (name : String) : isDivided (listBranch name) = true := by
  simp [isDivided, listBranch, areDivided, isDividedPart, opensDivided]

theorem isDivided_emptyBranch : isDivided emptyBranch = true := by
  simp [isDivided, emptyBranch, areDivided]

/-! ## Python -/

namespace Python

theorem isDivided_rootPieces : isDivided rootPieces = true := by
  have htypes : isDivided typesBranch = true := by decide +kernel
  have hfeed : divides "\n" = true := by decide
  -- the long texts are not looked into, as their first line break divides
  simp only [isDivided, rootPieces, areDivided, isDividedPart, Part.isText, opensDivided,
    divides_append, isDivided_listBranch, isDivided_emptyBranch, htypes, hfeed, Bool.true_and,
    Bool.false_or, Bool.true_or, Bool.or_true]
  decide +kernel

/-- The template of callables. -/
def endpointPlan : Plan where
  declarations :=
    [linesDeclaration "parameters" ", ", docDeclaration "doc" (ofText (docstring 4)),
      { name := "query", nullable := true, wholeLine := true },
      { name := "headers", nullable := true, wholeLine := true }]
  source := endpointSource
  template := endpointPieces
  made := endpointTemplate_eq
  unmarked := by
    rw [← Text.chars_eq]
    decide +kernel
  divided := by decide +kernel

/-- The template of scopes. -/
def scopePlan : Plan where
  declarations := scopeDeclarations
  source := scopeSource
  template := scopePieces
  made := scopeTemplate_eq
  unmarked := by
    rw [← Text.chars_eq]
    decide +kernel
  divided := by decide +kernel

/-- The template of root files. -/
def rootPlan : Plan where
  declarations := scopeDeclarations ++
    [docDeclaration "description" (ofText fun s => .ok (headDoc s)),
      { name := "base_url", format := ofText fun s => .ok (pythonString s) }]
  source := rootSource
  template := rootPieces
  made := rootTemplate_eq
  unmarked := by
    rw [← Text.chars_eq]
    decide +kernel
  divided := isDivided_rootPieces

/-- The template of types in the class form. -/
def typeClassPlan : Plan where
  declarations := typeDeclarations ++ [linesDeclaration "fields" "\n    "]
  source := typeClassSource
  template := typeClassPieces
  made := typeClassTemplate_eq
  unmarked := by
    rw [← Text.chars_eq]
    decide +kernel
  divided := by decide +kernel

/-- The template of types in the call form. -/
def typeCallPlan : Plan where
  declarations := typeDeclarations ++ [linesDeclaration "fields" "\n        "]
  source := typeCallSource
  template := typeCallPieces
  made := typeCallTemplate_eq
  unmarked := by
    rw [← Text.chars_eq]
    decide +kernel
  divided := by decide +kernel

/-- The template of types. -/
def typePlan (isClass : Bool) : Plan :=
  if isClass then typeClassPlan else typeCallPlan

/-- The values for a scope with this comment. -/
def scopeValues (s : Scope) (doc : Json) : Table Json :=
  [("name", s.name), ("doc", doc), ("functions", s.functions), ("children", s.children)] ++
    s.conditions

/-- The values for a root file with this URL. -/
def rootValues (r : Root) (baseUrl : Json) : Table Json :=
  [("title", r.title), ("version", r.version), ("description", r.description),
    ("namespace", r.namespaceName), ("base_url", baseUrl), ("has_schemas", r.hasTypes),
    ("functions", r.scope.functions), ("children", r.scope.children)] ++ r.scope.conditions

/-- The template of a part and the values for it. -/
def handed : Passage → Except Template.Error (Plan × Table Json)
  | .endpoint e => .ok (endpointPlan, endpointValues e)
  | .scope s => do
    let doc ← (scopeDoc s.url).mapError .format
    return (scopePlan, scopeValues s doc)
  | .root r => do
    let baseUrl ← r.baseUrl.mapError .format
    return (rootPlan, rootValues r baseUrl)
  | .type t namespaceName => do
    let isClass ← (areIdentifiers t.record.properties).mapError .format
    let values ← (typeValues t.record (.str namespaceName) isClass).mapError .format
    return (typePlan isClass, values)

theorem renderPassage_eq (p : Passage) : python.renderPassage p =
    (do let (plan, values) ← handed p; plan.template.build values) := by
  cases p with
  | endpoint e =>
    have hrender : python.renderPassage (.endpoint e) = renderEndpoint e := rfl
    rw [hrender, renderEndpoint, endpointTemplate_eq]
    rfl
  | scope s =>
    have hrender : python.renderPassage (.scope s) = renderScope s := rfl
    rw [hrender, renderScope, handed, scopeTemplate_eq]
    cases scopeDoc s.url <;> rfl
  | root r =>
    have hrender : python.renderPassage (.root r) = renderRoot r := rfl
    rw [hrender, renderRoot, handed, rootTemplate_eq]
    cases r.baseUrl <;> rfl
  | type t namespaceName =>
    have hrender : python.renderPassage (.type t namespaceName) =
      renderType t.record (.str namespaceName) := rfl
    rw [hrender, renderType, handed, typeClassTemplate_eq, typeCallTemplate_eq]
    cases areIdentifiers t.record.properties with
    | error e => rfl
    | ok isClass =>
      cases hvalues : typeValues t.record (.str namespaceName) isClass <;> cases isClass <;>
        simp only [Except.mapError, bind, Except.bind, hvalues] <;> rfl

end Python

/-! ## Kotlin -/

namespace Kotlin

theorem isDivided_rootPieces : isDivided rootPieces = true := by
  have hfeed : divides "\n" = true := by decide
  simp only [isDivided, rootPieces, areDivided, isDividedPart, Part.isText, opensDivided,
    divides_append, isDivided_listBranch, isDivided_emptyBranch, hfeed, Bool.true_and, Bool.false_or,
    Bool.true_or, Bool.or_true]
  decide +kernel

/-- The template of callables. -/
def endpointPlan : Plan where
  declarations :=
    [linesDeclaration "parameters" ", ", commentDeclaration, linesDeclaration "query" "\n",
      linesDeclaration "headers" "\n"]
  source := endpointSource
  template := endpointPieces
  made := endpointTemplate_eq
  unmarked := by
    rw [← Text.chars_eq]
    decide +kernel
  divided := by decide +kernel

/-- The template of scopes. -/
def scopePlan : Plan where
  declarations := scopeDeclarations
  source := scopeSource
  template := scopePieces
  made := scopeTemplate_eq
  unmarked := by
    rw [← Text.chars_eq]
    decide +kernel
  divided := by decide +kernel

/-- The template of root files. -/
def rootPlan : Plan where
  declarations := scopeDeclarations ++
    [docDeclaration "description" (ofText fun s => .ok (headComment s)),
      { name := "base_url", format := ofText fun s => .ok (kotlinString s) }]
  source := rootSource
  template := rootPieces
  made := rootTemplate_eq
  unmarked := by
    rw [← Text.chars_eq]
    decide +kernel
  divided := isDivided_rootPieces

/-- The template of types. -/
def typePlan : Plan where
  declarations := [commentDeclaration, linesDeclaration "fields" "\n    "]
  source := typeSource
  template := typePieces
  made := typeTemplate_eq
  unmarked := by
    rw [← Text.chars_eq]
    decide +kernel
  divided := by decide +kernel

/-- The values for an endpoint with these calls. -/
def endpointValues (e : Endpoint) (query headers : List Json) : Table Json :=
  [("name", .str e.name),
    ("parameters", .arr (e.arguments.map fun a => .str (renderArgument a))),
    ("return_type", e.returnType),
    ("doc", e.doc "@deprecated"),
    ("url", e.urlExpression),
    ("method", .str (methodExpression e.verb)),
    ("has_query", .bool !query.isEmpty),
    ("query", .arr query),
    ("has_headers", .bool !headers.isEmpty),
    ("headers", .arr headers),
    ("has_body", .bool e.body.isSome),
    ("body", (e.body.map Argument.identifier).getD .null)]

/-- The values for a scope. -/
def scopeValues (s : Scope) : Table Json :=
  [("name", s.name), ("doc", scopeDoc s.url), ("functions", s.functions),
    ("children", s.children)] ++ s.conditions

/-- The values for a root file with this URL. -/
def rootValues (r : Root) (baseUrl : Json) : Table Json :=
  [("namespace", r.namespaceName), ("title", r.title), ("version", r.version),
    ("description", r.description), ("base_url", baseUrl),
    ("functions", r.scope.functions), ("children", r.scope.children)] ++ r.scope.conditions

/-- The values for a type with these properties. -/
def recordValues (r : Record) (namespaceName : Json) (fields : List Json) : Table Json :=
  [("namespace", namespaceName), ("name", r.name), ("doc", r.description), ("fields", .arr fields)]

/-- The template of a part and the values for it. -/
def handed : Passage → Except Template.Error (Plan × Table Json)
  | .endpoint e => do
    let query ← (setters "parameter" (e.located "query")).mapError .format
    let headers ← (setters "header" (e.located "header")).mapError .format
    return (endpointPlan, endpointValues e query headers)
  | .scope s => .ok (scopePlan, scopeValues s)
  | .root r => do
    let baseUrl ← r.baseUrl.mapError .format
    return (rootPlan, rootValues r baseUrl)
  | .type t namespaceName => do
    let fields ← (propertyLines t.record.properties).mapError .format
    return (typePlan, recordValues t.record (.str namespaceName) fields)

theorem renderPassage_eq (p : Passage) : kotlin.renderPassage p =
    (do let (plan, values) ← handed p; plan.template.build values) := by
  cases p with
  | endpoint e =>
    have hrender : kotlin.renderPassage (.endpoint e) = renderEndpoint e := rfl
    rw [hrender, renderEndpoint, handed, endpointTemplate_eq]
    cases setters "parameter" (e.located "query") with
    | error e => rfl
    | ok query => cases setters "header" (e.located "header") <;> rfl
  | scope s =>
    have hrender : kotlin.renderPassage (.scope s) = renderScope s := rfl
    rw [hrender, renderScope, scopeTemplate_eq]
    rfl
  | root r =>
    have hrender : kotlin.renderPassage (.root r) = renderRoot r := rfl
    rw [hrender, renderRoot, handed, rootTemplate_eq]
    cases r.baseUrl <;> rfl
  | type t namespaceName =>
    have hrender : kotlin.renderPassage (.type t namespaceName) =
      renderType t.record (.str namespaceName) := rfl
    rw [hrender, renderType, handed, typeTemplate_eq]
    cases propertyLines t.record.properties <;> rfl

end Kotlin

/-! ## Both -/

/-- The template of a part and the values for it. -/
def handed : Dialect → Passage → Except Template.Error (Plan × Table Json)
  | python => Python.handed
  | kotlin => Kotlin.handed

/-- The text of a part is what its template is built to with its values. -/
theorem renderPassage_eq (d : Dialect) (p : Passage) : d.renderPassage p =
    (do let (plan, values) ← d.handed p; plan.template.build values) := by
  cases d with
  | python => exact Python.renderPassage_eq p
  | kotlin => exact Kotlin.renderPassage_eq p

/-- Nothing that is handed over for a part holds the marker when it is formatted. -/
def Spares (d : Dialect) (p : Passage) : Prop :=
  ∀ plan values, d.handed p = .ok (plan, values) → FreeValues plan.declarations values

/-- The text of a part by the evaluator, whose lines go with conditions and absent values only. -/
def evaluated (d : Dialect) (p : Passage) : Except Template.Error String := do
  let (plan, values) ← d.handed p
  return String.ofList (← render values none plan.template)

variable {d : Dialect} {p : Passage}

theorem Spares.renderPassage_eq (h : d.Spares p) : d.renderPassage p = d.evaluated p := by
  rw [Dialect.renderPassage_eq, evaluated]
  cases hhanded : d.handed p with
  | error e => rfl
  | ok handed =>
    obtain ⟨plan, values⟩ := handed
    have hspares := spares_of_freeValues plan.made plan.unmarked plan.divided (h plan values hhanded)
    simp only [bind, Except.bind, build, hspares.fill_eq]
    cases render values none plan.template <;> rfl

/-- No marker is left in the text of such a part. -/
theorem Spares.markerFree (h : d.Spares p) {text : String} (htext : d.renderPassage p = .ok text) :
    MarkerFree text.toList := by
  rw [h.renderPassage_eq, evaluated] at htext
  obtain ⟨⟨plan, values⟩, hhanded, hrender⟩ := exists_of_bind htext
  obtain ⟨out, hout, hpure⟩ := exists_of_bind hrender
  obtain rfl := Except.ok.inj hpure
  have hspares := spares_of_freeValues plan.made plan.unmarked plan.divided (h plan values hhanded)
  rw [String.toList_ofList]
  exact hspares.markerFree hout

end Dialect

end ApiClient
