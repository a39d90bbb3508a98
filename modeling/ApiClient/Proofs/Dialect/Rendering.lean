import ApiClient.Proofs.Dialect.DataClass
import ApiClient.Proofs.Dialect.RootComment
import ApiClient.Proofs.Dialect.ScopeLayout
import ApiClient.Proofs.Dialect.TypeTemplate
import Mathlib

/-!
# What is written

Everything that a client is made of is written from values of the declared types, whatever their texts
are. The one exception are docstrings of one text: a blank text has no first line to begin with, so the
Python callable with a blank summary and the class form of a type with a blank description are not written
(`renders_unless_blank`). No value is missing, and none has a type that its template does not take.
-/

namespace ApiClient.Dialect

open Naming Template

/-! ## Roots -/

variable {r : Root} {title version : String} {description : Option String}

theorem exists_renderRoot (d : Dialect) (h : r.Says title version description) :
    ∃ text, d.renderRoot r = .ok text := by
  obtain ⟨url, hurl⟩ := exists_baseUrl h
  cases d with
  | python =>
    obtain ⟨hasTypes, htypes⟩ := h.hasTypes_eq
    obtain ⟨types, base, functions, space, children, hfill⟩ :=
      Python.exists_fill_rootPieces (Python.supplies_values h url) (congrArg some htypes)
    rw [renderRoot, Python.renderRoot, hurl, Python.rootTemplate_eq]
    exact ⟨_, congrArg (Except.map String.ofList) hfill⟩
  | kotlin =>
    obtain ⟨name, base, functions, space, children, hfill⟩ :=
      Kotlin.exists_fill_rootPieces (Kotlin.supplies_values h url)
    rw [renderRoot, Kotlin.renderRoot, hurl, Kotlin.rootTemplate_eq]
    exact ⟨_, congrArg (Except.map String.ofList) hfill⟩

/-! ## Scopes -/

theorem exists_renderScope (d : Dialect) {s : Scope} {name : String} {url : Option String}
    {functions children : List String} (h : s.Says name url functions children) :
    ∃ text, d.renderScope s = .ok text := by
  obtain ⟨doc, hdoc⟩ := exists_scopeDoc d url
  cases d with
  | python => exact ⟨_, Python.renderScope_eq h hdoc⟩
  | kotlin => exact ⟨_, Kotlin.renderScope_eq h hdoc⟩

/-! ## Types -/

variable {t : NamedType}

namespace Kotlin

/-- The values for the file of a data class. -/
def typeValues (t : NamedType) (description : Option String) (namespaceName : String) : Table Json :=
  [("namespace", .str namespaceName), ("name", .str t.name), ("doc", orNull description),
    ("fields", .arr ((t.fields.map parameterLine).map .str))]

theorem exists_build_typePieces (t : NamedType) (description : Option String) (namespaceName : String) :
    ∃ text, typePieces.build (typeValues t description namespaceName) = .ok text := by
  have hinputs : ∀ v ∈ typePieces.inputs, ∃ x,
      v.lookup (typeValues t description namespaceName) = .ok x := by
    simp only [typePieces, List.forall_mem_cons]
    exact ⟨⟨_, lookup_text rfl⟩, exists_lookup_orNull ⟨rfl, rfl⟩ rfl, ⟨_, lookup_text rfl⟩,
      ⟨_, lookup_list rfl⟩, List.forall_mem_nil _⟩
  obtain ⟨found, hfound⟩ := exists_resolve hinputs
  refine exists_build hfound ?_
  simp only [typePieces, headPieces, classPieces, List.forall_mem_append, List.forall_mem_cons]
  exact ⟨⟨⟨_, rfl⟩, ⟨_, fillPart_text hfound rfl rfl⟩, ⟨_, rfl⟩,
      ⟨_, fillPart_orNull hfound rfl ⟨rfl, rfl, rfl⟩ rfl fun _ _ => rfl⟩, List.forall_mem_nil _⟩,
    ⟨_, rfl⟩, ⟨_, fillPart_text hfound rfl rfl⟩, ⟨_, rfl⟩, exists_fillPart_list hfound rfl rfl, ⟨_, rfl⟩,
    List.forall_mem_nil _⟩

/-- The file of a data class is written, whatever is said about its type. -/
theorem exists_renderType (h : t.IsTyped description) (namespaceName : String) :
    ∃ text, t.render kotlin namespaceName = .ok text := by
  obtain ⟨text, htext⟩ := exists_build_typePieces t description namespaceName
  have hrender : t.render kotlin namespaceName = renderType t.record (.str namespaceName) := rfl
  have hproperties : t.record.properties = t.fields.map Field.property := rfl
  have hdescription : t.record.description = orNull description := h.description_eq
  rw [hrender, renderType, hproperties, propertyLines_map_property, typeTemplate_eq, hdescription]
  exact ⟨text, htext⟩

end Kotlin

/-! ## All of them -/

/-- Rendered to a text, unless a docstring would be made of a blank text. -/
def RendersUnless (blank : Prop) (rendered : Except Template.Error String) : Prop :=
  (blank → rendered = .error (.format .empty)) ∧ (¬blank → ∃ text, rendered = .ok text)

theorem rendersUnless_endpoint (d : Dialect) {e : Endpoint} {summary : Option String}
    (h : e.IsTyped summary) :
    RendersUnless (d = python ∧ e.deprecated = false ∧ IsBlankText summary) (d.renderEndpoint e) := by
  cases d with
  | python =>
    have hword : Text.allBlank "Deprecated." = false := by decide
    obtain ⟨doc, hdoc, hblank⟩ := exists_doc h hword
    refine ⟨fun hb => Python.renderEndpoint_eq_error h hdoc (hblank.2 hb.2), fun hb => ?_⟩
    exact Python.exists_renderEndpoint h hdoc fun hdocBlank => hb ⟨rfl, hblank.1 hdocBlank⟩
  | kotlin =>
    exact ⟨fun hb => absurd hb.1 (by decide), fun _ => Kotlin.exists_renderEndpoint h⟩

theorem rendersUnless_type (d : Dialect) (h : t.IsTyped description) (namespaceName : String) :
    RendersUnless (d = python ∧ Python.isClassForm t = true ∧ IsBlankText description)
      (t.render d namespaceName) := by
  cases d with
  | python =>
    obtain ⟨head, hhead⟩ := Python.exists_moduleDoc t namespaceName
    cases hform : Python.isClassForm t with
    | true =>
      rw [Python.renderType_of_class h hform namespaceName]
      refine ⟨fun hb => Python.build_typeClassPieces_eq_error h hb.2.2 _ _, fun hb => ?_⟩
      obtain ⟨doc, hdoc⟩ := Python.exists_of_not_isBlankText fun hblank => hb ⟨rfl, rfl, hblank⟩
      exact ⟨_, Python.build_typeClassPieces h hhead hdoc⟩
    | false =>
      rw [Python.renderType_of_call hform namespaceName]
      exact ⟨fun hb => absurd hb.2.1 (by decide), fun _ => ⟨_, Python.build_typeCallPieces hhead⟩⟩
  | kotlin =>
    exact ⟨fun hb => absurd hb.1 (by decide), fun _ => Kotlin.exists_renderType h namespaceName⟩

/-- From values of the declared types every scope and every root is written in either dialect, and every
callable and every type as well, unless it is a Python callable that is not deprecated and has a blank
summary, or a Python type in the class form with a blank description: these fail in the formatter of the
docstring, and in no other way. -/
theorem renders_unless_blank (d : Dialect) :
    (∀ (e : Endpoint) (summary : Option String), e.IsTyped summary →
      RendersUnless (d = python ∧ e.deprecated = false ∧ IsBlankText summary) (d.renderEndpoint e)) ∧
    (∀ (s : Scope) (name : String) (url : Option String) (functions children : List String),
      s.Says name url functions children → ∃ text, d.renderScope s = .ok text) ∧
    (∀ (r : Root) (title version : String) (description : Option String),
      r.Says title version description → ∃ text, d.renderRoot r = .ok text) ∧
    ∀ (t : NamedType) (description : Option String) (namespaceName : String), t.IsTyped description →
      RendersUnless (d = python ∧ Python.isClassForm t = true ∧ IsBlankText description)
        (t.render d namespaceName) :=
  ⟨fun _ _ h => rendersUnless_endpoint d h, fun _ _ _ _ _ h => exists_renderScope d h,
    fun _ _ _ _ h => exists_renderRoot d h, fun _ _ namespaceName h => rendersUnless_type d h namespaceName⟩

/-- An endpoint with this summary. -/
def listUsers (summary : Option String) : Endpoint where
  verb := "get"
  url := "/users"
  urlExpression := .str "\"/users\""
  returnType := .str "None"
  summary := orNull summary

theorem isTyped_listUsers (summary : Option String) : (listUsers summary).IsTyped summary where
  urlExpression_eq := ⟨_, rfl⟩
  returnType_eq := ⟨_, rfl⟩
  arguments_isTyped := List.forall_mem_nil _
  summary_eq := rfl

/-- A callable, a scope and a root without a title are written in Python, and a type with a blank
description is not. -/
theorem renders_unless_blank_users :
    ((listUsers (some "Users.")).IsTyped (some "Users.") ∧
      usersScope.Says "Users" (some "/users") [getText] [] ∧ (bareRoot "" none).Says "" "1" none ∧
      (Python.page (some " ") ["id"]).IsTyped (some " ")) ∧
    (∃ text, python.renderEndpoint (listUsers (some "Users.")) = .ok text) ∧
    (∃ text, python.renderScope usersScope = .ok text) ∧
    (∃ text, python.renderRoot (bareRoot "" none) = .ok text) ∧
    (Python.page (some " ") ["id"]).render python "ns" = .error (.format .empty) := by
  have hendpoint := isTyped_listUsers (some "Users.")
  have hscope := lists_usersScope.toSays
  have hroot := says_bareRoot "" none
  have htype := Python.isTyped_page (by decide : some " " ≠ some "") ["id"]
  obtain ⟨hendpoints, hscopes, hroots, htypes⟩ := renders_unless_blank python
  have hsummary : ¬IsBlankText (some "Users.") := by
    rintro ⟨s, hs, hblank⟩
    obtain rfl := Option.some.inj hs
    exact absurd hblank (by decide)
  refine ⟨⟨hendpoint, hscope, hroot, htype⟩, ?_, hscopes _ _ _ _ _ hscope, hroots _ _ _ _ hroot, ?_⟩
  · exact (hendpoints _ _ hendpoint).2 fun hblank => hsummary hblank.2.2
  · exact (htypes _ _ "ns" htype).1 ⟨rfl, by decide +kernel, " ", rfl, by decide⟩

/-- A callable with a blank summary is not written. -/
theorem not_renders_blank_summary : (listUsers (some " ")).IsTyped (some " ") ∧
    ¬∃ text, python.renderEndpoint (listUsers (some " ")) = .ok text := by
  have hblank : python = python ∧ (listUsers (some " ")).deprecated = false ∧ IsBlankText (some " ") :=
    ⟨rfl, rfl, " ", rfl, by decide⟩
  refine ⟨isTyped_listUsers _, ?_⟩
  rw [(rendersUnless_endpoint python (isTyped_listUsers (some " "))).1 hblank]
  simp

end ApiClient.Dialect
