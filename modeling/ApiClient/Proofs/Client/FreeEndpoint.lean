import ApiClient.Proofs.Client.DataClasses
import ApiClient.Proofs.Client.Signature
import ApiClient.Proofs.Dialect.FreePassage
import ApiClient.Proofs.Document.Texts
import ApiClient.Proofs.Types.Source
import Mathlib

/-!
# Endpoints without a marker

What a document brings into an endpoint are its URL, its summary and the names of its parameters. The
identifiers and the types in it are made of names, which are without the character of the marker
whatever the document says. So an endpoint of a document whose texts hold no marker is free of it
(`Signature.isFree_endpoint`).
-/

namespace ApiClient

open Naming Template Working

/-! ## Documents -/

theorem Json.isFree_iff_texts {j : Json} : j.IsFree ↔ ∀ text ∈ j.texts, MarkerFree text.toList := by
  simp only [Json.IsFree, Json.mem_texts]

/-- A schema whose title, description and properties are no texts with the marker. -/
structure Schema.IsFree (s : Schema) : Prop where
  title : s.title.IsFree
  description : s.description.IsFree
  property : ∀ name ∈ Document.propertyNames s, MarkerFree name.toList

/-- A document whose texts hold no marker. -/
structure Document.IsFree (d : Document) : Prop where
  title : MarkerFree d.info.title.toList
  version : MarkerFree d.info.version.toList
  description : d.info.description.IsFree
  server : ∀ s ∈ d.servers, s.url.IsFree
  path : ∀ e ∈ d.paths, MarkerFree e.1.toList
  operation : ∀ o ∈ d.operations, o.summary.IsFree ∧ o.description.IsFree
  parameter : ∀ p ∈ d.parameters, p.name.IsFree
  schema : ∀ s ∈ d.schemas, s.IsFree

theorem Document.isFree_of_texts {d : Document} (h : ∀ text ∈ d.texts, MarkerFree text.toList) :
    d.IsFree := by
  simp only [texts, List.forall_mem_append, List.forall_mem_cons, List.forall_mem_map,
    List.forall_mem_flatMap, ← Json.isFree_iff_texts] at h
  obtain ⟨⟨⟨⟨⟨⟨⟨htitle, hversion, -⟩, hdescription⟩, hserver⟩, hpath⟩, hoperation⟩, hparameter⟩,
    hschema⟩ := h
  exact ⟨htitle, hversion, hdescription, hserver, hpath, hoperation, hparameter,
    fun s hs => ⟨(hschema s hs).1.1, (hschema s hs).1.2, (hschema s hs).2⟩⟩

/-- The resolver is that of a document whose texts hold no marker, for a namespace without its
character. -/
structure Resolver.Clears (r : Resolver) (d : Document) : Prop where
  components : r.components = some d.components
  document : d.IsFree
  namespaceName : Unmarked r.namespaceName.toList

/-! ## Identifiers and types -/

namespace Dialect

theorem unmarked_identifier (d : Dialect) (name : String) : Unmarked (d.identifier name).toList := by
  cases d with
  | kotlin => exact Kotlin.unmarked_identifier name
  | python =>
    have hunderscore : Unmarked "_".toList := by decide
    have hplain : Unmarked (normalize (snakeCase name)).toList := by
      rw [Naming.normalize, String.toList_ofList]
      intro hmem
      rcases mem_of_mem_guardDigit hmem with hguard | hmem
      · exact absurd hguard (by decide)
      · obtain ⟨c, -, hc⟩ := List.mem_map.1 hmem
        split_ifs at hc with hkept
        · exact absurd hkept (hc ▸ by decide)
        · exact absurd hc (by decide)
    rw [identifier, pythonIdentifier, escapePythonKeyword]
    split_ifs
    · rw [String.toList_append, unmarked_append]
      exact ⟨hplain, hunderscore⟩
    · exact hplain

theorem unmarked_optionalType (d : Dialect) {type : String} (h : Unmarked type.toList) :
    Unmarked (d.optionalType type).toList := by
  have hmarks : Unmarked "Optional[".toList ∧ Unmarked "]".toList ∧ Unmarked "?".toList := by decide
  cases d <;> rw [optionalType] <;> split_ifs <;>
    simp only [String.toList_append, unmarked_append, h, hmarks, and_self]

end Dialect

/-- The text of a type is without the character of the marker if its names are written so. -/
theorem TypeExpr.unmarked_text {d : Dialect} {write : String → String} {e : TypeExpr}
    (hproper : e.IsProper d) (hwrite : ∀ n ∈ e.names, Unmarked (write n).toList) :
    Unmarked (e.text d write).toList := by
  have hwrapped : ∀ {front text back : String}, Unmarked front.toList → Unmarked text.toList →
      Unmarked back.toList → Unmarked (front ++ text ++ back).toList := by
    intro front text back hfront htext hback
    rw [String.toList_append, String.toList_append, unmarked_append, unmarked_append]
    exact ⟨⟨hfront, htext⟩, hback⟩
  induction e with
  | plain text =>
    exact fun hmem => absurd (List.all_eq_true.1 (all_isTypeChar_of_isPlain hproper) _ hmem) (by decide)
  | named name => exact hwrite name (List.mem_singleton_self name)
  | list item ih => cases d <;> exact hwrapped (by decide) (ih hproper hwrite) (by decide)
  | table value ih => cases d <;> exact hwrapped (by decide) (ih hproper hwrite) (by decide)

theorem Resolver.unmarked_of_writes {r : Resolver} {names : List String} {text : String}
    (hnamespace : Unmarked r.namespaceName.toList) (hnames : ∀ n ∈ names, IsPlainName n)
    (h : r.Writes names text) : Unmarked text.toList := by
  obtain ⟨e, hproper, hsub, htext⟩ := h
  have hqualified : Unmarked (e.text r.dialect (Dialect.qualify r.namespaceName)).toList := by
    refine e.unmarked_text hproper fun n hn => ?_
    have hmarks : Unmarked ".".toList ∧ Unmarked Dialect.typesDir.toList := by decide
    have hname := Dialect.Kotlin.unmarked_of_isPlainName (hnames n (hsub hn))
    simp only [Dialect.qualify, String.toList_append, unmarked_append, hnamespace, hmarks, hname,
      and_self]
  obtain rfl | rfl := htext
  · exact hqualified
  · exact r.dialect.unmarked_optionalType hqualified

namespace Signature

variable {d : Document} {r : Resolver} {s s' : TypeState} {base : String} {o : Operation}
  {item : PathItem} {url : String} {method : Method} {scopes : List String} {e : Endpoint}

theorem unmarked_of_isNamed {a : Argument} (h : IsNamed r.dialect a) :
    Unmarked a.identifier.display.toList := by
  obtain ⟨own, n, hown, hidentifier⟩ := h
  have hdisplay : ∀ text : String, (Json.str text).display = text := fun _ => rfl
  rw [hidentifier, hdisplay]
  cases n with
  | zero =>
    obtain ⟨name, -, rfl⟩ := exists_of_map hown
    exact r.dialect.unmarked_identifier name
  | succ n => exact r.dialect.unmarked_identifier _

/-! ## Types that are left behind -/

theorem types_of_followed {α : Type} {home : Section} {take : Component → Option α} {value : RefOr α}
    {a : α} (h : outcome (followed r home take value) s = (.ok a, s')) : s'.types = s.types := by
  cases value with
  | inline b => rw [(of_outcome_pure h).2]
  | ref pointer =>
    obtain ⟨_, s₁, hrecord, hrest⟩ := exists_of_outcome_bind h
    obtain ⟨-, rfl⟩ := Prod.mk.inj hrecord
    split at hrest
    · cases hrest
    · split at hrest
      · rw [(of_outcome_pure hrest).2]
      · cases hrest

theorem types_of_mergeParameters : ∀ {values : List (RefOr Parameter)} {s : TypeState}
    {merged result : List Parameter},
      outcome (mergeParameters r merged values) s = (.ok result, s') → s'.types = s.types
  | [], s, merged, result, h => by rw [(of_outcome_pure h).2]
  | value :: rest, s, merged, result, h => by
    obtain ⟨p, s₁, hp, hrest⟩ := exists_of_outcome_bind h
    split at hrest
    · rw [types_of_mergeParameters hrest, types_of_followed hp]
    · cases hrest

variable {Q : Schema → Prop}

theorem from_eachArgument : ∀ {ps : List Parameter} {s s' : TypeState} {arguments : List Argument},
    (∀ p ∈ ps, ∀ value, parameterSchema p = some value → r.Reaches Q value) →
      outcome (eachArgument r base ps) s = (.ok arguments, s') → Resolver.AreFrom Q s.types →
        Resolver.AreFrom Q s'.types
  | [], s, s', arguments, _, h, hfrom => by rwa [(of_outcome_pure h).2]
  | p :: rest, s, s', arguments, hreach, h, hfrom => by
    obtain ⟨hp, hrest⟩ := List.forall_mem_cons.1 hreach
    obtain ⟨a, s₁, ha, h₁⟩ := exists_of_outcome_bind h
    obtain ⟨more, s₂, hmore, hpure⟩ := exists_of_outcome_bind h₁
    obtain ⟨-, rfl⟩ := of_outcome_pure hpure
    obtain ⟨value, type, _, hvalue, htype, -⟩ := exists_of_argument ha
    exact from_eachArgument hrest hmore (Resolver.from_resolve (hp value hvalue) htype hfrom)

theorem exists_of_preferredMedia {content : Table MediaType} {media : MediaType}
    (h : preferredMedia content = some media) : ∃ e ∈ content, e.2 = media := by
  rw [preferredMedia] at h
  split at h
  · rename_i found hfound
    obtain rfl := Option.some.inj h
    exact ⟨_, Json.mem_of_lookup hfound, rfl⟩
  · obtain ⟨e, he, rfl⟩ := Option.map_eq_some_iff.1 h
    exact ⟨e, List.mem_of_mem_head? he, rfl⟩

variable (hr : r.components = some d.components)

include hr

theorem reaches_of_root {value : RefOr Schema} (h : value ∈ d.schemaRoots) :
    r.Reaches (· ∈ d.schemas) value :=
  fun _ ht => Document.partsWith_subset hr h ht

/-- The parameters that are left after merging are parameters of the document. -/
theorem mem_parameters_of_mergeParameters {entry : String × PathItem} (hentry : entry ∈ d.paths)
    {operation : Method × Operation} (ho : operation ∈ entry.2.operations) {merged : List Parameter}
    (h : outcome (mergeParameters r [] (entry.2.parameters ++ operation.2.parameters)) s =
      (.ok merged, s')) : ∀ p ∈ merged, p ∈ d.parameters := by
  intro p hp
  obtain ⟨declared, hdeclared, hmerges⟩ := merges_of_mergeParameters merges_nil h
  have hsome : some p ∈ declared.map some := List.mem_map_of_mem (hmerges.mem_of_mem hp)
  rw [← hdeclared] at hsome
  obtain ⟨value, hvalue, hparameter⟩ := List.mem_map.1 hsome
  exact Document.mem_parameters hr hentry (Document.mem_operations hentry ho) hvalue hparameter

theorem from_bodyArgument (ho : o ∈ d.operations) {body : Option Argument}
    (h : outcome (bodyArgument r base o) s = (.ok body, s'))
    (hfrom : Resolver.AreFrom (· ∈ d.schemas) s.types) :
    Resolver.AreFrom (· ∈ d.schemas) s'.types := by
  obtain ⟨-, -, rfl⟩ | ⟨value, b, s₁, hvalue, hb, hcases⟩ := exists_of_bodyArgument h
  · exact hfrom
  · have hbody := Document.mem_requestBodies hr ho hvalue (target_of_followed hb)
    rw [← types_of_followed hb] at hfrom
    obtain ⟨-, -, rfl⟩ | ⟨media, type, hmedia, htype, -⟩ := hcases
    · exact hfrom
    · unfold bodyType at htype
      split at htype
      · rwa [(of_outcome_pure htype).2]
      · rename_i schema hschema
        obtain ⟨e, he, rfl⟩ := exists_of_preferredMedia hmedia
        have hroot := Document.mem_schemaRoots_of_requestBody hbody he hschema
        exact Resolver.from_resolve (reaches_of_root hr hroot) htype hfrom

theorem from_responseType (ho : o ∈ d.operations) {type : String}
    (h : outcome (responseType r base o) s = (.ok type, s'))
    (hfrom : Resolver.AreFrom (· ∈ d.schemas) s.types) :
    Resolver.AreFrom (· ∈ d.schemas) s'.types := by
  unfold responseType at h
  split at h
  · rwa [(of_outcome_pure h).2]
  · rename_i code value hcode
    obtain ⟨response, s₁, hresponse, hrest⟩ := exists_of_outcome_bind h
    have hmem := Document.mem_responses hr ho (List.mem_of_find?_eq_some hcode)
      (target_of_followed hresponse)
    rw [← types_of_followed hresponse] at hfrom
    split at hrest
    · rwa [(of_outcome_pure hrest).2]
    · rename_i schema hschema
      obtain ⟨e, he, hvalue⟩ := Option.bind_eq_some_iff.1 hschema
      obtain ⟨spelling, s₂, htype, hpure⟩ := exists_of_outcome_bind hrest
      obtain ⟨-, rfl⟩ := of_outcome_pure hpure
      have hroot := Document.mem_schemaRoots_of_response hmem (List.mem_of_mem_head? he) hvalue
      exact Resolver.from_resolve (reaches_of_root hr hroot) (outcome_of_within htype) hfrom

/-- The endpoint of an operation leaves types behind whose schemas are those of the document. -/
theorem from_endpoint {entry : String × PathItem} (hentry : entry ∈ d.paths)
    {operation : Method × Operation} (ho : operation ∈ entry.2.operations)
    (h : outcome (endpoint r entry.2 url operation.1 operation.2 scopes) s = (.ok e, s'))
    (hfrom : Resolver.AreFrom (· ∈ d.schemas) s.types) :
    Resolver.AreFrom (· ∈ d.schemas) s'.types := by
  have hoperation := Document.mem_operations hentry ho
  obtain ⟨base, merged, arguments, body, type, s₁, s₂, s₃, -, hmerged, harguments, hbody, htype, -⟩ :=
    exists_of_endpoint h
  refine from_responseType hr hoperation htype (from_bodyArgument hr hoperation hbody ?_)
  refine from_eachArgument (fun p hp value hvalue => ?_) harguments ?_
  · have hparameter := mem_parameters_of_mergeParameters hr hentry ho hmerged p hp
    exact reaches_of_root hr (Document.mem_schemaRoots_of_parameter hparameter hvalue)
  · rwa [types_of_mergeParameters hmerged]

/-! ## Endpoints -/

omit hr in
/-- The summary of an endpoint is that of its operation, or else the description. -/
theorem summary_of_endpoint
    (h : outcome (endpoint r item url method o scopes) s = (.ok e, s')) :
    e.summary = if o.summary.truth then o.summary else o.description := by
  unfold endpoint at h
  split at h
  · cases h
  · obtain ⟨_, _, -, h₁⟩ := exists_of_outcome_bind h
    obtain ⟨_, _, -, h₂⟩ := exists_of_outcome_bind h₁
    obtain ⟨_, _, -, h₃⟩ := exists_of_outcome_bind h₂
    obtain ⟨_, _, -, hpure⟩ := exists_of_outcome_bind h₃
    obtain ⟨rfl, -⟩ := of_outcome_pure hpure
    rfl

omit hr in
/-- An argument of an endpoint has the name of a parameter that is left after merging, or is the body. -/
theorem named_of_mem_arranged {parameters : List Parameter} {arguments : List Argument}
    {body : Option Argument} {s₁ s₂ : TypeState}
    (harguments : outcome (eachArgument r base parameters) s = (.ok arguments, s₁))
    (hbody : outcome (bodyArgument r base o) s₁ = (.ok body, s₂)) {a : Argument}
    (ha : a ∈ arranged r.dialect (arguments ++ body.toList)) :
    IsNamed r.dialect a ∧ (a.name = .str bodyName ∨ ∃ p ∈ parameters, a.name = p.name) := by
  obtain ⟨b, hb, hrenamed⟩ := Client.exists_mem_of_forall₂
    (forall₂_distinctFrom r.dialect [] (arguments ++ body.toList)).flip
    ((arranged_perm r.dialect _).subset ha)
  rcases List.mem_append.1 hb with hb | hb
  · obtain ⟨p, hp, hargument, hspelt⟩ :=
      Client.exists_mem_of_forall₂ (isArgument_eachArgument harguments).flip hb
    exact ⟨hspelt.rename hrenamed, Or.inr ⟨p, hp, (hargument.rename hrenamed).name⟩⟩
  · obtain ⟨x, -, hargument, hspelt⟩ :=
      Client.exists_mem_of_forall₂ (isBody_bodyArgument hbody).flip hb
    exact ⟨hspelt.rename hrenamed, Or.inl (hargument.rename hrenamed).name⟩

omit hr in
/-- The endpoint of an operation is free of the marker if no text of the document holds it. -/
theorem isFree_endpoint (hclears : r.Clears d)
    {entry : String × PathItem} (hentry : entry ∈ d.paths) {operation : Method × Operation}
    (ho : operation ∈ entry.2.operations) (hurl : MarkerFree url.toList) (hsound : r.Sound s.types)
    (h : outcome (endpoint r entry.2 url operation.1 operation.2 scopes) s = (.ok e, s')) : e.IsFree := by
  obtain ⟨hmentions, hverb⟩ := mentions_endpoint hsound h (List.Subset.refl _)
  have hsound' : r.Sound s'.types :=
    ((closed_endpoint r.covers_grows entry.2 url operation.1 operation.2 scopes).leads h).sound hsound
  have hwrites : ∀ text, r.Writes s'.types.names text → Unmarked text.toList := fun text =>
    Resolver.unmarked_of_writes hclears.namespaceName fun n => hsound'.isPlainName
  obtain ⟨base, merged, arguments, body, type, s₁, s₂, s₃, -, hmerged, harguments, hbody, -, -, hall,
    hexpression, -⟩ := exists_of_endpoint h
  have harguments' : ∀ a ∈ e.arguments, a.IsFree := by
    intro a ha
    obtain ⟨hnamed, hname⟩ := named_of_mem_arranged harguments hbody (hall ▸ ha)
    refine ⟨?_, unmarked_of_isNamed hnamed, hwrites a.type (hmentions.arguments a ha)⟩
    obtain hname | ⟨p, hp, hname⟩ := hname <;> rw [hname]
    · exact Json.isFree_str (markerFree_of_unmarked (by decide))
    · exact hclears.document.parameter p
        (mem_parameters_of_mergeParameters hclears.components hentry ho hmerged p hp)
  refine ⟨⟨operation.1, hverb⟩, ?_, ?_, ?_, harguments'⟩
  · rw [hexpression]
    refine Json.isFree_str (Dialect.markerFree_urlExpression r.dialect hurl fun identifier hmem => ?_)
    obtain ⟨a, ha, rfl⟩ := List.mem_map.1 hmem
    exact (harguments' a (List.mem_filter.1 ha).1).identifier
  · obtain hnone | ⟨text, htext, hwritten⟩ := hmentions.result
    · rw [hnone]
      refine Json.isFree_str (markerFree_of_unmarked (r.dialect.unmarked_optionalType ?_))
      cases r.dialect <;> decide
    · rw [htext]
      exact Json.isFree_str (markerFree_of_unmarked (hwrites text hwritten))
  · obtain ⟨hsummary, hdescription⟩ :=
      hclears.document.operation _ (Document.mem_operations hentry ho)
    rw [summary_of_endpoint h]
    split_ifs
    · exact hsummary
    · exact hdescription

end Signature

end ApiClient
