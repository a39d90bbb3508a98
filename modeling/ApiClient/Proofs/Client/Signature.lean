import ApiClient.Proofs.Client.Arrangement
import ApiClient.Proofs.Client.Calls
import ApiClient.Proofs.Client.Merging
import Mathlib

/-!
# The signature of an endpoint

An endpoint has an argument for every parameter that is left after merging and one for the body if
the request has content (`Signature.isArgument_eachArgument`, `Signature.isBody_bodyArgument`). Their
identifiers are distinct, the required ones come first, and those in the path are required and give
the URL its substitutions (`Signature.IsArranged`). `Signature.endpoint_signature` says all of it for
a run from any state.
-/

namespace ApiClient.Signature

open Naming Working

variable {r : Resolver} {s s' s₁ s₂ : TypeState} {base : String} {p : Parameter} {a b : Argument}
  {o : Operation}

/-! ## Arguments -/

/-- The type of an argument is what some work gave between two states, spelt for an argument that is
required or not. -/
def IsTyped (r : Resolver) (s s' : TypeState) (work : Resolving Spelling) (a : Argument) : Prop :=
  ∃ type s₁ s₂, r.Grows s s₁ ∧ outcome work s₁ = (.ok type, s₂) ∧ r.Grows s₂ s' ∧
    a.type = spelled r type a.required

/-- An argument is that of a parameter; one in the path is required. -/
structure IsArgument (r : Resolver) (base : String) (s s' : TypeState) (p : Parameter)
    (a : Argument) : Prop where
  name : a.name = p.name
  location : a.location = p.location
  required : a.required = (p.required || p.location.same (.str "path"))
  type : ∃ schema, parameterSchema p = some schema ∧
    IsTyped r s s' (r.resolve schema none (some base) p.name) a

/-- An argument is the body of a request, which has content. -/
structure IsBody (r : Resolver) (base : String) (s s' : TypeState) (body : RequestBody)
    (a : Argument) : Prop where
  name : a.name = .str bodyName
  location : a.location = .str Argument.bodyLocation
  required : a.required = body.required
  type : ∃ media, preferredMedia body.content = some media ∧
    IsTyped r s s' (bodyType r base media) a

/-- The identifier of an argument is that of its name. -/
def IsSpelt (d : Dialect) (a : Argument) : Prop :=
  ∃ own, d.identifierOf a.name = .ok own ∧ a.identifier = .str own

/-- The identifier of an argument is that of its name or of its name with a number. -/
def IsNamed (d : Dialect) (a : Argument) : Prop :=
  ∃ own n, d.identifierOf a.name = .ok own ∧
    a.identifier = .str (triedIdentifier d { a with identifier := .str own } n)

theorem IsTyped.mono {work : Resolving Spelling} (h : IsTyped r s₁ s₂ work a)
    (hs : r.Grows s s₁) (hs' : r.Grows s₂ s') : IsTyped r s s' work a := by
  obtain ⟨type, t, t', ht, hwork, ht', htype⟩ := h
  exact ⟨type, t, t', IsTrans.trans _ _ _ hs ht, hwork, IsTrans.trans _ _ _ ht' hs', htype⟩

theorem IsArgument.mono (h : IsArgument r base s₁ s₂ p a) (hs : r.Grows s s₁)
    (hs' : r.Grows s₂ s') : IsArgument r base s s' p a := by
  obtain ⟨schema, hschema, htype⟩ := h.type
  exact ⟨h.name, h.location, h.required, schema, hschema, htype.mono hs hs'⟩

theorem IsBody.mono {body : RequestBody} (h : IsBody r base s₁ s₂ body a) (hs : r.Grows s s₁)
    (hs' : r.Grows s₂ s') : IsBody r base s s' body a := by
  obtain ⟨media, hmedia, htype⟩ := h.type
  exact ⟨h.name, h.location, h.required, media, hmedia, htype.mono hs hs'⟩

theorem isArgument_argument (h : outcome (argument r base p) s = (.ok a, s')) :
    IsArgument r base s s' p a ∧ IsSpelt r.dialect a := by
  obtain ⟨schema, type, identifier, hschema, htype, hidentifier, rfl⟩ := exists_of_argument h
  refine ⟨⟨rfl, rfl, rfl, schema, hschema, ?_⟩, identifier, hidentifier, rfl⟩
  exact ⟨type, s, s', Std.Refl.refl s, htype, Std.Refl.refl s', rfl⟩

/-- Every parameter has its argument. -/
theorem isArgument_eachArgument : ∀ {ps : List Parameter} {s s' : TypeState}
    {arguments : List Argument}, outcome (eachArgument r base ps) s = (.ok arguments, s') →
      List.Forall₂ (fun p a => IsArgument r base s s' p a ∧ IsSpelt r.dialect a) ps arguments
  | [], s, s', arguments, h => by
    obtain ⟨rfl, -⟩ := of_outcome_pure h
    exact .nil
  | p :: rest, s, s', arguments, h => by
    obtain ⟨a, s₁, ha, hrest⟩ := exists_of_outcome_bind h
    obtain ⟨more, s₂, hmore, hpure⟩ := exists_of_outcome_bind hrest
    obtain ⟨rfl, rfl⟩ := of_outcome_pure hpure
    have hfirst : r.Grows s s₁ := (grows_argument base p).leads ha
    have hlater : r.Grows s₁ s' := (grows_eachArgument base rest).leads hmore
    obtain ⟨hargument, hspelt⟩ := isArgument_argument ha
    refine .cons ⟨hargument.mono (Std.Refl.refl s) hlater, hspelt⟩ ?_
    exact (isArgument_eachArgument hmore).imp fun p a hpa =>
      ⟨hpa.1.mono hfirst (Std.Refl.refl s'), hpa.2⟩

theorem preferredMedia_eq_none_iff {content : Table MediaType} :
    preferredMedia content = none ↔ content = [] := by
  rw [preferredMedia]
  cases hjson : content.get? jsonMedia with
  | some media =>
    refine iff_of_false (by simp) ?_
    rintro rfl
    cases hjson
  | none => cases content <;> simp

theorem identifierOf_bodyName (d : Dialect) : d.identifierOf (.str bodyName) = .ok bodyName := by
  have hbody : d.identifier bodyName = bodyName := by cases d <;> decide +kernel
  exact congrArg Except.ok hbody

/-- There is an argument for the body if the request has content, and only then. -/
theorem isBody_bodyArgument {body : Option Argument}
    (h : outcome (bodyArgument r base o) s = (.ok body, s')) :
    List.Forall₂ (fun b a => IsBody r base s s' b a ∧ IsSpelt r.dialect a) (bodyOf r o).toList
      body.toList := by
  obtain ⟨hnone, rfl, rfl⟩ | ⟨value, b, s₁, hvalue, hb, hcases⟩ := exists_of_bodyArgument h
  · rw [bodyOf, hnone]
    exact .nil
  · have hfollowed := target_of_followed hb
    rw [bodyOf, hvalue, Option.bind_some, hfollowed]
    obtain ⟨hempty, rfl, -⟩ | ⟨media, type, hmedia, htype, rfl⟩ := hcases
    · rw [Option.filter_some_neg (by simp [preferredMedia_eq_none_iff.1 hempty])]
      exact .nil
    · have hcontent : b.content ≠ [] := fun hempty => by
        rw [preferredMedia_eq_none_iff.2 hempty] at hmedia
        cases hmedia
      have hgrows : r.Grows s s₁ := (grows_followed .requestBodies _ value).leads hb
      have htyped : IsTyped r s s' (bodyType r base media) (bodyAsArgument r b type) :=
        ⟨type, s₁, s', hgrows, htype, Std.Refl.refl s', rfl⟩
      rw [Option.filter_some_pos (by simpa using hcontent)]
      exact .cons ⟨⟨rfl, rfl, rfl, media, hmedia, htyped⟩, bodyName, identifierOf_bodyName _, rfl⟩
        .nil

/-! ## Arguments with other identifiers -/

theorem IsArgument.rename (h : IsArgument r base s s' p a) {d : Dialect} (hb : Renamed d a b) :
    IsArgument r base s s' p b := by
  obtain ⟨n, rfl⟩ := hb
  exact ⟨h.name, h.location, h.required, h.type⟩

theorem IsBody.rename {body : RequestBody} (h : IsBody r base s s' body a) {d : Dialect}
    (hb : Renamed d a b) : IsBody r base s s' body b := by
  obtain ⟨n, rfl⟩ := hb
  exact ⟨h.name, h.location, h.required, h.type⟩

theorem IsSpelt.rename {d : Dialect} (h : IsSpelt d a) (hb : Renamed d a b) : IsNamed d b := by
  obtain ⟨own, hown, hidentifier⟩ := h
  obtain ⟨n, rfl⟩ := hb
  exact ⟨own, n, hown, by rw [← hidentifier]⟩

theorem forall₂_trans {α β γ : Type} {R : α → β → Prop} {S : β → γ → Prop} {T : α → γ → Prop}
    (h : ∀ x y z, R x y → S y z → T x z) : ∀ {xs : List α} {ys : List β} {zs : List γ},
      List.Forall₂ R xs ys → List.Forall₂ S ys zs → List.Forall₂ T xs zs
  | _, _, _, .nil, .nil => .nil
  | _, _, _, .cons hR hrest, .cons hS hrest' => .cons (h _ _ _ hR hS) (forall₂_trans h hrest hrest')

theorem pairwise_of_forall₂ {α β : Type} {S : α → β → Prop} {R : α → α → Prop}
    {T : β → β → Prop} (h : ∀ x x' y y', S x y → S x' y' → R x x' → T y y') {xs : List α}
    {ys : List β} (hxs : xs.Pairwise R) (hS : List.Forall₂ S xs ys) : ys.Pairwise T := by
  induction hS with
  | nil => exact .nil
  | @cons x y xs ys hxy hrest ih =>
    obtain ⟨hx, hxs⟩ := List.pairwise_cons.1 hxs
    refine .cons (fun y' hy' => ?_) (ih hxs)
    obtain ⟨x', hx', hxy'⟩ := Client.exists_mem_of_forall₂ hrest.flip hy'
    exact h x x' y y' hxy hxy' (hx x' hx')

/-! ## Arguments in order -/

/-- The arguments of an endpoint are `inOrder`, which stand in the order of their declaration, with the
required ones in front. Their identifiers are distinct, and the URL has those of the path. -/
structure IsArranged (d : Dialect) (url : String) (inOrder : List Argument) (e : Endpoint) :
    Prop where
  /-- Both the required ones and the others keep their order. -/
  arguments : e.arguments = inOrder.filter (·.required) ++ inOrder.filter (!·.required)
  requiredFirst : e.arguments.Pairwise fun a b => b.required = true → a.required = true
  identifiers : (e.arguments.map (·.identifier)).Nodup
  named : ∀ a ∈ e.arguments, IsNamed d a
  path : ∀ a ∈ e.arguments, a.isIn "path" = true → a.required = true
  url : e.urlExpression = .str (d.urlExpression url (pathIdentifiers e.arguments))
  /-- Under the name of an argument in the path the URL finds its identifier. -/
  own : ∀ a ∈ e.arguments, a.isIn "path" = true → ∃ identifier, a.identifier = .str identifier ∧
    (pathIdentifiers e.arguments).find? (fun entry => entry.1.same a.name) =
      some (a.name, identifier)

/-- Of two arguments in the path none has the name of the other. -/
def ApartInPath (a b : Argument) : Prop :=
  a.isIn "path" = true → b.isIn "path" = true → a.name.same b.name = false

theorem ApartInPath.symm (h : ApartInPath a b) : ApartInPath b a := by
  intro hb ha
  by_contra hsame
  have := h ha hb
  rw [Json.same_symm (by simpa using hsame)] at this
  cases this

theorem isArranged_of_arranged {d : Dialect} {url : String} {arguments : List Argument}
    {e : Endpoint} (harguments : e.arguments = arranged d arguments)
    (hurl : e.urlExpression = .str (d.urlExpression url (pathIdentifiers e.arguments)))
    (hnamed : ∀ a ∈ distinctFrom d [] arguments, IsNamed d a)
    (hpath : ∀ a ∈ distinctFrom d [] arguments, a.isIn "path" = true → a.required = true)
    (hapart : (distinctFrom d [] arguments).Pairwise ApartInPath) :
    IsArranged d url (distinctFrom d [] arguments) e := by
  have hperm : e.arguments.Perm (distinctFrom d [] arguments) := harguments ▸ arranged_perm d _
  refine ⟨harguments, harguments ▸ requiredFirst_arranged d arguments, ?_,
    fun a ha => hnamed a (hperm.subset ha), fun a ha => hpath a (hperm.subset ha), hurl,
    fun a ha hin => ?_⟩
  · exact (hperm.map _).nodup_iff.2 (nodup_distinctFrom d [] arguments).1
  · obtain ⟨own, n, -, hidentifier⟩ := hnamed a (hperm.subset ha)
    refine ⟨_, hidentifier, ?_⟩
    rw [find?_pathIdentifiers ((hperm.pairwise_iff ApartInPath.symm).2 hapart) ha hin, hidentifier]
    rfl

theorem IsArgument.required_of_path (h : IsArgument r base s s' p a) (ha : a.isIn "path" = true) :
    a.required = true := by
  rw [Argument.isIn, h.location] at ha
  rw [h.required, ha, Bool.or_true]

theorem IsArgument.apartInPath {q : Parameter} (ha : IsArgument r base s s' p a)
    (hb : IsArgument r base s s' q b) (h : sameKey p q = false) : ApartInPath a b := by
  intro hpath hpath'
  rw [Argument.isIn, ha.location] at hpath
  rw [Argument.isIn, hb.location] at hpath'
  have hlocation : p.location.same q.location = true :=
    Json.same_trans hpath (Json.same_symm hpath')
  rw [ha.name, hb.name]
  simpa [sameKey, hlocation] using h

theorem IsBody.not_path {body : RequestBody} (h : IsBody r base s s' body a) :
    a.isIn "path" = false := by
  rw [Argument.isIn, h.location]
  decide

/-- The parameters that are left have names of their own in the path, and the body is not there. -/
theorem Merges.apartInPath {declared merged : List Parameter} {parts body : List Argument}
    {content : List RequestBody} (h : Merges declared merged)
    (hparts : List.Forall₂ (IsArgument r base s s') merged parts)
    (hbody : List.Forall₂ (IsBody r base s s') content body) :
    (parts ++ body).Pairwise ApartInPath := by
  have hoff : ∀ a ∈ body, a.isIn "path" = false := fun a ha => by
    obtain ⟨b, -, hb⟩ := Client.exists_mem_of_forall₂ hbody.flip ha
    exact hb.not_path
  have hapart : ∀ a, ∀ b ∈ body, ApartInPath a b := fun a b hb _ hpath =>
    absurd hpath (by simp [hoff b hb])
  refine List.pairwise_append.2 ⟨?_, ?_, fun a _ => hapart a⟩
  · exact pairwise_of_forall₂ (fun p q a b ha hb hpq => ha.apartInPath hb hpq) h.distinct hparts
  · exact List.pairwise_of_forall_mem_list fun a _ => hapart a

/-! ## The endpoint -/

/-- The signature of an endpoint is right: there is one parameter for every name and place that the
path and the operation declare, as it is declared last, and one for the body of a request with content;
and they are arranged. -/
theorem endpoint_signature {item : PathItem} {url : String} {method : Method}
    {scopes : List String} {e : Endpoint}
    (h : outcome (endpoint r item url method o scopes) s = (.ok e, s')) :
    ∃ base declared merged parts body, baseName o method scopes = .ok base ∧
      (item.parameters ++ o.parameters).map (parameterOf r) = declared.map some ∧
      Merges declared merged ∧
      List.Forall₂ (IsArgument r base s s') merged parts ∧
      List.Forall₂ (IsBody r base s s') (bodyOf r o).toList body ∧
      IsArranged r.dialect url (parts ++ body) e := by
  obtain ⟨base, merged, arguments, body, type, s₁, s₂, s₃, hbase, hmerged, harguments, hbody, htype,
    -, hall, hurl, -⟩ := exists_of_endpoint h
  obtain ⟨declared, hdeclared, hmerges⟩ := merges_of_mergeParameters merges_nil hmerged
  have hgrows₁ : r.Grows s s₁ := (grows_mergeParameters [] _).leads hmerged
  have hgrows₂ : r.Grows s₁ s₂ := (grows_eachArgument base merged).leads harguments
  have hgrows₃ : r.Grows s₂ s₃ := (grows_bodyArgument base o).leads hbody
  have hgrows₄ : r.Grows s₃ s' := (grows_responseType base o).leads htype
  -- The body gets its identifier last, with those of the parameters taken.
  obtain ⟨taken, hsplit⟩ := exists_distinctFrom_append r.dialect [] arguments body.toList
  let parts := distinctFrom r.dialect [] arguments
  let rest := distinctFrom r.dialect taken body.toList
  have hparts : List.Forall₂ (fun p a => IsArgument r base s s' p a ∧ IsNamed r.dialect a) merged
      parts := by
    refine forall₂_trans (fun p a b ha hb => ?_) (isArgument_eachArgument harguments)
      (forall₂_distinctFrom r.dialect [] arguments)
    exact ⟨(ha.1.mono hgrows₁ (IsTrans.trans _ _ _ hgrows₃ hgrows₄)).rename hb, ha.2.rename hb⟩
  have hrest : List.Forall₂ (fun b a => IsBody r base s s' b a ∧ IsNamed r.dialect a)
      (bodyOf r o).toList rest := by
    refine forall₂_trans (fun p a b ha hb => ?_) (isBody_bodyArgument hbody)
      (forall₂_distinctFrom r.dialect taken body.toList)
    exact ⟨(ha.1.mono (IsTrans.trans _ _ _ hgrows₁ hgrows₂) hgrows₄).rename hb, ha.2.rename hb⟩
  have hparts' := hparts.imp fun p a ha => ha.1
  have hrest' := hrest.imp fun b a ha => ha.1
  refine ⟨base, declared, merged, parts, rest, hbase, hdeclared, hmerges, hparts', hrest', ?_⟩
  have hapart := hmerges.apartInPath hparts' hrest'
  have hcases : ∀ a ∈ parts ++ rest, IsNamed r.dialect a ∧
      (a.isIn "path" = true → a.required = true) := by
    intro a ha
    rcases List.mem_append.1 ha with ha | ha
    · obtain ⟨p, -, hp, hnamed⟩ := Client.exists_mem_of_forall₂ hparts.flip ha
      exact ⟨hnamed, hp.required_of_path⟩
    · obtain ⟨b, -, hb, hnamed⟩ := Client.exists_mem_of_forall₂ hrest.flip ha
      exact ⟨hnamed, fun hpath => absurd hpath (by simp [hb.not_path])⟩
  rw [← hsplit] at hcases hapart ⊢
  exact isArranged_of_arranged hall hurl (fun a ha => (hcases a ha).1) (fun a ha => (hcases a ha).2)
    hapart

/-! ## A search -/

/-- A parameter with a schema. -/
def plainParameter (name location : String) (required : Bool) (schema : Schema) : Parameter where
  name := .str name
  location := .str location
  description := .null
  required := required
  deprecated := false
  allowEmptyValue := false
  style := .null
  explode := false
  allowReserved := false
  schema := some (.inline schema)
  content := []
  sample := .null

/-- The members of a team, a part of them at a time. -/
def members : PathItem :=
  { Client.bareItem with parameters := [.ref "#/components/parameters/Limit",
      .inline (plainParameter "team-id" "path" false Schema.single.text)] }

/-- A search among the members, with a parameter that is called like the body. -/
def search : Operation :=
  { Client.bareOperation with
    operationId := .str "search-members"
    parameters := [.inline (plainParameter "team_id" "query" false Schema.single.text),
      .inline (plainParameter "body" "query" false Schema.single.text),
      .inline (plainParameter "class" "header" true Schema.single.text),
      .inline (plainParameter "limit" "query" true
        { Schema.single.text with type := .str "integer" })]
    requestBody := some (.inline ⟨[("application/json",
      ⟨some (.inline (.single "text")), .null, [], []⟩)], .null, true⟩) }

/-- Components with the parameter that the path points to. -/
def teams : Resolver where
  components := some { parameters :=
    [("Limit", .inline (plainParameter "limit" "query" false Schema.single.text))] }
  dialect := .python
  namespaceName := "acme"

/-- The second definition of the limit counts, at the place of the first; the identifiers that are taken
get numbers; and the required arguments come first. -/
theorem endpoint_signature_search :
    let run := outcome (endpoint teams members "/teams/\x7bteam-id\x7d/members" .get search []) {}
    ∃ e, run.1 = .ok e ∧
      e.arguments.map (fun a => (a.identifier.display, a.type, a.required)) =
        [("limit", "int", true), ("team_id", "str", true), ("class_", "str", true),
          ("body2", "acme.schemas.SearchMembersRequest", true), ("team_id2", "Optional[str]", false),
          ("body", "Optional[str]", false)] ∧
      e.urlExpression = .str "f\"/teams/\x7bteam_id\x7d/members\"" ∧
      ∃ base declared merged parts body, baseName search .get [] = .ok base ∧
        (members.parameters ++ search.parameters).map (parameterOf teams) = declared.map some ∧
        Merges declared merged ∧
        List.Forall₂ (IsArgument teams base {} run.2) merged parts ∧
        List.Forall₂ (IsBody teams base {} run.2) (bodyOf teams search).toList body ∧
        IsArranged .python "/teams/\x7bteam-id\x7d/members" (parts ++ body) e := by
  intro run
  have hrun : (match run.1 with
      | .ok e => decide (e.arguments.map (fun a => (a.identifier.display, a.type, a.required)) =
          [("limit", "int", true), ("team_id", "str", true), ("class_", "str", true),
            ("body2", "acme.schemas.SearchMembersRequest", true),
            ("team_id2", "Optional[str]", false), ("body", "Optional[str]", false)]) &&
        e.urlExpression.same (.str "f\"/teams/\x7bteam_id\x7d/members\"")
      | .error _ => false) = true := by decide +kernel
  cases hresult : run.1 with
  | error f => simp [hresult] at hrun
  | ok e =>
    simp only [hresult, Bool.and_eq_true, decide_eq_true_eq] at hrun
    exact ⟨e, rfl, hrun.1, Json.eq_str_of_same (Json.same_symm hrun.2),
      endpoint_signature (Prod.ext hresult rfl)⟩

end ApiClient.Signature
