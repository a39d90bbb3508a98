import ApiClient.Client.Signature
import ApiClient.Proofs.Working
import Mathlib

/-!
# Runs that give a signature

What the parts of a signature are when it is made: the objects that declarations are or point to
(`Signature.target`), the arguments of parameters and of the body (`Signature.exists_of_argument`,
`Signature.exists_of_bodyArgument`), and the endpoint that is put together from them
(`Signature.exists_of_endpoint`). What holds of an endpoint is proved from these, not from the
definitions.
-/

namespace ApiClient

open Working

/-- The parameter that a component is. -/
def Component.parameter? : Component → Option Parameter
  | .parameter p => some p
  | _ => none

/-- The body of a request that a component is. -/
def Component.requestBody? : Component → Option RequestBody
  | .requestBody b => some b
  | _ => none

namespace Signature

variable {r : Resolver} {s s' : TypeState} {base : String} {p : Parameter} {o : Operation}

/-! ## Pointers -/

/-- The object that `value` is or points to, if there is one of the section. -/
def target {α : Type} (r : Resolver) (home : Section) (take : Component → Option α) :
    RefOr α → Option α
  | .inline value => some value
  | .ref pointer =>
    match (Pointer.follow r.components (some [home]) pointer).outcome with
    | .error _ => none
    | .ok (_, found) => take found

theorem target_of_followed {α : Type} {home : Section} {take : Component → Option α}
    {value : RefOr α} {a : α} (h : outcome (followed r home take value) s = (.ok a, s')) :
    target r home take value = some a := by
  cases value with
  | inline value => exact congrArg some (of_outcome_pure h).1.symm
  | ref pointer =>
    obtain ⟨_, s₁, -, hrest⟩ := exists_of_outcome_bind h
    split at hrest
    · cases hrest
    · rename_i name found hfound
      split at hrest
      · rename_i b htake
        rw [target, hfound, (of_outcome_pure hrest).1]
        exact htake
      · cases hrest

/-- The parameter that a declaration is or points to. -/
def parameterOf (r : Resolver) : RefOr Parameter → Option Parameter :=
  target r .parameters Component.parameter?

/-- The body of the requests of an operation, if there is one with content. -/
def bodyOf (r : Resolver) (o : Operation) : Option RequestBody :=
  (o.requestBody.bind (target r .requestBodies Component.requestBody?)).filter fun body =>
    !body.content.isEmpty

/-! ## Arguments -/

/-- A parameter as an argument. -/
def parameterAsArgument (r : Resolver) (p : Parameter) (type : Spelling) (identifier : String) :
    Argument :=
  let required := p.required || p.location.same (.str "path")
  { name := p.name
    identifier := .str identifier
    location := p.location
    type := spelled r type required
    required }

theorem exists_of_argument {a : Argument}
    (h : outcome (argument r base p) s = (.ok a, s')) : ∃ schema type identifier,
      parameterSchema p = some schema ∧
      outcome (r.resolve schema none (some base) p.name) s = (.ok type, s') ∧
      r.dialect.identifierOf p.name = .ok identifier ∧
      a = parameterAsArgument r p type identifier := by
  unfold argument at h
  split at h
  · cases h
  · rename_i schema hschema
    obtain ⟨type, s₁, htype, hrest⟩ := exists_of_outcome_bind h
    dsimp only at hrest
    split at hrest
    · cases hrest
    · rename_i identifier hidentifier
      obtain ⟨rfl, rfl⟩ := of_outcome_pure hrest
      exact ⟨schema, type, identifier, hschema, outcome_of_within htype, hidentifier, rfl⟩

/-- The body of a request as an argument. -/
def bodyAsArgument (r : Resolver) (body : RequestBody) (type : Spelling) : Argument where
  name := .str bodyName
  identifier := .str bodyName
  location := .str Argument.bodyLocation
  type := spelled r type body.required
  required := body.required

/-- Resolves the type of a body. -/
def bodyType (r : Resolver) (base : String) (media : MediaType) : Resolving Spelling :=
  match media.schema with
  | none => pure (Spelling.plain r.dialect.unitType)
  | some schema => r.resolve schema (some (base ++ "Request"))

/-- There is no body, or there is one that has no content, or the first of its media types that counts
gives the type. -/
theorem exists_of_bodyArgument {body : Option Argument}
    (h : outcome (bodyArgument r base o) s = (.ok body, s')) :
    o.requestBody = none ∧ body = none ∧ s' = s ∨ ∃ value b s₁, o.requestBody = some value ∧
      outcome (followed r .requestBodies Component.requestBody? value) s = (.ok b, s₁) ∧
      (preferredMedia b.content = none ∧ body = none ∧ s' = s₁ ∨
        ∃ media type, preferredMedia b.content = some media ∧
          outcome (bodyType r base media) s₁ = (.ok type, s') ∧
          body = some (bodyAsArgument r b type)) := by
  unfold bodyArgument at h
  split at h
  · rename_i hnone
    obtain ⟨rfl, rfl⟩ := of_outcome_pure h
    exact Or.inl ⟨hnone, rfl, rfl⟩
  · rename_i value hvalue
    obtain ⟨b, s₁, hb, hrest⟩ := exists_of_outcome_bind h
    refine Or.inr ⟨value, b, s₁, hvalue, hb, ?_⟩
    split at hrest
    · rename_i hempty
      obtain ⟨rfl, rfl⟩ := of_outcome_pure hrest
      exact Or.inl ⟨hempty, rfl, rfl⟩
    · rename_i media hmedia
      refine Or.inr ⟨media, ?_⟩
      dsimp only at hrest
      split at hrest
      · rename_i hschema
        obtain ⟨rfl, rfl⟩ := of_outcome_pure hrest
        exact ⟨_, hmedia, by rw [bodyType, hschema, outcome_pure], rfl⟩
      · rename_i schema hschema
        obtain ⟨type, s₂, htype, hpure⟩ := exists_of_outcome_bind hrest
        obtain ⟨rfl, rfl⟩ := of_outcome_pure hpure
        refine ⟨type, hmedia, ?_, rfl⟩
        rw [bodyType, hschema]
        exact outcome_of_within htype

/-! ## Endpoints -/

/-- An endpoint is put together from parameters, arguments, a body and a type that are made one after
another. -/
theorem exists_of_endpoint {item : PathItem} {url : String} {method : Method}
    {scopes : List String} {e : Endpoint}
    (h : outcome (endpoint r item url method o scopes) s = (.ok e, s')) :
    ∃ base parameters arguments body type s₁ s₂ s₃, baseName o method scopes = .ok base ∧
      outcome (mergeParameters r [] (item.parameters ++ o.parameters)) s = (.ok parameters, s₁) ∧
      outcome (eachArgument r base parameters) s₁ = (.ok arguments, s₂) ∧
      outcome (bodyArgument r base o) s₂ = (.ok body, s₃) ∧
      outcome (responseType r base o) s₃ = (.ok type, s') ∧
      e.verb = method.key ∧ e.arguments = arranged r.dialect (arguments ++ body.toList) ∧
      e.urlExpression = .str (r.dialect.urlExpression url (pathIdentifiers e.arguments)) ∧
      e.returnType = .str (r.dialect.optionalType type) := by
  unfold endpoint at h
  split at h
  · cases h
  · rename_i base hbase
    obtain ⟨parameters, s₁, hparameters, h₁⟩ := exists_of_outcome_bind h
    obtain ⟨arguments, s₂, harguments, h₂⟩ := exists_of_outcome_bind h₁
    obtain ⟨body, s₃, hbody, h₃⟩ := exists_of_outcome_bind h₂
    obtain ⟨type, s₄, htype, hpure⟩ := exists_of_outcome_bind h₃
    obtain ⟨rfl, rfl⟩ := of_outcome_pure hpure
    exact ⟨base, parameters, arguments, body, type, s₁, s₂, s₃, hbase, hparameters, harguments,
      hbody, htype, rfl, rfl, rfl, rfl⟩

end Signature

end ApiClient
