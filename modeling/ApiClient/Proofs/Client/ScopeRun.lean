import ApiClient.Proofs.Client.Growth
import Mathlib

/-!
# Runs that build scopes

What a scope was built of when it is there: the endpoint and the text of every callable
(`Client.exists_of_writeEndpoint`), the callables of a node and the scopes below it
(`Client.exists_of_buildScope`), and among these the first one and the rest
(`Client.exists_of_buildChildren_cons`). What holds of the scopes of a client is proved from these, not
from the definitions.
-/

namespace ApiClient.Client

open Drafting Working

variable {r : Resolver} {d d' : Draft} {scopes taken : List String}

/-! ## Callables -/

/-- A callable is the text of an endpoint, and its call is put behind those that are there. -/
theorem exists_of_writeEndpoint {item : PathItem} {url : String} {method : Method} {o : Operation}
    {value : Json} (h : outcome (writeEndpoint r item url scopes method o) d = (.ok value, d')) :
    ∃ e text, outcome (Signature.endpoint r item url method o scopes) d.types = (.ok e, d'.types) ∧
      r.dialect.renderEndpoint e = .ok text ∧ value = .str text ∧
      d'.calls = d.calls ++ [⟨method.verb, url, Text.join "." (rootScope :: scopes ++ [e.name]),
        o.summary, returnText e⟩] := by
  unfold writeEndpoint at h
  obtain ⟨⟨e, text⟩, d₁, hboth, hcall⟩ := exists_of_outcome_bind h
  obtain ⟨e', d₂, he, hrest⟩ := exists_of_outcome_bind (outcome_of_within hboth)
  obtain ⟨text', d₃, htext, hpair⟩ := exists_of_outcome_bind hrest
  obtain ⟨hrender, rfl⟩ := outcome_of_ofTemplate htext
  obtain ⟨heq, rfl⟩ := of_outcome_pure hpair
  obtain ⟨rfl, rfl⟩ := Prod.mk.inj heq
  obtain ⟨_, d₄, hadd, hpure⟩ := exists_of_outcome_bind hcall
  obtain ⟨rfl, rfl⟩ := of_outcome_pure hpure
  obtain ⟨-, rfl⟩ := Prod.mk.inj hadd
  have hrun := outcome_of_ofResolving he
  exact ⟨e, text, hrun, hrender, rfl, congrArg (· ++ [_]) (calls_of_ofResolving he)⟩

theorem exists_of_writeEndpoints_cons {item : PathItem} {url : String} {method : Method}
    {o : Operation} {rest : List (Method × Operation)} {functions : List Json}
    (h : outcome (writeEndpoints r item url scopes ((method, o) :: rest)) d = (.ok functions, d')) :
    ∃ text more d₁, outcome (writeEndpoint r item url scopes method o) d = (.ok text, d₁) ∧
      outcome (writeEndpoints r item url scopes rest) d₁ = (.ok more, d') ∧
      functions = text :: more := by
  obtain ⟨text, d₁, htext, hrest⟩ := exists_of_outcome_bind h
  obtain ⟨more, d₂, hmore, hpure⟩ := exists_of_outcome_bind hrest
  obtain ⟨rfl, rfl⟩ := of_outcome_pure hpure
  exact ⟨text, more, d₁, htext, hmore, rfl⟩

/-! ## Scopes -/

/-- Claiming a name for a scope gives the first one that is free, and leaves calls and types alone. -/
theorem outcome_of_claimScope {segment name : String}
    (h : outcome (claimScope r taken segment) d = (.ok name, d')) :
    name = Naming.fresh taken (r.dialect.scopeName segment) ∧ d'.calls = d.calls ∧
      d'.types.types = d.types.types := by
  unfold claimScope at h
  dsimp only at h
  split at h
  · obtain ⟨_, d₁, hnote, hpure⟩ := exists_of_outcome_bind h
    obtain ⟨rfl, rfl⟩ := of_outcome_pure hpure
    obtain ⟨-, rfl⟩ := Prod.mk.inj hnote
    exact ⟨rfl, rfl, rfl⟩
  · obtain ⟨rfl, rfl⟩ := of_outcome_pure h
    exact ⟨rfl, rfl, rfl⟩

/-- What the scope of a node is built of: the callables of its operations, if it has an item, and the
scopes below it. -/
theorem exists_of_buildScope {url : Option String} {item : Option PathItem}
    {children : List (String × Route PathItem)} {scope : Scope}
    (h : outcome (buildScope r scopes ⟨url, item, children⟩) d = (.ok scope, d')) :
    ∃ functions texts d₁,
      (item = none ∧ functions = [] ∧ d₁ = d ∨ ∃ i, item = some i ∧
        outcome (writeEndpoints r i (url.getD "/") scopes i.operations) d = (.ok functions, d₁)) ∧
      outcome (buildChildren r scopes [] children) d₁ = (.ok texts, d') ∧
      scope = ⟨.str (scopes.getLast?.getD rootScope), .ofText? url, .arr functions, .arr texts⟩ := by
  rcases item with _ | item <;> rw [buildScope] at h <;>
    obtain ⟨functions, d₁, hfunctions, hrest⟩ := exists_of_outcome_bind h <;>
    obtain ⟨texts, d₂, htexts, hpure⟩ := exists_of_outcome_bind hrest <;>
    obtain ⟨rfl, rfl⟩ := of_outcome_pure hpure <;>
    refine ⟨functions, texts, d₁, ?_, htexts, rfl⟩
  · obtain ⟨rfl, rfl⟩ := of_outcome_pure hfunctions
    exact Or.inl ⟨rfl, rfl, rfl⟩
  · exact Or.inr ⟨item, rfl, hfunctions⟩

theorem of_outcome_buildChildren_nil {texts : List Json}
    (h : outcome (buildChildren r scopes taken []) d = (.ok texts, d')) : texts = [] ∧ d' = d := by
  rw [buildChildren] at h
  exact of_outcome_pure h

/-- What the scopes below a node are built of: the first one under a name that is free, and the others
under names that are not that one either. -/
theorem exists_of_buildChildren_cons {segment : String} {child : Route PathItem}
    {rest : List (String × Route PathItem)} {texts : List Json}
    (h : outcome (buildChildren r scopes taken ((segment, child) :: rest)) d = (.ok texts, d')) :
    let name := Naming.fresh taken (r.dialect.scopeName segment)
    ∃ scope text more d₁ d₂, d₁.calls = d.calls ∧ d₁.types.types = d.types.types ∧
      outcome (buildScope r (scopes ++ [name]) child) d₁ = (.ok scope, d₂) ∧
      r.dialect.renderScope scope = .ok text ∧
      outcome (buildChildren r scopes (name :: taken) rest) d₂ = (.ok more, d') ∧
      texts = .str text :: more := by
  rw [buildChildren] at h
  obtain ⟨name, d₁, hname, h₁⟩ := exists_of_outcome_bind h
  obtain ⟨scope, d₂, hscope, h₂⟩ := exists_of_outcome_bind h₁
  obtain ⟨text, d₃, htext, h₃⟩ := exists_of_outcome_bind h₂
  obtain ⟨more, d₄, hmore, hpure⟩ := exists_of_outcome_bind h₃
  obtain ⟨rfl, rfl⟩ := of_outcome_pure hpure
  obtain ⟨hrender, rfl⟩ := outcome_of_ofTemplate htext
  obtain ⟨rfl, hcalls, htypes⟩ := outcome_of_claimScope hname
  exact ⟨scope, text, more, d₁, d₃, hcalls, htypes, hscope, hrender, hmore, rfl⟩

end ApiClient.Client
