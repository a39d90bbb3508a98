import ApiClient.Client.Generation
import ApiClient.Proofs.Types.Closure
import Mathlib

/-!
# Closed properties of drafting

A property of resolving that is closed (`Working.Closed`) holds of the endpoint of an operation when it
holds of reports and of every call (`Signature.closed_endpoint`). A property of drafting that is closed
holds of a tree of scopes when it holds of what a property of resolving of that kind makes of it, and of
the list of calls (`Client.closed_buildScope`).
-/

namespace ApiClient

open Working

variable {r : Resolver} {α : Type} {P : ∀ α : Type, Resolving α → Prop}

/-! ## Signatures -/

/-- A closed property of resolving that holds of reports and of every call. -/
structure Resolver.Covers (r : Resolver) (P : ∀ α : Type, Resolving α → Prop) : Prop where
  closed : Closed P
  record : ∀ entries, P Unit (Resolver.record entries)
  resolve : ∀ value name parent property, P Spelling (r.resolve value name parent property)

namespace Signature

theorem closed_followed (hP : r.Covers P) (home : Section) (take : Component → Option α)
    (value : RefOr α) : P _ (followed r home take value) := by
  cases value with
  | inline value => exact hP.closed.pure value
  | ref pointer =>
    refine hP.closed.bind (hP.record _) fun _ => ?_
    split
    · exact hP.closed.throw _
    · split
      · exact hP.closed.pure _
      · exact hP.closed.throw _

theorem closed_mergeParameters (hP : r.Covers P) : ∀ (merged : List Parameter)
    (values : List (RefOr Parameter)), P _ (mergeParameters r merged values)
  | merged, [] => hP.closed.pure merged
  | merged, value :: rest => by
    refine hP.closed.bind (closed_followed hP .parameters _ value) fun p => ?_
    split
    · exact closed_mergeParameters hP _ rest
    · exact hP.closed.throw _

theorem closed_argument (hP : r.Covers P) (base : String) (p : Parameter) :
    P _ (argument r base p) := by
  unfold argument
  split
  · exact hP.closed.throw _
  · refine hP.closed.bind (hP.closed.within _ (hP.resolve _ _ _ _)) fun type => ?_
    dsimp only
    split
    · exact hP.closed.throw _
    · exact hP.closed.pure _

theorem closed_eachArgument (hP : r.Covers P) (base : String) :
    ∀ ps : List Parameter, P _ (eachArgument r base ps)
  | [] => hP.closed.pure []
  | p :: rest =>
    hP.closed.bind (closed_argument hP base p) fun _ =>
      hP.closed.bind (closed_eachArgument hP base rest) fun _ => hP.closed.pure _

theorem closed_bodyArgument (hP : r.Covers P) (base : String) (o : Operation) :
    P _ (bodyArgument r base o) := by
  unfold bodyArgument
  split
  · exact hP.closed.pure none
  · refine hP.closed.bind (closed_followed hP .requestBodies _ _) fun body => ?_
    split
    · exact hP.closed.pure none
    · dsimp only
      split
      · exact hP.closed.bind (hP.closed.pure _) fun type => hP.closed.pure _
      · exact hP.closed.bind (hP.closed.within _ (hP.resolve _ _ _ _)) fun type =>
          hP.closed.pure _

theorem closed_responseType (hP : r.Covers P) (base : String) (o : Operation) :
    P _ (responseType r base o) := by
  unfold responseType
  split
  · exact hP.closed.pure _
  · refine hP.closed.bind (closed_followed hP .responses _ _) fun response => ?_
    split
    · exact hP.closed.pure _
    · exact hP.closed.bind (hP.closed.within _ (hP.resolve _ _ _ _)) fun type => hP.closed.pure _

theorem closed_endpoint (hP : r.Covers P) (item : PathItem) (url : String) (method : Method)
    (o : Operation) (scopes : List String) : P _ (endpoint r item url method o scopes) := by
  unfold endpoint
  split
  · exact hP.closed.throw _
  · rename_i base hbase
    refine hP.closed.bind (closed_mergeParameters hP [] _) fun parameters => ?_
    refine hP.closed.bind (closed_eachArgument hP base parameters) fun arguments => ?_
    refine hP.closed.bind (closed_bodyArgument hP base o) fun body => ?_
    exact hP.closed.bind (closed_responseType hP base o) fun type => hP.closed.pure _

end Signature

/-! ## Scopes -/

/-- A closed property of drafting that holds of what the resolving of endpoints makes of it, and of the
list of calls. -/
structure Drafting.Covers (r : Resolver) (P : ∀ α : Type, Resolving α → Prop)
    (Q : ∀ α : Type, Drafting α → Prop) : Prop where
  resolving : r.Covers P
  closed : Closed Q
  ofResolving : ∀ {α : Type} {work : Resolving α}, P α work → Q α (Drafting.ofResolving work)
  addCall : ∀ c, Q Unit (Drafting.addCall c)

namespace Client

open Drafting

variable {Q : ∀ α : Type, Drafting α → Prop}

theorem closed_ofTemplate (hQ : Drafting.Covers r P Q) (text : Except Template.Error α) :
    Q _ (ofTemplate text) := by
  cases text with
  | error e => exact hQ.closed.throw _
  | ok a => exact hQ.closed.pure a

theorem closed_writeEndpoint (hQ : Drafting.Covers r P Q) (item : PathItem) (url : String)
    (scopes : List String) (method : Method) (o : Operation) :
    Q _ (writeEndpoint r item url scopes method o) := by
  unfold writeEndpoint
  refine hQ.closed.bind (hQ.closed.within _ ?_) fun ⟨endpoint, text⟩ => ?_
  · refine hQ.closed.bind
      (hQ.ofResolving (Signature.closed_endpoint hQ.resolving item url method o scopes)) ?_
    exact fun endpoint => hQ.closed.bind (closed_ofTemplate hQ _) fun text => hQ.closed.pure _
  · exact hQ.closed.bind (hQ.addCall _) fun _ => hQ.closed.pure _

theorem closed_writeEndpoints (hQ : Drafting.Covers r P Q) (item : PathItem) (url : String)
    (scopes : List String) : ∀ operations : List (Method × Operation),
      Q _ (writeEndpoints r item url scopes operations)
  | [] => hQ.closed.pure []
  | (method, o) :: rest =>
    hQ.closed.bind (closed_writeEndpoint hQ item url scopes method o) fun _ =>
      hQ.closed.bind (closed_writeEndpoints hQ item url scopes rest) fun _ => hQ.closed.pure _

theorem closed_claimScope (hQ : Drafting.Covers r P Q) (taken : List String) (segment : String) :
    Q _ (claimScope r taken segment) := by
  unfold claimScope
  by_cases hfresh : Naming.fresh taken (r.dialect.scopeName segment) = r.dialect.scopeName segment
  · simp only [hfresh, ne_eq, not_true_eq_false, if_false]
    exact hQ.closed.pure _
  · simp only [hfresh, ne_eq, not_false_eq_true, if_true]
    exact hQ.closed.bind (hQ.ofResolving (hQ.resolving.record _)) fun _ => hQ.closed.pure _

mutual

theorem closed_buildScope (hQ : Drafting.Covers r P Q) (scopes : List String) :
    ∀ route : Route PathItem, Q _ (buildScope r scopes route)
  | ⟨url, none, children⟩ => by
    rw [buildScope]
    refine hQ.closed.bind (hQ.closed.pure []) fun functions => ?_
    exact hQ.closed.bind (closed_buildChildren hQ scopes [] children) fun _ => hQ.closed.pure _
  | ⟨url, some item, children⟩ => by
    rw [buildScope]
    refine hQ.closed.bind (closed_writeEndpoints hQ item _ scopes item.operations) ?_
    intro functions
    exact hQ.closed.bind (closed_buildChildren hQ scopes [] children) fun _ => hQ.closed.pure _

theorem closed_buildChildren (hQ : Drafting.Covers r P Q) (scopes taken : List String) :
    ∀ children : List (String × Route PathItem), Q _ (buildChildren r scopes taken children)
  | [] => by
    rw [buildChildren]
    exact hQ.closed.pure []
  | (segment, child) :: rest => by
    rw [buildChildren]
    refine hQ.closed.bind (closed_claimScope hQ taken segment) fun name => ?_
    refine hQ.closed.bind (closed_buildScope hQ (scopes ++ [name]) child) fun scope => ?_
    refine hQ.closed.bind (closed_ofTemplate hQ _) fun text => ?_
    refine hQ.closed.bind (closed_buildChildren hQ scopes (name :: taken) rest) ?_
    exact fun _ => hQ.closed.pure _

end

end Client

end ApiClient
