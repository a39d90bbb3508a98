import ApiClient.Proofs.Client.Arrangement
import ApiClient.Proofs.Client.ScopeRun
import ApiClient.Proofs.Client.SignatureRun
import ApiClient.Proofs.Types.Expression
import Mathlib

/-!
# The callables of a client

A scope is written from the endpoints of its node and from the scopes below it. `IsWritten` says so
of a whole tree, with a property that every endpoint has. The one that is proved here is that an
endpoint mentions no other types than those that are registered in the end (`isWritten_buildScope`):
every type in a signature is the qualified text of an expression, perhaps one whose value may be
absent, and the names in it were registered by the call that gave it.
-/

namespace ApiClient

open Naming Working

variable {r : Resolver} {names : List String}

/-! ## The types of an endpoint -/

/-- The text of a type outside the directory of types, perhaps of one whose value may be absent, that
mentions no other names than `names`. -/
def Resolver.Writes (r : Resolver) (names : List String) (text : String) : Prop :=
  ∃ e : TypeExpr, e.IsProper r.dialect ∧ e.names ⊆ names ∧
    let qualified := e.text r.dialect (Dialect.qualify r.namespaceName)
    text = qualified ∨ text = r.dialect.optionalType qualified

/-- An endpoint whose parameters and result mention no other types than `names`; it may have no
result. -/
structure Endpoint.Mentions (r : Resolver) (names : List String) (e : Endpoint) : Prop where
  arguments : ∀ a ∈ e.arguments, r.Writes names a.type
  result : e.returnType = .str (r.dialect.optionalType r.dialect.noContentType) ∨
    ∃ text, e.returnType = .str text ∧ r.Writes names text

namespace Signature

variable {s s' : TypeState}

theorem writes_spelled {type : Spelling} (h : r.Spells names type) (required : Bool) :
    r.Writes names (spelled r type required) := by
  obtain ⟨e, hproper, hnames, rfl⟩ := h
  refine ⟨e, hproper, hnames, ?_⟩
  cases required
  · exact Or.inr rfl
  · exact Or.inl rfl

theorem writes_optionalType {type : Spelling} (h : r.Spells names type) :
    r.Writes names (r.dialect.optionalType type.qualified) := by
  obtain ⟨e, hproper, hnames, rfl⟩ := h
  exact ⟨e, hproper, hnames, Or.inr rfl⟩

theorem writes_argument {base : String} {p : Parameter} {a : Argument} (hsound : r.Sound s.types)
    (h : outcome (argument r base p) s = (.ok a, s')) (hnames : s'.types.names ⊆ names) :
    r.Writes names a.type := by
  obtain ⟨_, type, _, _, htype, _, rfl⟩ := exists_of_argument h
  exact writes_spelled ((Resolver.spells_of_resolve hsound htype).mono hnames) _

theorem writes_eachArgument {base : String} : ∀ {ps : List Parameter} {s s' : TypeState}
    {arguments : List Argument}, r.Sound s.types →
      outcome (eachArgument r base ps) s = (.ok arguments, s') → s'.types.names ⊆ names →
        ∀ a ∈ arguments, r.Writes names a.type
  | [], s, s', arguments, _, h, _ => by
    obtain ⟨rfl, -⟩ := of_outcome_pure h
    simp
  | p :: rest, s, s', arguments, hsound, h, hnames => by
    obtain ⟨a, s₁, ha, hrest⟩ := exists_of_outcome_bind h
    obtain ⟨more, s₂, hmore, hpure⟩ := exists_of_outcome_bind hrest
    obtain ⟨rfl, rfl⟩ := of_outcome_pure hpure
    have hsound₁ : r.Sound s₁.types := ((grows_argument base p).leads ha).sound hsound
    have hnames₁ : s₁.types.names ⊆ names :=
      List.Subset.trans ((grows_eachArgument base rest).leads hmore).names_subset hnames
    intro b hb
    rcases List.mem_cons.1 hb with rfl | hb
    · exact writes_argument hsound ha hnames₁
    · exact writes_eachArgument hsound₁ hmore hnames b hb

theorem spells_of_bodyType {base : String} {media : MediaType} {type : Spelling}
    (hsound : r.Sound s.types) (h : outcome (bodyType r base media) s = (.ok type, s')) :
    r.Spells s'.types.names type := by
  unfold bodyType at h
  split at h
  · obtain ⟨rfl, rfl⟩ := of_outcome_pure h
    exact Resolver.spells_plain (Or.inl rfl) _
  · exact Resolver.spells_of_resolve hsound h

theorem writes_bodyArgument {base : String} {o : Operation} {body : Option Argument}
    (hsound : r.Sound s.types) (h : outcome (bodyArgument r base o) s = (.ok body, s'))
    (hnames : s'.types.names ⊆ names) : ∀ a ∈ body, r.Writes names a.type := by
  obtain ⟨-, rfl, -⟩ | ⟨value, b, s₁, -, hb, hcases⟩ := exists_of_bodyArgument h
  · simp
  · have hsound₁ : r.Sound s₁.types := ((grows_followed .requestBodies _ _).leads hb).sound hsound
    obtain ⟨-, rfl, -⟩ | ⟨media, type, -, htype, rfl⟩ := hcases
    · simp
    · intro a ha
      obtain rfl := Option.some.inj ha
      exact writes_spelled ((spells_of_bodyType hsound₁ htype).mono hnames) _

theorem writes_responseType {base : String} {o : Operation} {type : String}
    (hsound : r.Sound s.types) (h : outcome (responseType r base o) s = (.ok type, s'))
    (hnames : s'.types.names ⊆ names) : type = r.dialect.noContentType ∨
      ∃ spelling, r.Spells names spelling ∧ type = spelling.qualified := by
  unfold responseType at h
  split at h
  · exact Or.inl (of_outcome_pure h).1
  · obtain ⟨response, s₁, hresponse, hrest⟩ := exists_of_outcome_bind h
    have hsound₁ : r.Sound s₁.types :=
      ((grows_followed .responses _ _).leads hresponse).sound hsound
    split at hrest
    · exact Or.inl (of_outcome_pure hrest).1
    · obtain ⟨spelling, s₂, hspelling, hpure⟩ := exists_of_outcome_bind hrest
      obtain ⟨rfl, rfl⟩ := of_outcome_pure hpure
      refine Or.inr ⟨spelling, ?_, rfl⟩
      exact (Resolver.spells_of_resolve hsound₁ (outcome_of_within hspelling)).mono hnames

/-- Arranging arguments leaves their types as they are. -/
theorem exists_of_mem_arranged {d : Dialect} {arguments : List Argument} {a : Argument}
    (h : a ∈ arranged d arguments) : ∃ b ∈ arguments, b.type = a.type := by
  obtain ⟨b, hb, n, rfl⟩ := Client.exists_mem_of_forall₂ (forall₂_distinctFrom d [] arguments).flip
    ((arranged_perm d arguments).subset h)
  exact ⟨b, hb, rfl⟩

/-- The endpoint of an operation mentions no other types than those that are registered when it is
made. -/
theorem mentions_endpoint {item : PathItem} {url : String} {method : Method} {o : Operation}
    {scopes : List String} {e : Endpoint} (hsound : r.Sound s.types)
    (h : outcome (endpoint r item url method o scopes) s = (.ok e, s'))
    (hnames : s'.types.names ⊆ names) : e.Mentions r names ∧ e.verb = method.key := by
  obtain ⟨base, parameters, arguments, body, type, s₁, s₂, s₃, -, hparameters, harguments, hbody,
    htype, hverb, hall, -, hresult⟩ := exists_of_endpoint h
  have hgrows₁ := (grows_mergeParameters [] _).leads hparameters
  have hgrows₂ := (grows_eachArgument base parameters).leads harguments
  have hgrows₃ := (grows_bodyArgument base o).leads hbody
  have hgrows₄ := (grows_responseType base o).leads htype
  have hsound₁ := hgrows₁.sound hsound
  have hsound₂ := hgrows₂.sound hsound₁
  have hsound₃ := hgrows₃.sound hsound₂
  have hnames₃ : s₃.types.names ⊆ names := List.Subset.trans hgrows₄.names_subset hnames
  have hnames₂ : s₂.types.names ⊆ names := List.Subset.trans hgrows₃.names_subset hnames₃
  refine ⟨⟨fun a ha => ?_, ?_⟩, hverb⟩
  · rw [hall] at ha
    obtain ⟨b, hb, heq⟩ := exists_of_mem_arranged ha
    rw [← heq]
    rcases List.mem_append.1 hb with hb | hb
    · exact writes_eachArgument hsound₁ harguments hnames₂ b hb
    · exact writes_bodyArgument hsound₂ hbody hnames₃ b (Option.mem_toList.1 hb)
  · rw [hresult]
    obtain rfl | ⟨spelling, hspells, rfl⟩ := writes_responseType hsound₃ htype hnames
    · exact Or.inl rfl
    · exact Or.inr ⟨_, rfl, writes_optionalType hspells⟩

end Signature

namespace Client

open Drafting

/-! ## Scopes of a tree -/

/-- A value is the text of the callable of an operation, and its endpoint has the property `P`. -/
def IsCallable (r : Resolver) (P : Endpoint → Prop) (operation : Method × Operation)
    (value : Json) : Prop :=
  ∃ e text, P e ∧ e.verb = operation.1.key ∧ r.dialect.renderEndpoint e = .ok text ∧
    value = .str text

mutual

/-- A scope holds the callables of the operations of a node, whose endpoints have the property `P`,
and the texts of scopes that do so for the nodes below. -/
def IsWritten (r : Resolver) (P : Endpoint → Prop) : Route PathItem → Scope → Prop
  | ⟨_, item, children⟩, scope =>
    ∃ functions texts, scope.functions = .arr functions ∧ scope.children = .arr texts ∧
      List.Forall₂ (IsCallable r P) ((item.map PathItem.operations).getD []) functions ∧
      AreWritten r P children texts

/-- Values are the texts of scopes that hold the callables of these nodes and of those below. -/
def AreWritten (r : Resolver) (P : Endpoint → Prop) :
    List (String × Route PathItem) → List Json → Prop
  | [], texts => texts = []
  | (_, child) :: rest, texts =>
    ∃ scope text more, texts = .str text :: more ∧ r.dialect.renderScope scope = .ok text ∧
      IsWritten r P child scope ∧ AreWritten r P rest more

end

variable {d d' : Draft}

theorem isCallable_writeEndpoint {item : PathItem} {url : String} {scopes : List String}
    {method : Method} {o : Operation} {value : Json} (hsound : r.Sound d.types.types)
    (h : outcome (writeEndpoint r item url scopes method o) d = (.ok value, d'))
    (hnames : d'.types.types.names ⊆ names) :
    IsCallable r (Endpoint.Mentions r names) (method, o) value := by
  obtain ⟨e, text, he, hrender, rfl, -⟩ := exists_of_writeEndpoint h
  obtain ⟨hmentions, hverb⟩ := Signature.mentions_endpoint hsound he hnames
  exact ⟨e, text, hmentions, hverb, hrender, rfl⟩

theorem isCallable_writeEndpoints {item : PathItem} {url : String} {scopes : List String} :
    ∀ {operations : List (Method × Operation)} {d d' : Draft} {functions : List Json},
      r.Sound d.types.types →
      outcome (writeEndpoints r item url scopes operations) d = (.ok functions, d') →
      d'.types.types.names ⊆ names →
        List.Forall₂ (IsCallable r (Endpoint.Mentions r names)) operations functions
  | [], d, d', functions, _, h, _ => by
    obtain ⟨rfl, -⟩ := of_outcome_pure h
    exact .nil
  | (method, o) :: rest, d, d', functions, hsound, h, hnames => by
    obtain ⟨text, more, d₁, htext, hmore, rfl⟩ := exists_of_writeEndpoints_cons h
    have hgrows : Draft.Grows r d d₁ := (grows_writeEndpoint item url scopes method o).leads htext
    have hgrows₁ : Draft.Grows r d₁ d' := (grows_writeEndpoints item url scopes rest).leads hmore
    have hnames₁ : d₁.types.types.names ⊆ names :=
      List.Subset.trans (Resolver.Path.names_subset hgrows₁) hnames
    refine .cons (isCallable_writeEndpoint hsound htext hnames₁) ?_
    exact isCallable_writeEndpoints (Resolver.Path.sound hgrows hsound) hmore hnames

mutual

/-- The scope of a node holds callables that mention no other types than those that are registered
in the end. -/
theorem isWritten_buildScope {scopes : List String} : ∀ {route : Route PathItem} {d d' : Draft}
    {scope : Scope}, r.Sound d.types.types →
      outcome (buildScope r scopes route) d = (.ok scope, d') → d'.types.types.names ⊆ names →
        IsWritten r (Endpoint.Mentions r names) route scope
  | ⟨url, item, children⟩, d, d', scope, hsound, h, hnames => by
    obtain ⟨functions, texts, d₁, hfunctions, htexts, rfl⟩ := exists_of_buildScope h
    rw [IsWritten]
    obtain ⟨rfl, rfl, rfl⟩ | ⟨item, rfl, hfunctions⟩ := hfunctions
    · exact ⟨[], texts, rfl, rfl, .nil, areWritten_buildChildren hsound htexts hnames⟩
    · have hgrows : Draft.Grows r d d₁ :=
        (grows_writeEndpoints item _ scopes item.operations).leads hfunctions
      have hgrows₁ : Draft.Grows r d₁ d' := (grows_buildChildren scopes [] children).leads htexts
      have hnames₁ : d₁.types.types.names ⊆ names :=
        List.Subset.trans (Resolver.Path.names_subset hgrows₁) hnames
      exact ⟨functions, texts, rfl, rfl, isCallable_writeEndpoints hsound hfunctions hnames₁,
        areWritten_buildChildren (Resolver.Path.sound hgrows hsound) htexts hnames⟩

theorem areWritten_buildChildren {scopes taken : List String} :
    ∀ {children : List (String × Route PathItem)} {d d' : Draft} {texts : List Json},
      r.Sound d.types.types →
      outcome (buildChildren r scopes taken children) d = (.ok texts, d') →
      d'.types.types.names ⊆ names → AreWritten r (Endpoint.Mentions r names) children texts
  | [], d, d', texts, _, h, _ => by
    rw [AreWritten]
    exact (of_outcome_buildChildren_nil h).1
  | (segment, child) :: rest, d, d', texts, hsound, h, hnames => by
    obtain ⟨scope, text, more, d₁, d₂, -, htypes, hscope, hrender, hmore, rfl⟩ :=
      exists_of_buildChildren_cons h
    rw [← htypes] at hsound
    have hgrows : Draft.Grows r d₁ d₂ := (grows_buildScope _ child).leads hscope
    have hgrows₁ : Draft.Grows r d₂ d' := (grows_buildChildren scopes _ rest).leads hmore
    have hnames₁ : d₂.types.types.names ⊆ names :=
      List.Subset.trans (Resolver.Path.names_subset hgrows₁) hnames
    rw [AreWritten]
    refine ⟨scope, text, more, rfl, hrender, isWritten_buildScope hsound hscope hnames₁, ?_⟩
    exact areWritten_buildChildren (Resolver.Path.sound hgrows hsound) hmore hnames

end

end Client

end ApiClient
