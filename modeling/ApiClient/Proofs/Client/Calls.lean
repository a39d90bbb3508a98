import ApiClient.Proofs.Client.ComponentFiles
import ApiClient.Proofs.Client.ScopeRun
import ApiClient.Proofs.Client.SignatureRun
import ApiClient.Proofs.Client.Sites
import ApiClient.Proofs.Document.Operations
import Mathlib

/-!
# The calls of a client

Building the scopes of a tree adds the call of every operation in it, in the order of the sites
(`Client.lists_buildScope`), and writes the scopes under the names of the tree of scopes
(`Client.isScope_buildScope`). So the calls of a client are the operations of its document, each once and
each under a path of its own (`Client.operations_listed_once`).
-/

namespace ApiClient

open Working

variable {r : Resolver} {d d' : Draft}

/-- The callable of an operation has the name of its method. -/
theorem Signature.name_of_endpoint {item : PathItem} {url : String} {method : Method}
    {o : Operation} {scopes : List String} {e : Endpoint} {s s' : TypeState}
    (h : outcome (endpoint r item url method o scopes) s = (.ok e, s')) : e.name = method.key := by
  have hlower : Text.toLower method.key = method.key := by cases method <;> decide +kernel
  obtain ⟨_, _, _, _, _, _, _, _, -, -, -, -, -, hverb, -⟩ := exists_of_endpoint h
  rw [Endpoint.name, hverb, hlower]

namespace Client

open Drafting

/-! ## Calls of sites -/

/-- The path of the callable at a site. -/
def Site.callPath (s : Site) : String :=
  Text.join "." (rootScope :: s.path ++ [s.method.key])

/-- A call is that of the operation at a site. -/
structure IsCallOf (s : Site) (c : Call) : Prop where
  verb : c.verb = s.method.verb
  url : c.url = s.url
  path : c.path = s.callPath
  summary : c.summary = s.operation.summary

/-- A draft that has the calls of some sites on top of those of another one. -/
def Lists (sites : List Site) (d d' : Draft) : Prop :=
  ∃ calls, d'.calls = d.calls ++ calls ∧ List.Forall₂ IsCallOf sites calls

theorem lists_nil (h : d'.calls = d.calls) : Lists [] d d' :=
  ⟨[], by rw [h, List.append_nil], .nil⟩

theorem Lists.append {sites sites' : List Site} {d₁ : Draft} (h : Lists sites d d₁)
    (h' : Lists sites' d₁ d') : Lists (sites ++ sites') d d' := by
  obtain ⟨calls, hcalls, hsites⟩ := h
  obtain ⟨calls', hcalls', hsites'⟩ := h'
  exact ⟨calls ++ calls', by rw [hcalls', hcalls, List.append_assoc], List.rel_append hsites hsites'⟩

theorem Lists.of_calls_eq {sites : List Site} {d₁ : Draft} (h : Lists sites d₁ d')
    (heq : d₁.calls = d.calls) : Lists sites d d' := by
  obtain ⟨calls, hcalls, hsites⟩ := h
  exact ⟨calls, by rw [hcalls, heq], hsites⟩

theorem lists_writeEndpoint {item : PathItem} {url : String} {scopes : List String}
    {method : Method} {o : Operation} {value : Json}
    (h : outcome (writeEndpoint r item url scopes method o) d = (.ok value, d')) :
    Lists [⟨scopes, url, method, o⟩] d d' := by
  obtain ⟨e, text, he, -, rfl, hcalls⟩ := exists_of_writeEndpoint h
  have hname : e.name = method.key := Signature.name_of_endpoint he
  refine ⟨[_], hcalls, .cons ⟨rfl, rfl, ?_, rfl⟩ .nil⟩
  rw [Site.callPath, ← hname]

theorem lists_writeEndpoints {item : PathItem} {url : String} {scopes : List String} :
    ∀ {operations : List (Method × Operation)} {d d' : Draft} {functions : List Json},
      outcome (writeEndpoints r item url scopes operations) d = (.ok functions, d') →
        Lists (operations.map fun o => ⟨scopes, url, o.1, o.2⟩) d d'
  | [], d, d', functions, h => by
    obtain ⟨-, rfl⟩ := of_outcome_pure h
    exact lists_nil rfl
  | (method, o) :: rest, d, d', functions, h => by
    obtain ⟨text, more, d₁, htext, hmore, -⟩ := exists_of_writeEndpoints_cons h
    exact (lists_writeEndpoint htext).append (lists_writeEndpoints hmore)

/-! ## Building scopes -/

mutual

/-- Building the scope of a tree adds the calls of its operations. -/
theorem lists_buildScope {scopes : List String} : ∀ {t : Route PathItem} {d d' : Draft}
    {scope : Scope}, outcome (buildScope r scopes t) d = (.ok scope, d') →
      Lists (sites scopes (scopeTree r.dialect t)) d d'
  | ⟨url, item, children⟩, d, d', scope, h => by
    obtain ⟨functions, texts, d₁, hfunctions, htexts, -⟩ := exists_of_buildScope h
    rw [scopeTree, sites]
    refine .append ?_ (lists_buildChildren htexts)
    obtain ⟨rfl, -, rfl⟩ | ⟨item, rfl, hfunctions⟩ := hfunctions
    · exact lists_nil rfl
    · exact lists_writeEndpoints hfunctions

theorem lists_buildChildren {scopes taken : List String} :
    ∀ {children : List (String × Route PathItem)} {d d' : Draft} {texts : List Json},
      outcome (buildChildren r scopes taken children) d = (.ok texts, d') →
        Lists (sitesBelow scopes (scopeTreesFrom r.dialect taken children)) d d'
  | [], d, d', texts, h => by
    obtain ⟨-, rfl⟩ := of_outcome_buildChildren_nil h
    rw [scopeTreesFrom, sitesBelow]
    exact lists_nil rfl
  | (segment, child) :: rest, d, d', texts, h => by
    obtain ⟨scope, text, more, d₁, d₂, hcalls, -, hscope, -, hmore, -⟩ :=
      exists_of_buildChildren_cons h
    rw [scopeTreesFrom, sitesBelow]
    exact ((lists_buildScope hscope).of_calls_eq hcalls).append (lists_buildChildren hmore)

end

mutual

/-- A scope is that of a tree of scopes: it has the name, and what is written in it are the texts of the
scopes below under their names. -/
def IsScope (dialect : Dialect) (name : String) : Route PathItem → Scope → Prop
  | ⟨_, _, children⟩, scope =>
    scope.name = .str name ∧ ∃ texts, scope.children = .arr texts ∧ AreScopes dialect children texts

/-- Values are the texts of the scopes of trees under their names. -/
def AreScopes (dialect : Dialect) : List (String × Route PathItem) → List Json → Prop
  | [], texts => texts = []
  | (name, child) :: rest, texts =>
    ∃ scope text more, texts = .str text :: more ∧ dialect.renderScope scope = .ok text ∧
      IsScope dialect name child scope ∧ AreScopes dialect rest more

end

mutual

theorem isScope_buildScope {scopes : List String} : ∀ {t : Route PathItem} {d d' : Draft}
    {scope : Scope}, outcome (buildScope r scopes t) d = (.ok scope, d') →
      IsScope r.dialect (scopes.getLast?.getD rootScope) (scopeTree r.dialect t) scope
  | ⟨url, item, children⟩, d, d', scope, h => by
    obtain ⟨functions, texts, d₁, -, htexts, rfl⟩ := exists_of_buildScope h
    rw [scopeTree, IsScope]
    exact ⟨rfl, texts, rfl, areScopes_buildChildren htexts⟩

theorem areScopes_buildChildren {scopes taken : List String} :
    ∀ {children : List (String × Route PathItem)} {d d' : Draft} {texts : List Json},
      outcome (buildChildren r scopes taken children) d = (.ok texts, d') →
        AreScopes r.dialect (scopeTreesFrom r.dialect taken children) texts
  | [], d, d', texts, h => by
    rw [scopeTreesFrom, AreScopes]
    exact (of_outcome_buildChildren_nil h).1
  | (segment, child) :: rest, d, d', texts, h => by
    obtain ⟨scope, text, more, d₁, d₂, -, -, hscope, hrender, hmore, rfl⟩ :=
      exists_of_buildChildren_cons h
    have hbelow := isScope_buildScope hscope
    rw [List.getLast?_concat, Option.getD_some] at hbelow
    rw [scopeTreesFrom, AreScopes]
    exact ⟨scope, text, more, rfl, hrender, hbelow, areScopes_buildChildren hmore⟩

end

/-! ## Every operation once -/

variable {dialect : Dialect} {document : Document} {tree : Route PathItem} {calls : List Call}

theorem map_of_isCallOf {sites : List Site} {α : Type} {f : Call → α} {g : Site → α}
    (hfg : ∀ s c, IsCallOf s c → f c = g s) (h : List.Forall₂ IsCallOf sites calls) :
    calls.map f = sites.map g := by
  induction h with
  | nil => rfl
  | cons hcall _ ih => rw [List.map_cons, List.map_cons, hfg _ _ hcall, ih]

/-- Sites with distinct names on the way or distinct methods have distinct paths, as no name has a dot
in it. -/
theorem nodup_callPath {scopes : Route PathItem} (hnamed : AreNamed dialect scopes)
    (h : ((sites [] scopes).map fun s => (s.path, s.method)).Nodup) :
    ((sites [] scopes).map Site.callPath).Nodup := by
  have hparts : ∀ s ∈ sites [] scopes, ∀ part ∈ rootScope :: s.path ++ [s.method.key],
      '.' ∉ part.toList := by
    intro s hs part hpart
    obtain ⟨q, node, hnode, hat⟩ := (mem_sites hnamed.isDistinct).1 hs
    obtain rfl : s.path = q := path_of_mem_sitesAt hat
    rw [List.cons_append] at hpart
    rcases List.mem_cons.1 hpart with rfl | hpart
    · decide
    rcases List.mem_append.1 hpart with hpart | hpart
    · exact hnamed.dot_notMem hnode part hpart
    · obtain rfl := List.mem_singleton.1 hpart
      cases s.method <;> decide
  refine nodup_map_of_nodup_map h fun s hs s' hs' heq => ?_
  have hdot : ".".toList = ['.'] := by decide
  have hjoined := Text.join_injOn hdot
    ⟨List.cons_ne_nil _ _, hparts s hs⟩ ⟨List.cons_ne_nil _ _, hparts s' hs'⟩ heq
  obtain ⟨hpath, hkey⟩ := List.append_inj' (List.cons.inj hjoined).2 rfl
  exact Prod.ext hpath (Method.key_injective (List.singleton_inj.1 hkey))

/-- Calls are the operations of a document, each once and each under a path of its own. -/
structure AreOperations (d : Document) (calls : List Call) : Prop where
  perm : (calls.map fun c => (c.url, c.verb)).Perm d.operationKeys
  nodup_keys : d.operationKeys.Nodup
  length_eq : calls.length = d.operationCount
  nodup_paths : (calls.map Call.path).Nodup

theorem length_operationKeys (d : Document) : d.operationKeys.length = d.operationCount := by
  rw [Document.operationKeys, Document.operationCount, List.length_flatMap, List.length_flatMap]
  simp only [List.length_map]

theorem areOperations_of_isCallOf
    (hmethods : ∀ e ∈ document.paths, (e.2.operations.map Prod.fst).Nodup)
    (htree : Route.Holds document.paths tree)
    (hcalls : List.Forall₂ IsCallOf (sites [] (scopeTree dialect tree)) calls) :
    AreOperations document calls := by
  have hnamed : AreNamed dialect (scopeTree dialect tree) := areNamed_scopeTree htree.isDistinct
  have hkeys : (calls.map fun c => (c.url, c.verb)) = (sites [] tree).map Site.operationKey := by
    rw [← operationKey_sites_scopeTree dialect [] [] tree]
    exact map_of_isCallOf (fun s c hc => Prod.ext hc.url hc.verb) hcalls
  have hperm : (calls.map fun c => (c.url, c.verb)).Perm document.operationKeys :=
    hkeys ▸ perm_sites htree hmethods
  refine ⟨hperm, nodup_operationKeys htree hmethods, ?_, ?_⟩
  · rw [← length_operationKeys, ← hperm.length_eq, List.length_map]
  · rw [map_of_isCallOf (g := Site.callPath) (fun s c hc => hc.path) hcalls]
    refine nodup_callPath hnamed (nodup_sites [] hnamed.isDistinct fun q node hnode => ?_)
    obtain ⟨q', ⟨url, item, children⟩, hroute, rfl⟩ :=
      exists_of_node?_scopeTree htree.isDistinct hnode
    have hnode := nodup_operationsAt htree hmethods hroute
    rwa [scopeTree]

/-- Every operation of a document that has been read is listed once in the client that is made of it,
under a path of its own. The paths are those of a tree of scopes whose siblings have distinct names,
each an identifier without a dot that is the name of no callable. The root file is that of the scopes
of this tree, and the pages are given the calls. -/
theorem operations_listed_once {value : Json} {d : Document} {settings : Settings}
    {source : PageSource} {files : Files} {final : Draft} (hread : Document.ofJson value = .ok d)
    (h : outcome (draft settings source d) {} = (.ok files, final)) :
    AreOperations d final.calls ∧
    ∃ dialect tree scope root, Dialect.find settings.dialect = .ok dialect ∧
      Route.ofPaths d.paths = .ok tree ∧
      let scopes := scopeTree dialect tree
      let r : Resolver := ⟨some d.components, dialect, settings.namespaceName⟩
      AreNamed dialect scopes ∧ List.Forall₂ IsCallOf (sites [] scopes) final.calls ∧
      IsScope dialect rootScope scopes scope ∧ rootText r d scope final.types.types = .ok root ∧
      Table.get? files dialect.rootFile = some root ∧
      ∀ page ∈ pages dialect, ∃ text,
        renderPage source page.2 (pageValues r d (tree.format hasOperations) final.types.types
          final.calls) = .ok text ∧ Table.get? files page.1 = some text := by
  obtain ⟨dialect, hdialect⟩ := exists_dialect_of_draft h
  let r : Resolver := ⟨some d.components, dialect, settings.namespaceName⟩
  have hsound : r.Sound final.types.types := sound_of_draft hdialect h
  obtain ⟨journal, tree, named, scope, built, root, typed, paged, htree, -, hnone, hscope, hroot,
    hfiles, hpages, rfl, -, hfinal, -⟩ := exists_steps_of_draft hdialect h
  have hholds := Route.Holds.of_ofPaths htree
  obtain ⟨calls, hcalls, hsites⟩ := lists_buildScope hscope
  rw [← hfinal, hnone, List.nil_append] at hcalls
  subst hcalls
  have hkeys := keys_of_isPage hpages
  have hdistinct := distinct_files (r := r) hfiles hkeys hsound root
  rw [ofList_files (r := r) hfiles hkeys hsound]
  refine ⟨areOperations_of_isCallOf (Document.nodup_methods_of_ofJson hread) hholds hsites, dialect,
    tree, scope, root, hdialect, htree, areNamed_scopeTree hholds.isDistinct, hsites,
    isScope_buildScope hscope, hroot, Table.get?_of_mem hdistinct List.mem_cons_self, ?_⟩
  intro page hpage
  obtain ⟨text, htext, hfile⟩ := exists_of_isPage hpages hpage
  exact ⟨text, htext, Table.get?_of_mem hdistinct (List.mem_append_right _ hfile)⟩

/-! ## Segments that are written alike -/

/-- An operation without anything. -/
def bareOperation : Operation where
  responses := ⟨none, []⟩
  tags := []
  summary := .null
  description := .null
  externalDocs := none
  operationId := .null
  parameters := []
  requestBody := none
  callbacks := []
  deprecated := false
  security := none
  servers := []

/-- A path with one operation. -/
def bareItem : PathItem where
  ref := .null
  summary := .null
  description := .null
  operations := [(.get, bareOperation)]
  servers := []
  parameters := []

/-- What is read as a path with one operation. -/
def barePath : Json :=
  .obj [("get", .obj [("responses", .obj [])])]

theorem readPathItem_barePath (place : String) : Document.readPathItem place barePath = .ok bareItem := by
  simp only [Document.readPathItem, Document.readOperations, Document.readOperation, Method.all]
  rfl

/-- What is read as a document with two segments that are written alike. -/
def twins : Json :=
  .obj [("openapi", .str "3.0.0"), ("info", .obj [("title", .str "Twins"), ("version", .str "1")]),
    ("paths", .obj [("/a-b", barePath), ("/a_b", barePath)])]

/-- A document with two segments that are written alike. -/
def twinsDocument : Document where
  version := "3.0.0"
  info := ⟨"Twins", "1", .null, .null, none, none⟩
  paths := [("/a-b", bareItem), ("/a_b", bareItem)]
  servers := []
  components := {}
  tags := []
  externalDocs := none
  security := []

theorem readPaths_twins :
    Document.readPaths (.obj [("/a-b", barePath), ("/a_b", barePath)]) =
      .ok [("/a-b", bareItem), ("/a_b", bareItem)] := by
  have hcut : Document.fields (.obj [("/a-b", barePath), ("/a_b", barePath)]) =
      [("/a-b", barePath), ("/a_b", barePath)] := by rfl
  rw [Document.readPaths, hcut]
  simp only [Document.eachMember, readPathItem_barePath]
  rfl

theorem ofJson_twins : Document.ofJson twins = .ok twinsDocument := by
  have hpaths : Document.required Document.rootPlace twins "paths" =
      .ok (.obj [("/a-b", barePath), ("/a_b", barePath)]) := by rfl
  simp only [Document.ofJson, hpaths, readPaths_twins, bind, Except.bind]
  rfl

theorem exists_draft_twins : ∃ files final,
    outcome (draft shopSettings blankPages twinsDocument) {} = (.ok files, final) ∧
      final.calls.map Call.path = ["API.AB.get", "API.AB2.get"] := by
  have hroutes : routes twinsDocument = pure ⟨some "/", none,
      [("a-b", ⟨some "/a-b", some bareItem, []⟩), ("a_b", ⟨some "/a_b", some bareItem, []⟩)]⟩ := by
    rfl
  have hrun : ((outcome (draft shopSettings blankPages twinsDocument) {}).1.toOption.isSome &&
      (outcome (draft shopSettings blankPages twinsDocument) {}).2.calls.map Call.path ==
        ["API.AB.get", "API.AB2.get"]) = true := by
    simp only [draft, dialectOf_shopSettings, hroutes, pure_bind]
    simp only [bareItem, buildScope, buildChildren, writeEndpoints, writeEndpoint,
      Dialect.renderEndpoint, Dialect.Kotlin.renderEndpoint, Dialect.Kotlin.endpointTemplate,
      Dialect.renderScope, Dialect.Kotlin.renderScope, Dialect.Kotlin.scopeTemplate,
      rootText, Dialect.renderRoot, Dialect.Kotlin.renderRoot, Dialect.Kotlin.rootTemplate_eq,
      typeFiles_eq, NamedType.render, Dialect.renderType, Dialect.Kotlin.renderType,
      Dialect.Kotlin.typeTemplate_eq, Template.ofSource_eq, Template.scan_eq]
    decide +kernel
  rw [Bool.and_eq_true, beq_iff_eq] at hrun
  obtain ⟨files, hfiles⟩ := Option.isSome_iff_exists.1 hrun.1
  exact ⟨files, _, outcome_of_toOption hfiles, hrun.2⟩

/-- The second of two segments that are written alike gets a number, and the operations have paths of
their own. -/
theorem operations_listed_once_twins : Document.ofJson twins = .ok twinsDocument ∧
    ∃ files final, outcome (draft shopSettings blankPages twinsDocument) {} = (.ok files, final) ∧
      final.calls.map Call.path = ["API.AB.get", "API.AB2.get"] ∧
      AreOperations twinsDocument final.calls := by
  obtain ⟨files, final, hdraft, hpaths⟩ := exists_draft_twins
  exact ⟨ofJson_twins, files, final, hdraft, hpaths, (operations_listed_once ofJson_twins hdraft).1⟩

end Client

end ApiClient
