import ApiClient.Proofs.Client.Calls
import ApiClient.Proofs.Client.ClosedTypes
import ApiClient.Proofs.Client.FreeEndpoint
import Mathlib

/-!
# Clients without a marker

The parts of a client are written from the endpoints of the operations up: scopes hold the texts of
endpoints and of the scopes below them (`Client.IsMade`), the root file holds those of the outermost scope,
and every type has a file. When no text of the document holds the marker, nothing that is handed over for
any part does (`Client.lines_kept`), as a text that is written without the marker holds none either.
-/

namespace ApiClient

open Naming Template Working

/-- A part for which nothing is handed over that holds the marker, so that its lines go with conditions
and absent values and with nothing else. -/
structure Dialect.KeepsLines (d : Dialect) (p : Passage) : Prop where
  spares : d.Spares p
  evaluated : d.renderPassage p = d.evaluated p

theorem Dialect.keepsLines_of_isFree (d : Dialect) {p : Passage} (h : p.IsFree) : d.KeepsLines p :=
  ⟨d.spares_of_isFree h, (d.spares_of_isFree h).renderPassage_eq⟩

theorem Dialect.KeepsLines.isFree_text {d : Dialect} {p : Passage} (h : d.KeepsLines p) {text : String}
    (htext : d.renderPassage p = .ok text) : (Json.str text).IsFree :=
  Json.isFree_str (h.spares.markerFree htext)

theorem Settings.unmarked_of_isDottedIdentifier {name : String}
    (h : Settings.isDottedIdentifier name = true) : Unmarked name.toList := by
  have hdot : ∀ a b, Unmarked (a ++ '.' :: b) ↔ Unmarked a ∧ Unmarked b := fun a b => by
    rw [unmarked_append, Unmarked, Unmarked, List.mem_cons, not_or]
    exact and_congr_right fun _ => and_iff_right (by decide)
  refine (Text.forall_splitOnChar_iff hdot _).2 fun piece hpiece => ?_
  have hidentifier := List.all_eq_true.1 h (String.ofList piece) (List.mem_map_of_mem hpiece)
  have hclean := (Dialect.Python.isClean_of_isIdentifier hidentifier).2
  rwa [String.toList_ofList] at hclean

namespace Client

open Drafting

/-! ## Scopes -/

mutual

/-- The scope of a node holds the callables of its operations and the scopes of the nodes below, which are
made of parts with the property `P`. -/
def IsMade (r : Resolver) (P : Passage → Prop) : Route PathItem → Scope → Prop
  | ⟨_, item, children⟩, scope =>
    ∃ functions texts, scope.functions = .arr functions ∧ scope.children = .arr texts ∧
      List.Forall₂ (IsCallable r fun e => P (.endpoint e)) (operationsAt item) functions ∧
      AreMade r P children texts

/-- Values are the texts of scopes that are made of parts with the property `P`, and have it themselves. -/
def AreMade (r : Resolver) (P : Passage → Prop) : List (String × Route PathItem) → List Json → Prop
  | [], texts => texts = []
  | (_, child) :: rest, texts =>
    ∃ scope text more, texts = .str text :: more ∧ r.dialect.renderScope scope = .ok text ∧
      P (.scope scope) ∧ IsMade r P child scope ∧ AreMade r P rest more

end

variable {document : Document} {r : Resolver} {d d' : Draft} {scopes : List String}

/-- Types with sound names whose schemas are those of the document. -/
structure AreSourced (document : Document) (r : Resolver) (types : Registry) : Prop where
  sound : r.Sound types
  schemas : Resolver.AreFrom (· ∈ document.schemas) types

/-- A node with a URL without the marker whose path is one of the document. -/
structure IsNodeOf (document : Document) (node : Route PathItem) : Prop where
  url : ∀ url ∈ node.url, MarkerFree url.toList
  item : ∀ item ∈ node.item, ∃ e ∈ document.paths, e.2 = item

theorem isNodeOf_of_mem_walk (hdocument : document.IsFree) {tree : Route PathItem}
    (htree : Route.ofPaths document.paths = .ok tree) : ∀ node ∈ tree.walk, IsNodeOf document node := by
  intro node hnode
  obtain ⟨e, he, hurl, hitem⟩ | ⟨hitem, hurl⟩ :=
    (Route.Holds.of_ofPaths htree).exists_of_mem_walk (Route.PassesBare.of_ofPaths htree) hnode
  · refine ⟨fun url hmem => ?_, fun item hmem => ⟨e, he, ?_⟩⟩
    · obtain rfl := Option.some.inj (hurl.symm.trans hmem)
      exact hdocument.path e he
    · exact Option.some.inj (hitem.symm.trans hmem)
  · refine ⟨fun url hmem => ?_, fun item hmem => absurd (hitem.symm.trans hmem) (by simp)⟩
    obtain hnone | hslash := hurl
    · exact absurd (hnone.symm.trans hmem) (by simp)
    · obtain rfl := Option.some.inj (hslash.symm.trans hmem)
      exact markerFree_of_unmarked (by decide)

theorem made_writeEndpoint (hclears : r.Clears document) {entry : String × PathItem}
    (hentry : entry ∈ document.paths) {operation : Method × Operation} (ho : operation ∈ entry.2.operations)
    {url : String} (hurl : MarkerFree url.toList) {value : Json} (htypes : AreSourced document r d.types.types)
    (h : outcome (writeEndpoint r entry.2 url scopes operation.1 operation.2) d = (.ok value, d')) :
    IsCallable r (fun e => r.dialect.KeepsLines (.endpoint e)) operation value ∧ value.IsFree ∧
      AreSourced document r d'.types.types := by
  have hgrows : Draft.Grows r d d' :=
    (grows_writeEndpoint entry.2 url scopes operation.1 operation.2).leads h
  obtain ⟨e, text, hrun, hrender, rfl, -⟩ := exists_of_writeEndpoint h
  have hfree : e.IsFree :=
    Signature.isFree_endpoint hclears hentry ho hurl htypes.sound hrun
  have hkeeps : r.dialect.KeepsLines (.endpoint e) := r.dialect.keepsLines_of_isFree hfree
  obtain ⟨-, hverb⟩ := Signature.mentions_endpoint htypes.sound hrun (List.Subset.refl _)
  exact ⟨⟨e, text, hkeeps, hverb, hrender, rfl⟩, hkeeps.isFree_text hrender,
    Resolver.Path.sound hgrows htypes.sound,
    Signature.from_endpoint hclears.components hentry ho hrun htypes.schemas⟩

theorem made_writeEndpoints (hclears : r.Clears document) {entry : String × PathItem}
    (hentry : entry ∈ document.paths) {url : String} (hurl : MarkerFree url.toList) :
    ∀ {operations : List (Method × Operation)} {d d' : Draft} {functions : List Json},
      operations ⊆ entry.2.operations →
      AreSourced document r d.types.types →
      outcome (writeEndpoints r entry.2 url scopes operations) d = (.ok functions, d') →
        List.Forall₂ (IsCallable r fun e => r.dialect.KeepsLines (.endpoint e)) operations functions ∧
          (∀ value ∈ functions, value.IsFree) ∧ AreSourced document r d'.types.types
  | [], d, d', functions, _, htypes, h => by
    obtain ⟨rfl, rfl⟩ := of_outcome_pure h
    exact ⟨.nil, List.forall_mem_nil _, htypes⟩
  | operation :: rest, d, d', functions, hsub, htypes, h => by
    obtain ⟨ho, hrest⟩ := List.cons_subset.1 hsub
    obtain ⟨text, more, d₁, htext, hmore, rfl⟩ := exists_of_writeEndpoints_cons h
    obtain ⟨hcallable, hfree, htypes₁⟩ :=
      made_writeEndpoint hclears hentry ho hurl htypes htext
    obtain ⟨hcallables, hfrees, htypes₂⟩ := made_writeEndpoints hclears hentry hurl hrest htypes₁ hmore
    exact ⟨.cons hcallable hcallables, List.forall_mem_cons.2 ⟨hfree, hfrees⟩, htypes₂⟩

mutual

/-- The scope of a node is free of the marker, and so is what it is made of. -/
theorem made_buildScope (hclears : r.Clears document) {scopes : List String}
    (hname : MarkerFree (scopes.getLast?.getD rootScope).toList) :
    ∀ {route : Route PathItem} {d d' : Draft} {scope : Scope},
      (∀ node ∈ route.walk, IsNodeOf document node) →
      AreSourced document r d.types.types → outcome (buildScope r scopes route) d = (.ok scope, d') →
        IsMade r r.dialect.KeepsLines route scope ∧ scope.IsFree ∧
          AreSourced document r d'.types.types
  | ⟨url, item, children⟩, d, d', scope, hnodes, htypes, h => by
    rw [Route.walk] at hnodes
    obtain ⟨hnode, hbelow⟩ := List.forall_mem_cons.1 hnodes
    have hurl : (Json.ofText? url).IsFree := by
      cases url with
      | none => exact Json.isFree_null
      | some url => exact Json.isFree_str (hnode.url url rfl)
    obtain ⟨functions, texts, d₁, hfunctions, htexts, rfl⟩ := exists_of_buildScope h
    obtain ⟨hcallables, hfrees, htypes₁⟩ :
        List.Forall₂ (IsCallable r fun e => r.dialect.KeepsLines (.endpoint e)) (operationsAt item)
          functions ∧ (∀ value ∈ functions, value.IsFree) ∧ AreSourced document r d₁.types.types := by
      obtain ⟨rfl, rfl, rfl⟩ | ⟨item, rfl, hfunctions⟩ := hfunctions
      · exact ⟨.nil, List.forall_mem_nil _, htypes⟩
      · obtain ⟨entry, hentry, rfl⟩ := hnode.item item rfl
        have hpath : MarkerFree (url.getD "/").toList := by
          cases url with
          | none => exact markerFree_of_unmarked (by decide)
          | some url => exact hnode.url url rfl
        exact made_writeEndpoints hclears hentry hpath (List.Subset.refl _) htypes hfunctions
    obtain ⟨hmade, hchildren, htypes₂⟩ :=
      made_buildChildren hclears hbelow htypes₁ htexts
    refine ⟨?_, ⟨Json.isFree_str hname, hurl, Json.areFree_arr hfrees, Json.areFree_arr hchildren⟩,
      htypes₂⟩
    rw [IsMade]
    exact ⟨functions, texts, rfl, rfl, hcallables, hmade⟩

theorem made_buildChildren (hclears : r.Clears document) {scopes taken : List String} :
    ∀ {children : List (String × Route PathItem)} {d d' : Draft} {texts : List Json},
      (∀ node ∈ Route.walkAll children, IsNodeOf document node) →
      AreSourced document r d.types.types →
      outcome (buildChildren r scopes taken children) d = (.ok texts, d') →
        AreMade r r.dialect.KeepsLines children texts ∧ (∀ value ∈ texts, value.IsFree) ∧
          AreSourced document r d'.types.types
  | [], d, d', texts, _, htypes, h => by
    obtain ⟨rfl, rfl⟩ := of_outcome_buildChildren_nil h
    rw [AreMade]
    exact ⟨rfl, List.forall_mem_nil _, htypes⟩
  | (segment, child) :: rest, d, d', texts, hnodes, htypes, h => by
    rw [Route.walkAll] at hnodes
    obtain ⟨hchild, hrest⟩ := List.forall_mem_append.1 hnodes
    obtain ⟨scope, text, more, d₁, d₂, -, heq, hscope, hrender, hmore, rfl⟩ :=
      exists_of_buildChildren_cons h
    have hplain : MarkerFree
        ((scopes ++ [fresh taken (r.dialect.scopeName segment)]).getLast?.getD rootScope).toList := by
      rw [List.getLast?_concat, Option.getD_some]
      obtain ⟨n, hn⟩ := exists_fresh_eq taken (r.dialect.scopeName segment)
      rw [hn]
      exact markerFree_of_unmarked (Dialect.Kotlin.unmarked_of_isPlainName
        (isScopeName_numbered_scopeName r.dialect segment n).plain)
    rw [← heq] at htypes
    obtain ⟨hmade, hfree, htypes₁⟩ := made_buildScope hclears hplain hchild htypes hscope
    have hkeeps : r.dialect.KeepsLines (.scope scope) := r.dialect.keepsLines_of_isFree hfree
    obtain ⟨hmore', hfrees, htypes₂⟩ := made_buildChildren hclears hrest htypes₁ hmore
    rw [AreMade]
    exact ⟨⟨scope, text, more, rfl, hrender, hkeeps, hmade, hmore'⟩,
      List.forall_mem_cons.2 ⟨hkeeps.isFree_text hrender, hfrees⟩, htypes₂⟩

end

/-! ## Types -/

theorem isFree_fieldDescription (hclears : r.Clears document) {value : RefOr Schema}
    (h : ∀ s ∈ Schema.refParts value, s ∈ document.schemas) :
    (Resolver.fieldDescription value).IsFree := by
  cases value with
  | ref pointer => exact Json.isFree_null
  | inline s => exact (hclears.document.schema s (h s (Schema.mem_parts_self s))).description

/-- A complete type with a schema of the document is free of the marker. -/
theorem isFree_of_complete (hclears : r.Clears document) {types : Registry}
    (htypes : AreSourced document r types) (hspelled : r.Spelled types) {t : NamedType} (ht : t ∈ types)
    {s : TypeState} (hcomplete : r.Complete s t) : t.IsFree := by
  have hplain : ∀ n ∈ types.names, IsPlainName n := fun n => htypes.sound.isPlainName
  have hschema : t.schema ∈ document.schemas := htypes.schemas.of_mem ht
  have hfree := hclears.document.schema t.schema hschema
  refine ⟨Dialect.Kotlin.unmarked_of_isPlainName (hplain _ (List.mem_map_of_mem ht)), ?_,
    fun f hf => ?_⟩
  · rw [NamedType.description, Schema.about]
    split_ifs
    · exact hfree.description
    · exact hfree.title
  · obtain ⟨⟨property, value⟩, hproperty, hfield⟩ := exists_mem_of_forall₂ hcomplete.flip hf
    have hspells := hspelled t ht f hf
    refine ⟨?_, ?_, unmarked_short hplain hspells, fun n hn => ?_, ?_⟩
    · rw [hfield.name_eq]
      exact hfree.property property (List.mem_map_of_mem hproperty)
    · rw [hfield.identifier_eq]
      exact r.dialect.unmarked_identifier property
    · exact Dialect.Kotlin.unmarked_of_isPlainName (hplain n (hspells.named_subset hn))
    · rw [hfield.description_eq]
      refine isFree_fieldDescription hclears fun s hs => ?_
      obtain ⟨root, hroot, hmem⟩ := List.mem_flatMap.1 hschema
      exact List.mem_flatMap.2
        ⟨root, hroot, Schema.refParts_subset (Schema.mem_inner_of_mem_properties hproperty) hmem hs⟩

/-! ## The root file -/

/-- What the root file is written from. -/
def rootOf (r : Resolver) (d : Document) (scope : Scope) (types : Registry) : Root where
  namespaceName := .str r.namespaceName
  title := .str d.info.title
  version := .str d.info.version
  description := d.info.description
  servers := .arr (d.servers.map Server.url)
  scope
  hasTypes := .bool !types.isEmpty

theorem rootText_eq (r : Resolver) (d : Document) (scope : Scope) (types : Registry) :
    rootText r d scope types = r.dialect.renderPassage (.root (rootOf r d scope types)) :=
  rfl

theorem isFree_rootOf (hclears : r.Clears document) {scope : Scope} (hscope : scope.IsFree)
    (types : Registry) : (rootOf r document scope types).IsFree where
  namespaceName := Json.isFree_str (markerFree_of_unmarked hclears.namespaceName)
  title := Json.isFree_str hclears.document.title
  version := Json.isFree_str hclears.document.version
  description := hclears.document.description
  hasTypes := ⟨_, rfl⟩
  scope := hscope
  baseUrl j hj := by
    rw [Root.baseUrl, rootOf] at hj
    split_ifs at hj <;> obtain rfl := Except.ok.inj hj
    · rcases hservers : document.servers with _ | ⟨server, rest⟩
      · exact Json.isFree_null
      · exact hclears.document.server server (hservers ▸ List.mem_cons_self)
    · exact Json.isFree_str (markerFree_of_unmarked (by decide))

/-! ## Clients -/

theorem areSourced_resolveComponents (hcomponents : r.components = some document.components)
    {journal : Journal} {s : TypeState} {result : Except Failure Unit}
    (h : outcome r.resolveComponents ⟨[], journal⟩ = (result, s)) : AreSourced document r s.types := by
  have hsound : r.Sound s.types :=
    (Moves.leads (Resolver.keeps_resolveComponents r) h ⟨r.sound_nil, r.spelled_nil⟩).1
  have hreach : ∀ e ∈ r.schemas, r.Reaches (· ∈ document.schemas) e.2 := by
    intro e he
    rw [Resolver.schemas, hcomponents] at he
    exact Signature.reaches_of_root hcomponents (Document.mem_schemaRoots_of_component he)
  have hfrom : Resolver.AreFrom (· ∈ document.schemas)
      (outcome r.resolveComponents ⟨[], journal⟩).2.types :=
    Resolver.from_resolveEach hreach (Resolver.areFrom_nil _)
  rw [h] at hfrom
  exact ⟨hsound, hfrom⟩

/-- What the files of a client are written from: its scopes and its types, with the text of the root file
and those of the types. -/
theorem exists_texts_of_draft {settings : Settings} {source : PageSource} {dialect : Dialect}
    {files : Files} {final : Draft} (hdialect : Dialect.find settings.dialect = .ok dialect)
    (h : outcome (draft settings source document) {} = (.ok files, final)) :
    let r : Resolver := ⟨some document.components, dialect, settings.namespaceName⟩
    ∃ journal tree named scope built root, Route.ofPaths document.paths = .ok tree ∧
      outcome r.resolveComponents ⟨[], journal⟩ = (.ok (), named.types) ∧
      outcome (buildScope r [] tree) named = (.ok scope, built) ∧
      final.types.types = built.types.types ∧
      rootText r document scope final.types.types = .ok root ∧
      Table.get? files dialect.rootFile = some root ∧
      ∀ t ∈ final.types.types, ∃ text, t.render dialect settings.namespaceName = .ok text ∧
        Table.get? files (dialect.typeFile t.name) = some text := by
  intro r
  have hsound : r.Sound final.types.types := sound_of_draft hdialect h
  obtain ⟨journal, tree, named, scope, built, root, typed, paged, htree, hcomponents, -, hscope, hroot,
    hfiles, hpages, rfl, htypes, -⟩ := exists_steps_of_draft hdialect h
  have hkeys := keys_of_isPage hpages
  have hdistinct := distinct_files (r := r) hfiles hkeys hsound root
  rw [ofList_files (r := r) hfiles hkeys hsound]
  refine ⟨journal, tree, named, scope, built, root, htree, hcomponents, hscope, htypes, hroot,
    Table.get?_of_mem hdistinct List.mem_cons_self, fun t ht => ?_⟩
  obtain ⟨text, htext, hfile⟩ := exists_of_isTypeFile hfiles ht
  exact ⟨text, htext, Table.get?_of_mem hdistinct (List.mem_append_left _ (List.mem_cons_of_mem _ hfile))⟩

/-- The file under a path is a part that keeps its lines. -/
def IsKept (d : Dialect) (files : Files) (path : String) (p : Passage) : Prop :=
  d.KeepsLines p ∧ ∃ text, d.renderPassage p = .ok text ∧ Table.get? files path = some text

/-- If no text of a document holds the marker, then nothing that is handed over for the callables, the
scopes, the root file and the types of its client does, and their lines go with conditions and absent
values only. -/
theorem lines_kept {settings : Settings} {source : PageSource} {files : Files} {final : Draft}
    (hnamespace : Settings.isDottedIdentifier settings.namespaceName = true)
    (hdocument : ∀ text ∈ document.texts, MarkerFree text.toList)
    (h : outcome (draft settings source document) {} = (.ok files, final)) :
    ∃ dialect tree scope, Dialect.find settings.dialect = .ok dialect ∧
      Route.ofPaths document.paths = .ok tree ∧
      let r : Resolver := ⟨some document.components, dialect, settings.namespaceName⟩
      let types := final.types.types
      IsMade r dialect.KeepsLines tree scope ∧
      IsKept dialect files dialect.rootFile (.root (rootOf r document scope types)) ∧
      ∀ t ∈ types, IsKept dialect files (dialect.typeFile t.name) (.type t settings.namespaceName) := by
  obtain ⟨dialect, hdialect⟩ := exists_dialect_of_draft h
  let r : Resolver := ⟨some document.components, dialect, settings.namespaceName⟩
  have hclears : r.Clears document :=
    ⟨rfl, Document.isFree_of_texts hdocument, Settings.unmarked_of_isDottedIdentifier hnamespace⟩
  have hsound : r.Sound final.types.types := sound_of_draft hdialect h
  have hspelled : r.Spelled final.types.types := spelled_of_draft hdialect h
  have hcomplete : ∀ t ∈ final.types.types, r.Complete final.types t := complete_of_draft hdialect h
  obtain ⟨journal, tree, named, scope, built, root, htree, hcomponents, hscope, htypes, hroot, hfile,
    hfiles⟩ := exists_texts_of_draft hdialect h
  rw [rootText_eq] at hroot
  have hname : MarkerFree (([] : List String).getLast?.getD rootScope).toList :=
    markerFree_of_unmarked (by decide)
  obtain ⟨hmade, hfree, hbuilt⟩ := made_buildScope hclears hname
    (isNodeOf_of_mem_walk hclears.document htree) (areSourced_resolveComponents rfl hcomponents) hscope
  rw [← htypes] at hbuilt
  refine ⟨dialect, tree, scope, hdialect, htree, hmade, ⟨?_, root, hroot, hfile⟩, fun t ht => ⟨?_, ?_⟩⟩
  · exact dialect.keepsLines_of_isFree (isFree_rootOf hclears hfree _)
  · have htype : t.IsFree := isFree_of_complete hclears hbuilt hspelled ht (hcomplete t ht)
    exact dialect.keepsLines_of_isFree ⟨htype, hclears.namespaceName⟩
  · exact hfiles t ht

/-! ## Clients of nodes and of notes -/

theorem texts_orchard : orchard.texts =
    ["Orchard", "1", "/", "next", "children", "index", "link", "target", "id", "total"] := by
  have hroots : orchard.schemaRoots = [.inline (.listOf (.ref "#/components/schemas/Node")),
      .inline (.record [
        ("next", .ref "#/components/schemas/Node"),
        ("children", .inline (.listOf (.ref "#/components/schemas/Nodes"))),
        ("index", .inline (.tableOf (.ref "#/components/schemas/Alias"))),
        ("link", .inline (.record [("target", .ref "#/components/schemas/Alias")]))]),
      .ref "#/components/schemas/Node", .inline (.single "id"), .inline (.single "total")] := rfl
  rw [Document.texts, Document.schemas, hroots]
  simp [Schema.refParts_inline, Schema.refParts_ref, Schema.inner, Schema.listOf, Schema.tableOf,
    Schema.record, Schema.single, Schema.single.text, Document.propertyNames, Json.texts, orchard,
    listing, Document.operations, Document.parameters, inPlace, Resolver.tree]

/-- No text among the nodes holds the marker, and the parts of their client keep their lines. -/
theorem lines_kept_orchard : Settings.isDottedIdentifier orchardSettings.namespaceName = true ∧
    (∀ text ∈ orchard.texts, MarkerFree text.toList) ∧
    ∃ files final, outcome (draft orchardSettings blankPages orchard) {} = (.ok files, final) ∧
      ∃ scope, IsMade ⟨some orchard.components, .python, "acme"⟩ Dialect.python.KeepsLines
        ⟨some "/", some listing, []⟩ scope ∧
      ∀ t ∈ final.types.types,
        IsKept .python files (Dialect.python.typeFile t.name) (.type t "acme") := by
  have hnamespace : Settings.isDottedIdentifier orchardSettings.namespaceName = true := by decide +kernel
  have htexts : ∀ text ∈ orchard.texts, MarkerFree text.toList := by
    rw [texts_orchard]
    decide
  obtain ⟨files, hfiles⟩ := exists_files_orchard
  have hdraft := outcome_of_generate hfiles
  obtain ⟨dialect, tree, scope, hdialect, htree, hmade, -, hkept⟩ :=
    lines_kept hnamespace htexts hdraft
  have hpython : Dialect.find orchardSettings.dialect = .ok .python := rfl
  have hroute : Route.ofPaths orchard.paths = .ok ⟨some "/", some listing, []⟩ := rfl
  obtain rfl := Except.ok.inj (hdialect.symm.trans hpython)
  obtain rfl := Except.ok.inj (htree.symm.trans hroute)
  exact ⟨hnamespace, htexts, files, _, hdraft, scope, hmade, hkept⟩

/-- What is read as a document with the marker for the URL of its server. -/
def notes : Json :=
  .obj [("openapi", .str "3.0.0"), ("info", .obj [("title", .str "Notes"), ("version", .str "1")]),
    ("servers", .arr [.obj [("url", .str (String.ofList dropMarker))]]), ("paths", .obj [])]

/-- A document with the marker for the URL of its server. -/
def notesDocument : Document where
  version := "3.0.0"
  info := ⟨"Notes", "1", .null, .null, none, none⟩
  paths := []
  servers := [⟨.str (String.ofList dropMarker), .null, []⟩]
  components := {}
  tags := []
  externalDocs := none
  security := []

theorem ofJson_notes : Document.ofJson notes = .ok notesDocument := by rfl

/-- What the root file of the notes is written from. -/
def notesRoot : Root :=
  rootOf ⟨some {}, .kotlin, "acme"⟩ notesDocument ⟨.str "API", .str "/", .arr [], .arr []⟩ []

theorem exists_draft_notes : ∃ files final,
    outcome (draft shopSettings blankPages notesDocument) {} = (.ok files, final) := by
  have hrun : (outcome (draft shopSettings blankPages notesDocument) {}).1.toOption.isSome = true := by
    simp only [draft, dialectOf_shopSettings, pure_bind]
    simp only [rootText, Dialect.renderRoot, Dialect.Kotlin.renderRoot, Dialect.Kotlin.rootTemplate_eq,
      typeFiles_eq]
    decide +kernel
  obtain ⟨files, hfiles⟩ := Option.isSome_iff_exists.1 hrun
  exact ⟨files, _, outcome_of_toOption hfiles⟩

/-- What is handed over for the root file of the notes. -/
def notesValues : Table Json :=
  Dialect.Kotlin.rootValues notesRoot (.str (String.ofList dropMarker))

theorem handed_notes :
    Dialect.kotlin.handed (.root notesRoot) = .ok (Dialect.Kotlin.rootPlan, notesValues) :=
  rfl

theorem exists_evaluated_notes : ∃ whole, Dialect.kotlin.evaluated (.root notesRoot) = .ok whole ∧
    Text.occursIn "BASE_URL:".toList whole.toList = true := by
  have hrun : ((render notesValues none Dialect.Kotlin.rootPieces).toOption.map
      (Text.occursIn "BASE_URL:".toList)) = some true := by
    simp only [bind, Except.bind, render, partsRows, partRows, Dialect.Kotlin.rootPieces,
      ← Text.chars_eq]
    decide +kernel
  obtain ⟨out, hout, hline⟩ := Option.map_eq_some_iff.1 hrun
  refine ⟨String.ofList out, ?_, (String.toList_ofList (l := out)).symm ▸ hline⟩
  have hplan : Dialect.Kotlin.rootPlan.template = Dialect.Kotlin.rootPieces := rfl
  simp [Dialect.evaluated, handed_notes, hplan, ok_of_toOption hout, bind, Except.bind, pure, Except.pure]

theorem exists_rendered_notes : ∃ text, Dialect.kotlin.renderPassage (.root notesRoot) = .ok text ∧
    Text.occursIn "BASE_URL:".toList text.toList = false := by
  have hrun : ((Dialect.Kotlin.rootPieces.fill notesValues none).toOption.map
      (Text.occursIn "BASE_URL:".toList)) = some false := by
    simp only [bind, Except.bind, Template.fill, fillParts, fillPart, Dialect.Kotlin.rootPieces,
      ← Text.chars_eq]
    decide +kernel
  obtain ⟨out, hout, hline⟩ := Option.map_eq_some_iff.1 hrun
  refine ⟨String.ofList out, ?_, (String.toList_ofList (l := out)).symm ▸ hline⟩
  have hplan : Dialect.Kotlin.rootPlan.template = Dialect.Kotlin.rootPieces := rfl
  simp [Dialect.renderPassage_eq, handed_notes, hplan, build, ok_of_toOption hout, bind, Except.bind,
    Except.map]

/-- The root file of the notes is written from `notesRoot`. -/
theorem exists_root_notes : ∃ files final text,
    outcome (draft shopSettings blankPages notesDocument) {} = (.ok files, final) ∧
    Table.get? files "API.kt" = some text ∧
    Dialect.kotlin.renderPassage (.root notesRoot) = .ok text := by
  obtain ⟨files, final, hdraft⟩ := exists_draft_notes
  have hkotlin : Dialect.find shopSettings.dialect = .ok .kotlin := rfl
  obtain ⟨journal, tree, named, scope, built, root, htree, hcomponents, hscope, htypes, hroot, hfile,
    -⟩ := exists_texts_of_draft hkotlin hdraft
  have hroute : Route.ofPaths notesDocument.paths = .ok Route.root := rfl
  obtain rfl := Except.ok.inj (htree.symm.trans hroute)
  have hnamed : outcome (Resolver.resolveComponents ⟨some {}, .kotlin, "acme"⟩) ⟨[], journal⟩ =
      (.ok (), ⟨[], journal⟩) := rfl
  have hbuild : outcome (buildScope ⟨some {}, .kotlin, "acme"⟩ [] Route.root) named =
      (.ok ⟨.str "API", .str "/", .arr [], .arr []⟩, named) := by
    rfl
  obtain ⟨-, htyped⟩ := Prod.mk.inj (hcomponents.symm.trans hnamed)
  obtain ⟨hscoped, rfl⟩ := Prod.mk.inj (hscope.symm.trans hbuild)
  obtain rfl := Except.ok.inj hscoped
  rw [rootText_eq, htypes, htyped] at hroot
  exact ⟨files, final, root, hdraft, hfile, hroot⟩

/-- With the marker for the URL of the server of a document the root file lacks the line of the URL, which
would not go with any condition or absent value. -/
theorem base_url_lost : Document.ofJson notes = .ok notesDocument ∧
    ∃ files final text whole,
      outcome (draft shopSettings blankPages notesDocument) {} = (.ok files, final) ∧
      Table.get? files "API.kt" = some text ∧
      Dialect.kotlin.renderPassage (.root notesRoot) = .ok text ∧
      ¬ Dialect.kotlin.Spares (.root notesRoot) ∧
      Dialect.kotlin.evaluated (.root notesRoot) = .ok whole ∧
      Text.occursIn "BASE_URL:".toList whole.toList = true ∧
      Text.occursIn "BASE_URL:".toList text.toList = false := by
  obtain ⟨files, final, text, hdraft, hfile, hroot⟩ := exists_root_notes
  obtain ⟨text', htext, hlost⟩ := exists_rendered_notes
  obtain ⟨whole, hwhole, hkept⟩ := exists_evaluated_notes
  obtain rfl := Except.ok.inj (htext.symm.trans hroot)
  refine ⟨ofJson_notes, files, final, _, whole, hdraft, hfile, hroot, fun hspares => ?_, hwhole, hkept,
    hlost⟩
  obtain rfl := Except.ok.inj (hroot.symm.trans (hspares.renderPassage_eq.trans hwhole))
  exact Bool.false_ne_true (hlost.symm.trans hkept)

end Client

end ApiClient
