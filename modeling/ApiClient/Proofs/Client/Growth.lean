import ApiClient.Proofs.Client.Closure
import ApiClient.Proofs.Types.Growth
import Mathlib

/-!
# Drafting only adds types

Signatures and scopes resolve the schemas of the operations. Like the calls they are made of, they
leave the types alone that are there (`Client.grows_buildScope`). The files of types and pages only
read the draft.

`Client.exists_steps_of_draft` takes a draft that succeeds apart, and `Client.exists_of_draft` says
what comes of it: the registry of the components, the larger one that is written, and the list of
files.
-/

namespace ApiClient

open Working

variable {r : Resolver} {α : Type}

/-! ## Signatures -/

theorem Resolver.covers_grows (r : Resolver) : r.Covers fun _ work => Moves r.Grows work where
  closed := closed_moves
  record entries s := grows_record s entries
  resolve := grows_resolve

namespace Signature

theorem grows_followed (home : Section) (take : Component → Option α) (value : RefOr α) :
    Moves r.Grows (followed r home take value) :=
  closed_followed r.covers_grows home take value

theorem grows_mergeParameters (merged : List Parameter) (values : List (RefOr Parameter)) :
    Moves r.Grows (mergeParameters r merged values) :=
  closed_mergeParameters r.covers_grows merged values

theorem grows_argument (base : String) (p : Parameter) : Moves r.Grows (argument r base p) :=
  closed_argument r.covers_grows base p

theorem grows_eachArgument (base : String) (ps : List Parameter) :
    Moves r.Grows (eachArgument r base ps) :=
  closed_eachArgument r.covers_grows base ps

theorem grows_bodyArgument (base : String) (o : Operation) :
    Moves r.Grows (bodyArgument r base o) :=
  closed_bodyArgument r.covers_grows base o

theorem grows_responseType (base : String) (o : Operation) :
    Moves r.Grows (responseType r base o) :=
  closed_responseType r.covers_grows base o

end Signature

/-! ## Drafts -/

/-- Edits of the types of a draft that leave all types alone that were there. -/
def Draft.Grows (r : Resolver) (d d' : Draft) : Prop :=
  r.Grows d.types d'.types

instance : Std.Refl (Draft.Grows r) :=
  ⟨fun d => Std.Refl.refl (r := r.Grows) d.types⟩

instance : IsTrans Draft (Draft.Grows r) :=
  ⟨fun _ _ _ h h' => IsTrans.trans (r := r.Grows) _ _ _ h h'⟩

namespace Drafting

theorem outcome_of_ofResolving {work : Resolving α} {d d' : Draft} {a : α}
    (h : outcome (ofResolving work) d = (.ok a, d')) :
    outcome work d.types = (.ok a, d'.types) := by
  obtain ⟨ha, rfl⟩ := Prod.mk.inj h
  exact Prod.ext ha rfl

/-- Resolving adds no calls. -/
theorem calls_of_ofResolving {work : Resolving α} {d d' : Draft} {result : Except Failure α}
    (h : outcome (ofResolving work) d = (result, d')) : d'.calls = d.calls := by
  obtain ⟨-, rfl⟩ := Prod.mk.inj h
  rfl

theorem outcome_note (level : Level) (message : String) (d : Draft) :
    outcome (note level message) d =
      (.ok (), { d with types :=
        { d.types with journal := d.types.journal ++ [⟨level, .client, message⟩] } }) :=
  rfl

theorem outcome_of_ofTemplate {text : Except Template.Error α} {d d' : Draft} {a : α}
    (h : outcome (ofTemplate text) d = (.ok a, d')) : text = .ok a ∧ d' = d := by
  cases text with
  | error e => cases h
  | ok b =>
    obtain ⟨rfl, rfl⟩ := of_outcome_pure h
    exact ⟨rfl, rfl⟩

theorem refl_types {R : TypeState → TypeState → Prop} [Std.Refl R] :
    Std.Refl fun d d' : Draft => R d.types d'.types :=
  ⟨fun d => Std.Refl.refl d.types⟩

theorem isTrans_types {R : TypeState → TypeState → Prop} [IsTrans TypeState R] :
    IsTrans Draft fun d d' => R d.types d'.types :=
  ⟨fun _ _ _ h h' => IsTrans.trans _ _ _ h h'⟩

/-- What resolving does to the types, drafting does to those of the draft. -/
theorem covers_moves {R : TypeState → TypeState → Prop} [Std.Refl R] [IsTrans TypeState R]
    (h : r.Covers fun _ work => Moves R work) :
    Drafting.Covers r (fun _ work => Moves R work)
      fun _ work => Moves (fun d d' : Draft => R d.types d'.types) work := by
  have hrefl := refl_types (R := R)
  have htrans := isTrans_types (R := R)
  exact {
    resolving := h
    closed := closed_moves
    ofResolving := fun hwork d => hwork d.types
    addCall := fun _ d => Std.Refl.refl d.types }

/-- What resolving does to the types when it succeeds, drafting does to those of the draft. -/
theorem covers_delivers {R : TypeState → TypeState → Prop} [Std.Refl R] [IsTrans TypeState R]
    (h : r.Covers fun _ work => Delivers R work) :
    Drafting.Covers r (fun _ work => Delivers R work)
      fun _ work => Delivers (fun d d' : Draft => R d.types d'.types) work := by
  have hrefl := refl_types (R := R)
  have htrans := isTrans_types (R := R)
  exact {
    resolving := h
    closed := closed_delivers
    ofResolving := fun hwork d d' a hrun => hwork d.types d'.types a (outcome_of_ofResolving hrun)
    addCall := fun _ d d' _ hrun => by
      obtain ⟨-, rfl⟩ := Prod.mk.inj hrun
      exact Std.Refl.refl d.types }

theorem covers_grows (r : Resolver) : Drafting.Covers r (fun _ work => Moves r.Grows work)
    fun _ work => Moves (Draft.Grows r) work :=
  covers_moves r.covers_grows

end Drafting

namespace Client

open Drafting

theorem grows_writeEndpoint (item : PathItem) (url : String) (scopes : List String)
    (method : Method) (o : Operation) :
    Moves (Draft.Grows r) (writeEndpoint r item url scopes method o) :=
  closed_writeEndpoint (covers_grows r) item url scopes method o

theorem grows_writeEndpoints (item : PathItem) (url : String) (scopes : List String)
    (operations : List (Method × Operation)) :
    Moves (Draft.Grows r) (writeEndpoints r item url scopes operations) :=
  closed_writeEndpoints (covers_grows r) item url scopes operations

/-- The scope of a node leaves the types alone that are there. -/
theorem grows_buildScope (scopes : List String) (route : Route PathItem) :
    Moves (Draft.Grows r) (buildScope r scopes route) :=
  closed_buildScope (covers_grows r) scopes route

theorem grows_buildChildren (scopes taken : List String)
    (children : List (String × Route PathItem)) :
    Moves (Draft.Grows r) (buildChildren r scopes taken children) :=
  closed_buildChildren (covers_grows r) scopes taken children

/-! ## Files -/

/-- A path and a text are the file of a type. -/
def IsTypeFile (r : Resolver) (t : NamedType) (file : String × String) : Prop :=
  file.1 = r.dialect.typeFile t.name ∧ t.render r.dialect r.namespaceName = .ok file.2

theorem isTypeFile_of_typeFiles : ∀ {types : Registry} {d d' : Draft}
    {typed : List (String × String)}, outcome (typeFiles r types) d = (.ok typed, d') →
      d' = d ∧ List.Forall₂ (IsTypeFile r) types typed
  | [], d, d', typed, h => by
    obtain ⟨rfl, rfl⟩ := of_outcome_pure h
    exact ⟨rfl, .nil⟩
  | t :: rest, d, d', typed, h => by
    rw [typeFiles] at h
    obtain ⟨text, d₁, htext, hrest⟩ := exists_of_outcome_bind h
    obtain ⟨more, d₂, hmore, hpure⟩ := exists_of_outcome_bind hrest
    obtain ⟨hrender, rfl⟩ := outcome_of_ofTemplate (outcome_of_within htext)
    obtain ⟨rfl, hfiles⟩ := isTypeFile_of_typeFiles hmore
    obtain ⟨rfl, rfl⟩ := of_outcome_pure hpure
    exact ⟨rfl, .cons ⟨rfl, hrender⟩ hfiles⟩

/-- A path and a text are those of a page. -/
def IsPage (source : PageSource) (values : Page.Values) (page file : String × String) : Prop :=
  file.1 = page.1 ∧ renderPage source page.2 values = .ok file.2

theorem isPage_of_pageFiles {source : PageSource} {values : Page.Values} :
    ∀ {pages : List (String × String)} {d d' : Draft} {paged : List (String × String)},
      outcome (pageFiles source values pages) d = (.ok paged, d') →
        d' = d ∧ List.Forall₂ (IsPage source values) pages paged
  | [], d, d', paged, h => by
    obtain ⟨rfl, rfl⟩ := of_outcome_pure h
    exact ⟨rfl, .nil⟩
  | (path, template) :: rest, d, d', paged, h => by
    rw [pageFiles] at h
    cases hrender : renderPage source template values with
    | error e =>
      rw [hrender] at h
      cases h
    | ok text =>
      rw [hrender] at h
      obtain ⟨_, d₀, htext, hrest⟩ := exists_of_outcome_bind h
      obtain ⟨rfl, rfl⟩ := of_outcome_pure htext
      obtain ⟨more, d₁, hmore, hpure⟩ := exists_of_outcome_bind hrest
      obtain ⟨rfl, hpages⟩ := isPage_of_pageFiles hmore
      obtain ⟨rfl, rfl⟩ := of_outcome_pure hpure
      exact ⟨rfl, .cons ⟨rfl, hrender⟩ hpages⟩

theorem keys_of_isPage {source : PageSource} {values : Page.Values}
    {pages paged : List (String × String)}
    (h : List.Forall₂ (IsPage source values) pages paged) :
    paged.map Prod.fst = pages.map Prod.fst := by
  induction h with
  | nil => rfl
  | cons hpage _ ih => rw [List.map_cons, List.map_cons, hpage.1, ih]

theorem exists_mem_of_forall₂ {β γ : Type} {R : β → γ → Prop} {bs : List β} {cs : List γ}
    (h : List.Forall₂ R bs cs) {b : β} (hb : b ∈ bs) : ∃ c ∈ cs, R b c := by
  induction h with
  | nil => cases hb
  | cons hbc _ ih =>
    rcases List.mem_cons.1 hb with rfl | hb
    · exact ⟨_, List.mem_cons_self, hbc⟩
    · obtain ⟨c, hc, hR⟩ := ih hb
      exact ⟨c, List.mem_cons_of_mem _ hc, hR⟩

theorem exists_of_isTypeFile {types : Registry} {typed : List (String × String)}
    (h : List.Forall₂ (IsTypeFile r) types typed) {t : NamedType} (ht : t ∈ types) :
    ∃ text, t.render r.dialect r.namespaceName = .ok text ∧
      (r.dialect.typeFile t.name, text) ∈ typed := by
  obtain ⟨file, hfile, hpath, htext⟩ := exists_mem_of_forall₂ h ht
  exact ⟨file.2, htext, hpath ▸ hfile⟩

theorem exists_of_isPage {source : PageSource} {values : Page.Values}
    {pages paged : List (String × String)} (h : List.Forall₂ (IsPage source values) pages paged)
    {page : String × String} (hmem : page ∈ pages) :
    ∃ text, renderPage source page.2 values = .ok text ∧ (page.1, text) ∈ paged := by
  obtain ⟨file, hfile, hpath, htext⟩ := exists_mem_of_forall₂ h hmem
  exact ⟨file.2, htext, hpath ▸ hfile⟩

theorem of_outcome_routes {document : Document} {d d' : Draft} {tree : Route PathItem}
    (h : outcome (routes document) d = (.ok tree, d')) :
    Route.ofPaths document.paths = .ok tree ∧ d' = d := by
  unfold routes at h
  split at h
  · rename_i tree' htree
    obtain ⟨rfl, hd⟩ := of_outcome_pure h
    exact ⟨htree, hd⟩
  · cases h

theorem outcome_of_generate {settings : Settings} {source : PageSource} {d : Document} {files : Files}
    (h : (generate settings source d).1 = .ok files) : outcome (draft settings source d) {} =
      (.ok files, (outcome (draft settings source d) {}).2) :=
  Prod.ext h rfl

/-- The steps of a draft that succeeds: the tree of its paths, the draft with the components resolved,
the outermost scope with the draft after it, and the files, the pages among them with the calls that the
scopes have added. -/
theorem exists_steps_of_draft {settings : Settings} {source : PageSource} {d : Document}
    {dialect : Dialect} {files : Files} {final : Draft}
    (hdialect : Dialect.find settings.dialect = .ok dialect)
    (h : outcome (draft settings source d) {} = (.ok files, final)) :
    let r : Resolver := ⟨some d.components, dialect, settings.namespaceName⟩
    ∃ journal tree named scope built root typed paged,
      Route.ofPaths d.paths = .ok tree ∧
        outcome r.resolveComponents ⟨[], journal⟩ = (.ok (), named.types) ∧ named.calls = [] ∧
        outcome (buildScope r [] tree) named = (.ok scope, built) ∧
        rootText r d scope final.types.types = .ok root ∧
        List.Forall₂ (IsTypeFile r) final.types.types typed ∧
        List.Forall₂ (IsPage source (pageValues r d (tree.format hasOperations) final.types.types
          final.calls)) (pages dialect) paged ∧
        files = Table.ofList ((dialect.rootFile, root) :: typed ++ paged) ∧
        final.types.types = built.types.types ∧ final.calls = built.calls ∧
        r.Grows built.types final.types := by
  intro r
  rw [draft, dialectOf, hdialect] at h
  obtain ⟨_, d₀, hfound, h₀⟩ := exists_of_outcome_bind h
  obtain ⟨rfl, rfl⟩ := of_outcome_pure hfound
  rw [outcome_bind_of_ok (outcome_note ..)] at h₀
  obtain ⟨tree, d₁, hroutes, h₁⟩ := exists_of_outcome_bind h₀
  obtain ⟨htree, rfl⟩ := of_outcome_routes hroutes
  rw [outcome_bind_of_ok (outcome_note ..)] at h₁
  obtain ⟨_, d₂, hcomponents, h₂⟩ := exists_of_outcome_bind h₁
  obtain ⟨scope, d₃, hscope, h₃⟩ := exists_of_outcome_bind h₂
  rw [outcome_bind_of_ok (outcome_get _)] at h₃
  obtain ⟨root, d₄, hwritten, h₄⟩ := exists_of_outcome_bind h₃
  obtain ⟨hroot, rfl⟩ := outcome_of_ofTemplate hwritten
  obtain ⟨typed, d₅, htyped, h₅⟩ := exists_of_outcome_bind h₄
  obtain ⟨rfl, hfiles⟩ := isTypeFile_of_typeFiles htyped
  obtain ⟨paged, d₆, hpaged, h₆⟩ := exists_of_outcome_bind h₅
  obtain ⟨rfl, hpages⟩ := isPage_of_pageFiles hpaged
  rw [outcome_bind_of_ok (outcome_note ..)] at h₆
  obtain ⟨rfl, rfl⟩ := of_outcome_pure h₆
  exact ⟨_, tree, d₂, scope, d₆, root, typed, paged, htree, outcome_of_ofResolving hcomponents,
    calls_of_ofResolving hcomponents, hscope, hroot, hfiles, hpages, rfl, rfl, rfl,
    Resolver.grows_record d₆.types _⟩

/-- The stages of a draft that succeeds: the tree of its paths, the draft with the components
resolved, the outermost scope with the draft after it, and the files. -/
theorem exists_stages_of_draft {settings : Settings} {source : PageSource} {d : Document}
    {dialect : Dialect} {files : Files} {final : Draft}
    (hdialect : Dialect.find settings.dialect = .ok dialect)
    (h : outcome (draft settings source d) {} = (.ok files, final)) :
    let r : Resolver := ⟨some d.components, dialect, settings.namespaceName⟩
    ∃ journal tree named scope built root typed paged,
      Route.ofPaths d.paths = .ok tree ∧
        outcome r.resolveComponents ⟨[], journal⟩ = (.ok (), named.types) ∧
        outcome (buildScope r [] tree) named = (.ok scope, built) ∧
        rootText r d scope final.types.types = .ok root ∧
        List.Forall₂ (IsTypeFile r) final.types.types typed ∧
        paged.map Prod.fst = (pages dialect).map Prod.fst ∧
        files = Table.ofList ((dialect.rootFile, root) :: typed ++ paged) ∧
        final.types.types = built.types.types ∧ r.Grows built.types final.types := by
  intro r
  obtain ⟨journal, tree, named, scope, built, root, typed, paged, htree, hcomponents, -, hscope,
    hroot, hfiles, hpages, hlist, htypes, -, hgrows⟩ := exists_steps_of_draft hdialect h
  exact ⟨journal, tree, named, scope, built, root, typed, paged, htree, hcomponents, hscope, hroot,
    hfiles, keys_of_isPage hpages, hlist, htypes, hgrows⟩

/-- A draft that succeeds: it resolves the components first, and its files are the root file, those
of the types there are in the end, and the pages. -/
theorem exists_of_draft {settings : Settings} {source : PageSource} {d : Document}
    {dialect : Dialect} {files : Files} {final : Draft}
    (hdialect : Dialect.find settings.dialect = .ok dialect)
    (h : outcome (draft settings source d) {} = (.ok files, final)) :
    let r : Resolver := ⟨some d.components, dialect, settings.namespaceName⟩
    ∃ journal named root typed paged,
      outcome r.resolveComponents ⟨[], journal⟩ = (.ok (), named) ∧
        r.Grows named final.types ∧
        List.Forall₂ (IsTypeFile r) final.types.types typed ∧
        paged.map Prod.fst = (pages dialect).map Prod.fst ∧
        files = Table.ofList ((dialect.rootFile, root) :: typed ++ paged) := by
  intro r
  obtain ⟨journal, tree, named, scope, built, root, typed, paged, -, hcomponents, hscope, -, hfiles,
    hkeys, rfl, -, hgrows⟩ := exists_stages_of_draft hdialect h
  have hbuilt : Draft.Grows r named built := (grows_buildScope [] tree).leads hscope
  exact ⟨journal, named.types, root, typed, paged, hcomponents, IsTrans.trans _ _ _ hbuilt hgrows,
    hfiles, hkeys, rfl⟩

end Client

end ApiClient
