import ApiClient.Proofs.Client.ScopeTree
import ApiClient.Proofs.Route.Trie
import Mathlib

/-!
# The sites of operations

Every operation in a tree of routes has a site: the names on the way to its node, its URL and its
method (`Client.sites`). No two sites have the same way and method (`Client.nodup_sites`), the sites of
the tree of a document are the operations of the document, each once (`Client.perm_sites`), and naming
the scopes changes the ways only (`Client.operationKey_sites_scopeTree`).
-/

namespace ApiClient

/-- The URLs of a document's operations with the methods they are sent with. -/
def Document.operationKeys (d : Document) : List (String × String) :=
  d.paths.flatMap fun e => e.2.operations.map fun o => (e.1, o.1.verb)

theorem Method.key_injective : Function.Injective Method.key := by
  intro m m' h
  cases m <;> cases m' <;> first | rfl | exact absurd h (by decide)

theorem Method.verb_injective : Function.Injective Method.verb := by
  intro m m' h
  cases m <;> cases m' <;> first | rfl | exact absurd h (by decide)

namespace Client

/-- Where an operation is: below the names of `path`. -/
structure Site where
  path : List String
  url : String
  method : Method
  operation : Operation

/-- The URL and the method that an operation is sent with. -/
def Site.operationKey (s : Site) : String × String :=
  (s.url, s.method.verb)

/-- The operations of a node. -/
def operationsAt (item : Option PathItem) : List (Method × Operation) :=
  (item.map PathItem.operations).getD []

/-- The sites of a node that `path` leads to. -/
def sitesAt (path : List String) (url : Option String) (item : Option PathItem) : List Site :=
  (operationsAt item).map fun o => ⟨path, url.getD "/", o.1, o.2⟩

mutual

/-- The sites of a tree, depth first. -/
def sites (path : List String) : Route PathItem → List Site
  | ⟨url, item, children⟩ => sitesAt path url item ++ sitesBelow path children

/-- The sites of a list of subtrees. -/
def sitesBelow (path : List String) : List (String × Route PathItem) → List Site
  | [] => []
  | (name, child) :: rest => sites (path ++ [name]) child ++ sitesBelow path rest

end

variable {t node : Route PathItem} {path q : List String} {s : Site} {paths : Table PathItem}

/-! ## Sites along the walk -/

/-- The places of a tree with the nodes that a walk comes to. -/
def visits (t : Route PathItem) : List (List String × Route PathItem) :=
  t.places.zip t.walk

mutual

theorem sites_eq (path : List String) : ∀ t : Route PathItem,
    sites path t = (visits t).flatMap fun e => sitesAt (path ++ e.1) e.2.url e.2.item
  | ⟨url, item, children⟩ => by
    rw [sites, visits, Route.places, Route.walk, List.zip_cons_cons, List.flatMap_cons,
      List.append_nil, sitesBelow_eq]

theorem sitesBelow_eq (path : List String) : ∀ children : List (String × Route PathItem),
    sitesBelow path children = ((Route.placesBelow children).zip (Route.walkAll children)).flatMap
      fun e => sitesAt (path ++ e.1) e.2.url e.2.item
  | [] => by rw [sitesBelow, Route.placesBelow, Route.walkAll]; rfl
  | (name, child) :: rest => by
    have hlength : ((Route.places child).map (name :: ·)).length = child.walk.length := by
      rw [List.length_map, Route.length_places]
    rw [sitesBelow, Route.placesBelow, Route.walkAll, List.zip_append hlength, List.flatMap_append,
      List.zip_map_left, List.flatMap_map, sites_eq (path ++ [name]) child, sitesBelow_eq path rest]
    simp only [visits, Prod.map_fst, Prod.map_snd, id_eq, List.append_assoc, List.singleton_append]

end

theorem mem_visits (ht : t.IsDistinct) : (q, node) ∈ visits t ↔ t.node? q = some node := by
  have hwalk : ∀ {q node}, (q, node) ∈ visits t → t.node? q = some node :=
    (List.forall₂_iff_zip.1 (Route.forall₂_walk ht)).2
  constructor
  · exact fun h => hwalk h
  · intro h
    have hplace := Route.mem_places_of_node? h
    rw [← List.map_fst_zip (Route.length_places t).le] at hplace
    obtain ⟨⟨q', node'⟩, hmem, rfl⟩ := List.mem_map.1 hplace
    obtain rfl := Option.some.inj ((hwalk hmem).symm.trans h)
    exact hmem

theorem mem_sites (ht : t.IsDistinct) : s ∈ sites path t ↔
    ∃ q node, t.node? q = some node ∧ s ∈ sitesAt (path ++ q) node.url node.item := by
  rw [sites_eq, List.mem_flatMap]
  constructor
  · rintro ⟨⟨q, node⟩, hvisit, hs⟩
    exact ⟨q, node, (mem_visits ht).1 hvisit, hs⟩
  · rintro ⟨q, node, hnode, hs⟩
    exact ⟨(q, node), (mem_visits ht).2 hnode, hs⟩

theorem path_of_mem_sitesAt {url : Option String} {item : Option PathItem}
    (h : s ∈ sitesAt path url item) : s.path = path := by
  obtain ⟨o, -, rfl⟩ := List.mem_map.1 h
  rfl

/-- No two sites have the same way and the same method. -/
theorem nodup_sites (path : List String) (ht : t.IsDistinct)
    (hmethods : ∀ q node, t.node? q = some node →
      ((operationsAt node.item).map Prod.fst).Nodup) :
    ((sites path t).map fun s => (s.path, s.method)).Nodup := by
  rw [sites_eq, List.map_flatMap, List.nodup_flatMap]
  constructor
  · rintro ⟨q, node⟩ hvisit
    have hnodup := hmethods q node ((mem_visits ht).1 hvisit)
    have hpair := hnodup.map (f := fun m => (path ++ q, m)) fun _ _ h => (Prod.mk.inj h).2
    simpa only [sitesAt, List.map_map, Function.comp_def] using hpair
  · have hplaces : ((visits t).map Prod.fst).Nodup := by
      rw [visits, List.map_fst_zip (Route.length_places t).le]
      exact Route.nodup_places ht
    refine (List.pairwise_map.1 hplaces).imp fun {e e'} hne => ?_
    rintro _ h h'
    obtain ⟨s, hs, rfl⟩ := List.mem_map.1 h
    obtain ⟨s', hs', heq⟩ := List.mem_map.1 h'
    have hpath := congrArg Prod.fst heq
    rw [path_of_mem_sitesAt hs, path_of_mem_sitesAt hs'] at hpath
    exact hne (List.append_cancel_left hpath).symm

/-! ## Sites of scopes -/

mutual

/-- Naming the scopes changes the ways of the sites and nothing else. -/
theorem operationKey_sites_scopeTree (dialect : Dialect) (path path' : List String) :
    ∀ t : Route PathItem, (sites path (scopeTree dialect t)).map Site.operationKey =
      (sites path' t).map Site.operationKey
  | ⟨url, item, children⟩ => by
    rw [scopeTree, sites, sites, List.map_append, List.map_append,
      operationKey_sitesBelow_scopeTreesFrom path path' children]
    simp only [sitesAt, List.map_map, Function.comp_def, Site.operationKey]

theorem operationKey_sitesBelow_scopeTreesFrom {dialect : Dialect} {taken : List String}
    (path path' : List String) : ∀ children : List (String × Route PathItem),
      (sitesBelow path (scopeTreesFrom dialect taken children)).map Site.operationKey =
        (sitesBelow path' children).map Site.operationKey
  | [] => by rw [scopeTreesFrom, sitesBelow, sitesBelow]
  | (segment, child) :: rest => by
    rw [scopeTreesFrom, sitesBelow, sitesBelow, List.map_append, List.map_append,
      operationKey_sites_scopeTree dialect _ (path' ++ [segment]) child,
      operationKey_sitesBelow_scopeTreesFrom path path' rest]

end

/-! ## Sites of a document -/

/-- A list is without repetition when what is told apart by some of its values is told apart by
others. -/
theorem nodup_map_of_nodup_map {α β γ : Type} {l : List α} {f : α → β} {g : α → γ}
    (h : (l.map f).Nodup) (hfg : ∀ x ∈ l, ∀ y ∈ l, g x = g y → f x = f y) : (l.map g).Nodup := by
  rw [List.Nodup, List.pairwise_map] at h ⊢
  exact h.imp_of_mem fun hx hy hne heq => hne (hfg _ hx _ hy heq)

variable (ht : Route.Holds paths t)

include ht

/-- The sites of the tree of a document's paths are the operations of these paths. -/
theorem mem_sites_of_holds : s ∈ sites [] t ↔
    s.path = Route.segments s.url ∧ ∃ e ∈ paths, e.1 = s.url ∧
      (s.method, s.operation) ∈ e.2.operations := by
  rw [mem_sites ht.isDistinct]
  constructor
  · rintro ⟨q, node, hnode, hs⟩
    obtain ⟨o, ho, rfl⟩ := List.mem_map.1 hs
    cases hitem : node.item with
    | none => simp [operationsAt, hitem] at ho
    | some item =>
      obtain ⟨e, he, rfl⟩ := ht.exists_of_item hnode (by rw [hitem]; rfl)
      obtain ⟨node', hnode', hurl, hitem'⟩ := ht.exists_node he
      obtain rfl := Option.some.inj (hnode.symm.trans hnode')
      rw [operationsAt, hitem'] at ho
      rw [hurl]
      exact ⟨rfl, e, he, rfl, ho⟩
  · rintro ⟨hpath, e, he, hurl, ho⟩
    obtain ⟨node, hnode, hnodeUrl, hitem⟩ := ht.exists_node he
    refine ⟨Route.segments e.1, node, hnode, List.mem_map.2 ⟨(s.method, s.operation), ?_, ?_⟩⟩
    · rw [hitem]
      exact ho
    · rw [hnodeUrl, Option.getD_some, List.nil_append, hurl, ← hpath]

theorem nodup_operationKeys (hmethods : ∀ e ∈ paths, (e.2.operations.map Prod.fst).Nodup) :
    (paths.flatMap fun e => e.2.operations.map fun o => (e.1, o.1.verb)).Nodup := by
  rw [List.nodup_flatMap]
  constructor
  · intro e he
    have hpair := (hmethods e he).map (f := fun m : Method => (e.1, m.verb)) fun _ _ h =>
      Method.verb_injective (Prod.mk.inj h).2
    simpa only [List.map_map, Function.comp_def] using hpair
  · refine (List.pairwise_map.1 ht.nodup).imp fun {e e'} hne => ?_
    rintro _ h h'
    obtain ⟨o, -, rfl⟩ := List.mem_map.1 h
    obtain ⟨o', -, heq⟩ := List.mem_map.1 h'
    exact hne (congrArg (fun k => Route.segments k.1) heq).symm

theorem nodup_operationsAt (hmethods : ∀ e ∈ paths, (e.2.operations.map Prod.fst).Nodup)
    (hnode : t.node? q = some node) : ((operationsAt node.item).map Prod.fst).Nodup := by
  cases hitem : node.item with
  | none => exact List.nodup_nil
  | some item =>
    obtain ⟨e, he, rfl⟩ := ht.exists_of_item hnode (by rw [hitem]; rfl)
    obtain ⟨node', hnode', -, hitem'⟩ := ht.exists_node he
    obtain rfl := Option.some.inj (hnode.symm.trans hnode')
    obtain rfl := Option.some.inj (hitem.symm.trans hitem')
    exact hmethods e he

/-- The sites of the tree of a document's paths are the operations of these paths, each once. -/
theorem perm_sites (hmethods : ∀ e ∈ paths, (e.2.operations.map Prod.fst).Nodup) :
    ((sites [] t).map Site.operationKey).Perm
      (paths.flatMap fun e => e.2.operations.map fun o => (e.1, o.1.verb)) := by
  have hsites := nodup_sites [] ht.isDistinct fun q node hnode =>
    nodup_operationsAt ht hmethods hnode
  have hkeys : ((sites [] t).map Site.operationKey).Nodup := by
    refine nodup_map_of_nodup_map hsites fun s hs s' hs' heq => ?_
    obtain ⟨hurl, hverb⟩ := Prod.mk.inj heq
    rw [((mem_sites_of_holds ht).1 hs).1, ((mem_sites_of_holds ht).1 hs').1, hurl,
      Method.verb_injective hverb]
  rw [List.perm_ext_iff_of_nodup hkeys (nodup_operationKeys ht hmethods)]
  intro key
  rw [List.mem_map, List.mem_flatMap]
  constructor
  · rintro ⟨s, hs, rfl⟩
    obtain ⟨-, e, he, hurl, ho⟩ := (mem_sites_of_holds ht).1 hs
    exact ⟨e, he, List.mem_map.2 ⟨_, ho, by rw [hurl]; rfl⟩⟩
  · rintro ⟨e, he, hkey⟩
    obtain ⟨o, ho, rfl⟩ := List.mem_map.1 hkey
    exact ⟨⟨Route.segments e.1, e.1, o.1, o.2⟩, (mem_sites_of_holds ht).2 ⟨rfl, e, he, rfl, ho⟩, rfl⟩

end Client

end ApiClient
