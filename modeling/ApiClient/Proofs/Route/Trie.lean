import ApiClient.Proofs.Route.Insertion
import Mathlib

/-!
# The tree of routes is a trie

What a tree of routes holds after one more URL (`Holds.insert`), and by induction after all URLs of a
document (`Holds.insertAll`). So the tree of a document is the trie of the segments of its URLs, and
there is none if two URLs have the same segments (`route_tree_is_trie`).
-/

namespace ApiClient.Route

variable {α : Type} {t t' : Route α} {url : String} {item : α} {path q : List String}
  {paths : List (String × α)}

/-! ## First uses -/

theorem eraseDups_concat (segments : List String) (segment : String) :
    (segments ++ [segment]).eraseDups =
      if segment ∈ segments.eraseDups then segments.eraseDups
      else segments.eraseDups ++ [segment] := by
  rw [List.eraseDups_append]
  by_cases h : segment ∈ segments
  · simp [List.removeAll, h]
  · simp [List.removeAll, h, List.eraseDups_cons]

theorem nodup_eraseDups (segments : List String) : segments.eraseDups.Nodup := by
  induction segments using List.reverseRecOn with
  | nil => exact List.nodup_nil
  | append_singleton front segment ih =>
    rw [eraseDups_concat]
    split
    · exact ih
    · exact List.nodup_append.2 ⟨ih, List.nodup_singleton _, by
        rintro a ha b hb rfl
        exact ‹segment ∉ _› (List.mem_singleton.1 hb ▸ ha)⟩

/-! ## Trees of paths -/

/-- The segments that follow `q` in URLs that begin with it, in the order of their first use. -/
def following (paths : List (String × α)) (q : List String) : List String :=
  (paths.filterMap fun e => next q (segments e.1)).eraseDups

/-- The tree holds these URLs with their items and nothing else. -/
structure Holds (paths : List (String × α)) (t : Route α) : Prop where
  reached : ∀ q, (t.outline? q).isSome = true ↔ q = [] ∨ ∃ e ∈ paths, q <+: segments e.1
  segments_eq : ∀ q, ((t.outline? q).getD .blank).segments = following paths q
  ends : ∀ e ∈ paths, ∃ o, t.outline? (segments e.1) = some o ∧ o.url = some e.1 ∧ o.item = some e.2
  passes : ∀ q, (∀ e ∈ paths, segments e.1 ≠ q) → ((t.outline? q).getD .blank).item = none
  nodup : (paths.map fun e => segments e.1).Nodup

theorem holds_root : Holds [] (root : Route α) where
  reached
    | [] => by simp [outline?]
    | segment :: q => by simp [outline?_cons, root, Table.get?]
  segments_eq
    | [] => rfl
    | segment :: q => by simp [outline?_cons, root, Table.get?, Outline.blank, following]
  ends := by simp
  passes
    | [], _ => rfl
    | segment :: q, _ => by simp [outline?_cons, root, Table.get?, Outline.blank]
  nodup := List.nodup_nil

theorem following_concat (paths : List (String × α)) (url : String) (item : α) (q : List String) :
    following (paths ++ [(url, item)]) q =
      match next q (segments url) with
      | some segment =>
        if segment ∈ following paths q then following paths q else following paths q ++ [segment]
      | none => following paths q := by
  unfold following
  rw [List.filterMap_append]
  cases hnext : next q (segments url) with
  | some segment => simp [hnext, ← eraseDups_concat]
  | none => simp [hnext]

/-- A tree that holds a URL with the same segments takes no other one. -/
theorem Holds.insert_eq_error (h : Holds paths t) {e : String × α} (he : e ∈ paths)
    (hsame : segments e.1 = path) : insert url item path t = .error ⟨e.1, url⟩ := by
  obtain ⟨o, ho, hurl, hitem⟩ := h.ends e he
  obtain ⟨node, hnode, rfl⟩ := Option.map_eq_some_iff.1 (hsame ▸ ho)
  refine insert_eq_error_iff.2 ⟨node, hnode, ?_, ?_⟩
  · exact Option.isSome_iff_exists.2 ⟨e.2, hitem⟩
  · have hnodeUrl : node.url = some e.1 := hurl
    rw [hnodeUrl, Option.getD_some]

/-- A tree that does not take a URL holds one with the same segments. -/
theorem Holds.exists_of_insert {c : Conflict} (h : Holds paths t)
    (herror : insert url item path t = .error c) :
    ∃ e ∈ paths, segments e.1 = path ∧ c = ⟨e.1, url⟩ := by
  by_cases hnone : ∀ e ∈ paths, segments e.1 ≠ path
  · obtain ⟨node, hnode, hitem, -⟩ := insert_eq_error_iff.1 herror
    have hpasses := h.passes path hnone
    rw [outline?, hnode] at hpasses
    rw [show node.item = none from hpasses] at hitem
    cases hitem
  · push Not at hnone
    obtain ⟨e, he, hsame⟩ := hnone
    refine ⟨e, he, hsame, ?_⟩
    exact Except.error.inj (herror.symm.trans (h.insert_eq_error he hsame))

/-- What a tree holds after an insertion. -/
theorem Holds.insert (h : Holds paths t) (hinsert : insert url item (segments url) t = .ok t') :
    Holds (paths ++ [(url, item)]) t' := by
  have hnew : ∀ e ∈ paths, segments e.1 ≠ segments url := fun e he hsame => by
    rw [h.insert_eq_error he hsame] at hinsert
    cases hinsert
  have houtline := outline?_insert hinsert
  refine ⟨fun q => ?_, fun q => ?_, fun e he => ?_, fun q hq => ?_, ?_⟩
  · rw [houtline, isSome_inserted, h.reached]
    simp only [List.mem_append, List.mem_singleton, or_and_right, exists_or, exists_eq_left]
    rw [or_left_comm]
    exact or_congr_right or_comm
  · rw [houtline, segments_inserted, following_concat, ← h.segments_eq q]
    rfl
  · rw [houtline]
    rcases List.mem_append.1 he with he | he
    · obtain ⟨o, ho, hurl, hitem⟩ := h.ends e he
      obtain ⟨o', ho', hurl', hitem'⟩ := inserted_some url item (o := o) (hnew e he)
      exact ⟨o', ho ▸ ho', hurl'.trans hurl, hitem'.trans hitem⟩
    · obtain rfl := List.mem_singleton.1 he
      exact ⟨_, if_pos rfl, rfl, rfl⟩
  · have hne : q ≠ segments url := fun heq => hq (url, item) (by simp) heq.symm
    rw [houtline, item_inserted hne]
    exact h.passes q fun e he => hq e (List.mem_append_left _ he)
  · rw [List.map_append, List.nodup_append]
    refine ⟨h.nodup, List.nodup_singleton _, ?_⟩
    rintro p hp p' hp' rfl
    obtain ⟨e, he, rfl⟩ := List.mem_map.1 hp
    exact hnew e he (List.mem_singleton.1 hp')

theorem Holds.insertAll : ∀ {more paths : List (String × α)} {t t' : Route α}, Holds paths t →
    insertAll more t = .ok t' → Holds (paths ++ more) t'
  | [], paths, t, t', h, hinsert => by
    obtain rfl := Except.ok.inj hinsert
    rwa [List.append_nil]
  | (url, item) :: rest, paths, t, t', h, hinsert => by
    rw [Route.insertAll] at hinsert
    obtain ⟨t₁, hfirst, hrest⟩ := exists_of_bind hinsert
    have hall := (h.insert hfirst).insertAll hrest
    rwa [List.append_assoc, List.singleton_append] at hall

/-- Insertion stops at a URL with the segments of an earlier one. -/
theorem Holds.exists_of_insertAll {c : Conflict} : ∀ {more paths : List (String × α)} {t : Route α},
    Holds paths t → Route.insertAll more t = .error c →
      ∃ front b back, more = front ++ b :: back ∧
        ∃ a ∈ paths ++ front, segments a.1 = segments b.1 ∧ c = ⟨a.1, b.1⟩
  | [], paths, t, h, hinsert => by cases hinsert
  | (url, item) :: rest, paths, t, h, hinsert => by
    rw [Route.insertAll] at hinsert
    cases hfirst : Route.insert url item (segments url) t with
    | error e =>
      rw [hfirst] at hinsert
      obtain rfl := Except.error.inj hinsert
      obtain ⟨a, ha, hsame, rfl⟩ := h.exists_of_insert hfirst
      exact ⟨[], (url, item), rest, rfl, a, by simpa using ha, hsame, rfl⟩
    | ok t₁ =>
      rw [hfirst] at hinsert
      obtain ⟨front, b, back, rfl, a, ha, hsame, rfl⟩ := (h.insert hfirst).exists_of_insertAll hinsert
      exact ⟨(url, item) :: front, b, back, rfl, a, by simpa using ha, hsame, rfl⟩

theorem Holds.of_ofPaths {paths : Table α} {tree : Route α} (h : ofPaths paths = .ok tree) :
    Holds paths tree :=
  holds_root.insertAll h

/-- A node where no URL ends has none, or the slash of the root. -/
def PassesBare (t : Route α) : Prop :=
  ∀ q o, t.outline? q = some o → o.item = none → o.url = none ∨ o.url = some "/"

theorem passesBare_root : PassesBare (root : Route α) := by
  rintro (_ | ⟨segment, q⟩) o ho -
  · obtain rfl := Option.some.inj ho
    exact Or.inr rfl
  · simp [outline?_cons, root, Table.get?] at ho

theorem PassesBare.insert (h : PassesBare t) (hinsert : insert url item path t = .ok t') :
    PassesBare t' := by
  intro q o ho hitem
  rw [outline?_insert hinsert, inserted] at ho
  split_ifs at ho
  · obtain rfl := Option.some.inj ho
    cases hitem
  split at ho
  · obtain rfl := Option.some.inj ho
    cases hold : t.outline? q with
    | none => exact Or.inl rfl
    | some old =>
      rw [hold] at hitem
      exact h q old hold hitem
  · exact h q o ho hitem

theorem PassesBare.insertAll : ∀ {more : List (String × α)} {t t' : Route α}, PassesBare t →
    insertAll more t = .ok t' → PassesBare t'
  | [], t, t', h, hinsert => by
    obtain rfl := Except.ok.inj hinsert
    exact h
  | (url, item) :: rest, t, t', h, hinsert => by
    rw [Route.insertAll] at hinsert
    obtain ⟨t₁, hfirst, hrest⟩ := exists_of_bind hinsert
    exact (h.insert hfirst).insertAll hrest

theorem PassesBare.of_ofPaths {paths : Table α} {tree : Route α} (h : ofPaths paths = .ok tree) :
    PassesBare tree :=
  passesBare_root.insertAll h

/-! ## The trie -/

/-- The tree is the trie of the segments of these URLs: a URL's segments lead to a node with the URL
and its item, and to one of its own; every node lies on the way to a URL and ends one if nothing lies
below it; siblings stand in the order of the first URL that leads to them; and a walk comes to every
node once. Only the root of a tree without URLs lies on the way to none. -/
structure IsTrie (paths : Table α) (tree : Route α) : Prop where
  ends : ∀ url item, (url, item) ∈ paths →
    ∃ node, tree.node? (segments url) = some node ∧ node.url = some url ∧ node.item = some item
  bijOn : Set.BijOn segments {url | url ∈ paths.keys}
    {path | ∃ node, tree.node? path = some node ∧ node.item.isSome = true}
  onWay : ∀ path node, tree.node? path = some node →
    (∃ url ∈ paths.keys, path <+: segments url) ∨ path = [] ∧ paths = []
  leaf : ∀ path node, tree.node? path = some node → node.children = [] → path ≠ [] →
    ∃ url item, (url, item) ∈ paths ∧ segments url = path ∧
      node.url = some url ∧ node.item = some item
  siblings : ∀ path node, tree.node? path = some node →
    Table.keys node.children = following paths path
  walk : List.Forall₂ (fun path node => tree.node? path = some node) tree.places tree.walk
  nodup : tree.places.Nodup
  mem_places : ∀ path, path ∈ tree.places ↔ (tree.node? path).isSome = true

namespace Holds

variable {node : Route α} (h : Holds paths t)

include h

theorem exists_node {e : String × α} (he : e ∈ paths) :
    ∃ node, t.node? (segments e.1) = some node ∧ node.url = some e.1 ∧ node.item = some e.2 := by
  obtain ⟨o, ho, hurl, hitem⟩ := h.ends e he
  obtain ⟨node, hnode, rfl⟩ := Option.map_eq_some_iff.1 ho
  exact ⟨node, hnode, hurl, hitem⟩

theorem keys_children (hnode : t.node? path = some node) :
    Table.keys node.children = following paths path := by
  have hsegments := h.segments_eq path
  rwa [outline?, hnode] at hsegments

theorem isDistinct : t.IsDistinct := by
  intro path node hnode
  rw [Table.Distinct, h.keys_children hnode]
  exact nodup_eraseDups _

/-- A node with an item is where a URL ends. -/
theorem exists_of_item (hnode : t.node? path = some node) (hitem : node.item.isSome = true) :
    ∃ e ∈ paths, segments e.1 = path := by
  by_contra hnone
  push Not at hnone
  have hpasses := h.passes path hnone
  rw [outline?, hnode] at hpasses
  have hblank : node.item = none := hpasses
  simp [hblank] at hitem

/-- Where a walk comes to, a URL of the document ends with its item, or none ends and the node has no URL
but the slash of the root. -/
theorem exists_of_mem_walk (hbare : PassesBare t) (hmem : node ∈ t.walk) :
    (∃ e ∈ paths, node.url = some e.1 ∧ node.item = some e.2) ∨
      node.item = none ∧ (node.url = none ∨ node.url = some "/") := by
  obtain ⟨path, hnode⟩ := exists_node?_of_mem_walk h.isDistinct hmem
  cases hitem : node.item with
  | none =>
    refine Or.inr ⟨rfl, hbare path node.outline ?_ hitem⟩
    rw [outline?, hnode, Option.map_some]
  | some item =>
    obtain ⟨e, he, rfl⟩ := h.exists_of_item hnode (by rw [hitem]; rfl)
    obtain ⟨_, hend, hurl, hend'⟩ := h.exists_node he
    obtain rfl := Option.some.inj (hnode.symm.trans hend)
    exact Or.inl ⟨e, he, hurl, hitem ▸ hend'⟩

theorem exists_prefix (hnode : t.node? path = some node) (hpath : path ≠ []) :
    ∃ e ∈ paths, path <+: segments e.1 := by
  have hsome : (t.outline? path).isSome = true := by rw [outline?, hnode]; rfl
  exact ((h.reached path).1 hsome).resolve_left hpath

/-- A node without nodes below it is where a URL ends, unless it is the root. -/
theorem exists_of_leaf (hnode : t.node? path = some node) (hleaf : node.children = [])
    (hpath : path ≠ []) : ∃ e ∈ paths, segments e.1 = path := by
  obtain ⟨e, he, rest, hrest⟩ := h.exists_prefix hnode hpath
  rcases rest with _ | ⟨segment, rest⟩
  · exact ⟨e, he, by rw [← hrest, List.append_nil]⟩
  · have hnext : next path (segments e.1) = some segment :=
      next_eq_some_iff.2 ⟨rest, by rw [← hrest, List.append_assoc, List.singleton_append]⟩
    have hmem : segment ∈ following paths path :=
      List.mem_eraseDups.2 (List.mem_filterMap.2 ⟨e, he, hnext⟩)
    rw [← h.keys_children hnode, hleaf] at hmem
    cases hmem

theorem eq_of_segments_eq {a b : String × α} (ha : a ∈ paths) (hb : b ∈ paths)
    (hsame : segments a.1 = segments b.1) : a = b :=
  List.inj_on_of_nodup_map h.nodup ha hb hsame

theorem isTrie : IsTrie paths t where
  ends _ _ he := h.exists_node he
  bijOn := by
    refine ⟨fun url hurl => ?_, fun a ha b hb hsame => ?_, fun path => ?_⟩
    · obtain ⟨e, he, rfl⟩ := List.mem_map.1 hurl
      obtain ⟨node, hnode, -, hitem⟩ := h.exists_node he
      exact ⟨node, hnode, by rw [hitem]; rfl⟩
    · obtain ⟨e, he, rfl⟩ := List.mem_map.1 ha
      obtain ⟨e', he', rfl⟩ := List.mem_map.1 hb
      rw [h.eq_of_segments_eq he he' hsame]
    · rintro ⟨node, hnode, hitem⟩
      obtain ⟨e, he, hsegments⟩ := h.exists_of_item hnode hitem
      exact ⟨e.1, List.mem_map_of_mem he, hsegments⟩
  onWay path node hnode := by
    rcases eq_or_ne path [] with rfl | hpath
    · rcases paths with _ | ⟨e, rest⟩
      · exact Or.inr ⟨rfl, rfl⟩
      · exact Or.inl ⟨e.1, List.mem_cons_self, List.nil_prefix⟩
    · obtain ⟨e, he, hpre⟩ := h.exists_prefix hnode hpath
      exact Or.inl ⟨e.1, List.mem_map_of_mem he, hpre⟩
  leaf path node hnode hleaf hpath := by
    obtain ⟨e, he, rfl⟩ := h.exists_of_leaf hnode hleaf hpath
    obtain ⟨node', hnode', hurl, hitem⟩ := h.exists_node he
    obtain rfl := Option.some.inj (hnode.symm.trans hnode')
    exact ⟨e.1, e.2, he, rfl, hurl, hitem⟩
  siblings _ _ hnode := h.keys_children hnode
  walk := forall₂_walk h.isDistinct
  nodup := nodup_places h.isDistinct
  mem_places _ := Route.mem_places h.isDistinct

end Holds

/-- Two URLs that lead to the same node are named in the order in which they were met. -/
theorem exists_of_ofPaths {paths : Table α} (hpaths : paths.Distinct) {c : Conflict}
    (h : ofPaths paths = .error c) : ∃ a ∈ paths, ∃ b ∈ paths,
      a.1 ≠ b.1 ∧ segments a.1 = segments b.1 ∧ c = ⟨a.1, b.1⟩ := by
  obtain ⟨front, b, back, rfl, a, ha, hsame, rfl⟩ := holds_root.exists_of_insertAll h
  rw [List.nil_append] at ha
  refine ⟨a, List.mem_append_left _ ha, b, by simp, fun heq => ?_, hsame, rfl⟩
  rw [Table.Distinct, Table.keys, List.map_append, List.nodup_append] at hpaths
  exact hpaths.2.2 a.1 (List.mem_map_of_mem ha) b.1 (by simp) heq

/-- The tree of a document's URLs is the trie of their segments. There is none exactly if two URLs
have the same segments, and then two such URLs are named. -/
theorem route_tree_is_trie (paths : Table α) (hpaths : paths.Distinct) :
    ((∃ c, ofPaths paths = .error c) ↔
      ∃ a ∈ paths, ∃ b ∈ paths, a.1 ≠ b.1 ∧ segments a.1 = segments b.1) ∧
    (∀ c, ofPaths paths = .error c → ∃ a ∈ paths, ∃ b ∈ paths,
      a.1 ≠ b.1 ∧ segments a.1 = segments b.1 ∧ c = ⟨a.1, b.1⟩) ∧
    ∀ tree, ofPaths paths = .ok tree → IsTrie paths tree := by
  refine ⟨⟨?_, ?_⟩, fun c => exists_of_ofPaths hpaths, fun tree h => (Holds.of_ofPaths h).isTrie⟩
  · rintro ⟨c, hc⟩
    obtain ⟨a, ha, b, hb, hne, hsame, -⟩ := exists_of_ofPaths hpaths hc
    exact ⟨a, ha, b, hb, hne, hsame⟩
  · rintro ⟨a, ha, b, hb, hne, hsame⟩
    cases htree : ofPaths paths with
    | error c => exact ⟨c, rfl⟩
    | ok tree =>
      have heq := (Holds.of_ofPaths htree).eq_of_segments_eq ha hb hsame
      exact absurd (congrArg Prod.fst heq) hne

/-- The root of a tree without URLs lies on the way to no URL. -/
theorem root_on_no_way : ofPaths ([] : Table Unit) = .ok root ∧
    (root : Route Unit).node? [] = some root ∧
      ¬ ∃ url ∈ Table.keys ([] : Table Unit), [] <+: segments url :=
  ⟨rfl, node?_nil _, by rintro ⟨url, hurl, -⟩; cases hurl⟩

/-- Teams, one of them, and its members, beside the root and a doubled slash. -/
def teamPaths : Table Nat :=
  [("/teams/{id}/members", 1), ("/", 2), ("/users", 3), ("//teams", 4)]

theorem route_tree_is_trie_teams : teamPaths.Distinct ∧
    (¬ ∃ a ∈ teamPaths, ∃ b ∈ teamPaths, a.1 ≠ b.1 ∧ segments a.1 = segments b.1) ∧
    ∃ tree, ofPaths teamPaths = .ok tree ∧ IsTrie teamPaths tree := by
  have hdistinct : teamPaths.Distinct := by
    rw [Table.Distinct]
    decide
  obtain ⟨hiff, -, htrie⟩ := route_tree_is_trie teamPaths hdistinct
  cases htree : ofPaths teamPaths with
  | error c =>
    have hnone : (ofPaths teamPaths).toOption.isSome = true := by decide +kernel
    rw [htree] at hnone
    cases hnone
  | ok tree =>
    refine ⟨hdistinct, fun hsame => ?_, tree, rfl, htrie tree htree⟩
    obtain ⟨c, hc⟩ := hiff.2 hsame
    rw [htree] at hc
    cases hc

end ApiClient.Route
