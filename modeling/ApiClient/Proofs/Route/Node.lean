import ApiClient.Proofs.Json.Table
import ApiClient.Route
import Mathlib

/-!
# Nodes of a tree of routes

A node of a tree is what the segments on the way to it lead to (`Route.node?`). `Route.places` lists
these ways in the order of the walk. When no two siblings have the same segment, the walk comes to the
node of every place, each place once (`Route.forall₂_walk`, `Route.nodup_places`, `Route.mem_places`).
-/

namespace ApiClient.Route

variable {α : Type} {t node : Route α} {segment : String} {path q : List String}

/-- The node that segments lead to. -/
def node? : Route α → List String → Option (Route α)
  | t, [] => some t
  | t, segment :: path => (Table.get? t.children segment).bind fun child => child.node? path

mutual

/-- The segments on the way to a node and to all nodes below it, depth first. -/
def places : Route α → List (List String)
  | ⟨_, _, children⟩ => [] :: placesBelow children

/-- The segments on the way to the nodes of a list of subtrees. -/
def placesBelow : List (String × Route α) → List (List String)
  | [] => []
  | (segment, child) :: rest => (places child).map (segment :: ·) ++ placesBelow rest

end

/-- No two siblings have the same segment. -/
def IsDistinct (t : Route α) : Prop :=
  ∀ path node, t.node? path = some node → Table.Distinct node.children

@[simp] theorem node?_nil (t : Route α) : t.node? [] = some t := by
  rw [node?]

theorem node?_cons (t : Route α) (segment : String) (path : List String) :
    t.node? (segment :: path) =
      (Table.get? t.children segment).bind fun child => child.node? path := by
  rw [node?]

theorem node?_cons_of_get? {child : Route α} (h : Table.get? t.children segment = some child) :
    t.node? (segment :: path) = child.node? path := by
  rw [node?_cons, h, Option.bind_some]

theorem IsDistinct.child {child : Route α} (ht : t.IsDistinct)
    (h : Table.get? t.children segment = some child) : child.IsDistinct :=
  fun path node hnode => ht (segment :: path) node (by rwa [node?_cons_of_get? h])

/-! ## Walking -/

/-- What a walk comes to in a place of the trees below a node. -/
def LeadsBelow (children : Table (Route α)) : List String → Route α → Prop
  | [], _ => False
  | segment :: path, node =>
    ∃ child, Table.get? children segment = some child ∧ child.node? path = some node

mutual

/-- A walk comes to the nodes of the places in order. -/
theorem forall₂_walk : ∀ {t : Route α}, t.IsDistinct →
    List.Forall₂ (fun path node => t.node? path = some node) t.places t.walk
  | ⟨url, item, children⟩, ht => by
    rw [places, walk]
    refine .cons (node?_nil _) ?_
    refine (forall₂_walkAll children ht fun e he => ?_).imp fun path node h => ?_
    · exact Table.get?_of_mem (ht [] _ (node?_nil _)) he
    · rcases path with _ | ⟨segment, path⟩
      · exact h.elim
      · obtain ⟨child, hchild, hnode⟩ := h
        rwa [node?_cons_of_get? hchild]

theorem forall₂_walkAll {url : Option String} {item : Option α} (children : Table (Route α))
    (ht : IsDistinct ⟨url, item, children⟩) : ∀ {entries : List (String × Route α)},
      (∀ e ∈ entries, Table.get? children e.1 = some e.2) →
        List.Forall₂ (LeadsBelow children) (placesBelow entries) (walkAll entries)
  | [], _ => by
    rw [placesBelow, walkAll]
    exact .nil
  | (segment, child) :: rest, hentries => by
    have hchild : Table.get? children segment = some child := hentries _ List.mem_cons_self
    rw [placesBelow, walkAll]
    refine List.rel_append ?_ (forall₂_walkAll children ht fun e he => hentries e (.tail _ he))
    rw [List.forall₂_map_left_iff]
    exact (forall₂_walk (ht.child hchild)).imp fun path node h => ⟨child, hchild, h⟩

end

/-- What a walk comes to is led to by segments. -/
theorem exists_node?_of_mem_walk (ht : t.IsDistinct) (h : node ∈ t.walk) :
    ∃ path, t.node? path = some node := by
  obtain ⟨n, hn, rfl⟩ := List.getElem_of_mem h
  have hwalk := forall₂_walk ht
  exact ⟨_, hwalk.get (hwalk.length_eq ▸ hn) hn⟩

mutual

theorem length_places : ∀ t : Route α, t.places.length = t.walk.length
  | ⟨url, item, children⟩ => by
    rw [places, walk, List.length_cons, List.length_cons, length_placesBelow]

theorem length_placesBelow : ∀ children : List (String × Route α),
    (placesBelow children).length = (walkAll children).length
  | [] => by
    rw [placesBelow, walkAll]
    rfl
  | (segment, child) :: rest => by
    rw [placesBelow, walkAll, List.length_append, List.length_map, List.length_append,
      length_places child, length_placesBelow rest]

end

mutual

theorem nodup_places : ∀ {t : Route α}, t.IsDistinct → t.places.Nodup
  | ⟨url, item, children⟩, ht => by
    have hdistinct : Table.Distinct children := ht [] _ (node?_nil _)
    rw [places, List.nodup_cons]
    refine ⟨fun hmem => ?_, nodup_placesBelow hdistinct fun e he => ?_⟩
    · obtain ⟨segment, -, path, hpath⟩ := exists_of_mem_placesBelow hmem
      cases hpath
    · exact ht.child (Table.get?_of_mem hdistinct he)

theorem nodup_placesBelow : ∀ {children : List (String × Route α)}, Table.Distinct children →
    (∀ e ∈ children, e.2.IsDistinct) → (placesBelow children).Nodup
  | [], _, _ => by
    rw [placesBelow]
    exact List.nodup_nil
  | (segment, child) :: rest, hdistinct, hchildren => by
    obtain ⟨hnot, hrest⟩ := List.nodup_cons.1 hdistinct
    rw [placesBelow, List.nodup_append]
    refine ⟨(nodup_places (hchildren _ List.mem_cons_self)).map List.cons_injective,
      nodup_placesBelow hrest fun e he => hchildren e (.tail _ he), ?_⟩
    rintro p hp p' hp' rfl
    obtain ⟨path, -, rfl⟩ := List.mem_map.1 hp
    obtain ⟨segment', hmem, path', hpath⟩ := exists_of_mem_placesBelow hp'
    obtain ⟨rfl, -⟩ := List.cons.inj hpath
    exact hnot hmem

/-- The places below a node begin with the segment of a child. -/
theorem exists_of_mem_placesBelow : ∀ {children : List (String × Route α)} {path : List String},
    path ∈ placesBelow children → ∃ segment ∈ Table.keys children, ∃ rest, path = segment :: rest
  | [], path, h => by
    rw [placesBelow] at h
    cases h
  | (segment, child) :: rest, path, h => by
    rw [placesBelow] at h
    rcases List.mem_append.1 h with h | h
    · obtain ⟨behind, -, rfl⟩ := List.mem_map.1 h
      exact ⟨segment, List.mem_cons_self, behind, rfl⟩
    · obtain ⟨segment', hmem, hrest⟩ := exists_of_mem_placesBelow h
      exact ⟨segment', .tail _ hmem, hrest⟩

end

theorem cons_mem_placesBelow {child : Route α} : ∀ {children : List (String × Route α)},
    (segment, child) ∈ children → path ∈ child.places → segment :: path ∈ placesBelow children
  | (segment', child') :: rest, hmem, hpath => by
    rw [placesBelow]
    rcases List.mem_cons.1 hmem with heq | hmem
    · obtain ⟨rfl, rfl⟩ := Prod.mk.inj heq
      exact List.mem_append_left _ (List.mem_map_of_mem hpath)
    · exact List.mem_append_right _ (cons_mem_placesBelow hmem hpath)

theorem mem_places_of_node? (h : t.node? path = some node) : path ∈ t.places := by
  induction path generalizing t with
  | nil =>
    obtain ⟨url, item, children⟩ := t
    rw [places]
    exact List.mem_cons_self
  | cons segment path ih =>
    obtain ⟨child, hchild, hnode⟩ := Option.bind_eq_some_iff.1 ((node?_cons ..).symm.trans h)
    obtain ⟨url, item, children⟩ := t
    rw [places]
    exact List.mem_cons_of_mem _ (cons_mem_placesBelow (Json.mem_of_lookup hchild) (ih hnode))

theorem mem_places (ht : t.IsDistinct) : path ∈ t.places ↔ (t.node? path).isSome = true := by
  constructor
  · intro hmem
    obtain ⟨n, hn, rfl⟩ := List.getElem_of_mem hmem
    have hwalk := forall₂_walk ht
    have hnode := hwalk.get hn (hwalk.length_eq ▸ hn)
    simp only [List.get_eq_getElem] at hnode
    rw [hnode]
    rfl
  · intro hsome
    obtain ⟨node, hnode⟩ := Option.isSome_iff_exists.1 hsome
    exact mem_places_of_node? hnode

end ApiClient.Route
