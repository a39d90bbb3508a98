import ApiClient.Client.Scopes
import ApiClient.Proofs.Naming.Scope
import ApiClient.Proofs.Route.Node
import Mathlib

/-!
# The tree of scopes

The scopes of a client are the tree of its routes with the name of a scope in the place of every
segment (`Client.scopeTree`). No two scopes right below a node have the same name, also where the
segments would be written alike, and every name may stand in a dotted path (`Client.areNamed_scopeTree`).
-/

namespace ApiClient.Client

open Naming

variable {dialect : Dialect} {taken path : List String}

mutual

/-- A tree of routes with the names of scopes in the place of segments. -/
def scopeTree (dialect : Dialect) : Route PathItem → Route PathItem
  | ⟨url, item, children⟩ => ⟨url, item, scopeTreesFrom dialect [] children⟩

/-- The trees of scopes of a list of subtrees, with names that are not taken. -/
def scopeTreesFrom (dialect : Dialect) (taken : List String) :
    List (String × Route PathItem) → List (String × Route PathItem)
  | [] => []
  | (segment, child) :: rest =>
    let name := fresh taken (dialect.scopeName segment)
    (name, scopeTree dialect child) :: scopeTreesFrom dialect (name :: taken) rest

end

/-- The name of a scope: an identifier of the dialect without a dot in it that is the name of no
callable. -/
structure IsScopeWord (dialect : Dialect) (name : String) : Prop where
  isIdentifier : dialect.IsIdentifier name
  dot_notMem : '.' ∉ name.toList
  ne_key : ∀ method : Method, name ≠ method.key

/-- Within every scope of a tree the names of scopes are distinct, and each is such a word. -/
structure AreNamed (dialect : Dialect) (scopes : Route PathItem) : Prop where
  isDistinct : scopes.IsDistinct
  isScopeWord : ∀ path node, scopes.node? path = some node →
    ∀ name ∈ Table.keys node.children, IsScopeWord dialect name

/-! ## Siblings -/

theorem isScopeWord_fresh (dialect : Dialect) (taken : List String) (segment : String) :
    IsScopeWord dialect (fresh taken (dialect.scopeName segment)) := by
  obtain ⟨n, hn⟩ := exists_fresh_eq taken (dialect.scopeName segment)
  rw [hn]
  have hidentifier := isIdentifier_numbered_scopeName dialect segment n
  exact ⟨hidentifier, hidentifier.plain.dot_notMem, numbered_scopeName_ne_key dialect segment n⟩

/-- Scopes with the same parent have distinct names, none of which is taken. -/
theorem nodup_scopeTreesFrom : ∀ (taken : List String) (children : List (String × Route PathItem)),
    (Table.keys (scopeTreesFrom dialect taken children)).Nodup ∧
      ∀ name ∈ Table.keys (scopeTreesFrom dialect taken children), name ∉ taken
  | taken, [] => by
    rw [scopeTreesFrom]
    exact ⟨List.nodup_nil, by simp [Table.keys]⟩
  | taken, (segment, child) :: rest => by
    rw [scopeTreesFrom]
    obtain ⟨hnodup, hfree⟩ := nodup_scopeTreesFrom
      (fresh taken (dialect.scopeName segment) :: taken) rest
    refine ⟨List.nodup_cons.2 ⟨fun hmem => hfree _ hmem List.mem_cons_self, hnodup⟩, ?_⟩
    intro name hname
    rcases List.mem_cons.1 hname with rfl | hname
    · exact fresh_notMem taken _
    · exact fun hmem => hfree name hname (List.mem_cons_of_mem _ hmem)

theorem isScopeWord_of_mem_keys : ∀ {taken : List String}
    {children : List (String × Route PathItem)} {name : String},
    name ∈ Table.keys (scopeTreesFrom dialect taken children) → IsScopeWord dialect name
  | taken, [], name, h => by
    rw [scopeTreesFrom] at h
    cases h
  | taken, (segment, child) :: rest, name, h => by
    rw [scopeTreesFrom] at h
    rcases List.mem_cons.1 h with rfl | h
    · exact isScopeWord_fresh dialect taken segment
    · exact isScopeWord_of_mem_keys h

theorem exists_of_mem_scopeTreesFrom : ∀ {taken : List String}
    {children : List (String × Route PathItem)} {e : String × Route PathItem},
    e ∈ scopeTreesFrom dialect taken children →
      ∃ segment child, (segment, child) ∈ children ∧ e.2 = scopeTree dialect child
  | taken, [], e, h => by
    rw [scopeTreesFrom] at h
    cases h
  | taken, (segment, child) :: rest, e, h => by
    rw [scopeTreesFrom] at h
    rcases List.mem_cons.1 h with rfl | h
    · exact ⟨segment, child, List.mem_cons_self, rfl⟩
    · obtain ⟨segment', child', hmem, heq⟩ := exists_of_mem_scopeTreesFrom h
      exact ⟨segment', child', List.mem_cons_of_mem _ hmem, heq⟩

/-! ## The whole tree -/

/-- Every node of a tree of scopes comes from one of the tree of routes. -/
theorem exists_of_node?_scopeTree {t node : Route PathItem} (ht : t.IsDistinct)
    (h : (scopeTree dialect t).node? path = some node) :
    ∃ q t', t.node? q = some t' ∧ node = scopeTree dialect t' := by
  induction path generalizing t with
  | nil =>
    rw [Route.node?_nil] at h
    exact ⟨[], t, Route.node?_nil t, (Option.some.inj h).symm⟩
  | cons name path ih =>
    obtain ⟨child, hchild, hnode⟩ := Option.bind_eq_some_iff.1 ((Route.node?_cons ..).symm.trans h)
    obtain ⟨url, item, children⟩ := t
    rw [scopeTree] at hchild
    obtain ⟨segment, child', hmem, rfl⟩ := exists_of_mem_scopeTreesFrom (Json.mem_of_lookup hchild)
    have hget : Table.get? children segment = some child' :=
      Table.get?_of_mem (ht [] _ (Route.node?_nil _)) hmem
    obtain ⟨q, t', ht', heq⟩ := ih (ht.child hget) hnode
    exact ⟨segment :: q, t', by rwa [Route.node?_cons_of_get? hget], heq⟩

theorem areNamed_scopeTree {t : Route PathItem} (ht : t.IsDistinct) :
    AreNamed dialect (scopeTree dialect t) where
  isDistinct path node hnode := by
    obtain ⟨q, ⟨url, item, children⟩, -, rfl⟩ := exists_of_node?_scopeTree ht hnode
    rw [scopeTree]
    exact (nodup_scopeTreesFrom _ _).1
  isScopeWord path node hnode name hname := by
    obtain ⟨q, ⟨url, item, children⟩, -, rfl⟩ := exists_of_node?_scopeTree ht hnode
    rw [scopeTree] at hname
    exact isScopeWord_of_mem_keys hname

/-- The names on the way to a scope have no dot in them. -/
theorem AreNamed.dot_notMem {scopes node : Route PathItem} (h : AreNamed dialect scopes)
    (hnode : scopes.node? path = some node) : ∀ name ∈ path, '.' ∉ name.toList := by
  induction path generalizing scopes with
  | nil => simp
  | cons first path ih =>
    obtain ⟨child, hchild, hrest⟩ :=
      Option.bind_eq_some_iff.1 ((Route.node?_cons ..).symm.trans hnode)
    have hword := h.isScopeWord [] scopes (Route.node?_nil _) first (Table.mem_keys_of_get? hchild)
    have hbelow : AreNamed dialect child := by
      refine ⟨h.isDistinct.child hchild, fun path node hnode => ?_⟩
      exact h.isScopeWord (first :: path) node (by rwa [Route.node?_cons_of_get? hchild])
    intro name hname
    rcases List.mem_cons.1 hname with rfl | hname
    · exact hword.dot_notMem
    · exact ih hbelow hrest name hname

end ApiClient.Client
