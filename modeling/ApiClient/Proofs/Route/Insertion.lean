import ApiClient.Proofs.Result
import ApiClient.Proofs.Route.Node
import Mathlib

/-!
# Insertion into a tree of routes

Putting an item at the end of a path changes the nodes on the way to it and no others
(`outline?_insert`), and fails when a node is there that has an item already (`insert_eq_error_iff`).
-/

namespace ApiClient.Route

variable {α : Type} {url : String} {item : α} {path q : List String}

/-! ## Outlines -/

/-- A node without what lies below it: the URL and the item that end there, and the segments of the
nodes below. -/
structure Outline (α : Type) where
  url : Option String
  item : Option α
  segments : List String

/-- The outline of a node. -/
def outline (t : Route α) : Outline α :=
  ⟨t.url, t.item, Table.keys t.children⟩

/-- The outline of the node that segments lead to. -/
def outline? (t : Route α) (path : List String) : Option (Outline α) :=
  (t.node? path).map outline

/-- The outline of a node that is made on the way. -/
def Outline.blank : Outline α :=
  ⟨none, none, []⟩

/-- A node gets a URL and an item. -/
def Outline.ends (o : Outline α) (url : String) (item : α) : Outline α :=
  ⟨some url, some item, o.segments⟩

/-- A node gets a child for a segment, unless it has one. -/
def Outline.leads (o : Outline α) (segment : String) : Outline α :=
  ⟨o.url, o.item, if segment ∈ o.segments then o.segments else o.segments ++ [segment]⟩

/-- The segment that follows `q` on a path that begins with `q`. -/
def next : List String → List String → Option String
  | [], path => path.head?
  | _ :: _, [] => none
  | a :: q, b :: path => if a = b then next q path else none

theorem next_eq_some_iff {segment : String} :
    ∀ {q path : List String}, next q path = some segment ↔ q ++ [segment] <+: path
  | [], [] => by simp [next]
  | [], b :: path => by simp [next, eq_comm]
  | a :: q, [] => by simp [next]
  | a :: q, b :: path => by
    rw [next, List.cons_append, List.cons_prefix_cons, ← next_eq_some_iff]
    split <;> simp_all

theorem next_self (path : List String) : next path path = none := by
  rw [Option.eq_none_iff_forall_ne_some]
  intro segment h
  have := (next_eq_some_iff.1 h).length_le
  simp at this

theorem outline?_cons (t : Route α) (segment : String) (path : List String) :
    t.outline? (segment :: path) =
      (Table.get? t.children segment).bind fun child => child.outline? path := by
  rw [outline?, node?_cons, Option.map_bind]
  rfl

theorem outline?_empty (path : List String) :
    (empty : Route α).outline? path = if path = [] then some .blank else none := by
  cases path with
  | nil => rfl
  | cons segment path => rw [outline?_cons]; rfl

/-- What insertion along a path does to the outline of a node that `q` leads to. -/
def inserted (url : String) (item : α) (path q : List String) (o : Option (Outline α)) :
    Option (Outline α) :=
  if q = path then some ((o.getD .blank).ends url item)
  else
    match next q path with
    | some segment => some ((o.getD .blank).leads segment)
    | none => o

/-- A node that is not there is made as one without anything. -/
theorem inserted_blank (url : String) (item : α) (path q : List String) :
    inserted url item path q ((empty : Route α).outline? q) = inserted url item path q none := by
  rw [outline?_empty]
  by_cases hq : q = []
  · subst hq
    rw [if_pos rfl]
    cases path with
    | nil => rfl
    | cons segment path => rfl
  · rw [if_neg hq]

section Inserted

variable {o : Option (Outline α)}

theorem isSome_inserted :
    (inserted url item path q o).isSome = true ↔ q <+: path ∨ o.isSome = true := by
  unfold inserted
  by_cases hq : q = path
  · simp [hq]
  rw [if_neg hq]
  cases hnext : next q path with
  | some segment =>
    have hpre : q <+: path := (List.prefix_append q [segment]).trans (next_eq_some_iff.1 hnext)
    simp [hpre]
  | none =>
    have hnot : ¬ q <+: path := by
      rintro ⟨rest, rfl⟩
      cases rest with
      | nil => simp at hq
      | cons segment rest =>
        have hsome : next q (q ++ segment :: rest) = some segment :=
          next_eq_some_iff.2 ⟨rest, by simp⟩
        simp [hsome] at hnext
    simp [hnot]

theorem segments_inserted :
    ((inserted url item path q o).getD .blank).segments =
      match next q path with
      | some segment => ((o.getD .blank).leads segment).segments
      | none => (o.getD .blank).segments := by
  unfold inserted
  by_cases hq : q = path
  · subst hq
    simp [next_self, Outline.ends]
  · rw [if_neg hq]
    cases next q path <;> rfl

theorem item_inserted (hq : q ≠ path) :
    ((inserted url item path q o).getD .blank).item = (o.getD .blank).item := by
  unfold inserted
  rw [if_neg hq]
  cases next q path <;> rfl

theorem inserted_some (url : String) (item : α) {o : Outline α} (hq : q ≠ path) :
    ∃ o', inserted url item path q (some o) = some o' ∧ o'.url = o.url ∧ o'.item = o.item := by
  unfold inserted
  rw [if_neg hq]
  cases next q path with
  | some segment => exact ⟨_, rfl, rfl, rfl⟩
  | none => exact ⟨_, rfl, rfl, rfl⟩

end Inserted

/-- Insertion changes the outlines of the nodes on the way and no others. -/
theorem outline?_insert : ∀ {path : List String} {t t' : Route α}, insert url item path t = .ok t' →
    ∀ q, t'.outline? q = inserted url item path q (t.outline? q)
  | [], t, t', h, q => by
    rw [insert] at h
    split at h
    · cases h
    · obtain rfl := Except.ok.inj h
      cases q with
      | nil => rfl
      | cons a q => rw [outline?_cons, outline?_cons, inserted, if_neg (List.cons_ne_nil a q)]; rfl
  | segment :: path, t, t', h, q => by
    rw [insert] at h
    obtain ⟨child, hchild, hpure⟩ := exists_of_bind h
    obtain rfl := Except.ok.inj hpure
    cases q with
    | nil =>
      have hkeys := Table.keys_put t.children segment child
      simp only [outline?, node?_nil, Option.map_some, outline, inserted, next, List.head?_cons,
        Option.getD_some, Outline.leads, hkeys]
      rfl
    | cons a q =>
      by_cases ha : a = segment
      · subst ha
        have hinserted : ∀ o, inserted url item (a :: path) (a :: q) o =
            inserted url item path q o := fun o => by simp [inserted, next]
        rw [outline?_cons, Table.get?_put_self, Option.bind_some, outline?_insert hchild, hinserted,
          outline?_cons]
        cases Table.get? t.children a with
        | none => exact inserted_blank url item path q
        | some old => rfl
      · have hinserted : ∀ o, inserted url item (segment :: path) (a :: q) o = o := fun o => by
          simp [inserted, next, ha]
        rw [outline?_cons, Table.get?_put_of_ne ha, hinserted, outline?_cons]

/-- Insertion fails when the path leads to a node that has an item. -/
theorem insert_eq_error_iff {c : Conflict} : ∀ {path : List String} {t : Route α},
    insert url item path t = .error c ↔
      ∃ node, t.node? path = some node ∧ node.item.isSome = true ∧ c = ⟨node.url.getD "", url⟩
  | [], t => by
    rw [insert, node?_nil]
    cases hitem : t.item with
    | none =>
      refine iff_of_false (by simp) ?_
      rintro ⟨node, hnode, hsome, -⟩
      obtain rfl := Option.some.inj hnode
      rw [hitem] at hsome
      cases hsome
    | some old =>
      constructor
      · intro h
        exact ⟨t, rfl, by rw [hitem]; rfl, (Except.error.inj h).symm⟩
      · rintro ⟨node, hnode, -, rfl⟩
        obtain rfl := Option.some.inj hnode
        rfl
  | segment :: path, t => by
    have hbind : insert url item (segment :: path) t = .error c ↔
        insert url item path ((Table.get? t.children segment).getD empty) = .error c := by
      rw [insert]
      cases insert url item path ((Table.get? t.children segment).getD empty) <;>
        simp [bind, Except.bind, pure, Except.pure]
    rw [hbind, insert_eq_error_iff, node?_cons]
    cases Table.get? t.children segment with
    | none =>
      refine iff_of_false ?_ (by simp)
      rintro ⟨node, hnode, hitem, -⟩
      cases path with
      | nil =>
        obtain rfl := Option.some.inj ((node?_nil _).symm.trans hnode)
        cases hitem
      | cons segment path =>
        rw [node?_cons] at hnode
        cases hnode
    | some child => rfl

end ApiClient.Route
