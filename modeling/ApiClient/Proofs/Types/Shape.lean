import ApiClient.Proofs.Types.Completeness
import ApiClient.Proofs.Types.Expression
import Mathlib

/-!
# The shape of a spelling

A type is written as lists and tables around one leaf (`Shape`). The leaf is a type without a name, spelt
the same everywhere, or it is one named type, which is spelt by its short name next to the named types and
by its qualified name everywhere else. The two spellings of a type have one shape, and the named types that
they are said to mention are the leaf or none (`spelling_has_shape`): this holds of every call, from outside
or from within another one, in every state that calls lead to from an empty registry (`Reached`).
-/

namespace ApiClient

open Naming Working

/-! ## Shapes -/

/-- How a type is written around another one: as this one itself, or as a list or a table of what is
written around it. -/
inductive Shape where
  | leaf
  | list (item : Shape)
  | table (value : Shape)
  deriving DecidableEq, Repr

/-- The text of a shape around a leaf. -/
def Shape.text (d : Dialect) (leaf : String) : Shape → String
  | .leaf => leaf
  | .list item => d.sequenceType (item.text d leaf)
  | .table value => d.mapType (value.text d leaf)

namespace TypeExpr

/-- The lists and tables of an expression. -/
def shape : TypeExpr → Shape
  | plain _ => .leaf
  | named _ => .leaf
  | list item => .list item.shape
  | table value => .table value.shape

/-- An expression has one leaf: a text without names, or a name. -/
theorem exists_leaf {d : Dialect} (e : TypeExpr) (hproper : e.IsProper d) :
    (∃ leaf, d.IsPlain leaf ∧ e.names = [] ∧ ∀ write, e.text d write = e.shape.text d leaf) ∨
      ∃ n, e.names = [n] ∧ ∀ write, e.text d write = e.shape.text d (write n) := by
  induction e with
  | plain text => exact Or.inl ⟨text, hproper, rfl, fun _ => rfl⟩
  | named name => exact Or.inr ⟨name, rfl, fun _ => rfl⟩
  | list item ih =>
    obtain ⟨leaf, hplain, hnames, htext⟩ | ⟨n, hnames, htext⟩ := ih hproper
    · exact Or.inl ⟨leaf, hplain, hnames, fun write => congrArg d.sequenceType (htext write)⟩
    · exact Or.inr ⟨n, hnames, fun write => congrArg d.sequenceType (htext write)⟩
  | table value ih =>
    obtain ⟨leaf, hplain, hnames, htext⟩ | ⟨n, hnames, htext⟩ := ih hproper
    · exact Or.inl ⟨leaf, hplain, hnames, fun write => congrArg d.mapType (htext write)⟩
    · exact Or.inr ⟨n, hnames, fun write => congrArg d.mapType (htext write)⟩

end TypeExpr

namespace Resolver

variable {r : Resolver} {s s' : TypeState} {spelling : Spelling}

/-! ## Calls -/

/-- A state that calls lead to from an empty registry, between two calls or in the middle of one. -/
def Reached (r : Resolver) (s : TypeState) : Prop :=
  ∃ journal, r.Path [] ⟨[], journal⟩ s

theorem reached_afterAll (r : Resolver) (journal : Journal) (queries : List Query) :
    r.Reached (r.afterAll ⟨[], journal⟩ queries) :=
  ⟨journal, (grows_afterAll ⟨[], journal⟩ queries).weaken (List.nil_subset _)⟩

theorem Reached.sound (h : r.Reached s) : r.Sound s.types := by
  obtain ⟨journal, hpath⟩ := h
  exact hpath.sound r.sound_nil

/-- A call, from outside or from within another one, leads from `s` to `s'` and gives `spelling`. -/
def Gives (r : Resolver) (s : TypeState) (spelling : Spelling) (s' : TypeState) : Prop :=
  ∃ value name parent property, ∃ bound types steps,
    outcome (r.resolveSteps (r.completeType bound types) steps value name parent property) s =
      (.ok spelling, s')

theorem gives_of_resolve {value : RefOr Schema} {name parent : Option String} {property : Json}
    (h : (outcome (r.resolve value name parent property) s).1.toOption = some spelling) :
    r.Gives s spelling (outcome (r.resolve value name parent property) s).2 :=
  ⟨value, name, parent, property, _, _, _, outcome_of_toOption h⟩

theorem Gives.sound (h : r.Gives s spelling s') (hs : r.Sound s.types) : r.Sound s'.types := by
  obtain ⟨value, name, parent, property, bound, types, steps, hcall⟩ := h
  have hgrows := grows_resolveSteps (completes_completeType (r := r) bound types) steps value name
    parent property
  exact (hgrows.leads hcall).sound hs

theorem Gives.spells (h : r.Gives s spelling s') (hs : r.Sound s.types) :
    r.Spells s'.types.names spelling := by
  obtain ⟨value, name, parent, property, bound, types, steps, hcall⟩ := h
  exact spells_of_resolveSteps (completes_completeType bound types) hs hcall

/-! ## Shapes of spellings -/

/-- The spelling of an expression has the shape of the expression, around the expression's leaf. -/
theorem Spells.exists_shape {names : List String} (h : r.Spells names spelling) : ∃ shape : Shape,
    (∃ leaf, r.dialect.IsPlain leaf ∧
      spelling = ⟨shape.text r.dialect leaf, shape.text r.dialect leaf, []⟩) ∨
    ∃ n ∈ names, spelling =
      ⟨shape.text r.dialect n, shape.text r.dialect (Dialect.qualify r.namespaceName n), [n]⟩ := by
  obtain ⟨e, hproper, hnames, rfl⟩ := h
  refine ⟨e.shape, ?_⟩
  obtain ⟨leaf, hplain, hnone, htext⟩ | ⟨n, hone, htext⟩ := e.exists_leaf hproper
  · refine Or.inl ⟨leaf, hplain, ?_⟩
    rw [TypeExpr.spelling, htext, htext, hnone]
  · refine Or.inr ⟨n, hnames (by simp [hone]), ?_⟩
    rw [TypeExpr.spelling, htext, htext, hone]
    rfl

/-- The spelling that a call gives has a shape around one leaf. Either the leaf is a type without a name,
and both spellings are the same text, which mentions no named type; or the leaf is a registered name, the
only one that the spellings are said to mention, which stands in the one as it is and in the other as the
qualified name. -/
theorem spelling_has_shape (hs : r.Reached s) (h : r.Gives s spelling s') : ∃ shape : Shape,
    (∃ leaf, r.dialect.IsPlain leaf ∧
      spelling = ⟨shape.text r.dialect leaf, shape.text r.dialect leaf, []⟩) ∨
    ∃ n ∈ s'.types.names, spelling =
      ⟨shape.text r.dialect n, shape.text r.dialect (Dialect.qualify r.namespaceName n), [n]⟩ :=
  (h.spells hs.sound).exists_shape

/-- A table of lists of the nodes of the tree, once all components have been resolved. -/
theorem spelling_has_shape_nodes :
    let value : RefOr Schema := .inline (.tableOf (.ref "#/components/schemas/Nodes"))
    let s := tree.afterAll {} [.components]
    let s' := (outcome (tree.resolve value) s).2
    let spelling : Spelling :=
      ⟨"dict[str, list[Node]]", "dict[str, list[acme.schemas.Node]]", ["Node"]⟩
    (tree.Reached s ∧ tree.Gives s spelling s') ∧ ∃ shape : Shape,
      (∃ leaf, Dialect.python.IsPlain leaf ∧
        spelling = ⟨shape.text .python leaf, shape.text .python leaf, []⟩) ∨
      ∃ n ∈ s'.types.names, spelling =
        ⟨shape.text .python n, shape.text .python (Dialect.qualify "acme" n), [n]⟩ := by
  intro value s s' spelling
  have hs : tree.Reached s := reached_afterAll tree [] [.components]
  have hcall : tree.Gives s spelling s' := gives_of_resolve (by decide +kernel)
  exact ⟨⟨hs, hcall⟩, spelling_has_shape hs hcall⟩

end Resolver

end ApiClient
