import ApiClient.Proofs.Client.TypeName
import ApiClient.Proofs.Types.Shape
import Mathlib

/-!
# Types that are spelt the same

A text can be read as lists and tables around one word in one way only (`Shape.text_inj`). So two types
with the same short spelling mention the same named type, unless one mentions a type that has the name of a
word in the spelling of a type without a name (`Dialect.homonyms`): in a Kotlin client a scalar or the unit
type, in a Python client the values of a table of anything (`short_tells_named`). Nothing keeps the names
of types clear of these words (`short_of_namesakes`).
-/

namespace ApiClient

open Naming Working

/-! ## Reading a spelling -/

namespace Dialect

theorem sequenceType_inj (d : Dialect) {a b : String} :
    d.sequenceType a = d.sequenceType b ↔ a = b := by
  cases d <;> simp [sequenceType]

theorem mapType_inj (d : Dialect) {a b : String} : d.mapType a = d.mapType b ↔ a = b := by
  cases d <;> simp [mapType]

theorem sequenceType_ne_mapType (d : Dialect) (a b : String) : d.sequenceType a ≠ d.mapType b := by
  intro h
  have hchars := congrArg String.toList h
  cases d <;> simp [sequenceType, mapType] at hchars

theorem not_isPlainName_sequenceType (d : Dialect) (item : String) :
    ¬IsPlainName (d.sequenceType item) := by
  intro h
  cases d with
  | python => exact absurd (h '[' (by simp [sequenceType])) (by decide)
  | kotlin => exact absurd (h '<' (by simp [sequenceType])) (by decide)

theorem not_isPlainName_mapType (d : Dialect) (value : String) : ¬IsPlainName (d.mapType value) := by
  intro h
  cases d with
  | python => exact absurd (h '[' (by simp [mapType])) (by decide)
  | kotlin => exact absurd (h '<' (by simp [mapType])) (by decide)

end Dialect

namespace Shape

/-- The shape that has the second one for its leaf. -/
def comp : Shape → Shape → Shape
  | .leaf, inner => inner
  | .list item, inner => .list (item.comp inner)
  | .table value, inner => .table (value.comp inner)

theorem text_comp (d : Dialect) (outer inner : Shape) (leaf : String) :
    (outer.comp inner).text d leaf = outer.text d (inner.text d leaf) := by
  induction outer with
  | leaf => rfl
  | list item ih => exact congrArg d.sequenceType ih
  | table value ih => exact congrArg d.mapType ih

/-- A text is a shape around a word in one way only. -/
theorem text_inj {d : Dialect} {a b : Shape} {v w : String} (hv : IsPlainName v)
    (hw : IsPlainName w) (h : a.text d v = b.text d w) : a = b ∧ v = w := by
  induction a generalizing b with
  | leaf =>
    cases b with
    | leaf => exact ⟨rfl, h⟩
    | list item =>
      rw [text] at h
      exact absurd (h ▸ hv) (d.not_isPlainName_sequenceType _)
    | table value =>
      rw [text] at h
      exact absurd (h ▸ hv) (d.not_isPlainName_mapType _)
  | list item ih =>
    cases b with
    | leaf =>
      rw [text, text] at h
      exact absurd (h ▸ hw) (d.not_isPlainName_sequenceType _)
    | list item' =>
      obtain ⟨rfl, hvw⟩ := ih (d.sequenceType_inj.1 h)
      exact ⟨rfl, hvw⟩
    | table value => exact absurd h (d.sequenceType_ne_mapType _ _)
  | table value ih =>
    cases b with
    | leaf =>
      rw [text, text] at h
      exact absurd (h ▸ hw) (d.not_isPlainName_mapType _)
    | list item => exact absurd h.symm (d.sequenceType_ne_mapType _ _)
    | table value' =>
      obtain ⟨rfl, hvw⟩ := ih (d.mapType_inj.1 h)
      exact ⟨rfl, hvw⟩

end Shape

/-! ## Words of a dialect -/

namespace Dialect

/-- The types without a name that are spelt with a word which may be the name of a type, each as a shape
around this word. -/
def homonyms : Dialect → List (Shape × String)
  | python => [(.table .leaf, "Any")]
  | kotlin =>
    [(.leaf, "Unit"), (.leaf, "String"), (.leaf, "ByteArray"), (.leaf, "Int"), (.leaf, "Long"),
      (.leaf, "Float"), (.leaf, "Double"), (.leaf, "Boolean")]

/-- The text spells a type without a name, and the same type with the named type `name` in the place of a
word. -/
def Shares (d : Dialect) (text name : String) : Prop :=
  ∃ outer own, (own, name) ∈ d.homonyms ∧ text = Shape.text d (own.text d name) outer

theorem isPlain_of_mem_homonyms {d : Dialect} {own : Shape} {name : String}
    (h : (own, name) ∈ d.homonyms) : d.IsPlain (own.text d name) := by
  have hscalar : ∀ type format text, d.scalarType type format = some text → d.IsPlain text :=
    fun type format _ htype => Or.inr ⟨type, format, htype⟩
  cases d with
  | python =>
    obtain ⟨rfl, rfl⟩ := Prod.mk.inj (List.mem_singleton.1 h)
    exact Or.inl rfl
  | kotlin =>
    simp only [homonyms, List.mem_cons, Prod.mk.injEq, List.not_mem_nil, or_false] at h
    rcases h with ⟨rfl, rfl⟩ | ⟨rfl, rfl⟩ | ⟨rfl, rfl⟩ | ⟨rfl, rfl⟩ | ⟨rfl, rfl⟩ | ⟨rfl, rfl⟩ |
      ⟨rfl, rfl⟩ | ⟨rfl, rfl⟩
    · exact Or.inl rfl
    · exact hscalar "string" .null _ rfl
    · exact hscalar "string" (.str "binary") _ rfl
    · exact hscalar "integer" .null _ rfl
    · exact hscalar "integer" (.str "int64") _ rfl
    · exact hscalar "number" (.str "float") _ rfl
    · exact hscalar "number" .null _ rfl
    · exact hscalar "boolean" .null _ rfl

theorem not_startsGuarded_of_isLower {name : String} (h : name.toList.head?.any Char.isLower = true) :
    ¬StartsGuarded name := by
  rintro ⟨c, rest, hname, hc⟩
  rw [hname, List.head?_cons, Option.any_some] at h
  rcases hc with hupper | ⟨rfl, -⟩
  · exact absurd h (by simp [Char.not_isLower_of_isUpper hupper])
  · exact absurd h (by decide)

theorem mem_homonyms_of_scalarType {d : Dialect} {type text : String} {format : Json}
    (h : d.scalarType type format = some text) (hname : StartsGuarded text) :
    (.leaf, text) ∈ d.homonyms := by
  have hsmall : ∀ {p : Prop}, text.toList.head?.any Char.isLower = true → p := fun hlower =>
    absurd hname (not_startsGuarded_of_isLower hlower)
  unfold scalarType at h
  split at h
  case h_9 => cases h
  all_goals obtain rfl := Option.some.inj h
  · exact hsmall (by split <;> decide)
  · exact hsmall (by decide)
  · exact hsmall (by decide)
  · exact hsmall (by decide)
  all_goals first | decide | (split <;> decide)

/-- A type without a name is spelt with one word. -/
theorem exists_word_of_isPlain {d : Dialect} {leaf : String} (h : d.IsPlain leaf) :
    ∃ own word, IsPlainName word ∧ leaf = Shape.text d word own ∧
      (StartsGuarded word → (own, word) ∈ d.homonyms) := by
  obtain rfl | ⟨type, format, htype⟩ := h
  · cases d with
    | python => exact ⟨.table .leaf, "Any", isPlainName_of_all (by decide), rfl, fun _ => by decide⟩
    | kotlin => exact ⟨.leaf, "Unit", isPlainName_of_all (by decide), rfl, fun _ => by decide⟩
  · exact ⟨.leaf, leaf, isPlainName_of_scalarType htype, rfl, mem_homonyms_of_scalarType htype⟩

end Dialect

/-! ## Types without names -/

/-- A schema of a scalar. -/
def Schema.scalar (type : String) (format : Json) : Schema :=
  ⟨.str type, format, .null, .null, none, [], none, none, none, .null, .null, false, false, false,
    false, [], [], [], none, none⟩

/-- The schema of the lists and tables of a shape. -/
def Shape.around (base : Schema) : Shape → Schema
  | .leaf => base
  | .list item => .listOf (.inline (item.around base))
  | .table value => .tableOf (.inline (value.around base))

namespace Resolver

variable {r : Resolver} {s s' : TypeState}

theorem exists_resolveKind_of_isPlain {leaf : String} (h : r.dialect.IsPlain leaf) :
    ∃ base, ∀ complete resolve,
      r.resolveKind complete resolve base none none .null = pure (.plain leaf) := by
  obtain rfl | ⟨type, format, htype⟩ := h
  · exact ⟨.record [], fun complete resolve => rfl⟩
  · refine ⟨.scalar type format, fun complete resolve => ?_⟩
    have hnone : ∀ kind, kind = "object" ∨ kind = "array" →
        r.dialect.scalarType kind format = none := by
      rintro kind (rfl | rfl) <;> cases r.dialect <;> rfl
    have hkind : (Schema.scalar type format).kind = .str type := rfl
    rw [resolveKind, hkind]
    split
    · rename_i heq
      obtain rfl := Json.str.inj heq
      rw [hnone _ (Or.inl rfl)] at htype
      cases htype
    · rename_i heq
      obtain rfl := Json.str.inj heq
      rw [hnone _ (Or.inr rfl)] at htype
      cases htype
    · have hformat : (Schema.scalar type format).format = format := rfl
      simp only [resolveScalar, hformat, htype]

theorem outcome_resolveSteps_unnamed (complete : String → Schema → Resolving Unit) (steps : Nat)
    (schema : Schema) (s : TypeState) :
    outcome (r.resolveSteps complete (steps + 1) (.inline schema) none none .null) s =
      outcome (r.resolveKind complete (r.resolveSteps complete steps) schema none none .null) s := by
  have hsubject : r.subject (.inline schema) none none .null = .ok (schema, none) := rfl
  simp [outcome_resolveSteps, hsubject, hops]

/-- A list or a table takes one step more than what it passes on to. -/
theorem outcome_resolveSteps_of_next {complete : String → Schema → Resolving Unit}
    {schema v : Schema} (hnext : schema.next = some (.inline v)) {spelling : Spelling}
    (hinner : ∀ {steps : Nat}, Schema.weight v ≤ steps →
      outcome (r.resolveSteps complete steps (.inline v) none none .null) s = (.ok spelling, s))
    {steps : Nat} (hsteps : Schema.weight schema ≤ steps) :
    outcome (r.resolveSteps complete steps (.inline schema) none none .null) s =
      (.ok (spelling.map (schema.wrap r.dialect)), s) := by
  have hless : Schema.weight v < Schema.weight schema :=
    Schema.refWeight_lt_of_mem_inner (Schema.mem_inner_of_next hnext)
  obtain ⟨steps, rfl⟩ : ∃ k, steps = k + 1 := ⟨steps - 1, by omega⟩
  have hnaming : schema.naming none none .null = (none, none, .null) := by
    rcases schema.naming_cases with h | h <;> exact h none none .null
  rw [outcome_resolveSteps_unnamed, resolveKind_of_next hnext, hnaming]
  exact outcome_bind_of_ok (hinner (by omega))

/-- Lists and tables of a type without a name are spelt without a change to the state. -/
theorem outcome_resolveSteps_around {complete : String → Schema → Resolving Unit} {base : Schema}
    {leaf : String}
    (hbase : ∀ resolve, r.resolveKind complete resolve base none none .null = pure (.plain leaf))
    (shape : Shape) {steps : Nat} (hsteps : Schema.weight (shape.around base) ≤ steps) :
    outcome (r.resolveSteps complete steps (.inline (shape.around base)) none none .null) s =
      (.ok (.plain (shape.text r.dialect leaf)), s) := by
  induction shape generalizing steps with
  | leaf =>
    have hpos : 0 < Schema.weight (Shape.leaf.around base) := Schema.weight_pos _
    obtain ⟨steps, rfl⟩ : ∃ k, steps = k + 1 := ⟨steps - 1, by omega⟩
    rw [outcome_resolveSteps_unnamed]
    exact congrArg (outcome · s) (hbase _)
  | list item ih => exact outcome_resolveSteps_of_next rfl ih hsteps
  | table value ih => exact outcome_resolveSteps_of_next rfl ih hsteps

/-- Every shape around a type without a name is spelt by some call, whatever is registered. -/
theorem exists_resolve_plain {leaf : String} (h : r.dialect.IsPlain leaf) (shape : Shape)
    (s : TypeState) : ∃ value,
      outcome (r.resolve value) s = (.ok (.plain (shape.text r.dialect leaf)), s) := by
  obtain ⟨base, hbase⟩ := exists_resolveKind_of_isPlain h
  have hbound := r.bound_eq (.inline (shape.around base))
  rw [Schema.refWeight] at hbound
  exact ⟨_, outcome_resolveSteps_around (hbase _) shape (by omega)⟩

/-! ## Spellings of two types -/

theorem Sound.startsGuarded {types : Registry} (h : r.Sound types) {n : String}
    (hn : n ∈ types.names) : IsPlainName n ∧ StartsGuarded n := by
  obtain ⟨t, ht, rfl⟩ := List.mem_map.1 hn
  have hname := (h.candidate t.head (List.mem_map_of_mem ht)).isTypeName
  exact ⟨hname.isIdentifier.plain, hname.startsGuarded⟩

/-- A named type is spelt like a type without a name only if it has the name of a word of the dialect. -/
theorem shares_of_text_eq {d : Dialect} {outer shape : Shape} {leaf n : String}
    (hleaf : d.IsPlain leaf) (hplain : IsPlainName n) (hguarded : StartsGuarded n)
    (h : shape.text d n = outer.text d leaf) : d.Shares (shape.text d n) n := by
  obtain ⟨own, word, hword, rfl, hmem⟩ := Dialect.exists_word_of_isPlain hleaf
  rw [← Shape.text_comp] at h
  obtain ⟨rfl, rfl⟩ := Shape.text_inj hplain hword h
  exact ⟨outer, own, hmem hguarded, Shape.text_comp d outer own n⟩

/-- Two calls that give the same short spelling give the same named types, unless the one mentions a type
that has the name of a word of the dialect, and the other gives the type without a name that is spelt with
this word. The types of the second kind are given by some call, whatever is registered, so a type with
such a name is never told from them. -/
theorem short_tells_named (r : Resolver) :
    (∀ s₁ a s₁' s₂ b s₂', r.Reached s₁ → r.Gives s₁ a s₁' → r.Reached s₂ → r.Gives s₂ b s₂' →
      a.short = b.short → a.named = b.named ∨ ∃ n, r.dialect.Shares a.short n ∧
        (a.named = [n] ∧ b.named = [] ∨ a.named = [] ∧ b.named = [n])) ∧
    ∀ text n, r.dialect.Shares text n → ∀ s, ∃ value,
      outcome (r.resolve value) s = (.ok (.plain text), s) := by
  refine ⟨fun s₁ a s₁' s₂ b s₂' hs₁ ha hs₂ hb hshort => ?_, ?_⟩
  · obtain ⟨shape, ⟨leaf, hleaf, rfl⟩ | ⟨n, hn, rfl⟩⟩ := (ha.spells hs₁.sound).exists_shape <;>
      obtain ⟨shape', ⟨leaf', hleaf', rfl⟩ | ⟨n', hn', rfl⟩⟩ := (hb.spells hs₂.sound).exists_shape
    · exact Or.inl rfl
    · obtain ⟨hplain, hguarded⟩ := (hb.sound hs₂.sound).startsGuarded hn'
      exact Or.inr ⟨n', hshort ▸ shares_of_text_eq hleaf hplain hguarded hshort.symm,
        Or.inr ⟨rfl, rfl⟩⟩
    · obtain ⟨hplain, hguarded⟩ := (ha.sound hs₁.sound).startsGuarded hn
      exact Or.inr ⟨n, shares_of_text_eq hleaf' hplain hguarded hshort, Or.inl ⟨rfl, rfl⟩⟩
    · obtain ⟨hplain, -⟩ := (ha.sound hs₁.sound).startsGuarded hn
      obtain ⟨hplain', -⟩ := (hb.sound hs₂.sound).startsGuarded hn'
      obtain ⟨-, rfl⟩ := Shape.text_inj hplain hplain' hshort
      exact Or.inl rfl
  · rintro text n ⟨outer, own, hmem, rfl⟩ s
    exact exists_resolve_plain (Dialect.isPlain_of_mem_homonyms hmem) outer s

/-- A client whose only component has the name of a type. -/
def namesake (d : Dialect) (key : String) : Resolver where
  components := some { schemas := [(key, .inline (.single "id"))] }
  dialect := d
  namespaceName := "acme"

/-- Lists of a component with the name of a scalar, and of the scalar. -/
theorem short_tells_named_double :
    let r := namesake .kotlin "Double"
    let named : RefOr Schema := .inline (.listOf (.ref "#/components/schemas/Double"))
    let s := (outcome (r.resolve named) {}).2
    let a : Spelling := ⟨"List<Double>", "List<acme.schemas.Double>", ["Double"]⟩
    let b : Spelling := .plain "List<Double>"
    ((r.Reached {} ∧ r.Gives {} a s ∧ r.Reached s ∧ r.Gives s b s ∧ a.short = b.short) ∧
      (a.named = b.named ∨ ∃ n, r.dialect.Shares a.short n ∧
        (a.named = [n] ∧ b.named = [] ∨ a.named = [] ∧ b.named = [n]))) ∧
    r.dialect.Shares a.short "Double" ∧
      ∃ value, outcome (r.resolve value) s = (.ok (.plain a.short), s) := by
  intro r named s a b
  have hstart : r.Reached {} := reached_afterAll r [] []
  have hs : r.Reached s := reached_afterAll r [] [.type named none none .null]
  have ha : r.Gives {} a s := gives_of_resolve (by decide +kernel)
  have hshares : r.dialect.Shares a.short "Double" := ⟨.list .leaf, .leaf, by decide, rfl⟩
  obtain ⟨value, hvalue⟩ := (short_tells_named r).2 _ _ hshares s
  have hb : r.Gives s b s := ⟨value, none, none, .null, _, _, _, hvalue⟩
  exact ⟨⟨⟨hstart, ha, hs, hb, rfl⟩, (short_tells_named r).1 _ _ _ _ _ _ hstart ha hs hb rfl⟩,
    hshares, value, hvalue⟩

/-- A component with the name of the unit type is spelt like it, and a table of components with the name
that stands for anything like a table of anything. -/
theorem short_of_namesakes :
    let unit : RefOr Schema := .inline (.record [])
    let r := namesake .kotlin "Unit"
    let s := (outcome (r.resolve (.ref "#/components/schemas/Unit")) {}).2
    let q := namesake .python "Any"
    let table : RefOr Schema := .inline (.tableOf (.ref "#/components/schemas/Any"))
    let t := (outcome (q.resolve table) {}).2
    (r.Gives {} ⟨"Unit", "acme.schemas.Unit", ["Unit"]⟩ s ∧
      outcome (r.resolve unit) s = (.ok ⟨"Unit", "Unit", []⟩, s)) ∧
    q.Gives {} ⟨"dict[str, Any]", "dict[str, acme.schemas.Any]", ["Any"]⟩ t ∧
      outcome (q.resolve unit) t = (.ok ⟨"dict[str, Any]", "dict[str, Any]", []⟩, t) := by
  intro unit r s q table t
  have hunit : r.Gives {} ⟨"Unit", "acme.schemas.Unit", ["Unit"]⟩ s :=
    gives_of_resolve (by decide +kernel)
  have htable : q.Gives {} ⟨"dict[str, Any]", "dict[str, acme.schemas.Any]", ["Any"]⟩ t :=
    gives_of_resolve (by decide +kernel)
  exact ⟨⟨hunit, rfl⟩, htable, rfl⟩

end Resolver

end ApiClient
