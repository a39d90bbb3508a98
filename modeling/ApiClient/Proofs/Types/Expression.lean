import ApiClient.Proofs.Naming.Character
import ApiClient.Proofs.Types.Head
import Mathlib

/-!
# Spellings are expressions

A spelling is what a type expression looks like next to the named types and anywhere else: scalars,
and names, in lists and tables (`TypeExpr`). Every spelling that a call gives is that of an expression
whose names are registered (`spells_of_resolve`), and so is the type of every field, in every state
that calls lead to, with types half filled and after failures (`spelled_afterAll`).
-/

namespace ApiClient

open Naming Working

/-! ## Expressions -/

/-- A type as it is written: a text without names, a named type, a list or a table of a type. -/
inductive TypeExpr where
  | plain (text : String)
  | named (name : String)
  | list (item : TypeExpr)
  | table (value : TypeExpr)

namespace TypeExpr

/-- The text of an expression, with its names written by `write`. -/
def text (d : Dialect) (write : String → String) : TypeExpr → String
  | plain text => text
  | named name => write name
  | list item => d.sequenceType (item.text d write)
  | table value => d.mapType (value.text d write)

/-- The names that an expression mentions. -/
def names : TypeExpr → List String
  | plain _ => []
  | named name => [name]
  | list item => item.names
  | table value => value.names

/-- The texts without names in an expression are those that a dialect has. -/
def IsProper (d : Dialect) : TypeExpr → Prop
  | plain text => d.IsPlain text
  | named _ => True
  | list item => item.IsProper d
  | table value => value.IsProper d

/-- The spelling of an expression. -/
def spelling (r : Resolver) (e : TypeExpr) : Spelling :=
  ⟨e.text r.dialect id, e.text r.dialect (Dialect.qualify r.namespaceName), e.names⟩

end TypeExpr

/-! ## Characters of expressions -/

/-- A character that the types of a dialect are written with. -/
def isTypeChar (c : Char) : Bool :=
  isAsciiAlphanumeric c || ['_', '[', ']', '<', '>', ',', ' '].contains c

theorem all_isTypeChar_of_isPlainName {name : String} (h : IsPlainName name) :
    name.toList.all isTypeChar = true := by
  refine List.all_eq_true.2 fun c hc => ?_
  rcases h c hc with hname | rfl
  · rw [isTypeChar, hname, Bool.true_or]
  · decide

theorem isPlainName_of_scalarType {d : Dialect} {type text : String} {format : Json}
    (h : d.scalarType type format = some text) : IsPlainName text := by
  unfold Dialect.scalarType at h
  split at h
  case h_9 => cases h
  all_goals
    obtain rfl := Option.some.inj h
    refine isPlainName_of_all ?_
    first | decide | (split <;> decide)

theorem all_isTypeChar_of_isPlain {d : Dialect} {text : String} (h : d.IsPlain text) :
    text.toList.all isTypeChar = true := by
  obtain rfl | ⟨type, format, htype⟩ := h
  · cases d <;> decide
  · exact all_isTypeChar_of_isPlainName (isPlainName_of_scalarType htype)

/-- A type is written with letters, digits, underscores, brackets, commas and blanks. -/
theorem TypeExpr.all_isTypeChar_text {d : Dialect} {e : TypeExpr} (hproper : e.IsProper d)
    (hnames : ∀ n ∈ e.names, IsPlainName n) : (e.text d id).toList.all isTypeChar = true := by
  have hwrapped : ∀ {front text back : String}, front.toList.all isTypeChar = true →
      text.toList.all isTypeChar = true → back.toList.all isTypeChar = true →
        (front ++ text ++ back).toList.all isTypeChar = true := by
    intro front text back hfront htext hback
    simp only [String.toList_append, List.all_append, hfront, htext, hback, Bool.and_self]
  induction e with
  | plain text => exact all_isTypeChar_of_isPlain hproper
  | named name =>
    exact all_isTypeChar_of_isPlainName (hnames name (List.mem_singleton_self name))
  | list item ih =>
    cases d <;> exact hwrapped (by decide) (ih hproper hnames) (by decide)
  | table value ih =>
    cases d <;> exact hwrapped (by decide) (ih hproper hnames) (by decide)

namespace Resolver

variable {r : Resolver} {s s' : TypeState} {names : List String} {spelling : Spelling}

/-- A spelling is that of an expression whose names are among `names`. -/
def Spells (r : Resolver) (names : List String) (spelling : Spelling) : Prop :=
  ∃ e : TypeExpr, e.IsProper r.dialect ∧ e.names ⊆ names ∧ spelling = e.spelling r

theorem Spells.mono {names' : List String} (h : r.Spells names spelling) (hsub : names ⊆ names') :
    r.Spells names' spelling := by
  obtain ⟨e, hproper, hnames, rfl⟩ := h
  exact ⟨e, hproper, List.Subset.trans hnames hsub, rfl⟩

theorem Spells.named_subset (h : r.Spells names spelling) : spelling.named ⊆ names := by
  obtain ⟨e, -, hnames, rfl⟩ := h
  exact hnames

theorem spells_plain {text : String} (h : r.dialect.IsPlain text) (names : List String) :
    r.Spells names (.plain text) :=
  ⟨.plain text, h, List.nil_subset _, rfl⟩

theorem Spells.wrap (h : r.Spells names spelling) (schema : Schema) :
    r.Spells names (spelling.map (schema.wrap r.dialect)) := by
  obtain ⟨e, hproper, hnames, rfl⟩ := h
  unfold Schema.wrap
  split
  · exact ⟨.list e, hproper, hnames, rfl⟩
  · exact ⟨.table e, hproper, hnames, rfl⟩

theorem Sound.spells {types : Registry} (hsound : r.Sound types) {t : NamedType} (ht : t ∈ types) :
    r.Spells types.names t.spelling := by
  refine ⟨.named t.name, trivial, fun n hn => ?_, ?_⟩
  · obtain rfl := List.mem_singleton.1 hn
    exact List.mem_map_of_mem ht
  · have hqualified : t.qualified = Dialect.qualify r.namespaceName t.name :=
      hsound.qualified t.head (List.mem_map_of_mem ht)
    rw [NamedType.spelling, hqualified]
    rfl

/-! ## Results -/

theorem spells_of_resolveNamed {complete : String → Schema → Resolving Unit}
    (hcomplete : r.Completes complete) (hsound : r.Sound s'.types) {schema : Schema}
    {name : Option String}
    (h : outcome (r.resolveNamed complete schema name) s = (.ok spelling, s')) :
    r.Spells s'.types.names spelling := by
  rcases name with _ | name
  · cases h
  have hne : name ≠ "" := by
    rintro rfl
    cases h
  obtain ⟨n, t, -, hfind, -, hspelling⟩ := registered_of_resolveNamed hcomplete schema hne s
  rw [h] at hfind hspelling
  rw [hspelling spelling rfl]
  exact hsound.spells (Registry.mem_of_find hfind)

theorem spells_of_resolveSteps {complete : String → Schema → Resolving Unit}
    (hcomplete : r.Completes complete) {steps : Nat} {value : RefOr Schema}
    {name parent : Option String} {property : Json} (hsound : r.Sound s.types)
    (h : outcome (r.resolveSteps complete steps value name parent property) s =
      (.ok spelling, s')) : r.Spells s'.types.names spelling := by
  induction steps generalizing value name parent property s s' spelling with
  | zero => cases h
  | succ steps ih =>
    have hsound' : r.Sound s'.types :=
      ((grows_resolveSteps hcomplete _ _ _ _ _).leads h).sound hsound
    rw [outcome_resolveSteps] at h
    cases hsubject : r.subject value name parent property with
    | error e => simp [hsubject] at h
    | ok found =>
      obtain ⟨schema, passed⟩ := found
      rw [hsubject] at h
      dsimp only at h
      by_cases hrecord : schema.IsRecord
      · rw [resolveKind_of_isRecord hrecord] at h
        exact spells_of_resolveNamed hcomplete hsound' h
      cases hnext : schema.next with
      | none =>
        obtain ⟨work, ⟨text, hplain, rfl⟩ | ⟨cause, -, rfl⟩, hwork⟩ :=
          exists_resolveKind_of_last (r := r) hrecord hnext
        · rw [hwork] at h
          obtain ⟨rfl, -⟩ := of_outcome_pure h
          exact spells_plain hplain _
        · rw [hwork] at h
          cases h
      | some v =>
        rw [resolveKind_of_next hnext] at h
        obtain ⟨inner, s₁, hinner, hpure⟩ := exists_of_outcome_bind h
        obtain ⟨rfl, rfl⟩ := of_outcome_pure hpure
        have hspells : r.Spells s'.types.names inner :=
          ih (s := { s with journal := s.journal ++ r.hops value }) hsound hinner
        exact hspells.wrap schema

/-- What a call gives is the spelling of an expression whose names are registered. -/
theorem spells_of_resolve {value : RefOr Schema} {name parent : Option String} {property : Json}
    (hsound : r.Sound s.types)
    (h : outcome (r.resolve value name parent property) s = (.ok spelling, s')) :
    r.Spells s'.types.names spelling :=
  spells_of_resolveSteps (completes_completeType _ _) hsound h

/-! ## Fields -/

/-- The type of every field is the spelling of an expression whose names are registered. -/
def Spelled (r : Resolver) (types : Registry) : Prop :=
  ∀ t ∈ types, ∀ f ∈ t.fields, r.Spells types.names f.type

/-- A sound registry stays sound, and the types of its fields stay spellings. -/
def Keeps (r : Resolver) (s s' : TypeState) : Prop :=
  r.Sound s.types ∧ r.Spelled s.types → r.Sound s'.types ∧ r.Spelled s'.types

instance : Std.Refl r.Keeps :=
  ⟨fun _ h => h⟩

instance : IsTrans TypeState r.Keeps :=
  ⟨fun _ _ _ h h' hs => h' (h hs)⟩

theorem Spelled.add {types : Registry} (h : r.Spelled types) (name : String) (schema : Schema) :
    r.Spelled (types.add (r.unfilled name schema)) := by
  intro t ht f hf
  rw [Registry.names_add]
  rcases List.mem_append.1 ht with ht | ht
  · exact (h t ht f hf).mono (List.subset_append_left _ _)
  · obtain rfl := List.mem_singleton.1 ht
    cases hf

theorem Spelled.addField {types : Registry} (h : r.Spelled types) (name : String) {f : Field}
    (hf : r.Spells types.names f.type) : r.Spelled (types.addField name f) := by
  intro t ht g hg
  rw [Registry.names_addField]
  obtain ⟨u, hu, rfl⟩ := List.mem_map.1 ht
  split at hg
  · rcases List.mem_append.1 hg with hg | hg
    · exact h u hu g hg
    · obtain rfl := List.mem_singleton.1 hg
      exact hf
  · exact h u hu g hg

theorem keeps_field {f : Field} (hf : r.Spells s.types.names f.type) (name : String) :
    r.Keeps s { s with types := s.types.addField name f } := by
  rintro ⟨hsound, hspelled⟩
  have hedit : r.Edit [] s { s with types := s.types.addField name f } :=
    Edit.field s f List.not_mem_nil
  exact ⟨hedit.sound hsound, hspelled.addField name hf⟩

theorem keeps_addFields {resolve : Way}
    (hmoves : ∀ value name parent property, Moves r.Keeps (resolve value name parent property))
    (hspells : ∀ {value name parent property spelling} {s s' : TypeState}, r.Sound s.types →
      outcome (resolve value name parent property) s = (.ok spelling, s') →
        r.Spells s'.types.names spelling)
    (name : String) (schema : Schema) : ∀ properties : List (String × RefOr Schema),
      Moves r.Keeps (r.addFields resolve name schema properties)
  | [] => Moves.pure ()
  | (property, value) :: rest => by
    intro s hs
    refine after_bind (R := r.Keeps) ((hmoves value none (some name) (.str property)).within _ s)
      (fun type s₁ htype => ?_) hs
    have hfield : r.Spells s₁.types.names type := hspells hs.1 (outcome_of_within htype)
    refine after_bind (keeps_field (s := s₁) hfield name) fun _ s₂ h₂ => ?_
    exact keeps_addFields hmoves hspells name schema rest s₂

theorem keeps_resolveNamed {complete : String → Schema → Resolving Unit}
    (hcomplete : ∀ name schema, Moves r.Keeps (complete name schema)) (schema : Schema)
    {name : Option String} (hname : ∀ n ∈ name, ∃ base, n = r.dialect.typeName base) :
    Moves r.Keeps (r.resolveNamed complete schema name) := by
  intro s hs
  rcases name with _ | name
  · exact hs
  by_cases hempty : name = ""
  · subst hempty
    exact hs
  obtain ⟨n, hfirst, ⟨t, -, hrun⟩ | ⟨hfree, hrun⟩⟩ := outcome_resolveNamed r complete schema hempty s
  · rw [hrun]
    exact hs
  · rw [hrun]
    obtain ⟨base, rfl⟩ := hname name rfl
    have hpath : r.Path [] s (r.registered s _ schema n) :=
      path_registered hfirst ⟨base, n, hempty, rfl⟩ hfree
    exact hcomplete _ _ _ ⟨hpath.sound hs.1, hs.2.add _ schema⟩

theorem keeps_record (s : TypeState) (entries : Journal) :
    r.Keeps s { s with journal := s.journal ++ entries } :=
  fun hs => hs

theorem keeps_resolveSteps {complete : String → Schema → Resolving Unit}
    (hcomplete : ∀ name schema, Moves r.Keeps (complete name schema)) (steps : Nat)
    (value : RefOr Schema) (name parent : Option String) (property : Json) :
    Moves r.Keeps (r.resolveSteps complete steps value name parent property) :=
  closed_resolveSteps closed_moves (fun value s => keeps_record s (r.hops value))
    (fun schema wanted => keeps_resolveNamed hcomplete schema (exists_typeName_of_map wanted))
    steps value name parent property

theorem keeps_completeType (steps : Nat) : ∀ types name schema,
    Moves r.Keeps (r.completeType steps types name schema)
  | 0, _, _ => Moves.throw _
  | types + 1, name, schema =>
    keeps_addFields (keeps_resolveSteps (keeps_completeType steps types) steps)
      (spells_of_resolveSteps (completes_completeType steps types)) name schema _

theorem keeps_resolve (value : RefOr Schema) (name parent : Option String) (property : Json) :
    Moves r.Keeps (r.resolve value name parent property) :=
  keeps_resolveSteps (keeps_completeType _ _) _ value name parent property

theorem keeps_resolveComponents (r : Resolver) : Moves r.Keeps r.resolveComponents :=
  closed_resolveEach closed_moves (fun value _ => keeps_resolve value _ _ _) _

theorem keeps_afterAll (s : TypeState) (queries : List Query) :
    r.Keeps s (r.afterAll s queries) := by
  induction queries generalizing s with
  | nil => exact Std.Refl.refl (r := r.Keeps) s
  | cons q rest ih =>
    refine IsTrans.trans (r := r.Keeps) _ _ _ ?_ (ih (r.after s q))
    cases q with
    | type value name parent property => exact keeps_resolve value name parent property s
    | components => exact keeps_resolveComponents r s

theorem spelled_nil (r : Resolver) : r.Spelled [] :=
  fun _ ht => by cases ht

/-- In every state that calls lead to, also when calls have failed, the type of every field is the
spelling of an expression whose names are registered. -/
theorem spelled_afterAll (r : Resolver) (journal : Journal) (queries : List Query) :
    r.Spelled (r.afterAll ⟨[], journal⟩ queries).types :=
  (keeps_afterAll ⟨[], journal⟩ queries ⟨r.sound_nil, r.spelled_nil⟩).2

/-- The names in the type of a field, and those in a type that a call has given, are registered, then
and from then on. -/
theorem named_afterAll (r : Resolver) (journal : Journal) (queries : List Query) :
    let s := r.afterAll ⟨[], journal⟩ queries
    (∀ t ∈ s.types, ∀ f ∈ t.fields, f.type.named ⊆ s.types.names) ∧
      ∀ value name parent property spelling s',
        outcome (r.resolve value name parent property) s = (.ok spelling, s') →
          ∀ later, spelling.named ⊆ (r.afterAll s' later).types.names := by
  intro s
  refine ⟨fun t ht f hf => (spelled_afterAll r journal queries t ht f hf).named_subset, ?_⟩
  intro value name parent property spelling s' h later
  have hspells := spells_of_resolve (sound_afterAll r journal queries) h
  exact List.Subset.trans hspells.named_subset (grows_afterAll s' later).names_subset

end Resolver

end ApiClient
