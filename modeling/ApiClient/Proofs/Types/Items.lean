import ApiClient.Proofs.Document.Sameness
import ApiClient.Proofs.Naming.Canonical
import ApiClient.Proofs.Types.Origin
import ApiClient.Proofs.Types.Reserved
import Mathlib

/-!
# Items of components that are arrays

The items of an array are named as the array would be, so an object in a component that is an array, however
deep (`Schema.IsItemOf`), wants the name of the component (`heads_of_isItemOf`). But the component has
reserved this name for itself, and is no object, so that no type is ever registered under it
(`Owns.find_array`). The object gets the name with a number, with a warning that another schema has taken the
name (`array_items_numbered`).
-/

namespace ApiClient

open Naming Working

/-! ## Arrays around an item -/

/-- The schema is an array with these items, or an array of such arrays, and so on. -/
inductive Schema.IsItemOf (item : Schema) : Schema → Prop
  | items {s : Schema} (hkind : s.kind = .str "array") (hitems : s.items = some (.inline item)) :
      IsItemOf item s
  | nested {s inner : Schema} (hkind : s.kind = .str "array")
      (hitems : s.items = some (.inline inner)) (hinner : IsItemOf item inner) : IsItemOf item s

namespace Schema

variable {item s : Schema}

theorem IsItemOf.kind (h : item.IsItemOf s) : s.kind = .str "array" := by
  cases h with
  | items hkind => exact hkind
  | nested hkind => exact hkind

theorem next_of_array (hkind : s.kind = .str "array") : s.next = s.items := by
  simp only [next, hkind]

theorem naming_of_array (hkind : s.kind = .str "array") (wanted parent : Option String)
    (property : Json) : s.naming wanted parent property = (wanted, parent, property) := by
  simp only [naming, hkind]

/-! ## Equal arrays -/

/-- What equals an array is an array. -/
theorem kind_of_same {a b : Schema} (h : a.same b = true) (hkind : b.kind = .str "array") :
    a.kind = .str "array" := by
  have hagrees := same_iff_agrees.1 (same_symm h)
  have htype := Json.same_of_equal hagrees.type
  have hitems := (option_rel_iff.1 hagrees.items).1
  unfold kind at hkind ⊢
  split at hkind
  · rename_i hnull
    split at hkind
    · rename_i hsome
      rw [hnull] at htype
      rw [Json.eq_null_of_same htype, if_pos (hitems.1 hsome)]
    · simp at hkind
  · rw [hkind] at htype
    rw [Json.eq_str_of_same htype]

end Schema

namespace Resolver

variable {r : Resolver} {key : String} {c item : Schema} {s s' : TypeState}

/-! ## The name that an item gets -/

theorem subject_inline (r : Resolver) (s : Schema) (name : String) (parent : Option String)
    (property : Json) : r.subject (.inline s) (some name) parent property =
      .ok (s, some (r.dialect.typeName name)) :=
  rfl

/-- An array leads to what its items lead to under its name. -/
theorem Heads.of_array {head : Schema} {wanted name : String} {parent : Option String}
    {property : Json} {v : RefOr Schema} (hkind : c.kind = .str "array") (hitems : c.items = some v)
    (h : r.Heads head wanted v (some (r.dialect.typeName name)) parent property) :
    r.Heads head wanted (.inline c) (some name) parent property := by
  refine .further (r.subject_inline c name parent property)
    ((Schema.next_of_array hkind).trans hitems) ?_
  rw [Schema.naming_of_array hkind]
  exact h

/-- The way through an array that is given a name ends in its item, for which the same name is wanted. -/
theorem heads_of_isItemOf (h : item.IsItemOf c) (hrecord : item.IsRecord) {name : String}
    (hname : r.dialect.typeName name ≠ "") (parent : Option String) (property : Json) :
    r.Heads item (r.dialect.typeName name) (.inline c) (some name) parent property := by
  induction h generalizing name with
  | items hkind hitems =>
    have hsubject := r.subject_inline item (r.dialect.typeName name) parent property
    rw [Dialect.typeName_typeName] at hsubject
    exact .of_array hkind hitems (.here hsubject hrecord hname)
  | nested hkind hitems _ ih =>
    have hinner := ih (Dialect.typeName_typeName r.dialect name ▸ hname)
    rw [Dialect.typeName_typeName] at hinner
    exact .of_array hkind hitems hinner

/-- No type has the name that an array has reserved. -/
theorem Owns.find_array (h : r.Owns key c) (hkind : c.kind = .str "array") (hs : r.Sound s.types)
    (htraced : r.Traced s) : s.types.find (r.componentName key) = none := by
  cases hfind : s.types.find (r.componentName key) with
  | none => rfl
  | some t =>
    obtain ⟨wanted, n, hleads, -, -⟩ := htraced.of_find hfind
    have hobject : t.schema.kind = .str "object" := hleads.isRecord.1
    have hsame : t.schema.same c = true :=
      h.same_of_sound hs (Registry.mem_of_find hfind) (Registry.name_of_find hfind)
    rw [Schema.kind_of_same hsame hkind] at hobject
    simp at hobject

/-- Nothing else leads to a name than what leads to `head` and wants `wanted`, and no component has it. -/
structure OnlyFor (r : Resolver) (types : Registry) (head : Schema) (wanted name : String) : Prop where
  reserved : r.reserved.get? name = none
  leads : ∀ other w n, r.Leads types other w → numbered w n = name →
    w = wanted ∧ other.same head = true

/-- A name that nothing else leads to is available. -/
theorem OnlyFor.available {wanted name : String} (h : r.OnlyFor s.types item wanted name)
    (htraced : r.Traced s) : r.available s.types name item = true := by
  cases hfind : s.types.find name with
  | none =>
    rw [available_of_find_none hfind, h.reserved]
    rfl
  | some t =>
    rw [available_of_find hfind]
    obtain ⟨w, n, hleads, hname, -⟩ := htraced.of_find hfind
    exact (h.leads _ w n hleads hname.symm).2

/-- The type of a name with a number that nothing else leads to has been warned of. -/
theorem OnlyFor.numberNote_mem {wanted : String} {n : Nat} {t : NamedType}
    (h : r.OnlyFor s.types item wanted (numbered wanted n)) (htraced : r.Traced s)
    (hfind : s.types.find (numbered wanted n) = some t) (hn : n ≠ 0) :
    numberNote wanted n ∈ s.journal := by
  obtain ⟨w, m, hleads, hname, hnote⟩ := htraced.of_find hfind
  obtain ⟨rfl, -⟩ := h.leads _ w m hleads hname.symm
  obtain rfl := numbered_injective _ hname
  exact hnote hn

/-! ## Calls for components -/

/-- A call for an array makes one for its items, which are given the name that is wanted for the array. -/
theorem exists_call_of_array {v : RefOr Schema} (hkind : c.kind = .str "array")
    (hitems : c.items = some v) {complete : String → Schema → Resolving Unit} {steps : Nat}
    {name : String} {parent : Option String} {property : Json} {spelling : Spelling}
    (hcall : outcome (r.resolveSteps complete steps (.inline c) (some name) parent property) s =
      (.ok spelling, s')) :
    ∃ steps' s₁ inner s₂, outcome (r.resolveSteps complete steps' v
      (some (r.dialect.typeName name)) parent property) s₁ = (.ok inner, s₂) := by
  cases steps with
  | zero => cases hcall
  | succ steps =>
    rw [outcome_resolveSteps, subject_inline] at hcall
    dsimp only at hcall
    rw [resolveKind_of_next ((Schema.next_of_array hkind).trans hitems),
      Schema.naming_of_array hkind] at hcall
    obtain ⟨inner, s₂, hinner, -⟩ := exists_of_outcome_bind hcall
    exact ⟨steps, _, inner, s₂, hinner⟩

/-- The item of an array only has a type if there is a name for it. -/
theorem typeName_ne_of_isItemOf (h : item.IsItemOf c) (hrecord : item.IsRecord)
    {complete : String → Schema → Resolving Unit} {steps : Nat} {name : String}
    {parent : Option String} {property : Json} {spelling : Spelling}
    (hcall : outcome (r.resolveSteps complete steps (.inline c) (some name) parent property) s =
      (.ok spelling, s')) : r.dialect.typeName name ≠ "" := by
  induction h generalizing steps name s s' spelling with
  | items hkind hitems =>
    obtain ⟨steps', s₁, inner, s₂, hinner⟩ := exists_call_of_array hkind hitems hcall
    cases steps' with
    | zero => cases hinner
    | succ steps' =>
      obtain ⟨wanted, hwanted, hsubject⟩ := exists_subject (r.target_inline item) hrecord hinner
      rw [subject_inline, Dialect.typeName_typeName] at hsubject
      obtain ⟨-, hname⟩ := Prod.mk.inj (Except.ok.inj hsubject)
      rwa [Option.some.inj hname]
  | nested hkind hitems _ ih =>
    obtain ⟨steps', s₁, inner, s₂, hinner⟩ := exists_call_of_array hkind hitems hcall
    have hne := ih hinner
    rwa [Dialect.typeName_typeName] at hne

/-- Once all components are resolved, there is a type for the item of an array under the first available of
the names that are tried for it, beginning with the name of the component. -/
theorem known_of_isItemOf (hmem : (key, .inline c) ∈ r.schemas) (h : item.IsItemOf c)
    (hrecord : item.IsRecord) (hcall : outcome r.resolveComponents s = (.ok (), s')) :
    r.Known s'.types item (r.componentName key) := by
  obtain ⟨s₁, spelling, s₂, -, hrun, hlater⟩ := exists_resolve_of_mem hmem hcall
  have hname : r.componentName key ≠ "" := typeName_ne_of_isItemOf h hrecord hrun
  obtain ⟨complete, steps, hcomplete, heq⟩ := r.exists_resolve_eq (.inline c)
  rw [heq] at hrun
  exact ((heads_of_isItemOf h hrecord hname none .null).known hcomplete hrun).later hlater

/-! ## The name of the component -/

/-- When the components are resolved from an empty registry, no type gets the name of a component that is an
array. If that succeeds and the items of the array are objects with properties, however deep, then these are
registered under the first available name with a number. This is the number two, and there is a warning that
another schema has taken the name, when nothing else leads to the name with this number. -/
theorem array_items_numbered (h : r.Owns key c) (hitem : item.IsItemOf c) (hrecord : item.IsRecord)
    (journal : Journal) :
    let name := r.componentName key
    let run := outcome r.resolveComponents ⟨[], journal⟩
    run.2.types.find name = none ∧ (run.1 = .ok () → ∃ n t, n ≠ 0 ∧
      r.FirstAvailable run.2.types name item n ∧ run.2.types.find (numbered name n) = some t ∧
      t.schema.same item = true ∧
      (r.OnlyFor run.2.types item name (numbered name 1) →
        n = 1 ∧ numberNote name 1 ∈ run.2.journal)) := by
  intro name run
  have htraced : r.Traced run.2 := r.traced_resolveComponents journal
  have hsound : r.Sound run.2.types :=
    Path.sound (grows_resolveComponents r ⟨[], journal⟩) r.sound_nil
  have hnone : run.2.types.find name = none := h.find_array hitem.kind hsound htraced
  refine ⟨hnone, fun hok => ?_⟩
  have hmem : (key, .inline c) ∈ r.schemas := by
    obtain ⟨components, before, after, hcomponents, hschemas, -⟩ := h
    simp [schemas, hcomponents, hschemas]
  obtain ⟨n, t, hfirst, hfind⟩ := known_of_isItemOf hmem hitem hrecord (Prod.ext hok rfl)
  have hn : n ≠ 0 := by
    rintro rfl
    rw [show numbered (r.componentName key) 0 = name from rfl, hnone] at hfind
    cases hfind
  refine ⟨n, t, hn, hfirst, hfind, ?_, fun honly => ?_⟩
  · rw [← available_of_find hfind]
    exact hfirst.1
  obtain rfl : n = 1 := by
    by_contra hne
    have hno := hfirst.2 1 (by omega)
    rw [honly.available htraced] at hno
    cases hno
  exact ⟨rfl, honly.numberNote_mem htraced hfind hn⟩

/-! ## Flat objects -/

/-- A schema that leads to no other: neither a pointer, nor an object, nor an array. -/
def isBasic : RefOr Schema → Bool
  | .ref _ => false
  | .inline s =>
    match s.kind with
    | .str "object" | .str "array" => false
    | _ => true

theorem not_heads_of_isBasic {value : RefOr Schema} (hbasic : isBasic value = true) {head : Schema}
    {wanted : String} {name parent : Option String} {property : Json} :
    ¬r.Heads head wanted value name parent property := by
  intro h
  cases value with
  | ref pointer => cases hbasic
  | inline t =>
    have htarget : ∀ {u passed}, r.subject (.inline t) name parent property = .ok (u, passed) →
        u = t := fun hsubject => by
      obtain ⟨component, hu, -⟩ := target_of_subject hsubject
      exact (Prod.mk.inj (Except.ok.inj hu)).2.symm
    cases h with
    | here hsubject hrecord _ =>
      obtain rfl := htarget hsubject
      simp [isBasic, hrecord.1] at hbasic
    | further hsubject hnext _ =>
      obtain rfl := htarget hsubject
      unfold Schema.next at hnext
      split at hnext
      · rename_i hkind
        simp [isBasic, hkind] at hbasic
      · rename_i hkind
        simp [isBasic, hkind] at hbasic
      · cases hnext

/-- If the properties of all types lead nowhere, it is only the components that lead to objects. -/
theorem Leads.of_flat {types : Registry} {head : Schema} {wanted : String}
    (hflat : ∀ t ∈ types, ∀ p ∈ t.schema.properties.getD [], isBasic p.2 = true)
    (h : r.Leads types head wanted) : ∃ e ∈ r.schemas, r.HeadsEntry head wanted e := by
  obtain hentry | ⟨_, hhead, p, hp, hheads⟩ := h
  · exact hentry
  · obtain ⟨t, ht, rfl⟩ := List.mem_map.1 hhead
    exact absurd hheads (not_heads_of_isBasic (hflat t ht p hp))

/-- Orders in an array of arrays, each with a price. -/
def orders : Schema :=
  .listOf (.inline (.listOf (.inline (.single "price"))))

theorem isItemOf_orders : (Schema.single "price").IsItemOf orders :=
  .nested rfl rfl (.items rfl rfl)

/-- Teams, and orders behind them. -/
def shop : Resolver where
  components := some { schemas := [("Team", .inline (.single "name")), ("Orders", .inline orders)] }
  dialect := .python
  namespaceName := "acme"

theorem owns_orders : shop.Owns "Orders" orders := by
  refine ⟨_, [("Team", .inline (.single "name"))], [], rfl, rfl, fun key c hmem => ?_⟩
  obtain ⟨rfl, -⟩ := Prod.mk.inj (List.mem_singleton.1 hmem)
  decide +kernel

theorem resolve_shop : (outcome shop.resolveComponents {}).1 = .ok () := by
  have h : outcome shop.resolveComponents {} = (.ok (), (outcome shop.resolveComponents {}).2) :=
    outcome_of_toOption (by decide +kernel)
  exact congrArg Prod.fst h

theorem flat_shop : ∀ t ∈ (outcome shop.resolveComponents {}).2.types,
    ∀ p ∈ t.schema.properties.getD [], isBasic p.2 = true := by
  decide +kernel

/-- It is the price that leads to the name of the orders, with or without a number. -/
theorem of_leads_shop {types : Registry} {head : Schema} {wanted : String} {n : Nat} (rest : String)
    (hflat : ∀ t ∈ types, ∀ p ∈ t.schema.properties.getD [], isBasic p.2 = true)
    (h : shop.Leads types head wanted) (hname : numbered wanted n = "Orders" ++ rest) :
    wanted = "Orders" ∧ head.same (.single "price") = true := by
  have hteam : shop.HeadsEntry (.single "name") (shop.componentName "Team")
      ("Team", .inline (.single "name")) :=
    .here rfl (Schema.isRecord_single "name") (by decide +kernel)
  have horders : shop.HeadsEntry (.single "price") (shop.componentName "Orders")
      ("Orders", .inline orders) :=
    heads_of_isItemOf isItemOf_orders (Schema.isRecord_single "price") (by decide +kernel) none .null
  obtain ⟨e, he, hentry⟩ := h.of_flat hflat
  have hkey : e = ("Team", .inline (.single "name")) ∨ e = ("Orders", .inline orders) := by
    simpa [schemas, shop] using he
  rcases hkey with rfl | rfl
  · obtain ⟨-, rfl⟩ := Heads.unique hteam hentry
    have hwanted : shop.componentName "Team" = "Team" := by decide +kernel
    have hchars := congrArg String.toList (hwanted ▸ hname)
    cases n <;> simp [numbered] at hchars
  · obtain ⟨rfl, rfl⟩ := Heads.unique horders hentry
    exact ⟨by decide +kernel, Schema.same_refl _⟩

/-- The orders are objects in an array of arrays, and get the number two. -/
theorem array_items_numbered_shop :
    let run := outcome shop.resolveComponents {}
    (shop.Owns "Orders" orders ∧ (Schema.single "price").IsItemOf orders ∧
      (Schema.single "price").IsRecord ∧ run.1 = .ok () ∧
      shop.OnlyFor run.2.types (.single "price") "Orders" "Orders2") ∧
    run.2.types.find "Orders" = none ∧ ∃ n t, n ≠ 0 ∧
      shop.FirstAvailable run.2.types "Orders" (.single "price") n ∧
      run.2.types.find (numbered "Orders" n) = some t ∧ t.schema.same (.single "price") = true ∧
      n = 1 ∧ numberNote "Orders" 1 ∈ run.2.journal := by
  have hok := resolve_shop
  have hflat := flat_shop
  have hrecord := Schema.isRecord_single "price"
  have hname : shop.componentName "Orders" = "Orders" := by decide +kernel
  have htwo : numbered "Orders" 1 = "Orders2" := by decide +kernel
  have hmain := array_items_numbered owns_orders isItemOf_orders hrecord []
  rw [hname] at hmain
  -- the run itself is not looked at any more
  generalize outcome shop.resolveComponents {} = run at hok hflat hmain ⊢
  have honly : shop.OnlyFor run.2.types (.single "price") "Orders" "Orders2" :=
    ⟨by decide +kernel, fun other w n hleads hw => of_leads_shop "2" hflat hleads hw⟩
  obtain ⟨hnone, hitem⟩ := hmain
  obtain ⟨n, t, hn, hfirst, hfind, hsame, hwarned⟩ := hitem hok
  exact ⟨⟨owns_orders, isItemOf_orders, hrecord, hok, honly⟩, hnone, n, t, hn, hfirst, hfind, hsame,
    hwarned (htwo ▸ honly)⟩

/-- Nothing but the orders leads to their name, and they do not get it, as if another schema had taken
it. -/
theorem array_items_without_name :
    let run := outcome shop.resolveComponents {}
    (shop.Owns "Orders" orders ∧ (Schema.single "price").IsItemOf orders ∧
      (Schema.single "price").IsRecord ∧
      (∀ key c, (key, .inline c) ∈ shop.schemas → shop.componentName key = "Orders" →
        key = "Orders") ∧
      ∀ other w n, shop.Leads run.2.types other w → numbered w n = "Orders" →
        w = "Orders" ∧ other.same (.single "price") = true) ∧
    run.1 = .ok () ∧ shop.componentName "Orders" = "Orders" ∧
      run.2.types.find "Orders" = none ∧ run.2.types.names = ["Team", "Orders2"] ∧
      run.2.journal.warnings =
        ["Type name 'Orders' is taken by another schema, using 'Orders2'"] := by
  have hnone : (outcome shop.resolveComponents {}).2.types.find "Orders" |>.isNone := by
    decide +kernel
  refine ⟨⟨owns_orders, isItemOf_orders, Schema.isRecord_single "price", fun key c hmem hkey => ?_,
    fun other w n hleads hw => of_leads_shop "" flat_shop hleads hw⟩,
    resolve_shop, by decide +kernel, Option.isNone_iff_eq_none.1 hnone, by decide +kernel,
    by decide +kernel⟩
  have hcases : key = "Team" ∨ key = "Orders" := by
    simp only [schemas, shop, Option.map_some, Option.getD_some, List.mem_cons, Prod.mk.injEq,
      List.not_mem_nil, or_false] at hmem
    exact hmem.imp And.left And.left
  rcases hcases with rfl | rfl
  · exact absurd hkey (by decide +kernel)
  · rfl

end Resolver

end ApiClient
