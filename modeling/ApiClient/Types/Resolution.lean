import ApiClient.Failure
import ApiClient.Journal
import ApiClient.Naming.Fresh
import ApiClient.Types.Registry

/-!
# Types of schemas

`Resolver.resolve` finds the type that a client uses for a schema. Scalars, lists and tables are
spelt; an object with properties is a named type, registered under a name that comes from the
component it is, or from the type and the property it stands in. A name that is taken by another
schema gets a number (`Resolver.claim`).

Every schema passed on the way to a named type is one of the document, and every named type has a
schema of its own, so `resolve` needs no more steps than `Resolver.bound` counts, unless a list or
a table contains itself without a named type in between.
-/

namespace ApiClient

/-! ## Sizes of schemas -/

namespace Schema

mutual

/-- The number of schemas in a schema, counted along items, properties and additional
properties. -/
def weight : Schema → Nat
  | ⟨_, _, _, _, properties, _, items, additional, _, _, _, _, _, _, _, _, _, _, _, _⟩ =>
    1 + propertiesWeight properties + itemsWeight items + additionalWeight additional

/-- The number of schemas in a schema; a pointer counts as none. -/
def refWeight : RefOr Schema → Nat
  | .ref _ => 0
  | .inline s => weight s

/-- The number of schemas in a schema that may be absent. -/
def itemsWeight : Option (RefOr Schema) → Nat
  | none => 0
  | some s => refWeight s

/-- The number of schemas in what is said about other properties. -/
def additionalWeight : Option (Additional Schema) → Nat
  | none => 0
  | some (.allowed _) => 0
  | some (.schema s) => refWeight s

/-- The number of schemas in the properties. -/
def propertiesWeight : Option (List (String × RefOr Schema)) → Nat
  | none => 0
  | some ps => tableWeight ps

/-- The number of schemas in a table. -/
def tableWeight : List (String × RefOr Schema) → Nat
  | [] => 0
  | (_, s) :: rest => refWeight s + tableWeight rest

end

/-- The type of a schema as it is resolved: the one it gives, a list if it has items, and an object
otherwise. -/
def kind (s : Schema) : Json :=
  match s.type with
  | .null => if s.items.isSome then .str "array" else .str "object"
  | type => type

end Schema

/-- What resolving depends on: the components of the document, the dialect and the namespace. -/
structure Resolver where
  components : Option Components
  dialect : Dialect
  namespaceName : String

/-- What resolving changes: the types that are registered, and the journal. -/
structure TypeState where
  types : Registry := []
  journal : Journal := []

/-- Resolving: a result or a failure, and the state after it in either case. -/
abbrev Resolving := ExceptT Failure (StateM TypeState)

namespace Resolver

/-! ## Steps -/

/-- Adds entries to the journal. -/
def record (entries : Journal) : Resolving Unit :=
  modify fun s => { s with journal := s.journal ++ entries }

/-- Adds an entry to the journal. -/
def note (level : Level) (reporter : Reporter) (message : String) : Resolving Unit :=
  record [⟨level, reporter, message⟩]

/-- Ends with a failure. -/
def fail {α : Type} (cause : Cause) : Resolving α :=
  throw { cause }

/-- Notes the place if `work` fails. -/
def within {α : Type} (place : String) (work : Resolving α) : Resolving α :=
  tryCatch work fun f => throw (f.within place)

/-- The schema that `schema` is or points to, with the name of the component it was found under. -/
def follow (r : Resolver) (schema : RefOr Schema) : Resolving (Option String × Schema) := do
  match schema with
  | .inline s => return (none, s)
  | .ref pointer =>
    let chain := Pointer.follow r.components (some [.schemas]) pointer
    record (chain.steps.map fun step => ⟨.debug, .pointers, "Resolved " ++ step⟩)
    match chain.outcome with
    | .ok (name, .schema s) => return (some name, s)
    | .ok (_, other) => fail (.pointer (.wrongKind pointer other.home))
    | .error e => fail (.pointer e)

/-! ## Names -/

/-- The components that are objects, by the names of their types. -/
def reserved (r : Resolver) : Table Schema :=
  match r.components with
  | none => []
  | some c => c.schemas.filterMap fun e =>
    match e.2 with
    | .inline s => some (r.dialect.typeName (Naming.className e.1), s)
    | .ref _ => none

/-- Whether a schema may have a name: it is the name of the same schema, or of none, and no other
component has a right to it. -/
def available (r : Resolver) (types : Registry) (name : String) (schema : Schema) : Bool :=
  match types.find name with
  | some t => t.schema.same schema
  | none => (r.reserved.get? name).all (·.same schema)

/-- The first available name for a schema, with the type that has it already. The names that are
taken are registered or reserved, so one more than there are of these has to be tried. -/
def claim (r : Resolver) (name : String) (schema : Schema) :
    Resolving (String × Option NamedType) := do
  let types := (← get).types
  let tries := types.length + r.reserved.length + 1
  let n := Naming.firstIndex (fun n => r.available types (Naming.numbered name n) schema) tries
  let found := Naming.numbered name n
  match types.find found with
  | some t => return (found, some t)
  | none =>
    if n ≠ 0 then
      note .warning .types
        ("Type name '" ++ name ++ "' is taken by another schema, using '" ++ found ++ "'")
    return (found, none)

/-- The name of a type before the dialect has its say: that of the component, else the one given,
else that of the type and the property it stands in. -/
def wantedName (component name parent : Option String) (property : Json) :
    Except Json.Misfit (Option String) :=
  match component, name, parent with
  | some found, _, _ => .ok (some found)
  | none, some given, _ => .ok (some given)
  | none, none, some parent =>
    if parent ≠ "" && property.truth then do
      let property ← Dialect.nameText property
      return some (parent ++ Naming.className property)
    else .ok none
  | none, none, none => .ok none

/-- A name in the dialect; no name is given to what has an empty one. -/
def dialectName (r : Resolver) (name : String) : String :=
  if name = "" then "" else r.dialect.typeName name

/-! ## Types -/

/-- The way to the type of a schema, from the name it is given, and the type and the property it
stands in. -/
abbrev Way := RefOr Schema → Option String → Option String → Json → Resolving Spelling

/-- The description of a field; a component is described in its own file. -/
def fieldDescription : RefOr Schema → Json
  | .ref _ => .null
  | .inline s => s.description

/-- Gives the type `name` its fields, one per property. -/
def addFields (r : Resolver) (resolve : Way) (name : String) (schema : Schema) :
    List (String × RefOr Schema) → Resolving Unit
  | [] => return
  | (property, s) :: rest => do
    let type ← within (name ++ "." ++ property) (resolve s none (some name) (.str property))
    let field : Field := {
      name := property
      identifier := r.dialect.identifier property
      type
      required := schema.required.any fun j => j.same (.str property)
      description := fieldDescription s }
    modify fun st => { st with types := st.types.addField name field }
    addFields r resolve name schema rest

/-- The named type of an object with properties. A new one is registered, and `complete` gives it
its fields. -/
def resolveNamed (r : Resolver) (complete : String → Schema → Resolving Unit) (schema : Schema)
    (name : Option String) : Resolving Spelling :=
  match name with
  | none | some "" => fail (.typing .nameless)
  | some name => do
    let (name, existing) ← r.claim name schema
    match existing with
    | some t => return t.spelling
    | none =>
      let type : NamedType := ⟨name, Dialect.qualify r.namespaceName name, schema, []⟩
      modify fun st => { st with types := st.types.add type }
      note .debug .types ("Registered type " ++ name)
      complete name schema
      return type.spelling

/-- Whether a name is given and not empty. -/
def isNamed (name : Option String) : Bool :=
  name.any (· ≠ "")

/-- The type of an object; `resolve` finds that of the values of a table. -/
def resolveObject (r : Resolver) (complete : String → Schema → Resolving Unit) (resolve : Way)
    (schema : Schema) (name : Option String) : Resolving Spelling :=
  match schema.properties, schema.additional with
  | some [], _ => return .plain r.dialect.unitType
  | some _, _ => r.resolveNamed complete schema name
  | none, some (.allowed _) => fail (.typing .booleanAdditional)
  | none, some (.schema values) => do
    let property := if isNamed name then .str "Value" else .null
    let value ← resolve values none name property
    return value.map r.dialect.mapType
  | none, none =>
    if schema.description = .null then fail (.typing .shapelessObject)
    else return .plain r.dialect.unitType

/-- The type of a list; `resolve` finds that of its items, which are named as the list would be. -/
def resolveArray (r : Resolver) (resolve : Way) (schema : Schema) (name parent : Option String)
    (property : Json) : Resolving Spelling :=
  match schema.items with
  | none => fail (.typing .shapelessArray)
  | some items => do
    let item ← resolve items name parent property
    return item.map r.dialect.sequenceType

/-- The type of a scalar. -/
def resolveScalar (r : Resolver) (kind format : Json) : Resolving Spelling :=
  match kind with
  | .str type =>
    match r.dialect.scalarType type format with
    | some spelling => return .plain spelling
    | none => fail (.typing (.unknownPrimitive kind))
  | .arr _ | .obj _ => fail (.misfit .kind)
  | _ => fail (.typing (.unknownPrimitive kind))

/-- The type of a schema in at most `steps` steps before the next new named type, whose fields
`complete` finds. -/
def resolveSteps (r : Resolver) (complete : String → Schema → Resolving Unit) : Nat → Way
  | 0, _, _, _, _ => fail (.typing .endless)
  | steps + 1, schema, name, parent, property => do
    let (component, schema) ← r.follow schema
    let wanted ←
      match wantedName component name parent property with
      | .ok wanted => pure wanted
      | .error e => fail (.misfit e)
    let name := wanted.map r.dialectName
    match schema.kind with
    | .str "object" => r.resolveObject complete (r.resolveSteps complete steps) schema name
    | .str "array" => r.resolveArray (r.resolveSteps complete steps) schema name parent property
    | kind => r.resolveScalar kind schema.format

/-- Finds the fields of a new type, with at most `types` more types one inside the other and
`steps` steps from each to the next. -/
def completeType (r : Resolver) (steps : Nat) : Nat → String → Schema → Resolving Unit
  | 0, _, _ => fail (.typing .endless)
  | types + 1, name, schema =>
    r.addFields (r.resolveSteps (r.completeType steps types) steps) name schema
      (schema.properties.getD [])

/-- One more than the number of schemas there are in the components and in `schema`. -/
def bound (r : Resolver) (schema : RefOr Schema) : Nat :=
  (r.components.map fun c => Schema.tableWeight c.schemas).getD 0 + Schema.refWeight schema + 1

/-- The type of a schema, from the name it is given, and the type and the property it stands
in. -/
def resolve (r : Resolver) (schema : RefOr Schema) (name parent : Option String := none)
    (property : Json := .null) : Resolving Spelling :=
  let bound := r.bound schema
  r.resolveSteps (r.completeType bound bound) bound schema name parent property

/-- Resolves components one after another, each named after its key. -/
def resolveEach (r : Resolver) : List (String × RefOr Schema) → Resolving Unit
  | [] => return
  | (key, schema) :: rest => do
    let _ ← within ("components.schemas." ++ key) (r.resolve schema (some (Naming.className key)))
    resolveEach r rest

/-- Resolves all schemas among the components. -/
def resolveComponents (r : Resolver) : Resolving Unit :=
  r.resolveEach ((r.components.map Components.schemas).getD [])

/-- Registers a type without fields. -/
def register (r : Resolver) (name : String) (schema : Schema) : Resolving Unit := do
  if (← get).types.contains name then fail (.typeTaken name)
  else
    let type : NamedType := ⟨name, Dialect.qualify r.namespaceName name, schema, []⟩
    modify fun st => { st with types := st.types.add type }

end Resolver

end ApiClient
