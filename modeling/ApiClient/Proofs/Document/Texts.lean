import ApiClient.Proofs.Client.SignatureRun
import ApiClient.Proofs.Types.Way
import Mathlib

/-!
# The texts of a document

`Document.texts` lists the texts that a document has for its readers: titles and descriptions, URLs, and
the names of parameters and properties. Parameters, bodies and responses stand in the operations or among
the components (`Document.mem_parameters`), and schemas in any of these or in one another
(`Document.schemas`).
-/

namespace ApiClient

/-- The text that a value is, if it is one. -/
def Json.texts : Json → List String
  | .str s => [s]
  | _ => []

@[simp] theorem Json.mem_texts {j : Json} {text : String} : text ∈ j.texts ↔ j = .str text := by
  cases j <;> simp [Json.texts, eq_comm]

/-- The object, unless a pointer stands in its place. -/
def RefOr.inline? {α : Type} : RefOr α → Option α
  | ref _ => none
  | inline a => some a

/-- The response that a component is. -/
def Component.response? : Component → Option Response
  | .response x => some x
  | _ => none

/-! ## Components -/

theorem Components.exists_of_mem_entries {α : Type} {make : α → Component} {t : Table (RefOr α)}
    {key : String} {found : Component} (h : (key, RefOr.inline found) ∈ entries make t) :
    ∃ a, (key, .inline a) ∈ t ∧ make a = found := by
  obtain ⟨⟨key', value⟩, he, heq⟩ := List.mem_map.1 h
  obtain ⟨rfl, hvalue⟩ := Prod.mk.inj heq
  cases value with
  | ref pointer => cases hvalue
  | inline a => exact ⟨a, he, RefOr.inline.inj hvalue⟩

theorem Components.home_of_mem_table {c : Components} {s : Section} {key : String} {found : Component}
    (h : (key, RefOr.inline found) ∈ c.table s) : found.home = s := by
  cases s <;>
  · obtain ⟨a, -, rfl⟩ := exists_of_mem_entries h
    rfl

/-- The objects of a section: those that stand in the place of declarations and those that stand among
the components. -/
def inPlace {α : Type} (declared : List (RefOr α)) (t : Table (RefOr α)) : List α :=
  (declared ++ t.map Prod.snd).filterMap RefOr.inline?

/-- What a declaration stands for stands in its place or among the components. -/
theorem Signature.mem_inPlace_of_target {α : Type} {r : Resolver} {c : Components}
    (hc : r.components = some c) {home : Section} {take : Component → Option α}
    (make : α → Component) (htake : ∀ found a, take found = some a ↔ make a = found) {t : Table (RefOr α)}
    (ht : ∀ a, c.table (make a).home = Components.entries make t) {declared : List (RefOr α)}
    {value : RefOr α} (hvalue : value ∈ declared) {a : α} (h : target r home take value = some a) :
    a ∈ inPlace declared t := by
  refine List.mem_filterMap.2 ⟨.inline a, List.mem_append.2 ?_, rfl⟩
  cases value with
  | inline b =>
    obtain rfl := Option.some.inj h
    exact Or.inl hvalue
  | ref pointer =>
    rw [target, hc, Pointer.follow] at h
    split at h
    · cases h
    · rename_i name found hfollow
      obtain rfl := (htake found a).1 h
      obtain ⟨last, hlast⟩ := Pointer.exists_resolve_of_followFrom _ _ _ _ hfollow
      obtain ⟨s, key, hmem, -, -⟩ := Pointer.exists_mem_of_resolve hlast
      obtain rfl := Components.home_of_mem_table hmem
      rw [ht a] at hmem
      obtain ⟨b, hb, hmake⟩ := Components.exists_of_mem_entries hmem
      obtain rfl := Option.some.inj (((htake _ b).2 hmake).symm.trans h)
      exact Or.inr (List.mem_map.2 ⟨_, hb, rfl⟩)

namespace Document

/-! ## Parts -/

/-- The operations. -/
def operations (d : Document) : List Operation :=
  d.paths.flatMap fun e => e.2.operations.map Prod.snd

/-- The parameters of paths and operations and those among the components. -/
def parameters (d : Document) : List Parameter :=
  inPlace (d.paths.flatMap (·.2.parameters) ++ d.operations.flatMap (·.parameters))
    d.components.parameters

/-- The bodies of requests. -/
def requestBodies (d : Document) : List RequestBody :=
  inPlace (d.operations.filterMap (·.requestBody)) d.components.requestBodies

/-- The responses. -/
def responses (d : Document) : List Response :=
  inPlace (d.operations.flatMap (·.responses.byCode.map Prod.snd)) d.components.responses

/-- The schemas of bodies of these media types. -/
def contentSchemas (content : Table MediaType) : List (RefOr Schema) :=
  content.filterMap (·.2.schema)

/-- The schemas that do not stand in other schemas. -/
def schemaRoots (d : Document) : List (RefOr Schema) :=
  d.components.schemas.map Prod.snd ++ d.parameters.filterMap Signature.parameterSchema ++
    d.requestBodies.flatMap (contentSchemas ·.content) ++
    d.responses.flatMap (contentSchemas ·.content)

/-- The schemas. -/
def schemas (d : Document) : List Schema :=
  d.schemaRoots.flatMap Schema.refParts

/-- The names of the properties. -/
def propertyNames (s : Schema) : List String :=
  (s.properties.getD []).map Prod.fst

/-- The texts of a document: the title, the version and the description, the URLs, what is said about
operations and schemas, and the names of parameters and properties. -/
def texts (d : Document) : List String :=
  [d.info.title, d.info.version] ++ d.info.description.texts ++ d.servers.flatMap (·.url.texts) ++
    d.paths.map Prod.fst ++
    d.operations.flatMap (fun o => o.summary.texts ++ o.description.texts) ++
    d.parameters.flatMap (·.name.texts) ++
    d.schemas.flatMap fun s => s.title.texts ++ s.description.texts ++ propertyNames s

variable {d : Document} {value : RefOr Schema}

theorem mem_operations {e : String × PathItem} (he : e ∈ d.paths) {o : Method × Operation}
    (ho : o ∈ e.2.operations) : o.2 ∈ d.operations :=
  List.mem_flatMap.2 ⟨e, he, List.mem_map_of_mem ho⟩

theorem mem_schemaRoots_of_component {e : String × RefOr Schema} (h : e ∈ d.components.schemas) :
    e.2 ∈ d.schemaRoots :=
  List.mem_append_left _ (List.mem_append_left _ (List.mem_append_left _ (List.mem_map_of_mem h)))

theorem mem_schemaRoots_of_parameter {p : Parameter} (hp : p ∈ d.parameters)
    (h : Signature.parameterSchema p = some value) : value ∈ d.schemaRoots :=
  List.mem_append_left _ (List.mem_append_left _ (List.mem_append_right _
    (List.mem_filterMap.2 ⟨p, hp, h⟩)))

theorem mem_schemaRoots_of_requestBody {b : RequestBody} (hb : b ∈ d.requestBodies)
    {e : String × MediaType} (he : e ∈ b.content) (h : e.2.schema = some value) :
    value ∈ d.schemaRoots :=
  List.mem_append_left _ (List.mem_append_right _
    (List.mem_flatMap.2 ⟨b, hb, List.mem_filterMap.2 ⟨e, he, h⟩⟩))

theorem mem_schemaRoots_of_response {x : Response} (hx : x ∈ d.responses) {e : String × MediaType}
    (he : e ∈ x.content) (h : e.2.schema = some value) : value ∈ d.schemaRoots :=
  List.mem_append_right _ (List.mem_flatMap.2 ⟨x, hx, List.mem_filterMap.2 ⟨e, he, h⟩⟩)

variable {r : Resolver} (hr : r.components = some d.components)

include hr

/-- The parameters that a path and its operations declare are among those of the document. -/
theorem mem_parameters {e : String × PathItem} (he : e ∈ d.paths) {o : Operation}
    (ho : o ∈ d.operations) {value : RefOr Parameter} (hvalue : value ∈ e.2.parameters ++ o.parameters)
    {p : Parameter} (h : Signature.parameterOf r value = some p) : p ∈ d.parameters := by
  refine Signature.mem_inPlace_of_target hr .parameter (fun found p => ?_) (fun _ => rfl) ?_ h
  · cases found <;> simp [Component.parameter?, eq_comm]
  · refine List.mem_append.2 ((List.mem_append.1 hvalue).imp ?_ ?_)
    · exact fun hp => List.mem_flatMap.2 ⟨e, he, hp⟩
    · exact fun hp => List.mem_flatMap.2 ⟨o, ho, hp⟩

/-- The body that an operation declares is among those of the document. -/
theorem mem_requestBodies {o : Operation} (ho : o ∈ d.operations) {value : RefOr RequestBody}
    (hvalue : o.requestBody = some value) {b : RequestBody}
    (h : Signature.target r .requestBodies Component.requestBody? value = some b) :
    b ∈ d.requestBodies := by
  refine Signature.mem_inPlace_of_target hr .requestBody (fun found b => ?_) (fun _ => rfl)
    (List.mem_filterMap.2 ⟨o, ho, hvalue⟩) h
  cases found <;> simp [Component.requestBody?, eq_comm]

/-- The responses that an operation declares are among those of the document. -/
theorem mem_responses {o : Operation} (ho : o ∈ d.operations) {e : String × RefOr Response}
    (he : e ∈ o.responses.byCode) {x : Response}
    (h : Signature.target r .responses Component.response? e.2 = some x) : x ∈ d.responses := by
  refine Signature.mem_inPlace_of_target hr .response (fun found x => ?_) (fun _ => rfl)
    (List.mem_flatMap.2 ⟨o, ho, List.mem_map_of_mem he⟩) h
  cases found <;> simp [Component.response?, eq_comm]

/-- The schemas in the components and in one that does not stand in another are those of the
document. -/
theorem partsWith_subset (h : value ∈ d.schemaRoots) :
    r.partsWith value ⊆ d.schemas := by
  intro s hs
  rcases List.mem_append.1 hs with hs | hs
  · obtain ⟨e, he, hse⟩ := List.mem_flatMap.1 hs
    rw [Resolver.schemas, hr] at he
    exact List.mem_flatMap.2 ⟨e.2, mem_schemaRoots_of_component he, hse⟩
  · exact List.mem_flatMap.2 ⟨value, h, hs⟩

end Document

end ApiClient
