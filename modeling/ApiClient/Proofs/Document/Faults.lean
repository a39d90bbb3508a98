import ApiClient.Proofs.Document.Judging
import Mathlib

/-!
# Faults of a document

A value that is no document is reported with a fault that says what is wrong with it, except where it
has something that is left unchecked: an entry of the encodings of a media type that is no object, or
scopes that have no parts. Reading ends in one of three ways (`faults_declared_unless_unchecked`): the
value is a document and has nothing of this kind, or a declared fault is met, or a misfit that such a
value explains. Both kinds of values do make reading fail with a misfit
(`misfits_of_scopes_and_encodings`).
-/

namespace ApiClient.Document

open Json

/-- The parts of a document that have something unchecked in them. -/
inductive Role where
  | document | pathItem | operation | callback | parameter | requestBody | response | header
  | mediaType | requirement
  deriving DecidableEq

namespace Role

/-- The parts with a table of bodies by media type. Each may be a pointer instead. -/
def bearers : List Role :=
  [.parameter, .requestBody, .response, .header]

/-- The tables of components, with what is in them. -/
def sections : List (String × Role) :=
  [("responses", .response), ("parameters", .parameter), ("requestBodies", .requestBody),
    ("headers", .header), ("callbacks", .callback)]

end Role

/-- In the value `j` of a part of a document is something that reading does not check, and it does not fit
in the way `m`. A part is looked at where reading comes to it: pointers and extensions are left out. -/
inductive Unchecked : Role → Json → Misfit → Prop
  /-- An entry of the encodings of a media type is no object. -/
  | encoding {j value : Json} {name : String} (hentry : (name, value) ∈ (j.member "encoding").members)
      (hkind : value.kind ≠ .dict) : Unchecked .mediaType j .operation
  /-- The scopes of a scheme have no parts. -/
  | scopes {j value : Json} {name : String} {m : Misfit} (hentry : (name, value) ∈ j.members)
      (hparts : parts value = .error m) : Unchecked .requirement j m
  | encodingHeader {j value header : Json} {name key : String} {m : Misfit}
      (hentry : (name, value) ∈ (j.member "encoding").members)
      (hheader : (key, header) ∈ (value.member "headers").members)
      (h : Unchecked .header header m) : Unchecked .mediaType j m
  | content {role : Role} {j media : Json} {type : String} {m : Misfit} (hrole : role ∈ Role.bearers)
      (hinline : j.member "$ref" = .null) (hmedia : (type, media) ∈ (j.member "content").members)
      (h : Unchecked .mediaType media m) : Unchecked role j m
  | responseHeader {j header : Json} {name : String} {m : Misfit} (hinline : j.member "$ref" = .null)
      (hheader : (name, header) ∈ (j.member "headers").members) (h : Unchecked .header header m) :
      Unchecked .response j m
  | requirement {role : Role} {j requirement : Json} {m : Misfit}
      (hrole : role = .document ∨ role = .operation)
      (hitem : requirement ∈ (j.member "security").items)
      (h : Unchecked .requirement requirement m) : Unchecked role j m
  | parameter {role : Role} {j parameter : Json} {m : Misfit}
      (hrole : role = .pathItem ∨ role = .operation) (hitem : parameter ∈ (j.member "parameters").items)
      (h : Unchecked .parameter parameter m) : Unchecked role j m
  | requestBody {j : Json} {m : Misfit} (h : Unchecked .requestBody (j.member "requestBody") m) :
      Unchecked .operation j m
  | fallback {j : Json} {m : Misfit}
      (h : Unchecked .response ((j.member "responses").member "default") m) : Unchecked .operation j m
  | response {j response : Json} {code : String} {m : Misfit} (hcode : code ≠ "default")
      (hentry : (code, response) ∈ fields (j.member "responses"))
      (h : Unchecked .response response m) : Unchecked .operation j m
  | callback {j callback : Json} {name : String} {m : Misfit}
      (hentry : (name, callback) ∈ fields (j.member "callbacks"))
      (h : Unchecked .callback callback m) : Unchecked .operation j m
  | expression {j item : Json} {name : String} {m : Misfit} (hinline : j.member "$ref" = .null)
      (hentry : (name, item) ∈ fields j) (h : Unchecked .pathItem item m) : Unchecked .callback j m
  | operation {j : Json} {m : Misfit} (method : Method)
      (h : Unchecked .operation (j.member method.key) m) : Unchecked .pathItem j m
  | path {j item : Json} {url : String} {m : Misfit} (hentry : (url, item) ∈ fields (j.member "paths"))
      (h : Unchecked .pathItem item m) : Unchecked .document j m
  | component {role : Role} {j component : Json} {key name : String} {m : Misfit}
      (hsection : (key, role) ∈ Role.sections)
      (hentry : (name, component) ∈ fields ((j.member "components").member key))
      (h : Unchecked role component m) : Unchecked .document j m

variable {role : Role} {j : Json} {m : Misfit}

/-- There is nothing to check in what is absent. -/
theorem Unchecked.ne_null (h : Unchecked role j m) : j ≠ .null := by
  induction h with
  | operation _ _ ih | requestBody _ ih | fallback _ ih =>
    rintro rfl
    exact ih rfl
  | encoding hentry | scopes hentry | encodingHeader hentry | content _ _ hentry
  | responseHeader _ hentry | requirement _ hentry | parameter _ hentry | response _ hentry
  | callback hentry | expression _ hentry | path hentry | component _ hentry =>
    rintro rfl
    cases hentry

/-! ## Security -/

theorem unchecked_requirement_iff : Unchecked .requirement j m ↔
    ∃ e ∈ j.members, parts e.2 = .error m := by
  constructor
  · intro h
    cases h with
    | scopes hentry hparts => exact ⟨_, hentry, hparts⟩
    | content hrole => simp [Role.bearers] at hrole
    | requirement hrole => simp at hrole
    | parameter hrole => simp at hrole
  · rintro ⟨e, hentry, hparts⟩
    exact .scopes hentry hparts

theorem judged_parts (value : Json) : Judged (fun m => parts value = .error m)
    (match parts value with
    | .ok scopes => .ok scopes
    | .error misfit => .error (.misfit misfit)) := by
  split
  · rename_i scopes hparts
    exact (judged_pure scopes).of_iff (by simp [hparts])
  · rename_i misfit hparts
    exact (judged_misfit misfit).of_iff (by simp [hparts, eq_comm])

theorem judged_readSecurity (place : String) (j : Json) :
    Judged (fun m => ∃ requirement ∈ j.items, Unchecked .requirement requirement m)
      (readSecurity place j) := by
  rw [readSecurity]
  refine judged_optional ?absent fun _ => ?_
  case absent =>
    rintro rfl m ⟨_, hitem, -⟩
    cases hitem
  refine .after (declares_checkArray _ _) fun _ _ => judged_eachItem fun _ requirement _ => ?_
  refine .after (declares_checkObject _ _) fun _ _ => ?_
  refine .of_iff (judged_eachMember fun _ value _ => judged_parts value) fun m => ?_
  exact unchecked_requirement_iff.symm

/-! ## Contents -/

/-- Whether there is something unchecked in an entry of the encodings. -/
def InEncoding (value : Json) (m : Misfit) : Prop :=
  value.kind ≠ .dict ∧ m = .operation ∨
    ∃ header ∈ (value.member "headers").members, Unchecked .header header.2 m

/-- Whether there is something unchecked in the bodies of a part. -/
def InContent (content : Json) (m : Misfit) : Prop :=
  ∃ media ∈ content.members, Unchecked .mediaType media.2 m

theorem unchecked_mediaType_iff : Unchecked .mediaType j m ↔
    ∃ e ∈ (j.member "encoding").members, InEncoding e.2 m := by
  constructor
  · intro h
    cases h with
    | encoding hentry hkind => exact ⟨_, hentry, .inl ⟨hkind, rfl⟩⟩
    | encodingHeader hentry hheader h => exact ⟨_, hentry, .inr ⟨_, hheader, h⟩⟩
    | content hrole => simp [Role.bearers] at hrole
    | requirement hrole => simp at hrole
    | parameter hrole => simp at hrole
  · rintro ⟨e, hentry, ⟨hkind, rfl⟩ | ⟨header, hheader, h⟩⟩
    · exact .encoding hentry hkind
    · exact .encodingHeader hentry hheader h

/-- An object has its kind, if it has members. -/
theorem kind_of_mem_members {name key : String} {value : Json}
    (h : (name, value) ∈ (j.member key).members) : j.kind = .dict := by
  cases j with
  | obj members => rfl
  | _ => cases h

theorem inEncoding_iff_of_object {value : Json} (h : value.kind = .dict) : InEncoding value m ↔
    ∃ header ∈ (value.member "headers").members, Unchecked .header header.2 m :=
  or_iff_right fun hwrong => hwrong.1 h

theorem inEncoding_iff_of_ne {value : Json} (h : value.kind ≠ .dict) :
    InEncoding value m ↔ m = .operation := by
  constructor
  · rintro (⟨-, hm⟩ | ⟨_, hheader, -⟩)
    · exact hm
    · exact absurd (kind_of_mem_members hheader) h
  · exact fun hm => .inl ⟨h, hm⟩

/-- Of these parts only the bodies are left to look at. -/
theorem unchecked_content_iff (hrole : role = .parameter ∨ role = .requestBody ∨ role = .header) :
    Unchecked role j m ↔ j.member "$ref" = .null ∧ InContent (j.member "content") m := by
  constructor
  · intro h
    rcases hrole with rfl | rfl | rfl <;> cases h with
    | content _ hinline hmedia h => exact ⟨hinline, _, hmedia, h⟩
    | requirement hrole | parameter hrole => simp at hrole
  · rintro ⟨hinline, media, hmedia, h⟩
    refine .content ?_ hinline hmedia h
    rcases hrole with rfl | rfl | rfl <;> decide

theorem unchecked_response_iff : Unchecked .response j m ↔ j.member "$ref" = .null ∧
    ((∃ header ∈ (j.member "headers").members, Unchecked .header header.2 m) ∨
      InContent (j.member "content") m) := by
  constructor
  · intro h
    cases h with
    | content _ hinline hmedia h => exact ⟨hinline, .inr ⟨_, hmedia, h⟩⟩
    | responseHeader hinline hheader h => exact ⟨hinline, .inl ⟨_, hheader, h⟩⟩
    | requirement hrole | parameter hrole => simp at hrole
  · rintro ⟨hinline, ⟨header, hheader, h⟩ | ⟨media, hmedia, h⟩⟩
    · exact .responseHeader hinline hheader h
    · exact .content (by decide) hinline hmedia h

@[simp] theorem declares_schemaField (place : String) (j : Json) : Declares (schemaField place j) := by
  simp [schemaField]

theorem judged_eachMedia {place : String} {content : Json}
    {read : String → ∀ type media, (type, media) ∈ content.members → Read MediaType}
    (h : ∀ place type media hmedia,
      Judged (Unchecked .mediaType media) (read place type media hmedia)) :
    Judged (InContent content) (eachMedia place content read) := by
  rw [eachMedia]
  refine .after (declares_checkObject _ _) fun _ _ => ?_
  refine judged_eachMember (p := fun _ media => Unchecked .mediaType media) fun type media hmedia => ?_
  exact .after (declares_checkObject _ _) fun _ _ => h _ type media hmedia

mutual

theorem judged_readMediaType (place : String) (j : Json) :
    Judged (Unchecked .mediaType j) (readMediaType place j) := by
  rw [readMediaType]
  refine .of_iff ?_ fun m => unchecked_mediaType_iff.symm
  refine .after (declares_schemaField _ _) fun _ _ => ?_
  refine .after (declares_checkObject _ _) fun _ _ => ?_
  refine .after (declares_eachMember fun _ _ _ => declares_readExample _ _) fun _ _ => ?_
  refine .after (declares_checkObject _ _) fun _ _ => ?_
  refine .before ?_ fun _ => declares_pure _
  refine judged_eachMember (p := fun _ value => InEncoding value) fun name value h => ?_
  split
  · rename_i hkind
    refine .of_iff ?_ fun m => (inEncoding_iff_of_object hkind).symm
    refine .after (declares_checkObject _ _) fun _ _ => ?_
    refine .before ?_ fun _ => declares_pure _
    refine judged_eachMember (p := fun _ header => Unchecked .header header) fun key header hh => ?_
    have := sizeOf_entry_lt h
    have := sizeOf_entry_lt hh
    exact judged_readHeader _ header
  · rename_i hkind
    exact (judged_misfit _).of_iff fun m => (inEncoding_iff_of_ne hkind).symm
  termination_by sizeOf j

theorem judged_readHeader (place : String) (j : Json) :
    Judged (Unchecked .header j) (readHeader place j) := by
  rw [readHeader]
  refine .of_iff (judged_refOr ?_) fun m => (unchecked_content_iff (by simp)).symm
  refine .after (declares_schemaField _ _) fun _ _ => ?_
  refine .before (judged_eachMedia fun place type media h => ?_) fun _ => declares_pure _
  have := sizeOf_entry_lt h
  exact judged_readMediaType _ media
  termination_by sizeOf j

end

theorem judged_readContent (place : String) (content : Json) :
    Judged (InContent content) (readContent place content) :=
  judged_eachMedia fun place _ media _ => judged_readMediaType place media

theorem judged_readParameter (place : String) (j : Json) :
    Judged (Unchecked .parameter j) (readParameter place j) := by
  rw [readParameter]
  refine .of_iff (judged_refOr ?_) fun m => (unchecked_content_iff (by simp)).symm
  refine .after (declares_required _ _ _) fun _ _ => ?_
  refine .after (declares_required _ _ _) fun _ _ => ?_
  refine .after (declares_schemaField _ _) fun _ _ => ?_
  exact .before (judged_readContent _ _) fun _ => declares_pure _

theorem judged_readParameters (place : String) (j : Json) :
    Judged (fun m => ∃ parameter ∈ j.items, Unchecked .parameter parameter m)
      (readParameters place j) := by
  rw [readParameters]
  refine .after (declares_checkArray _ _) fun _ _ => ?_
  exact judged_eachItem fun _ value _ => judged_readParameter _ value

theorem judged_readRequestBody (place : String) (j : Json) :
    Judged (Unchecked .requestBody j) (readRequestBody place j) := by
  rw [readRequestBody]
  refine .of_iff (judged_refOr ?_) fun m => (unchecked_content_iff (by simp)).symm
  refine .after (declares_required _ _ _) fun content hcontent => ?_
  obtain rfl := eq_member_of_required hcontent
  exact .before (judged_readContent _ _) fun _ => declares_pure _

theorem judged_readResponse (place : String) (j : Json) :
    Judged (Unchecked .response j) (readResponse place j) := by
  rw [readResponse]
  refine .of_iff (judged_refOr ?_) fun m => unchecked_response_iff.symm
  refine .after (declares_checkObject _ _) fun _ _ => ?_
  refine .bind (judged_eachMember (p := fun _ header => Unchecked .header header)
    fun _ header _ => judged_readHeader _ header) fun _ _ => ?_
  refine .before (judged_readContent _ _) fun _ => ?_
  simp

/-! ## Paths -/

/-- Whether there is something unchecked in the responses of an operation. -/
def InResponses (responses : Json) (m : Misfit) : Prop :=
  Unchecked .response (responses.member "default") m ∨
    ∃ e ∈ (fields responses).filter (·.1 ≠ "default"), Unchecked .response e.2 m

theorem unchecked_operation_iff : Unchecked .operation j m ↔ InResponses (j.member "responses") m ∨
    (∃ parameter ∈ (j.member "parameters").items, Unchecked .parameter parameter m) ∨
    Unchecked .requestBody (j.member "requestBody") m ∨
    (∃ e ∈ fields (j.member "callbacks"), Unchecked .callback e.2 m) ∨
    ∃ requirement ∈ (j.member "security").items, Unchecked .requirement requirement m := by
  constructor
  · intro h
    cases h with
    | fallback h => exact .inl (.inl h)
    | response hcode hentry h =>
      exact .inl (.inr ⟨_, List.mem_filter.2 ⟨hentry, decide_eq_true hcode⟩, h⟩)
    | parameter _ hitem h => exact .inr (.inl ⟨_, hitem, h⟩)
    | requestBody h => exact .inr (.inr (.inl h))
    | callback hentry h => exact .inr (.inr (.inr (.inl ⟨_, hentry, h⟩)))
    | requirement _ hitem h => exact .inr (.inr (.inr (.inr ⟨_, hitem, h⟩)))
    | content hrole => simp [Role.bearers] at hrole
  · rintro ((h | ⟨e, hentry, h⟩) | ⟨_, hitem, h⟩ | h | ⟨e, hentry, h⟩ | ⟨_, hitem, h⟩)
    · exact .fallback h
    · obtain ⟨hfields, hcode⟩ := List.mem_filter.1 hentry
      exact .response (of_decide_eq_true hcode) hfields h
    · exact .parameter (.inr rfl) hitem h
    · exact .requestBody h
    · exact .callback hentry h
    · exact .requirement (.inr rfl) hitem h

theorem unchecked_callback_iff : Unchecked .callback j m ↔
    j.member "$ref" = .null ∧ ∃ e ∈ fields j, Unchecked .pathItem e.2 m := by
  constructor
  · intro h
    cases h with
    | expression hinline hentry h => exact ⟨hinline, _, hentry, h⟩
    | content hrole => simp [Role.bearers] at hrole
    | requirement hrole | parameter hrole => simp at hrole
  · rintro ⟨hinline, e, hentry, h⟩
    exact .expression hinline hentry h

theorem unchecked_pathItem_iff : Unchecked .pathItem j m ↔
    (∃ method ∈ Method.all, Unchecked .operation (j.member method.key) m) ∨
      ∃ parameter ∈ (j.member "parameters").items, Unchecked .parameter parameter m := by
  constructor
  · intro h
    cases h with
    | operation method h => exact .inl ⟨method, by cases method <;> decide, h⟩
    | parameter _ hitem h => exact .inr ⟨_, hitem, h⟩
    | content hrole => simp [Role.bearers] at hrole
    | requirement hrole => simp at hrole
  · rintro (⟨method, -, h⟩ | ⟨_, hitem, h⟩)
    · exact .operation method h
    · exact .parameter (.inl rfl) hitem h

/-- What is absent has nothing unchecked in it. -/
theorem judged_optional_part (role : Role) {α : Type} {value : Json} {reader : value ≠ .null → Read α}
    (h : ∀ hne, Judged (Unchecked role value) (reader hne)) :
    Judged (Unchecked role value) (optional value reader) :=
  judged_optional (fun hnull _ hpart => hpart.ne_null hnull) h

theorem judged_readResponses (place : String) (j : Json) :
    Judged (InResponses j) (readResponses place j) := by
  rw [readResponses]
  refine .bind (judged_optional_part .response fun _ => judged_readResponse _ _) fun _ _ => ?_
  refine .before ?_ fun _ => declares_pure _
  exact judged_eachMember (p := fun _ response => Unchecked .response response) fun _ response _ =>
    judged_readResponse _ response

mutual

theorem judged_readPathItem (place : String) (j : Json) :
    Judged (Unchecked .pathItem j) (readPathItem place j) := by
  rw [readPathItem]
  refine .of_iff ?_ fun m => unchecked_pathItem_iff.symm
  refine .bind (judged_readOperations place j Method.all) fun _ _ => ?_
  refine .after (declares_readServers _ _) fun _ _ => ?_
  exact .before (judged_readParameters _ _) fun _ => declares_pure _
  termination_by (sizeOf j, 1, 0)

theorem judged_readOperations (place : String) (j : Json) : ∀ methods : List Method,
    Judged (fun m => ∃ method ∈ methods, Unchecked .operation (j.member method.key) m)
      (readOperations place j methods)
  | [] => by
    rw [readOperations]
    exact (judged_pure []).of_iff (by simp)
  | method :: rest => by
    rw [readOperations]
    refine .of_iff (.bind (judged_optional_part .operation fun hne => ?operation) fun _ _ =>
      .before (judged_readOperations place j rest) fun _ => declares_pure _) (by simp)
    case operation =>
      have := sizeOf_member_lt hne
      refine .after (declares_checkObject _ _) fun _ _ => ?_
      exact judged_readOperation _ (j.member method.key)
  termination_by methods => (sizeOf j, 0, methods.length)

theorem judged_readOperation (place : String) (j : Json) :
    Judged (Unchecked .operation j) (readOperation place j) := by
  rw [readOperation]
  refine .after (declares_required _ _ _) fun responses hresponses => ?_
  obtain rfl := eq_member_of_required hresponses
  refine .of_iff ?_ fun m => unchecked_operation_iff.symm
  refine .after (declares_checkObject _ _) fun _ _ => ?_
  refine .bind (judged_readResponses _ _) fun _ _ => ?_
  refine .after (declares_checkArray _ _) fun _ _ => ?_
  refine .after (declares_readExternalDocs _) fun _ _ => ?_
  refine .bind (judged_readParameters _ _) fun _ _ => ?_
  refine .bind (judged_optional_part .requestBody fun _ => judged_readRequestBody _ _) fun _ _ => ?_
  refine .after (declares_checkObject _ _) fun _ _ => ?_
  refine .bind (judged_eachMember (p := fun _ callback => Unchecked .callback callback)
    fun name callback h => ?callback) fun _ _ => ?_
  case callback =>
    have := sizeOf_entry_lt (mem_members_of_mem_fields h)
    exact judged_readCallback _ callback
  refine .before (judged_readSecurity _ _) fun _ => ?_
  simp
  termination_by (sizeOf j, 0, 0)

theorem judged_readCallback (place : String) (j : Json) :
    Judged (Unchecked .callback j) (readCallback place j) := by
  rw [readCallback]
  refine .of_iff (judged_refOr ?_) fun m => unchecked_callback_iff.symm
  refine .before (judged_eachMember (p := fun _ item => Unchecked .pathItem item)
    fun expression item h => ?_) fun _ => declares_pure _
  have := sizeOf_lt_of_mem_members (mem_members_of_mem_fields h)
  exact .after (declares_checkObject _ _) fun _ _ => judged_readPathItem _ item
  termination_by (sizeOf j, 0, 0)

end

/-! ## Documents -/

theorem judged_readPaths (j : Json) :
    Judged (fun m => ∃ e ∈ fields j, Unchecked .pathItem e.2 m) (readPaths j) := by
  rw [readPaths]
  refine judged_eachMember (p := fun _ item => Unchecked .pathItem item) fun url item _ => ?_
  split
  · exact .after (declares_checkObject _ _) fun _ _ => judged_readPathItem url item
  · exact judged_fault nofun

/-- Whether there is something unchecked in the tables of components. -/
def InComponents (components : Json) (m : Misfit) : Prop :=
  ∃ s ∈ Role.sections, ∃ e ∈ fields (components.member s.1), Unchecked s.2 e.2 m

theorem inComponents_iff : InComponents j m ↔
    (∃ e ∈ fields (j.member "responses"), Unchecked .response e.2 m) ∨
    (∃ e ∈ fields (j.member "parameters"), Unchecked .parameter e.2 m) ∨
    (∃ e ∈ fields (j.member "requestBodies"), Unchecked .requestBody e.2 m) ∨
    (∃ e ∈ fields (j.member "headers"), Unchecked .header e.2 m) ∨
    ∃ e ∈ fields (j.member "callbacks"), Unchecked .callback e.2 m := by
  simp [InComponents, Role.sections]

theorem judged_readSection {α : Type} (role : Role) {key : String}
    {read : String → Json → Read (RefOr α)}
    (h : ∀ place value, Judged (Unchecked role value) (read place value)) :
    Judged (fun m => ∃ e ∈ fields (j.member key), Unchecked role e.2 m)
      (readSection j key read) := by
  rw [readSection]
  refine .after (declares_checkObject _ _) fun _ _ => ?_
  exact judged_eachMember (p := fun _ value => Unchecked role value) fun _ value _ => h _ value

theorem declares_readSection {α : Type} {key : String} {read : String → Json → Read (RefOr α)}
    (h : ∀ place value, Declares (read place value)) : Declares (readSection j key read) := by
  simp [readSection, h]

theorem judged_readComponents (j : Json) : Judged (InComponents j) (readComponents j) := by
  rw [readComponents]
  refine .of_iff ?_ fun m => inComponents_iff.symm
  refine .after (declares_readSection declares_readSchema) fun _ _ => ?_
  refine .bind (judged_readSection .response judged_readResponse) fun _ _ => ?_
  refine .bind (judged_readSection .parameter judged_readParameter) fun _ _ => ?_
  refine .after (declares_readSection declares_readExample) fun _ _ => ?_
  refine .bind (judged_readSection .requestBody judged_readRequestBody) fun _ _ => ?_
  refine .bind (judged_readSection .header judged_readHeader) fun _ _ => ?_
  refine .after (declares_readSection declares_readSecurityScheme) fun _ _ => ?_
  refine .after (declares_readSection declares_readLink) fun _ _ => ?_
  exact .before (judged_readSection .callback judged_readCallback) fun _ => declares_pure _

theorem unchecked_document_iff : Unchecked .document j m ↔
    (∃ e ∈ fields (j.member "paths"), Unchecked .pathItem e.2 m) ∨
      InComponents (j.member "components") m ∨
      ∃ requirement ∈ (j.member "security").items, Unchecked .requirement requirement m := by
  constructor
  · intro h
    cases h with
    | path hentry h => exact .inl ⟨_, hentry, h⟩
    | component hsection hentry h => exact .inr (.inl ⟨_, hsection, _, hentry, h⟩)
    | requirement _ hitem h => exact .inr (.inr ⟨_, hitem, h⟩)
    | content hrole => simp [Role.bearers] at hrole
    | parameter hrole => simp at hrole
  · rintro (⟨e, hentry, h⟩ | ⟨s, hsection, e, hentry, h⟩ | ⟨_, hitem, h⟩)
    · exact .path hentry h
    · exact .component hsection hentry h
    · exact .requirement (.inl rfl) hitem h

theorem judged_ofJson (j : Json) : Judged (Unchecked .document j) (ofJson j) := by
  rw [ofJson]
  split
  · refine .after (declares_required _ _ _) fun version _ => ?_
    dsimp only
    split
    · refine .of_iff ?_ fun m => unchecked_document_iff.symm
      refine .after (declares_required _ _ _) fun info _ => ?_
      refine .after (declares_checkObject _ _) fun _ _ => ?_
      refine .after (declares_readInfo _) fun _ _ => ?_
      refine .after (declares_required _ _ _) fun paths hpaths => ?_
      obtain rfl := eq_member_of_required hpaths
      refine .after (declares_checkObject _ _) fun _ _ => ?_
      refine .bind (judged_readPaths _) fun _ _ => ?_
      refine .after (declares_readServers _ _) fun _ _ => ?_
      refine .after (declares_checkObject _ _) fun _ _ => ?_
      refine .bind (judged_readComponents _) fun _ _ => ?_
      refine .after (declares_checkArray _ _) fun _ _ => ?_
      refine .after (declares_eachItem fun _ _ _ => declares_readTag _) fun _ _ => ?_
      refine .after (declares_readExternalDocs _) fun _ _ => ?_
      exact .before (judged_readSecurity _ _) fun _ => declares_pure _
    · exact judged_fault nofun
  · exact judged_fault nofun

/-- Reading a value ends in one of three ways. The value is a document, and nothing is unchecked in it;
or a declared fault is met; or a misfit is met that an encoding or scopes in the value explain. -/
theorem faults_declared_unless_unchecked (j : Json) :
    (∃ d, ofJson j = .ok d ∧ ∀ m, ¬ Unchecked .document j m) ∨
      (∃ e, ofJson j = .error e ∧ ∀ m, e ≠ .misfit m) ∨
      ∃ m, ofJson j = .error (.misfit m) ∧ Unchecked .document j m := by
  cases hread : ofJson j with
  | ok d => exact .inl ⟨d, rfl, (judged_ofJson j).accepts d hread⟩
  | error e =>
    by_cases hmisfit : ∃ m, e = .misfit m
    · obtain ⟨m, rfl⟩ := hmisfit
      exact .inr (.inr ⟨m, rfl, (judged_ofJson j).blames m hread⟩)
    · exact .inr (.inl ⟨e, rfl, fun m hm => hmisfit ⟨m, hm⟩⟩)

/-! ## Two documents that are not reported -/

/-- A document with a number in the place of scopes. -/
def unscoped : Json :=
  .obj [("openapi", .str "3.0.0"), ("info", .obj [("title", .str "T"), ("version", .str "1")]),
    ("paths", .obj []), ("security", .arr [.obj [("key", .int 5)]])]

/-- A media type with a number in the place of an encoding. -/
def unencodedMedia : Json :=
  .obj [("encoding", .obj [("part", .int 5)])]

/-- A body of this media type. -/
def unencodedBody : Json :=
  .obj [("content", .obj [("text/plain", unencodedMedia)])]

/-- A document with the body among its components. -/
def unencoded : Json :=
  .obj [("openapi", .str "3.0.0"), ("info", .obj [("title", .str "T"), ("version", .str "1")]),
    ("paths", .obj []), ("components", .obj [("requestBodies", .obj [("Body", unencodedBody)])])]

theorem readMediaType_unencodedMedia (place : String) :
    readMediaType place unencodedMedia = .error (.misfit .operation) := by
  rw [readMediaType]
  rfl

theorem readRequestBody_unencodedBody (place : String) :
    readRequestBody place unencodedBody = .error (.misfit .operation) := by
  have hobject : ∀ place entries, checkObject place (.obj entries) = .ok () := fun _ _ => rfl
  have hmedia : ∀ place, checkObject place unencodedMedia = .ok () := fun _ => rfl
  simp [readRequestBody, unencodedBody, refOr, hobject, pointer?, required, readContent, eachMedia,
    eachMember, member, members, Table.get?, List.lookup, hmedia, readMediaType_unencodedMedia, bind,
    Except.bind]

theorem readSection_unencoded :
    readSection (unencoded.member "components") "requestBodies" readRequestBody =
      .error (.misfit .operation) := by
  change (readRequestBody _ unencodedBody >>= _) = _
  rw [readRequestBody_unencodedBody]
  rfl

/-- Scopes and encodings that do not fit are met without a fault that says so. -/
theorem misfits_of_scopes_and_encodings :
    ofJson unscoped = .error (.misfit .kind) ∧ ofJson unencoded = .error (.misfit .operation) := by
  refine ⟨rfl, ?_⟩
  change ((readSection (unencoded.member "components") "requestBodies" readRequestBody >>= _) >>= _) = _
  rw [readSection_unencoded]
  rfl

end ApiClient.Document
