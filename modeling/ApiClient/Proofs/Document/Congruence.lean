import ApiClient.Proofs.Document.View
import Mathlib

/-!
# Reading what is seen

Reading depends on what is seen of a value and on nothing else. There is one lemma for each kind of
object, which says so if it is so for the values of the fields, and together they say that objects with
the same fields are read alike (`Fixed.read_eq_of_fieldsAlike`).
-/

namespace ApiClient.Document

open Json

variable {α : Type} {j j' : Json} {m m' : Table Json}

/-! ## Parts of objects -/

theorem refOr_congr {place : String} {x y : Read α} (hkind : j.kind = j'.kind)
    (hpointer : pointer? j = pointer? j') (h : x = y) : refOr place j x = refOr place j' y := by
  rw [refOr, refOr, checkObject_congr place hkind, hpointer, h]

/-- An object of a kind whose pointer is a field. -/
theorem refOr_obj_congr {k : Fixed} {place : String} {x y : Read α} (h : FieldsAlike k m m')
    (hfield : ("$ref", .whole) ∈ k.fields) (hxy : x = y) :
    refOr place (.obj m) x = refOr place (.obj m') y := by
  refine refOr_congr rfl ?_ hxy
  rw [pointer?, pointer?, h.member_eq hfield]

theorem schemaField_congr (place : String)
    (h : (Shape.object .schema).Alike (j.member "schema") (j'.member "schema")) :
    schemaField place j = schemaField place j' :=
  optional_congr h.kind_eq fun _ _ => congrFun h.read_eq _

theorem readContent_congr (place : String) (h : (Shape.table (.object .mediaType)).Alike j j') :
    readContent place j = readContent place j' := by
  rw [readContent, readContent, eachMedia, eachMedia]
  refine bind_eq_bind (checkObject_congr _ h.kind_eq) fun _ => ?_
  refine h.eachMember_eq fun type media media' hmedia => ?_
  exact bind_eq_bind (checkObject_congr _ hmedia.kind_eq) fun _ => congrFun hmedia.read_eq _

theorem readServers_congr (place : String) (h : (Shape.list (.object .server)).Alike j j') :
    readServers place j = readServers place j' := by
  rw [readServers, readServers]
  exact bind_eq_bind (checkArray_congr _ h.kind_eq) fun _ => h.eachItem_eq fun _ _ _ hv => hv.read_eq

theorem readParameters_congr (place : String) (h : (Shape.list (.object .parameter)).Alike j j') :
    readParameters place j = readParameters place j' := by
  rw [readParameters, readParameters]
  refine bind_eq_bind (checkArray_congr _ h.kind_eq) fun _ => h.eachItem_eq ?_
  exact fun _ _ _ hv => congrFun hv.read_eq _

/-- What stands under a key of a table that belongs to no extension. -/
theorem Shape.Alike.member {s : Shape} (h : (Shape.extensible s).Alike j j') {key : String}
    (hkey : isExtension key = false) : s.Alike (j.member key) (j'.member key) := by
  refine alike_member_of_get? ?_
  rw [← get?_fields hkey, ← get?_fields hkey]
  exact get?_congr h.fields_eq key

/-- A pointer is a text, and of a text everything is seen. -/
theorem pointer?_congr {k : Fixed} (h : (Shape.object k).Alike (j.member "$ref") (j'.member "$ref")) :
    pointer? j = pointer? j' := by
  rw [pointer?, pointer?]
  obtain heq | ⟨hkind, hkind', -⟩ := opened_eq h
  · rw [heq]
  · cases hj : j.member "$ref" <;> rw [hj] at hkind <;> cases hkind
    cases hj' : j'.member "$ref" <;> rw [hj'] at hkind' <;> cases hkind'
    rfl

theorem readResponses_congr (place : String) (h : (Shape.extensible (.object .response)).Alike j j') :
    readResponses place j = readResponses place j' := by
  have hdefault : (Shape.object .response).Alike (j.member "default") (j'.member "default") :=
    h.member (by decide)
  have hcodes := congrArg (List.filter fun e => e.1 ≠ "default") h.fields_eq
  rw [List.filter_map, List.filter_map] at hcodes
  rw [readResponses, readResponses]
  refine bind_eq_bind (optional_congr hdefault.kind_eq fun _ _ => congrFun hdefault.read_eq _)
    fun _ => bind_eq_bind (eachMember_congr ?_ hcodes) fun _ => rfl
  exact fun _ _ _ hview => congrFun (Shape.Alike.read_eq hview) _

theorem readCallback_congr (place : String) (h : (Shape.extensible (.object .pathItem)).Alike j j') :
    readCallback place j = readCallback place j' := by
  rw [readCallback, readCallback]
  refine refOr_congr h.kind_eq (pointer?_congr (h.member (by decide))) ?_
  refine bind_eq_bind (h.eachField_eq fun expression item item' hitem => ?_) fun _ => rfl
  exact bind_eq_bind (checkObject_congr _ hitem.kind_eq) fun _ => congrFun hitem.read_eq _

theorem readPaths_congr (h : (Shape.extensible (.object .pathItem)).Alike j j') :
    readPaths j = readPaths j' := by
  rw [readPaths, readPaths]
  refine h.eachField_eq fun url item item' hitem => ?_
  split
  · exact bind_eq_bind (checkObject_congr _ hitem.kind_eq) fun _ => congrFun hitem.read_eq url
  · rfl

theorem readSection_congr {s : Shape} {key : String} {reader : String → Json → Read (RefOr α)}
    (h : (Shape.extensible s).Alike (j.member key) (j'.member key))
    (hreader : ∀ place v v', s.Alike v v' → reader place v = reader place v') :
    readSection j key reader = readSection j' key reader := by
  rw [readSection, readSection]
  exact bind_eq_bind (checkObject_congr _ h.kind_eq) fun _ => h.eachField_eq fun _ => hreader _

theorem readOAuthFlows_congr (place : String) (h : (Shape.table (.object .oauthFlow)).Alike j j') :
    readOAuthFlows place j = readOAuthFlows place j' := by
  have hmember : ∀ key, (Shape.object .oauthFlow).Alike (j.member key) (j'.member key) := fun key =>
    alike_member_of_get? (get?_congr h.members_eq key)
  have hflow : ∀ place key,
      readOAuthFlow place (j.member key) = readOAuthFlow place (j'.member key) := fun place key =>
    congrFun (hmember key).read_eq place
  have htruth : j.truth = j'.truth := by
    obtain rfl | ⟨hkind, hkind', hview⟩ := opened_eq h
    · rfl
    · cases j <;> cases hkind
      cases j' <;> cases hkind'
      have hempty := congrArg List.isEmpty hview
      rw [List.isEmpty_map, List.isEmpty_map] at hempty
      exact congrArg Bool.not hempty
  simp only [readOAuthFlows, htruth, hflow]

theorem readOperations_congr (place : String) : ∀ methods : List Method,
    (∀ method ∈ methods,
      (Shape.object .operation).Alike (j.member method.key) (j'.member method.key)) →
      readOperations place j methods = readOperations place j' methods
  | [], _ => by rw [readOperations, readOperations]
  | method :: rest, h => by
    have hoperation := h method List.mem_cons_self
    rw [readOperations, readOperations]
    refine bind_eq_bind (optional_congr hoperation.kind_eq fun _ _ => ?_) fun _ => ?_
    · exact bind_eq_bind (checkObject_congr _ hoperation.kind_eq) fun _ =>
        congrFun hoperation.read_eq _
    · rw [readOperations_congr place rest fun method hmem => h method (List.mem_cons_of_mem _ hmem)]

/-! ## Kinds of objects -/

theorem readInfo_congr (h : FieldsAlike .info m m') : readInfo (.obj m) = readInfo (.obj m') := by
  simp (disch := decide) only [readInfo, required, h.member_eq]

theorem readServerVariable_congr (name : String) (h : FieldsAlike .serverVariable m m') :
    readServerVariable name (.obj m) = readServerVariable name (.obj m') := by
  simp (disch := decide) only [readServerVariable, required, checkObject, h.member_eq]

theorem readServer_congr (h : FieldsAlike .server m m') :
    readServer (.obj m) = readServer (.obj m') := by
  have hvariables : (Shape.table (.object .serverVariable)).Alike _ _ :=
    h.alike (by decide : ("variables", _) ∈ _)
  rw [readServer, readServer]
  refine bind_eq_bind rfl fun _ => ?_
  refine hvariables.members_bind_eq (fun name _ _ hv => congrFun hv.read_eq name) fun _ => ?_
  simp (disch := decide) only [required, h.member_eq]

theorem readExternalDocs_congr (h : FieldsAlike .externalDocs m m') :
    readExternalDocs (.obj m) = readExternalDocs (.obj m') := by
  refine optional_congr rfl fun _ _ => ?_
  simp (disch := decide) only [required, checkObject, h.member_eq]

theorem readTag_congr (h : FieldsAlike .tag m m') : readTag (.obj m) = readTag (.obj m') := by
  have hdocs : (Shape.object .externalDocs).Alike _ _ := h.alike (by decide : ("externalDocs", _) ∈ _)
  have hread : readExternalDocs (member (.obj m) "externalDocs") =
      readExternalDocs (member (.obj m') "externalDocs") := hdocs.read_eq
  simp (disch := decide) only [readTag, required, checkObject, hread, h.member_eq]

theorem readExample_congr (place : String) (h : FieldsAlike .sample m m') :
    readExample place (.obj m) = readExample place (.obj m') := by
  refine refOr_obj_congr h (by decide) ?_
  simp (disch := decide) only [h.member_eq]

theorem readLink_congr (place : String) (h : FieldsAlike .link m m') :
    readLink place (.obj m) = readLink place (.obj m') := by
  have hserver : (Shape.object .server).Alike _ _ := h.alike (by decide : ("server", _) ∈ _)
  refine refOr_obj_congr h (by decide) ?_
  rw [h.member_eq (by decide : ("parameters", _) ∈ _)]
  refine bind_eq_bind rfl fun _ => ?_
  refine bind_eq_bind (optional_congr hserver.kind_eq fun _ _ => hserver.read_eq) fun _ => ?_
  simp (disch := decide) only [h.member_eq]

theorem readDiscriminator_congr (place : String) (h : FieldsAlike .discriminator m m') :
    readDiscriminator place (.obj m) = readDiscriminator place (.obj m') := by
  simp (disch := decide) only [readDiscriminator, required, h.member_eq]

theorem readSchema_congr (place : String) (h : FieldsAlike .schema m m') :
    readSchema place (.obj m) = readSchema place (.obj m') := by
  have hproperties : (Shape.table (.object .schema)).Alike _ _ :=
    h.alike (by decide : ("properties", _) ∈ _)
  have hitems : (Shape.object .schema).Alike _ _ := h.alike (by decide : ("items", _) ∈ _)
  have hadditional : (Shape.object .schema).Alike _ _ :=
    h.alike (by decide : ("additionalProperties", _) ∈ _)
  have hall : (Shape.list (.object .schema)).Alike _ _ := h.alike (by decide : ("allOf", _) ∈ _)
  have hone : (Shape.list (.object .schema)).Alike _ _ := h.alike (by decide : ("oneOf", _) ∈ _)
  have hany : (Shape.list (.object .schema)).Alike _ _ := h.alike (by decide : ("anyOf", _) ∈ _)
  have hnot : (Shape.object .schema).Alike _ _ := h.alike (by decide : ("not", _) ∈ _)
  have hdiscriminator : (Shape.object .discriminator).Alike _ _ :=
    h.alike (by decide : ("discriminator", _) ∈ _)
  conv_lhs => rw [readSchema]
  conv_rhs => rw [readSchema]
  refine refOr_obj_congr h (by decide) ?_
  refine bind_eq_bind (optional_congr hproperties.kind_eq fun _ _ => ?properties) fun _ => ?_
  case properties =>
    refine bind_eq_bind (checkObject_congr _ hproperties.kind_eq) fun _ => ?_
    exact hproperties.eachMember_eq fun _ _ _ hv => congrFun hv.read_eq _
  rw [h.member_eq (by decide : ("required", _) ∈ _), h.member_eq (by decide : ("enum", _) ∈ _)]
  refine bind_eq_bind rfl fun _ => ?_
  refine bind_eq_bind (optional_congr hitems.kind_eq fun _ _ => congrFun hitems.read_eq _) fun _ => ?_
  refine bind_eq_bind (optional_congr hadditional.kind_eq fun _ _ => ?additional) fun _ => ?_
  case additional =>
    dsimp only
    obtain heq | ⟨hkind, hkind', hread⟩ := opened_eq hadditional
    · rw [heq]
    · cases hvalue : member (.obj m) "additionalProperties" <;> rw [hvalue] at hkind <;> cases hkind
      cases hvalue' : member (.obj m') "additionalProperties" <;> rw [hvalue'] at hkind' <;>
        cases hkind'
      rw [hvalue, hvalue'] at hread
      exact bind_eq_bind (congrFun hread _) fun _ => rfl
  refine bind_eq_bind rfl fun _ => ?_
  -- the three lists of alternatives
  refine hall.items_bind_eq (fun _ _ _ hv => congrFun hv.read_eq _) fun _ => ?_
  refine hone.items_bind_eq (fun _ _ _ hv => congrFun hv.read_eq _) fun _ => ?_
  refine hany.items_bind_eq (fun _ _ _ hv => congrFun hv.read_eq _) fun _ => ?_
  refine bind_eq_bind (optional_congr hnot.kind_eq fun _ _ => congrFun hnot.read_eq _) fun _ => ?_
  refine bind_eq_bind (congrFun hdiscriminator.read_eq _) fun _ => ?_
  simp (disch := decide) only [flag, h.member_eq]

theorem readHeader_congr (place : String) (h : FieldsAlike .header m m') :
    readHeader place (.obj m) = readHeader place (.obj m') := by
  have hcontent : (Shape.table (.object .mediaType)).Alike _ _ :=
    h.alike (by decide : ("content", _) ∈ _)
  rw [readHeader, readHeader]
  refine refOr_obj_congr h (by decide) ?_
  refine bind_eq_bind (schemaField_congr _ (h.alike (by decide))) fun _ => ?_
  refine bind_eq_bind (readContent_congr _ hcontent) fun _ => ?_
  simp (disch := decide) only [flag, h.member_eq]

theorem readEncoding_congr (place name : String) (h : FieldsAlike .encoding m m') :
    readEncoding place name (.obj m) = readEncoding place name (.obj m') := by
  have hheaders : (Shape.table (.object .header)).Alike _ _ :=
    h.alike (by decide : ("headers", _) ∈ _)
  rw [readEncoding, readEncoding]
  refine (if_pos rfl).trans (Eq.trans ?_ (if_pos rfl).symm)
  refine hheaders.members_bind_eq (fun _ _ _ hv => congrFun hv.read_eq _) fun _ => ?_
  simp (disch := decide) only [flag, flagOn, h.member_eq, h.get?_eq]

theorem readMediaType_congr (place : String) (h : FieldsAlike .mediaType m m') :
    readMediaType place (.obj m) = readMediaType place (.obj m') := by
  have hexamples : (Shape.table (.object .sample)).Alike _ _ :=
    h.alike (by decide : ("examples", _) ∈ _)
  have hencoding : (Shape.table (.object .encoding)).Alike _ _ :=
    h.alike (by decide : ("encoding", _) ∈ _)
  have hentries : ∀ name v v', (Shape.object .encoding).Alike v v' →
      readEncoding place name v = readEncoding place name v' := fun name _ _ hv =>
    congrFun (congrFun hv.read_eq place) name
  rw [readMediaType, readMediaType]
  refine bind_eq_bind (schemaField_congr _ (h.alike (by decide))) fun _ => ?_
  refine hexamples.members_bind_eq (fun _ _ _ hv => congrFun hv.read_eq _) fun _ => ?_
  refine hencoding.members_bind_eq hentries fun _ => ?_
  simp (disch := decide) only [h.member_eq]

theorem readParameter_congr (place : String) (h : FieldsAlike .parameter m m') :
    readParameter place (.obj m) = readParameter place (.obj m') := by
  have hcontent : (Shape.table (.object .mediaType)).Alike _ _ :=
    h.alike (by decide : ("content", _) ∈ _)
  refine refOr_obj_congr h (by decide) ?_
  simp (disch := decide) only [required, flag, flagOn, h.member_eq, h.get?_eq,
    schemaField_congr _ (h.alike (by decide)), readContent_congr _ hcontent]

theorem readRequestBody_congr (place : String) (h : FieldsAlike .requestBody m m') :
    readRequestBody place (.obj m) = readRequestBody place (.obj m') := by
  have hcontent : (Shape.table (.object .mediaType)).Alike _ _ :=
    h.alike (by decide : ("content", _) ∈ _)
  refine refOr_obj_congr h (by decide) (required_bind_congr hcontent.kind_eq ?_)
  refine bind_eq_bind (readContent_congr _ hcontent) fun _ => ?_
  simp (disch := decide) only [flag, h.member_eq]

theorem readResponse_congr (place : String) (h : FieldsAlike .response m m') :
    readResponse place (.obj m) = readResponse place (.obj m') := by
  have hheaders : (Shape.table (.object .header)).Alike _ _ :=
    h.alike (by decide : ("headers", _) ∈ _)
  have hlinks : (Shape.table (.object .link)).Alike _ _ := h.alike (by decide : ("links", _) ∈ _)
  refine refOr_obj_congr h (by decide) ?_
  refine hheaders.members_bind_eq (fun _ _ _ hv => congrFun hv.read_eq _) fun _ => ?_
  refine bind_eq_bind (readContent_congr _ (h.alike (by decide))) fun _ => ?_
  refine hlinks.members_bind_eq (fun _ _ _ hv => congrFun hv.read_eq _) fun _ => ?_
  simp (disch := decide) only [h.get?_eq]

theorem readPathItem_congr (place : String) (h : FieldsAlike .pathItem m m') :
    readPathItem place (.obj m) = readPathItem place (.obj m') := by
  rw [readPathItem, readPathItem]
  refine bind_eq_bind (readOperations_congr place Method.all fun method _ => h.alike ?_) fun _ => ?_
  · cases method <;> decide
  refine bind_eq_bind (readServers_congr _ (h.alike (by decide))) fun _ => ?_
  refine bind_eq_bind (readParameters_congr _ (h.alike (by decide))) fun _ => ?_
  simp (disch := decide) only [h.member_eq]

theorem readOperation_congr (place : String) (h : FieldsAlike .operation m m') :
    readOperation place (.obj m) = readOperation place (.obj m') := by
  have hresponses : (Shape.extensible (.object .response)).Alike _ _ :=
    h.alike (by decide : ("responses", _) ∈ _)
  have hdocs : (Shape.object .externalDocs).Alike _ _ := h.alike (by decide : ("externalDocs", _) ∈ _)
  have hbody : (Shape.object .requestBody).Alike _ _ := h.alike (by decide : ("requestBody", _) ∈ _)
  have hcallbacks : (Shape.extensible (.extensible (.object .pathItem))).Alike _ _ :=
    h.alike (by decide : ("callbacks", _) ∈ _)
  rw [readOperation, readOperation]
  refine required_bind_congr hresponses.kind_eq ?_
  refine bind_eq_bind (checkObject_congr _ hresponses.kind_eq) fun _ => ?_
  refine bind_eq_bind (readResponses_congr _ hresponses) fun _ => ?_
  rw [h.member_eq (by decide : ("tags", _) ∈ _), h.member_eq (by decide : ("security", _) ∈ _)]
  refine bind_eq_bind rfl fun _ => bind_eq_bind hdocs.read_eq fun _ => ?_
  refine bind_eq_bind (readParameters_congr _ (h.alike (by decide))) fun _ => ?_
  refine bind_eq_bind (optional_congr hbody.kind_eq fun _ _ => congrFun hbody.read_eq _) fun _ => ?_
  refine bind_eq_bind (checkObject_congr _ hcallbacks.kind_eq) fun _ => ?_
  refine bind_eq_bind (hcallbacks.eachField_eq fun _ _ _ => readCallback_congr _) fun _ => ?_
  refine bind_eq_bind rfl fun _ => ?_
  refine bind_eq_bind (readServers_congr _ (h.alike (by decide))) fun _ => ?_
  simp (disch := decide) only [flag, h.member_eq]

theorem readOAuthFlow_congr (place : String) (h : FieldsAlike .oauthFlow m m') :
    readOAuthFlow place (.obj m) = readOAuthFlow place (.obj m') := by
  refine optional_congr rfl fun _ _ => ?_
  simp (disch := decide) only [required, checkObject, h.member_eq]

theorem readSecurityScheme_congr (place : String) (h : FieldsAlike .securityScheme m m') :
    readSecurityScheme place (.obj m) = readSecurityScheme place (.obj m') := by
  have hflows : (Shape.table (.object .oauthFlow)).Alike _ _ := h.alike (by decide : ("flows", _) ∈ _)
  refine refOr_obj_congr h (by decide) ?_
  simp (disch := decide) only [checkObject_congr _ hflows.kind_eq, readOAuthFlows_congr _ hflows,
    required, h.member_eq]

theorem readComponents_congr (h : FieldsAlike .components m m') :
    readComponents (.obj m) = readComponents (.obj m') := by
  have hschemas : (Shape.extensible (.object .schema)).Alike _ _ := h.alike (by decide : ("schemas", _) ∈ _)
  have hresponses : (Shape.extensible (.object .response)).Alike _ _ := h.alike (by decide : ("responses", _) ∈ _)
  have hparameters : (Shape.extensible (.object .parameter)).Alike _ _ := h.alike (by decide : ("parameters", _) ∈ _)
  have hexamples : (Shape.extensible (.object .sample)).Alike _ _ := h.alike (by decide : ("examples", _) ∈ _)
  have hrequestBodies : (Shape.extensible (.object .requestBody)).Alike _ _ := h.alike (by decide : ("requestBodies", _) ∈ _)
  have hheaders : (Shape.extensible (.object .header)).Alike _ _ := h.alike (by decide : ("headers", _) ∈ _)
  have hsecuritySchemes : (Shape.extensible (.object .securityScheme)).Alike _ _ := h.alike (by decide : ("securitySchemes", _) ∈ _)
  have hlinks : (Shape.extensible (.object .link)).Alike _ _ := h.alike (by decide : ("links", _) ∈ _)
  have hcallbacks : (Shape.extensible (.extensible (.object .pathItem))).Alike _ _ :=
    h.alike (by decide : ("callbacks", _) ∈ _)
  rw [readComponents, readComponents]
  refine bind_eq_bind (readSection_congr hschemas fun _ _ _ hv => congrFun hv.read_eq _) fun _ => ?_
  refine bind_eq_bind (readSection_congr hresponses fun _ _ _ hv => congrFun hv.read_eq _) fun _ => ?_
  refine bind_eq_bind (readSection_congr hparameters fun _ _ _ hv => congrFun hv.read_eq _) fun _ => ?_
  refine bind_eq_bind (readSection_congr hexamples fun _ _ _ hv => congrFun hv.read_eq _) fun _ => ?_
  refine bind_eq_bind (readSection_congr hrequestBodies fun _ _ _ hv => congrFun hv.read_eq _) fun _ => ?_
  refine bind_eq_bind (readSection_congr hheaders fun _ _ _ hv => congrFun hv.read_eq _) fun _ => ?_
  refine bind_eq_bind (readSection_congr hsecuritySchemes fun _ _ _ hv => congrFun hv.read_eq _) fun _ => ?_
  refine bind_eq_bind (readSection_congr hlinks fun _ _ _ hv => congrFun hv.read_eq _) fun _ => ?_
  exact bind_eq_bind (readSection_congr hcallbacks fun _ _ _ => readCallback_congr _) fun _ => rfl

theorem ofJson_congr (h : FieldsAlike .root m m') (hm : nonEmptyObject (.obj m) = true)
    (hm' : nonEmptyObject (.obj m') = true) : ofJson (.obj m) = ofJson (.obj m') := by
  have hinfo : (Shape.object .info).Alike _ _ := h.alike (by decide : ("info", _) ∈ _)
  have hpaths : (Shape.extensible (.object .pathItem)).Alike _ _ :=
    h.alike (by decide : ("paths", _) ∈ _)
  have hcomponents : (Shape.object .components).Alike _ _ :=
    h.alike (by decide : ("components", _) ∈ _)
  have htags : (Shape.list (.object .tag)).Alike _ _ := h.alike (by decide : ("tags", _) ∈ _)
  have hdocs : (Shape.object .externalDocs).Alike _ _ := h.alike (by decide : ("externalDocs", _) ∈ _)
  rw [ofJson, ofJson, if_pos hm, if_pos hm', required, h.member_eq (by decide)]
  refine bind_eq_bind rfl fun version => ite_congr rfl (fun _ => ?_) fun _ => rfl
  refine required_bind_congr hinfo.kind_eq ?_
  refine bind_eq_bind (checkObject_congr _ hinfo.kind_eq) fun _ => ?_
  refine bind_eq_bind hinfo.read_eq fun _ => ?_
  refine required_bind_congr hpaths.kind_eq ?_
  refine bind_eq_bind (checkObject_congr _ hpaths.kind_eq) fun _ => ?_
  refine bind_eq_bind (readPaths_congr hpaths) fun _ => ?_
  refine bind_eq_bind (readServers_congr _ (h.alike (by decide))) fun _ => ?_
  refine bind_eq_bind (checkObject_congr _ hcomponents.kind_eq) fun _ => ?_
  refine bind_eq_bind hcomponents.read_eq fun _ => ?_
  refine htags.items_bind_eq (fun _ _ _ hv => hv.read_eq) fun _ => ?_
  refine bind_eq_bind hdocs.read_eq fun _ => ?_
  rw [h.member_eq (by decide : ("security", _) ∈ _)]

/-- The version of a document is there or is not. -/
theorem mem_keys_congr (h : FieldsAlike .root m m') : "openapi" ∈ m.keys ↔ "openapi" ∈ m'.keys := by
  have hget : m.get? "openapi" = m'.get? "openapi" := h.get?_eq (by decide)
  rw [Table.mem_keys_iff, Table.mem_keys_iff, hget]

/-- Objects with fields that are alike are read alike. -/
theorem Fixed.read_eq_of_fieldsAlike (k : Fixed) (h : FieldsAlike k m m') :
    k.read (.obj m) = k.read (.obj m') := by
  cases k with
  | root =>
    refine ite_congr (propext (mem_keys_congr h)) (fun hversion => ?_) fun _ => rfl
    have hnonempty : ∀ {m : Table Json}, "openapi" ∈ m.keys → nonEmptyObject (.obj m) = true :=
      fun {m} hmem => by
        cases m with
        | nil => cases hmem
        | cons e rest => rfl
    exact congrArg some (ofJson_congr h (hnonempty ((mem_keys_congr h).2 hversion)) (hnonempty hversion))
  | info => exact readInfo_congr h
  | server => exact readServer_congr h
  | serverVariable => exact funext fun name => readServerVariable_congr name h
  | pathItem => exact funext fun place => readPathItem_congr place h
  | operation => exact funext fun place => readOperation_congr place h
  | parameter => exact funext fun place => readParameter_congr place h
  | requestBody => exact funext fun place => readRequestBody_congr place h
  | response => exact funext fun place => readResponse_congr place h
  | mediaType => exact funext fun place => readMediaType_congr place h
  | encoding => exact funext fun place => funext fun name => readEncoding_congr place name h
  | header => exact funext fun place => readHeader_congr place h
  | sample => exact funext fun place => readExample_congr place h
  | link => exact funext fun place => readLink_congr place h
  | schema => exact funext fun place => readSchema_congr place h
  | discriminator => exact funext fun place => readDiscriminator_congr place h
  | components => exact readComponents_congr h
  | securityScheme => exact funext fun place => readSecurityScheme_congr place h
  | oauthFlow => exact funext fun place => readOAuthFlow_congr place h
  | tag => exact readTag_congr h
  | externalDocs => exact readExternalDocs_congr h

end ApiClient.Document
