import ApiClient.Proofs.Document.Shape
import ApiClient.Proofs.Json.Table
import Mathlib

/-!
# What is seen of a value

Reading looks at a value through its shape: `Shape.view` is what there is to see, and a value of another
kind than the shape demands is seen as it is. Two values that are seen alike cannot be told apart by the
steps that reading is made of (`checkObject_congr`, `eachItem_congr`, `eachMember_congr` and their
neighbours), and two objects that are alike in each field of their kind are alike at every key
(`FieldsAlike`).
-/

namespace ApiClient.Document

open Json

/-- What reading an object of the kind yields, for every place at which it may stand. -/
abbrev Fixed.Reading : Fixed → Type
  | root => Option (Read Document)
  | info => Read Info
  | server => Read Server
  | serverVariable => String → Read ServerVariable
  | pathItem => String → Read PathItem
  | operation => String → Read Operation
  | parameter => String → Read (RefOr Parameter)
  | requestBody => String → Read (RefOr RequestBody)
  | response => String → Read (RefOr Response)
  | mediaType => String → Read MediaType
  | encoding => String → String → Read Encoding
  | header => String → Read (RefOr Header)
  | sample => String → Read (RefOr Example)
  | link => String → Read (RefOr Link)
  | schema => String → Read (RefOr Schema)
  | discriminator => String → Read (Option Discriminator)
  | components => Read Components
  | securityScheme => String → Read (RefOr SecurityScheme)
  | oauthFlow => String → Read (Option OAuthFlow)
  | tag => Read Tag
  | externalDocs => Read (Option ExternalDocs)

/-- An entry of the encodings of a media type. -/
def readEncoding (place name : String) (value : Json) : Read Encoding :=
  if value.kind = .dict then do
    checkObject (place ++ ".encoding") (value.member "headers")
    let headers ← eachMember (value.member "headers").members fun header contents _ =>
      readHeader (place ++ ".encoding." ++ name ++ ".headers." ++ header) contents
    return {
      contentType := value.member "contentType"
      headers
      style := value.member "style"
      explode := flagOn value "explode"
      allowReserved := flag value "allowReserved" }
  else .error (.misfit .operation)

/-- Reads an object of the kind. A document without a version is none of those that are compared. -/
def Fixed.read : (k : Fixed) → Json → k.Reading
  | root, j => if "openapi" ∈ j.members.keys then some (ofJson j) else none
  | info, j => readInfo j
  | server, j => readServer j
  | serverVariable, j => fun name => readServerVariable name j
  | pathItem, j => fun place => readPathItem place j
  | operation, j => fun place => readOperation place j
  | parameter, j => fun place => readParameter place j
  | requestBody, j => fun place => readRequestBody place j
  | response, j => fun place => readResponse place j
  | mediaType, j => fun place => readMediaType place j
  | encoding, j => fun place name => readEncoding place name j
  | header, j => fun place => readHeader place j
  | sample, j => fun place => readExample place j
  | link, j => fun place => readLink place j
  | schema, j => fun place => readSchema place j
  | discriminator, j => fun place => readDiscriminator place j
  | components, j => readComponents j
  | securityScheme, j => fun place => readSecurityScheme place j
  | oauthFlow, j => fun place => readOAuthFlow place j
  | tag, j => readTag j
  | externalDocs, j => readExternalDocs j

/-! ## Views -/

/-- What there is to see of a value: the value itself if it is not of the kind that is opened. -/
def opened {α : Type} (kind : Kind) (parts : Json → α) (j : Json) : Json ⊕ α :=
  if j.kind = kind then .inr (parts j) else .inl j

/-- What is seen of values of a shape. -/
abbrev Shape.View : Shape → Type
  | whole => Json
  | object k => Json ⊕ k.Reading
  | list s => Json ⊕ List s.View
  | table s => Json ⊕ Table s.View
  | extensible s => Json ⊕ Table s.View

/-- What is seen of a value. -/
def Shape.view : (s : Shape) → Json → s.View
  | whole, j => j
  | object k, j => opened .dict k.read j
  | list s, j => opened .list (fun j => j.items.map s.view) j
  | table s, j => opened .dict (fun j => j.members.map fun e => (e.1, s.view e.2)) j
  | extensible s, j => opened .dict (fun j => (fields j).map fun e => (e.1, s.view e.2)) j

/-- The same is seen of both values. -/
def Shape.Alike (s : Shape) (j j' : Json) : Prop :=
  s.view j = s.view j'

section Opened

variable {α : Type} {kind : Kind} {parts : Json → α} {j j' : Json}

theorem opened_eq (h : opened kind parts j = opened kind parts j') :
    j = j' ∨ j.kind = kind ∧ j'.kind = kind ∧ parts j = parts j' := by
  rw [opened, opened] at h
  split at h <;> rename_i hkind <;> split at h <;> rename_i hkind'
  · exact .inr ⟨hkind, hkind', Sum.inr.inj h⟩
  · cases h
  · cases h
  · exact .inl (Sum.inl.inj h)

theorem kind_eq_of_opened (h : opened kind parts j = opened kind parts j') : j.kind = j'.kind := by
  obtain rfl | ⟨hkind, hkind', -⟩ := opened_eq h
  · rfl
  · rw [hkind, hkind']

theorem parts_eq_of_opened (h : opened kind parts j = opened kind parts j') : parts j = parts j' := by
  obtain rfl | ⟨-, -, hparts⟩ := opened_eq h
  · rfl
  · exact hparts

theorem opened_eq_of_parts (hkind : j.kind = kind) (hkind' : j'.kind = kind)
    (h : parts j = parts j') : opened kind parts j = opened kind parts j' := by
  rw [opened, opened, if_pos hkind, if_pos hkind', h]

end Opened

namespace Shape.Alike

variable {s : Shape} {k : Fixed} {j j' : Json}

theorem kind_eq (h : s.Alike j j') : j.kind = j'.kind := by
  cases s with
  | whole => exact congrArg Json.kind h
  | _ => exact kind_eq_of_opened h

theorem read_eq (h : (object k).Alike j j') : k.read j = k.read j' :=
  parts_eq_of_opened h

theorem items_eq (h : (list s).Alike j j') : j.items.map s.view = j'.items.map s.view :=
  parts_eq_of_opened h

theorem members_eq (h : (table s).Alike j j') :
    j.members.map (fun e => (e.1, s.view e.2)) = j'.members.map fun e => (e.1, s.view e.2) :=
  parts_eq_of_opened h

theorem fields_eq (h : (extensible s).Alike j j') :
    (fields j).map (fun e => (e.1, s.view e.2)) = (fields j').map fun e => (e.1, s.view e.2) :=
  parts_eq_of_opened h

end Shape.Alike

/-! ## Steps -/

section Steps

variable {α β γ : Type} {j j' : Json} {view : α → γ}

theorem bind_eq_bind {x y : Read α} {f g : α → Read β} (hx : x = y) (hf : ∀ a, f a = g a) :
    x >>= f = y >>= g := by
  rw [hx]
  exact bind_congr hf

theorem null_iff_of_kind_eq (h : j.kind = j'.kind) : j = .null ↔ j' = .null := by
  cases j <;> cases j' <;> simp_all [Json.kind]

theorem checkObject_congr (place : String) (h : j.kind = j'.kind) :
    checkObject place j = checkObject place j' := by
  cases j <;> cases j' <;> simp_all [Json.kind, checkObject]

theorem checkArray_congr (place : String) (h : j.kind = j'.kind) :
    checkArray place j = checkArray place j' := by
  cases j <;> cases j' <;> simp_all [Json.kind, checkArray]

theorem optional_congr {f : j ≠ .null → Read β} {g : j' ≠ .null → Read β} (hkind : j.kind = j'.kind)
    (h : ∀ hj hj', f hj = g hj') : optional j f = optional j' g := by
  have hnull := null_iff_of_kind_eq hkind
  rw [optional, optional]
  by_cases hj : j = .null
  · rw [dif_pos hj, dif_pos (hnull.1 hj)]
  · rw [dif_neg hj, dif_neg (mt hnull.2 hj), h]

/-- What is done with a field that has to be there. -/
theorem required_bind_congr {place key : String} {f g : Json → Read β}
    (hkind : (j.member key).kind = (j'.member key).kind)
    (h : f (j.member key) = g (j'.member key)) :
    required place j key >>= f = required place j' key >>= g := by
  have hnull := null_iff_of_kind_eq hkind
  have hrequired : ∀ {j : Json}, j.member key ≠ .null →
      required place j key = .ok (j.member key) := fun hne => by
    rw [required]
    split
    · exact absurd ‹_› hne
    · rfl
  by_cases hj : j.member key = .null
  · rw [required, required, hj, hnull.1 hj]
    rfl
  · rw [hrequired hj, hrequired (mt hnull.2 hj)]
    exact h

theorem eachItem_congr {reader : Nat → α → Read β}
    (h : ∀ n x x', view x = view x' → reader n x = reader n x') : ∀ {n : Nat} {xs xs' : List α},
      xs.map view = xs'.map view →
        eachItem n xs (fun n x _ => reader n x) = eachItem n xs' fun n x _ => reader n x
  | _, [], [], _ => rfl
  | n, x :: xs, x' :: xs', hview => by
    obtain ⟨hx, hxs⟩ := List.cons.inj hview
    rw [eachItem, eachItem, h n x x' hx, eachItem_congr h hxs]

theorem eachMember_congr {reader : String → α → Read β}
    (h : ∀ key v v', view v = view v' → reader key v = reader key v') :
    ∀ {t t' : List (String × α)},
      t.map (fun e => (e.1, view e.2)) = t'.map (fun e => (e.1, view e.2)) →
        eachMember t (fun key v _ => reader key v) = eachMember t' fun key v _ => reader key v
  | [], [], _ => rfl
  | (key, v) :: t, (key', v') :: t', hview => by
    obtain ⟨he, ht⟩ := List.cons.inj hview
    obtain ⟨rfl, hv⟩ := Prod.mk.inj he
    rw [eachMember, eachMember, h key v v' hv, eachMember_congr h ht]

section Parts

variable {s : Shape}

theorem Shape.Alike.eachItem_eq (h : (list s).Alike j j') {reader : Nat → Json → Read β}
    (hreader : ∀ n v v', s.Alike v v' → reader n v = reader n v') :
    eachItem 0 j.items (fun n v _ => reader n v) = eachItem 0 j'.items fun n v _ => reader n v :=
  eachItem_congr hreader h.items_eq

theorem Shape.Alike.eachMember_eq (h : (table s).Alike j j') {reader : String → Json → Read β}
    (hreader : ∀ key v v', s.Alike v v' → reader key v = reader key v') :
    eachMember j.members (fun key v _ => reader key v) =
      eachMember j'.members fun key v _ => reader key v :=
  eachMember_congr hreader h.members_eq

/-- An array is checked, and its items are read. -/
theorem Shape.Alike.items_bind_eq (h : (list s).Alike j j') {place : String}
    {reader : Nat → Json → Read β} {f g : List β → Read γ}
    (hreader : ∀ n v v', s.Alike v v' → reader n v = reader n v') (hfg : ∀ xs, f xs = g xs) :
    (checkArray place j >>= fun _ => eachItem 0 j.items (fun n v _ => reader n v) >>= f) =
      checkArray place j' >>= fun _ => eachItem 0 j'.items (fun n v _ => reader n v) >>= g :=
  bind_eq_bind (checkArray_congr place h.kind_eq) fun _ => bind_eq_bind (h.eachItem_eq hreader) hfg

/-- A table is checked, and its entries are read. -/
theorem Shape.Alike.members_bind_eq (h : (table s).Alike j j') {place : String}
    {reader : String → Json → Read β} {f g : List (String × β) → Read γ}
    (hreader : ∀ key v v', s.Alike v v' → reader key v = reader key v') (hfg : ∀ xs, f xs = g xs) :
    (checkObject place j >>= fun _ => eachMember j.members (fun key v _ => reader key v) >>= f) =
      checkObject place j' >>= fun _ => eachMember j'.members (fun key v _ => reader key v) >>= g :=
  bind_eq_bind (checkObject_congr place h.kind_eq) fun _ => bind_eq_bind (h.eachMember_eq hreader) hfg

theorem Shape.Alike.eachField_eq (h : (extensible s).Alike j j') {reader : String → Json → Read β}
    (hreader : ∀ key v v', s.Alike v v' → reader key v = reader key v') :
    eachMember (fields j) (fun key v _ => reader key v) =
      eachMember (fields j') fun key v _ => reader key v :=
  eachMember_congr hreader h.fields_eq

end Parts

theorem get?_congr {t t' : Table α}
    (h : t.map (fun e => (e.1, view e.2)) = t'.map fun e => (e.1, view e.2)) (key : String) :
    (t.get? key).map view = (t'.get? key).map view := by
  rw [← Table.get?_map, ← Table.get?_map, h]

/-- What stands under a key that belongs to no extension. -/
theorem get?_fields {key : String} (h : isExtension key = false) (j : Json) :
    (fields j).get? key = j.members.get? key := by
  have hfilter := Table.lookup_filter (fun k => !isExtension k) key j.members
  rw [h] at hfilter
  exact hfilter

end Steps

/-! ## Objects by their fields -/

/-- The same is seen of each field of the kind. -/
def FieldsAlike (k : Fixed) (m m' : Table Json) : Prop :=
  ∀ key s, (key, s) ∈ k.fields → (m.get? key).map s.view = (m'.get? key).map s.view

/-- Views of members are views of what is found under their keys. -/
theorem alike_member_of_get? {s : Shape} {j j' : Json} {key : String}
    (h : (j.members.get? key).map s.view = (j'.members.get? key).map s.view) :
    s.Alike (j.member key) (j'.member key) := by
  rw [Shape.Alike, member, member]
  cases hget : j.members.get? key with
  | none =>
    rw [hget, Option.map_none, eq_comm, Option.map_eq_none_iff] at h
    rw [h]
  | some value =>
    rw [hget, Option.map_some, eq_comm, Option.map_eq_some_iff] at h
    obtain ⟨value', hget', hview⟩ := h
    rw [hget']
    exact hview.symm

namespace FieldsAlike

variable {k : Fixed} {m m' : Table Json} {key : String} {s : Shape}

theorem alike (h : FieldsAlike k m m') (hfield : (key, s) ∈ k.fields) :
    s.Alike (member (.obj m) key) (member (.obj m') key) :=
  alike_member_of_get? (h key s hfield)

theorem get?_eq (h : FieldsAlike k m m') (hfield : (key, .whole) ∈ k.fields) :
    Table.get? (members (.obj m)) key = Table.get? (members (.obj m')) key := by
  have hmap : ∀ o : Option Json, o.map Shape.whole.view = o := fun o => by
    cases o <;> rfl
  have hget := h key .whole hfield
  rwa [hmap, hmap] at hget

theorem member_eq (h : FieldsAlike k m m') (hfield : (key, .whole) ∈ k.fields) :
    member (.obj m) key = member (.obj m') key :=
  h.alike hfield

end FieldsAlike

end ApiClient.Document
