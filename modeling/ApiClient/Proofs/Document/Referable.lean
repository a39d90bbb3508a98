import ApiClient.Proofs.Document.Hop
import ApiClient.Proofs.Document.Operations
import ApiClient.Proofs.Json.Table
import Mathlib

/-!
# Components by their pointers

What stands under a key of a section of the components is read into the table of the section
(`Section.exists_of_readComponents`), and the pointer with the section and the key leads to it: every
component of a document can be pointed to (`Document.component_of_pointer`), unless its key is empty or
belongs to an extension, which is left out (`Document.extension_left_out`).
-/

namespace ApiClient

open Json

/-- What stands under a key of a section, as a component. -/
def Section.read : Section → String → Json → Document.Read (RefOr Component)
  | schemas, place, j => (Document.readSchema place j).map (RefOr.map .schema)
  | responses, place, j => (Document.readResponse place j).map (RefOr.map .response)
  | parameters, place, j => (Document.readParameter place j).map (RefOr.map .parameter)
  | examples, place, j => (Document.readExample place j).map (RefOr.map .sample)
  | requestBodies, place, j => (Document.readRequestBody place j).map (RefOr.map .requestBody)
  | headers, place, j => (Document.readHeader place j).map (RefOr.map .header)
  | securitySchemes, place, j =>
    (Document.readSecurityScheme place j).map (RefOr.map .securityScheme)
  | links, place, j => (Document.readLink place j).map (RefOr.map .link)
  | callbacks, place, j => (Document.readCallback place j).map (RefOr.map .callback)

/-! ## Tables of components -/

namespace Document

variable {α β : Type} {j : Json}

/-- What stands under a key is read into the table, under the same key. -/
theorem exists_of_eachMember {reader : String → α → Read β} {key : String} {value : α} :
    ∀ {entries : List (String × α)} {table : List (String × β)},
      eachMember entries (fun k v _ => reader k v) = .ok table → entries.lookup key = some value →
        ∃ b, reader key value = .ok b ∧ table.lookup key = some b
  | [], _, _, hkey => by cases hkey
  | (k, v) :: rest, table, h, hkey => by
    rw [eachMember] at h
    obtain ⟨b, hb, hrest⟩ := exists_of_bind h
    obtain ⟨more, hmore, hpure⟩ := exists_of_bind hrest
    obtain rfl := Except.ok.inj hpure
    by_cases heq : key = k
    · subst heq
      obtain rfl : v = value := by simpa using hkey
      exact ⟨b, hb, by simp⟩
    · have hbeq : (key == k) = false := beq_false_of_ne heq
      obtain ⟨b', hread, hlookup⟩ := exists_of_eachMember hmore
        (by simpa only [List.lookup_cons, hbeq] using hkey)
      exact ⟨b', hread, by simpa only [List.lookup_cons, hbeq] using hlookup⟩

theorem exists_of_readSection {area key : String} {value : Json}
    {reader : String → Json → Read (RefOr α)} {table : Table (RefOr α)}
    (h : readSection j area reader = .ok table)
    (hkey : (fields (j.member area)).get? key = some value) (make : α → Component) :
    ∃ entry, (reader ("components." ++ area ++ "." ++ key) value).map (RefOr.map make) = .ok entry ∧
      (Components.entries make table).get? key = some entry := by
  obtain ⟨-, -, hmembers⟩ := exists_of_bind h
  obtain ⟨found, hread, hlookup⟩ : ∃ found, reader ("components." ++ area ++ "." ++ key) value =
      .ok found ∧ List.lookup key table = some found := exists_of_eachMember hmembers hkey
  refine ⟨found.map make, by rw [hread]; rfl, ?_⟩
  exact (Table.get?_map (RefOr.map make) table key).trans (congrArg _ hlookup)

end Document

namespace Section

/-- What stands under a key of a section that belongs to no extension is an entry of its table. -/
theorem exists_of_readComponents {j : Json} {c : Components} (h : Document.readComponents j = .ok c)
    (s : Section) {key : String} {value : Json}
    (hkey : (Document.fields (j.member s.key)).get? key = some value) :
    ∃ entry, s.read ("components." ++ s.key ++ "." ++ key) value = .ok entry ∧
      (c.table s).get? key = some entry := by
  rw [Document.readComponents] at h
  obtain ⟨schemas, hschemas, h⟩ := exists_of_bind h
  obtain ⟨responses, hresponses, h⟩ := exists_of_bind h
  obtain ⟨parameters, hparameters, h⟩ := exists_of_bind h
  obtain ⟨examples, hexamples, h⟩ := exists_of_bind h
  obtain ⟨requestBodies, hbodies, h⟩ := exists_of_bind h
  obtain ⟨headers, hheaders, h⟩ := exists_of_bind h
  obtain ⟨securitySchemes, hschemes, h⟩ := exists_of_bind h
  obtain ⟨links, hlinks, h⟩ := exists_of_bind h
  obtain ⟨callbacks, hcallbacks, h⟩ := exists_of_bind h
  obtain rfl := Except.ok.inj h
  cases s with
  | schemas => exact Document.exists_of_readSection hschemas hkey .schema
  | responses => exact Document.exists_of_readSection hresponses hkey .response
  | parameters => exact Document.exists_of_readSection hparameters hkey .parameter
  | examples => exact Document.exists_of_readSection hexamples hkey .sample
  | requestBodies => exact Document.exists_of_readSection hbodies hkey .requestBody
  | headers => exact Document.exists_of_readSection hheaders hkey .header
  | securitySchemes => exact Document.exists_of_readSection hschemes hkey .securityScheme
  | links => exact Document.exists_of_readSection hlinks hkey .link
  | callbacks => exact Document.exists_of_readSection hcallbacks hkey .callback

/-- The objects of a section are at home in it. -/
theorem home_of_read {s : Section} {place : String} {j : Json} {found : Component}
    (h : s.read place j = .ok (.inline found)) : found.home = s := by
  have hmake : ∀ {α : Type} {make : α → Component} {entry : Document.Read (RefOr α)},
      (∀ a, (make a).home = s) → entry.map (RefOr.map make) = .ok (.inline found) →
        found.home = s := by
    intro α make entry hhome hentry
    obtain ⟨read, -, heq⟩ := exists_of_map hentry
    cases read with
    | ref pointer => cases heq
    | inline a =>
      obtain rfl := RefOr.inline.inj heq
      exact hhome a
  cases s <;> exact hmake (fun _ => rfl) h

end Section

/-! ## Pointers -/

/-- The pointer to an entry of a section leads to it, if an object of the section is expected. -/
theorem Pointer.resolve_toComponent {c : Components} {s : Section} {key : String}
    {entry : RefOr Component} {expected : Option (List Section)} (hkey : key ≠ "")
    (hentry : (c.table s).get? key = some entry)
    (hexpected : ∀ found, entry = .inline found → isExpected expected found = true) :
    resolve (some c) expected (toComponent s key) = .ok (Naming.className key, entry) := by
  have hwelcome : IsWelcome expected entry := by
    rintro found rfl
    exact isWelcome_inline_iff.2 (hexpected found rfl) found rfl
  have hresolve := resolve_of_entry (escape_ne_empty hkey) (slash_notMem_escape key)
    ((unescape_escape key).symm ▸ hentry) hwelcome
  rw [unescape_escape] at hresolve
  exact hresolve

namespace Document

/-- Every component of a document can be pointed to: the pointer with its section and its key leads
to what is read of the value that stands there, under the class name of the key. This is so whatever
is expected, as long as objects of the section are, and for all keys but the empty one and those of
extensions. -/
theorem component_of_pointer {j : Json} {d : Document} (h : ofJson j = .ok d) (s : Section)
    {key : String} {value : Json}
    (hvalue : ((j.member "components").member s.key).members.get? key = some value)
    (hkey : key ≠ "") (hextension : isExtension key = false) {expected : Option (List Section)}
    (hexpected : ∀ sections ∈ expected, s ∈ sections) :
    ∃ entry, s.read ("components." ++ s.key ++ "." ++ key) value = .ok entry ∧
      Pointer.resolve (some d.components) expected
        ("#/components/" ++ s.key ++ "/" ++ Pointer.escape key) =
          .ok (Naming.className key, entry) := by
  have hfield : (fields ((j.member "components").member s.key)).get? key = some value := by
    have hfilter := Table.lookup_filter (fun k => !isExtension k) key
      ((j.member "components").member s.key).members
    rw [hextension] at hfilter
    exact hfilter.trans hvalue
  obtain ⟨entry, hread, hentry⟩ := s.exists_of_readComponents (readings_of_ofJson h).2 hfield
  refine ⟨entry, hread, Pointer.resolve_toComponent hkey hentry fun found hfound => ?_⟩
  subst hfound
  rw [Pointer.isExpected, Section.home_of_read hread]
  cases expected with
  | none => rfl
  | some sections => exact List.contains_iff_mem.2 (hexpected sections rfl)

/-- A document with one example among its components, under this key. -/
def exhibit (key : String) : Json :=
  .obj [("openapi", .str "3.0.0"), ("info", .obj [("title", .str "T"), ("version", .str "1")]),
    ("paths", .obj []), ("components", .obj [("examples", .obj [(key, .obj [("value", .int 7)])])])]

/-- A key that holds a slash and looks like an escape itself. -/
theorem component_of_pointer_exhibit : ∃ d, ofJson (exhibit "~1/x") = .ok d ∧
    Pointer.escape "~1/x" = "~01~1x" ∧
    ∃ entry, Section.examples.read "components.examples.~1/x" (.obj [("value", .int 7)]) =
        .ok entry ∧
      Pointer.resolve (some d.components) (some [.examples]) "#/components/examples/~01~1x" =
        .ok ("_1X", entry) := by
  obtain ⟨d, hd⟩ : ∃ d, ofJson (exhibit "~1/x") = .ok d := ⟨_, rfl⟩
  have hescape : Pointer.escape "~1/x" = "~01~1x" := by decide +kernel
  have hname : Naming.className "~1/x" = "_1X" := by decide +kernel
  have hplace : "components." ++ Section.examples.key ++ "." ++ "~1/x" =
      "components.examples.~1/x" := by decide +kernel
  have hpointer : "#/components/" ++ Section.examples.key ++ "/" ++ "~01~1x" =
      "#/components/examples/~01~1x" := by decide +kernel
  have hexpected : ∀ sections ∈ some [Section.examples], Section.examples ∈ sections := by simp
  have hvalue : (((exhibit "~1/x").member "components").member "examples").members.get? "~1/x" =
      some (.obj [("value", .int 7)]) := rfl
  obtain ⟨entry, hread, hresolve⟩ :=
    component_of_pointer hd .examples hvalue (by decide) (by decide +kernel) hexpected
  rw [hescape, hname, hpointer] at hresolve
  rw [hplace] at hread
  exact ⟨d, hd, hescape, entry, hread, hresolve⟩

/-- What stands under the key of an extension is no component. -/
theorem extension_left_out : ∃ d, ofJson (exhibit "x-sample") = .ok d ∧
    Pointer.resolve (some d.components) none "#/components/examples/x-sample" =
      .error (.unknownKey "#/components/examples/x-sample" "examples" "x-sample") :=
  ⟨_, rfl, by cbv⟩

end Document

end ApiClient
