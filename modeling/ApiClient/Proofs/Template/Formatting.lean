import ApiClient.Proofs.Template.Separation
import Mathlib

/-!
# Where formatted texts come from

A text that is formatted while a template is filled in is the text of a value that was supplied, by the
format that is declared for its name, wherever in the template the name is used (`exists_of_formats`). So
it is enough to look at the supplied values, each with its own format (`FreeValues`), to know that a
divided template is filled in as the evaluator does it (`spares_of_freeValues`).
-/

namespace ApiClient.Template

variable {declarations : List Declaration} {values : Table Json} {inputs : List Variable}
  {found : List (Variable × Option Json)} {v : Variable} {source : String} {own : Int} {t : Template}
  {text : String}

/-! ## Values that are found -/

theorem lookup_of_mem (h : resolve values inputs = .ok found) {x : Option Json}
    (hmem : (v, x) ∈ found) : v ∈ inputs ∧ v.lookup values = .ok x := by
  induction inputs generalizing found with
  | nil =>
    obtain rfl := Except.ok.inj h
    cases hmem
  | cons w rest ih =>
    rw [resolve] at h
    obtain ⟨y, hy, h₁⟩ := exists_of_bind h
    obtain ⟨more, hmore, hpure⟩ := exists_of_bind h₁
    obtain rfl := Except.ok.inj hpure
    rcases List.mem_cons.1 hmem with heq | hmem
    · obtain ⟨rfl, rfl⟩ := Prod.mk.inj heq
      exact ⟨List.mem_cons_self, hy⟩
    · obtain ⟨hv, hlookup⟩ := ih hmore hmem
      exact ⟨List.mem_cons_of_mem w hv, hlookup⟩

/-- A variable of a template is as it is declared. -/
theorem toDeclaration_of_mem_inputs (h : ofSource declarations source own = .ok t)
    (hv : v ∈ t.inputs) : v.toDeclaration = declared declarations v.name := by
  obtain ⟨nodes, -, hassembled⟩ := ofSource_eq_ok_iff.1 h
  rw [hassembled.inputs_eq] at hv
  obtain ⟨u, -, rfl⟩ := mem_variablesOf.1 hv
  rw [variableOf_name]
  rfl

/-- What is formatted is a supplied value, in the format that is declared for its name. -/
theorem exists_of_formats (h : ofSource declarations source own = .ok t)
    (hformats : Formats values t text) : ∃ name value, values.get? name = some value ∧
      (declared declarations name).format value = .ok text := by
  induction hformats generalizing source own with
  | here hfound _ hvalue htext =>
    rename_i t found name v value text hslot
    obtain ⟨hv, hlookup⟩ := lookup_of_mem hfound (List.mem_of_find?_eq_some hvalue)
    refine ⟨v.name, value, get?_of_lookup hlookup, ?_⟩
    rw [← toDeclaration_of_mem_inputs h hv]
    exact htext
  | inBranch _ hbranch _ _ ih =>
    obtain ⟨nodes, -, hassembled⟩ := ofSource_eq_ok_iff.1 h
    obtain ⟨_, -, hpart⟩ := exists_node_of_mem hassembled.parts hbranch
    cases hpart with
    | branch hbody => exact ih hbody

/-! ## Values without a marker -/

/-- None of the values holds the marker when it is formatted as its name is declared. -/
def FreeValues (declarations : List Declaration) (values : Table Json) : Prop :=
  ∀ e ∈ values, ∀ text, (declared declarations e.1).format e.2 = .ok text → MarkerFree text.toList

theorem FreeValues.markerFree (h : FreeValues declarations values)
    (ht : ofSource declarations source own = .ok t) (htext : Formats values t text) :
    MarkerFree text.toList := by
  obtain ⟨name, value, hvalue, hformat⟩ := exists_of_formats ht htext
  exact h (name, value) (Json.mem_of_lookup hvalue) text hformat

/-- A divided template of a source without the character of the marker is filled in as the evaluator does
it, if no supplied value holds the marker when it is formatted. -/
theorem spares_of_freeValues (ht : ofSource declarations source own = .ok t)
    (hsource : Unmarked source.toList) (hdivided : isDivided t = true)
    (hvalues : FreeValues declarations values) : Spares values t :=
  spares_of_isDivided t hdivided (fun _ => unmarked_of_hasText ht hsource)
    fun _ => hvalues.markerFree ht

end ApiClient.Template
