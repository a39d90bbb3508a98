import ApiClient.Proofs.Template.Assembly
import ApiClient.Proofs.Template.Nesting
import Mathlib

/-!
# The construction of templates

A template is made with the templates of its branches, whose sources are the bodies of its conditionals.
`Constructs` is this recursion as a relation, with nothing in it that would make it end: what is made of a
source, if anything is. `constructs_iff` says that one thing is made of every source, which is what
`ofSource` gives, and `exists_ofSource_iff` when it is a template. If not, it is an error that needs no
values to be found (`Constructs.ofSource`).

Main statement: `construction_ends`.
-/

namespace ApiClient.Template

variable {declarations : List Declaration} {known : List Variable} {indent : Int}
  {source body : String} {nodes : List Node}

/-! ## The recursion -/

/-- The outcome of nodes, where `branch` is the outcome of a branch: nodes are taken one after another, the
branch of a conditional is made before its name is noted, and the first error is the outcome. -/
inductive Assembles (declarations : List Declaration)
    (branch : String → Int → Except Error Template → Prop) :
    List Variable → List Node → Except Error (List (Part Template) × List Variable) → Prop where
  | nil {known : List Variable} : Assembles declarations branch known [] (.ok ([], known))
  | text {known : List Variable} {text : String} {rest : List Node}
    {result : Except Error (List (Part Template) × List Variable)}
    (h : Assembles declarations branch known rest result) :
    Assembles declarations branch known (.text text :: rest)
      (result.map (Prod.map (.text text :: ·) id))
  | slot {known more : List Variable} {name : String} {p : Position} {rest : List Node}
    {result : Except Error (List (Part Template) × List Variable)}
    (hname : register declarations known name .plain = .ok more)
    (h : Assembles declarations branch more rest result) :
    Assembles declarations branch known (.placeholder name p :: rest)
      (result.map (Prod.map (.slot name :: ·) id))
  | slotRefused {known : List Variable} {name : String} {p : Position} {rest : List Node} {e : Error}
    (hname : register declarations known name .plain = .error e) :
    Assembles declarations branch known (.placeholder name p :: rest) (.error e)
  | branch {known more : List Variable} {name body : String} {wholeLine : Bool} {p : Position}
    {rest : List Node} {t : Template} {result : Except Error (List (Part Template) × List Variable)}
    (hbody : branch body p.column (.ok t))
    (hname : register declarations known name (conditionForm wholeLine) = .ok more)
    (h : Assembles declarations branch more rest result) :
    Assembles declarations branch known (.conditional name body wholeLine p :: rest)
      (result.map (Prod.map (.branch name wholeLine t :: ·) id))
  | branchFails {known : List Variable} {name body : String} {wholeLine : Bool} {p : Position}
    {rest : List Node} {e : Error} (hbody : branch body p.column (.error e)) :
    Assembles declarations branch known (.conditional name body wholeLine p :: rest) (.error e)
  | branchRefused {known : List Variable} {name body : String} {wholeLine : Bool} {p : Position}
    {rest : List Node} {t : Template} {e : Error} (hbody : branch body p.column (.ok t))
    (hname : register declarations known name (conditionForm wholeLine) = .error e) :
    Assembles declarations branch known (.conditional name body wholeLine p :: rest) (.error e)

/-- The outcome of a source: its nodes are assembled, the body of each conditional being the source of a
template again. Nothing is said of lengths. -/
inductive Constructs (declarations : List Declaration) :
    String → Int → Except Error Template → Prop where
  | malformed {source : String} {indent : Int} {e : SyntaxError} (hscan : scan source = .error e) :
    Constructs declarations source indent (.error (.malformed e))
  | nodes {source : String} {indent : Int} {nodes : List Node}
    {result : Except Error (List (Part Template) × List Variable)} (hscan : scan source = .ok nodes)
    (h : Assembles declarations (Constructs declarations) [] nodes result) :
    Constructs declarations source indent
      (result.map fun (parts, inputs) => { parts, inputs, indent })

section Assembles

variable {branch : String → Int → Except Error Template → Prop}
  {f : String → Int → Except Error Template} {rest : List Node} {p : Position} {name : String}
  {result : Except Error (List (Part Template) × List Variable)}

section Step

variable (hrest : ∀ {known : List Variable} {result : Except Error (List (Part Template) × List Variable)},
  Assembles declarations branch known rest result ↔
    result = assemble declarations known rest fun _ body _ p _ => f body p.column)

include hrest

theorem assembles_text_iff {text : String} :
    Assembles declarations branch known (.text text :: rest) result ↔
      result = assemble declarations known (.text text :: rest) fun _ body _ p _ => f body p.column := by
  rw [assemble_text]
  constructor
  · rintro (_ | h)
    rw [hrest.1 h]
  · rintro rfl
    exact .text (hrest.2 rfl)

theorem assembles_placeholder_iff :
    Assembles declarations branch known (.placeholder name p :: rest) result ↔
      result = assemble declarations known (.placeholder name p :: rest)
        fun _ body _ p _ => f body p.column := by
  rw [assemble_placeholder]
  constructor
  · intro h
    cases h with
    | slot hname h =>
      rw [hname, hrest.1 h]
      rfl
    | slotRefused hname =>
      rw [hname]
      rfl
  · rintro rfl
    cases hname : register declarations known name .plain with
    | error e => exact .slotRefused hname
    | ok more => exact .slot hname (hrest.2 rfl)

theorem assembles_conditional_iff {wholeLine : Bool}
    (hbody : ∀ result, branch body p.column result ↔ result = f body p.column) :
    Assembles declarations branch known (.conditional name body wholeLine p :: rest) result ↔
      result = assemble declarations known (.conditional name body wholeLine p :: rest)
        fun _ body _ p _ => f body p.column := by
  rw [assemble_conditional]
  constructor
  · intro h
    cases h with
    | branch hmade hname h =>
      rw [← (hbody _).1 hmade, hname, hrest.1 h]
      rfl
    | branchFails hmade =>
      rw [← (hbody _).1 hmade]
      rfl
    | branchRefused hmade hname =>
      rw [← (hbody _).1 hmade, hname]
      rfl
  · rintro rfl
    cases hmade : f body p.column with
    | error e => exact .branchFails ((hbody _).2 hmade.symm)
    | ok t =>
      have hmade := (hbody _).2 hmade.symm
      cases hname : register declarations known name (conditionForm wholeLine) with
      | error e => exact .branchRefused hmade hname
      | ok more => exact .branch hmade hname (hrest.2 rfl)

end Step

/-- Nodes have the outcome that `assemble` gives, if the bodies of their conditionals have that of `f`. -/
theorem assembles_iff
    (hbranch : ∀ name body wholeLine p, .conditional name body wholeLine p ∈ nodes →
      ∀ result, branch body p.column result ↔ result = f body p.column) :
    Assembles declarations branch known nodes result ↔
      result = assemble declarations known nodes fun _ body _ p _ => f body p.column := by
  induction nodes generalizing known result with
  | nil =>
    rw [assemble]
    constructor
    · rintro ⟨⟩
      rfl
    · rintro rfl
      exact .nil
  | cons node rest ih =>
    have ih : ∀ {known result}, Assembles declarations branch known rest result ↔
        result = assemble declarations known rest fun _ body _ p _ => f body p.column :=
      ih fun name body wholeLine p hmem => hbranch name body wholeLine p (List.mem_cons_of_mem _ hmem)
    cases node with
    | text text => exact assembles_text_iff ih
    | placeholder name p => exact assembles_placeholder_iff ih
    | conditional name body wholeLine p =>
      exact assembles_conditional_iff ih (hbranch name body wholeLine p List.mem_cons_self)

end Assembles

theorem ofScan_ok : ofScan declarations (.ok nodes) indent =
    (assemble declarations [] nodes fun _ body _ p _ => ofSource declarations body p.column).map
      fun (parts, inputs) => { parts, inputs, indent } := by
  rw [ofScan]
  cases assemble declarations [] nodes _ <;> rfl

/-- Every source has one outcome, the one that `ofSource` gives. -/
theorem constructs_iff {result : Except Error Template} :
    Constructs declarations source indent result ↔
      result = ofSource declarations source indent := by
  induction source using wellFounded_isBodyOf.induction generalizing indent result with
  | _ source ih =>
  have hbranch : ∀ {nodes}, scan source = .ok nodes → ∀ name body wholeLine p,
      .conditional name body wholeLine p ∈ nodes → ∀ result,
        Constructs declarations body p.column result ↔
          result = ofSource declarations body p.column := by
    intro nodes hscan name body wholeLine p hmem result
    exact ih body ⟨nodes, name, wholeLine, p, hscan, hmem⟩
  rw [ofSource_eq]
  constructor
  · intro h
    cases h with
    | malformed hscan => rw [hscan, ofScan]
    | nodes hscan h =>
      rw [hscan, ofScan_ok, (assembles_iff (hbranch hscan)).1 h]
  · rintro rfl
    cases hscan : scan source with
    | error e => exact .malformed hscan
    | ok nodes =>
      rw [ofScan_ok]
      exact .nodes hscan ((assembles_iff (hbranch hscan)).2 rfl)

/-! ## Errors -/

/-- The errors of sources: of their syntax, and of the types of variables as far as these can be found
without values. -/
inductive Error.OfSource : Error → Prop where
  | malformed (e : SyntaxError) : Error.OfSource (.malformed e)
  | mixedForms (name : String) (first second : Form) : Error.OfSource (.mixedForms name first second)
  | conditionType (name : String) (type : ValueType) : Error.OfSource (.conditionType name type)

theorem ofSource_of_register {name : String} {form : Form} {e : Error}
    (h : register declarations known name form = .error e) : e.OfSource := by
  rw [register] at h
  split at h
  · split_ifs at h
    obtain rfl := Except.error.inj h
    exact .mixedForms ..
  · dsimp only at h
    split at h
    all_goals cases h
    exact .conditionType ..

theorem ofSource_of_assembles {branch : String → Int → Except Error Template → Prop}
    {result : Except Error (List (Part Template) × List Variable)} {e : Error}
    (h : Assembles declarations branch known nodes result)
    (hbranch : ∀ name body wholeLine p, .conditional name body wholeLine p ∈ nodes →
      ∀ e, branch body p.column (.error e) → e.OfSource)
    (he : result = .error e) : e.OfSource := by
  induction h with
  | nil => cases he
  | text _ ih | slot _ _ ih | branch _ _ _ ih =>
    refine ih (fun name body wholeLine p hmem => ?_) (map_eq_error_iff.1 he)
    exact hbranch name body wholeLine p (List.mem_cons_of_mem _ hmem)
  | slotRefused hname | branchRefused _ hname =>
    obtain rfl := Except.error.inj he
    exact ofSource_of_register hname
  | branchFails hbody =>
    obtain rfl := Except.error.inj he
    exact hbranch _ _ _ _ List.mem_cons_self _ hbody

/-- A template that is not made is refused for its source, or for that of a template inside. -/
theorem Constructs.ofSource {e : Error}
    (h : Constructs declarations source indent (.error e)) : e.OfSource := by
  induction source using wellFounded_isBodyOf.induction generalizing indent e with
  | _ source ih =>
  generalize hresult : Except.error e = result at h
  cases h with
  | malformed hscan =>
    obtain rfl := Except.error.inj hresult
    exact .malformed _
  | nodes hscan h =>
    refine ofSource_of_assembles h (fun name body wholeLine p hmem e hbody => ?_)
      (map_eq_error_iff.1 hresult.symm)
    exact ih body ⟨_, name, wholeLine, p, hscan, hmem⟩ hbody

/-! ## Templates -/

/-- A source whose nodes can be used in one template. -/
def IsUsable (declarations : List Declaration) (source : String) : Prop :=
  ∃ nodes, scan source = .ok nodes ∧ Consistent declarations (nodes.filterMap Node.use?)

theorem exists_parts (h : ∀ node ∈ nodes, ∃ part, IsPartOf declarations node part) :
    ∃ parts, List.Forall₂ (IsPartOf declarations) nodes parts := by
  induction nodes with
  | nil => exact ⟨[], .nil⟩
  | cons node rest ih =>
    obtain ⟨⟨part, hpart⟩, hrest⟩ := List.forall_mem_cons.1 h
    obtain ⟨parts, hparts⟩ := ih hrest
    exact ⟨part :: parts, .cons hpart hparts⟩

/-- A template has the templates of its branches. -/
theorem exists_branch {parts : List (Part Template)} {name : String} {wholeLine : Bool}
    {p : Position} (h : List.Forall₂ (IsPartOf declarations) nodes parts)
    (hmem : .conditional name body wholeLine p ∈ nodes) :
    ∃ t, ofSource declarations body p.column = .ok t := by
  induction h with
  | nil => cases hmem
  | cons hpart _ ih =>
    rcases List.mem_cons.1 hmem with rfl | hmem
    · cases hpart with
      | branch hmade => exact ⟨_, hmade⟩
    · exact ih hmem

/-- A template is made exactly if its source is usable and so is every source inside, however deep. -/
theorem exists_ofSource_iff : (∃ t, ofSource declarations source indent = .ok t) ↔
    ∀ depth inner, Nested depth source inner → IsUsable declarations inner := by
  induction source using wellFounded_isBodyOf.induction generalizing indent with
  | _ source ih =>
  constructor
  · rintro ⟨t, ht⟩ depth inner h
    obtain ⟨nodes, hscan, hparts, hconsistent, -, -⟩ := ofSource_eq_ok_iff.1 ht
    cases h with
    | self => exact ⟨nodes, hscan, hconsistent⟩
    | @inside depth _ body _ hbody h =>
      obtain ⟨name, wholeLine, p, hmem⟩ := (isBodyOf_iff_of_scan hscan).1 hbody
      obtain ⟨t, hmade⟩ := exists_branch hparts hmem
      exact (ih body hbody).1 ⟨t, hmade⟩ depth inner h
  · intro h
    obtain ⟨nodes, hscan, hconsistent⟩ := h 0 source (.self source)
    have hparts : ∀ node ∈ nodes, ∃ part, IsPartOf declarations node part := by
      intro node hmem
      cases node with
      | text text => exact ⟨_, .text text⟩
      | placeholder name p => exact ⟨_, .slot name p⟩
      | conditional name body wholeLine p =>
        have hbody := (isBodyOf_iff_of_scan hscan).2 ⟨name, wholeLine, p, hmem⟩
        obtain ⟨t, ht⟩ := (ih body hbody).2 fun depth inner hinner =>
          h (depth + 1) inner (.inside hbody hinner)
        exact ⟨_, .branch ht⟩
    obtain ⟨parts, hparts⟩ := exists_parts hparts
    exact ⟨⟨parts, _, indent⟩, ofSource_eq_ok_iff.2 ⟨nodes, hscan, hparts, hconsistent, rfl, rfl⟩⟩

/-- **The construction of templates ends.** The body of a conditional is shorter than the source it is read
from, and a source that has templates `depth + 1` deep has at least `2 ^ depth` characters. So the recursion
that makes a template and the templates of its branches has one outcome for every source, whatever is
declared: a template if the source and all those inside can be used, and otherwise an error of syntax or
of types. -/
theorem construction_ends (declarations : List Declaration) (source : String) (indent : Int) :
    (∀ body, IsBodyOf body source → body.length < source.length) ∧
    (∀ depth inner, Nested (depth + 1) source inner → 2 ^ depth ≤ source.length) ∧
    ∃ result, (∀ outcome, Constructs declarations source indent outcome ↔ outcome = result) ∧
      result = ofSource declarations source indent ∧
      ((∃ t, result = .ok t) ∨ ∃ e, e.OfSource ∧ result = .error e) ∧
      ((∃ t, result = .ok t) ↔
        ∀ depth inner, Nested depth source inner → IsUsable declarations inner) := by
  refine ⟨fun body h => h.length_lt, fun depth inner h => h.two_pow_le_length, _,
    fun outcome => constructs_iff, rfl, ?_, exists_ofSource_iff⟩
  cases hresult : ofSource declarations source indent with
  | ok t => exact .inl ⟨t, rfl⟩
  | error e => exact .inr ⟨e, (constructs_iff.2 hresult.symm).ofSource, rfl⟩

/-- A template that is two templates deep. -/
theorem construction_ends_twice :
    let source := "%a -> \"%b -> \\\"x\\\"%\"%"
    let body := "%b -> \"x\"%"
    (IsBodyOf body source ∧ body.length < source.length) ∧
      (Nested 2 source "x" ∧ 2 ^ 1 ≤ source.length) ∧ ∃ t, ofSource [] source 0 = .ok t := by
  intro source body
  have hsource : scan source = .ok [.conditional "a" body false .start] :=
    scan_of_agrees (by decide +kernel)
  have hbody : scan body = .ok [.conditional "b" "x" false .start] :=
    scan_of_agrees (by decide +kernel)
  have htext : scan "x" = .ok [.text "x"] := scan_of_agrees (by decide +kernel)
  have hinside : ∀ {b}, IsBodyOf b source ↔ b = body := by simp [isBodyOf_iff_of_scan hsource]
  have hinside' : ∀ {b}, IsBodyOf b body ↔ b = "x" := by simp [isBodyOf_iff_of_scan hbody]
  have hdeep : Nested 2 source "x" :=
    .inside (hinside.2 rfl) (.inside (hinside'.2 rfl) (.self "x"))
  obtain ⟨hshort, hlong, result, -, rfl, -, hmade⟩ := construction_ends [] source 0
  refine ⟨⟨hinside.2 rfl, hshort body (hinside.2 rfl)⟩, ⟨hdeep, hlong 1 "x" hdeep⟩, hmade.2 ?_⟩
  have hone : ∀ u : Use, Consistent [] [u] := fun u => ⟨fun w _ => .inr (.inl rfl), by simp⟩
  intro depth inner h
  cases h with
  | self => exact ⟨_, hsource, hone _⟩
  | inside h h' =>
    obtain rfl := hinside.1 h
    cases h' with
    | self => exact ⟨_, hbody, hone _⟩
    | inside h h' =>
      obtain rfl := hinside'.1 h
      cases h' with
      | self => exact ⟨_, htext, ⟨nofun, nofun⟩⟩
      | inside h _ => simp [isBodyOf_iff_of_scan htext] at h

end ApiClient.Template
