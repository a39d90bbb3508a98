import ApiClient.Proofs.Template.Building
import ApiClient.Proofs.Template.Meaning
import Mathlib

/-!
# Values that a build asks for

A build asks for the variables of a source and, below each condition that is supplied as true, for those
of its branch (`Asks`); for no others. `asked` lists them in the order they are looked up: all of a source
by first occurrence, then those of the branches that are taken, in order. A build fails at the first of
them that its value does not suit, and nothing else of the values makes a difference (`build_asks`).
-/

namespace ApiClient

namespace Template

variable {declarations : List Declaration} {values values' : Table Json} {source : String}
  {v : Variable} {e : Error}

/-! ## Values that do not suit -/

/-- The value for a variable does not suit it, and the error that says so. -/
inductive Variable.Refuses (values : Table Json) (v : Variable) : Error → Prop
  | missing (hvalue : values.get? v.name = none) (hoptional : v.optional = false)
    (hnullable : v.nullable = false) : Refuses values v (.missing v.name)
  | null (hvalue : values.get? v.name = some .null) (hnullable : v.nullable = false) :
    Refuses values v (.null v.name)
  | wrongType {value : Json} (hvalue : values.get? v.name = some value) (hnull : value ≠ .null)
    (htype : v.expected.fits value = false) :
    Refuses values v (.wrongType v.name value v.expected)

theorem lookup_eq_error_iff : v.lookup values = .error e ↔ v.Refuses values e := by
  constructor
  · intro h
    rw [Variable.lookup] at h
    split at h
    · rename_i hvalue
      split_ifs at h with habsent
      obtain ⟨hoptional, hnullable⟩ := Bool.or_eq_false_iff.1 (Bool.eq_false_iff.2 habsent)
      exact Except.error.inj h ▸ .missing hvalue hoptional hnullable
    · rename_i hvalue
      split_ifs at h with hnullable
      exact Except.error.inj h ▸ .null hvalue (Bool.eq_false_iff.2 hnullable)
    · rename_i value hnull hvalue
      split_ifs at h with htype
      exact Except.error.inj h ▸ .wrongType hvalue hnull (Bool.eq_false_iff.2 htype)
  · intro h
    cases h with
    | missing hvalue hoptional hnullable =>
      rw [Variable.lookup, hvalue]
      exact if_neg (by simp [hoptional, hnullable])
    | null hvalue hnullable =>
      rw [Variable.lookup, hvalue]
      exact if_neg (by simp [hnullable])
    | @wrongType value hvalue hnull htype =>
      rw [Variable.lookup, hvalue]
      cases value with
      | null => exact absurd rfl hnull
      | _ => exact if_neg (by simp [htype])

theorem lookup_congr (h : values'.get? v.name = values.get? v.name) :
    v.lookup values' = v.lookup values := by
  rw [Variable.lookup, h, Variable.lookup]

/-! ## Variables that are asked for -/

/-- Whether a condition is supplied as true. -/
def isTrue (values : Table Json) (name : String) : Bool :=
  match values.get? name with
  | some (.bool b) => b
  | _ => false

/-- A variable that a source asks for: of a placeholder of its own, or of one that its branch asks for
while the condition of the branch is true. -/
inductive Asks (declarations : List Declaration) (values : Table Json) : String → Variable → Prop
  | here {source : String} {nodes : List Node} {node : Node} {u : Use}
    (hscan : scan source = .ok nodes) (hnode : node ∈ nodes) (huse : node.use? = some u) :
    Asks declarations values source (variableOf declarations u)
  | inBranch {source name body : String} {nodes : List Node} {wholeLine : Bool} {p : Position}
    {v : Variable} (hscan : scan source = .ok nodes)
    (hnode : .conditional name body wholeLine p ∈ nodes) (htrue : isTrue values name = true)
    (h : Asks declarations values body v) : Asks declarations values source v

/-- The variables that a source asks for, in order: those of its own placeholders by first occurrence,
then those of each branch whose condition is true. -/
def asked (declarations : List Declaration) (values : Table Json) (source : String) : List Variable :=
  match h : scan source with
  | .error _ => []
  | .ok nodes =>
    variablesOf declarations (nodes.filterMap Node.use?) ++
      nodes.attach.flatMap fun node =>
        match hnode : node.1 with
        | .conditional name body _ _ =>
          have : body.length < source.length := length_body_lt h (hnode ▸ node.2)
          if isTrue values name then asked declarations values body else []
        | _ => []
  termination_by source.length

/-- The variables that a node's branch asks for, if it has one that is taken. -/
def askedBelow (declarations : List Declaration) (values : Table Json) : Node → List Variable
  | .conditional name body _ _ =>
    if isTrue values name then asked declarations values body else []
  | _ => []

theorem asked_eq {nodes : List Node} (hscan : scan source = .ok nodes) :
    asked declarations values source = variablesOf declarations (nodes.filterMap Node.use?) ++
      nodes.flatMap (askedBelow declarations values) := by
  -- the nodes carry their membership in the recursion only to bound the length of a body
  have hbelow : nodes.flatMap (askedBelow declarations values) =
      nodes.attach.flatMap fun node => askedBelow declarations values node.1 := by
    conv_lhs => rw [← List.attach_map_subtype_val nodes]
    rw [List.flatMap_map]
  rw [asked, hbelow]
  split
  · rename_i hnone
    rw [hscan] at hnone
    cases hnone
  · rename_i nodes' hnodes
    obtain rfl := Except.ok.inj (hscan.symm.trans hnodes)
    congr 2
    funext node
    split
    · rename_i hnode
      exact (congrArg (askedBelow declarations values) hnode).symm
    · rename_i hnode
      cases hkind : node.1 with
      | conditional name body wholeLine p => exact absurd hkind (hnode name body wholeLine p)
      | text s => rfl
      | placeholder name p => rfl

theorem asks_of_mem_asked (h : v ∈ asked declarations values source) :
    Asks declarations values source v := by
  -- a branch's source is shorter than the one it stands in
  induction hlength : source.length using Nat.strong_induction_on generalizing source with
  | _ n ih =>
    cases hscan : scan source with
    | error e =>
      rw [asked] at h
      split at h
      · cases h
      · rename_i hnodes
        rw [hscan] at hnodes
        cases hnodes
    | ok nodes =>
      rw [asked_eq hscan, List.mem_append] at h
      rcases h with h | h
      · obtain ⟨u, hu, rfl⟩ := mem_variablesOf.1 h
        obtain ⟨node, hnode, huse⟩ := List.mem_filterMap.1 hu
        exact .here hscan hnode huse
      · obtain ⟨node, hnode, h⟩ := List.mem_flatMap.1 h
        cases node with
        | text s => cases h
        | placeholder name p => cases h
        | conditional name body wholeLine p =>
          rw [askedBelow] at h
          split_ifs at h with htrue
          · have hless := length_body_lt hscan hnode
            exact .inBranch hscan hnode htrue (ih _ (hlength ▸ hless) h rfl)
          · cases h

theorem Asks.mem_asked (h : Asks declarations values source v) :
    v ∈ asked declarations values source := by
  induction h with
  | here hscan hnode huse =>
    rw [asked_eq hscan]
    exact List.mem_append_left _ (mem_variablesOf.2 ⟨_, List.mem_filterMap.2 ⟨_, hnode, huse⟩, rfl⟩)
  | inBranch hscan hnode htrue _ ih =>
    rw [asked_eq hscan]
    refine List.mem_append_right _ (List.mem_flatMap.2 ⟨_, hnode, ?_⟩)
    rw [askedBelow, if_pos htrue]
    exact ih

/-- A variable is asked for exactly if it is in the list. -/
theorem mem_asked : v ∈ asked declarations values source ↔ Asks declarations values source v :=
  ⟨asks_of_mem_asked, Asks.mem_asked⟩

/-! ## Looking up -/

/-- Variables that are looked up one after another fail at the first whose value does not suit. -/
theorem resolve_eq_error_iff {inputs : List Variable} : resolve values inputs = .error e ↔
    ∃ front v back, inputs = front ++ v :: back ∧ (∀ w ∈ front, ∀ d, ¬ w.Refuses values d) ∧
      v.Refuses values e := by
  induction inputs with
  | nil => simp [resolve]
  | cons w rest ih =>
    rw [resolve, bind_eq_error_iff, lookup_eq_error_iff]
    constructor
    · rintro (h | ⟨x, hx, h⟩)
      · exact ⟨[], w, rest, rfl, List.forall_mem_nil _, h⟩
      · rcases bind_eq_error_iff.1 h with h | ⟨more, -, h⟩
        · obtain ⟨front, v, back, rfl, hfront, hv⟩ := ih.1 h
          refine ⟨w :: front, v, back, rfl, List.forall_mem_cons.2 ⟨fun d hd => ?_, hfront⟩, hv⟩
          rw [← lookup_eq_error_iff, hx] at hd
          cases hd
        · cases h
    · rintro ⟨front, v, back, heq, hfront, hv⟩
      cases front with
      | nil =>
        obtain ⟨rfl, rfl⟩ := List.cons.inj heq
        exact Or.inl hv
      | cons w' front =>
        obtain ⟨rfl, rfl⟩ := List.cons.inj heq
        obtain ⟨hw, hfront⟩ := List.forall_mem_cons.1 hfront
        cases hx : w.lookup values with
        | error d => exact absurd (lookup_eq_error_iff.1 hx) (hw d)
        | ok x =>
          refine Or.inr ⟨x, rfl, bind_eq_error_iff.2 (Or.inl (ih.2 ⟨front, v, back, rfl, hfront, hv⟩))⟩

theorem exists_error_of_refuses {inputs : List Variable} (hv : v ∈ inputs) (h : v.Refuses values e) :
    ∃ d, resolve values inputs = .error d := by
  induction inputs with
  | nil => cases hv
  | cons w rest ih =>
    rw [resolve]
    cases hw : w.lookup values with
    | error d => exact ⟨d, rfl⟩
    | ok x =>
      rcases List.mem_cons.1 hv with rfl | hv
      · rw [lookup_eq_error_iff.2 h] at hw
        cases hw
      · obtain ⟨d, hd⟩ := ih hv
        exact ⟨d, by rw [hd]; rfl⟩

theorem resolve_append (front back : List Variable) : resolve values (front ++ back) =
    do return (← resolve values front) ++ (← resolve values back) := by
  induction front with
  | nil =>
    cases h : resolve values back <;> simp [resolve, h, bind, Except.bind, pure, Except.pure]
  | cons v rest ih =>
    rw [List.cons_append, resolve, resolve, ih]
    simp only [bind_assoc, pure_bind, List.cons_append]

theorem resolve_append_eq_error_iff {front back : List Variable} :
    resolve values (front ++ back) = .error e ↔ resolve values front = .error e ∨
      (∃ found, resolve values front = .ok found) ∧ resolve values back = .error e := by
  rw [resolve_append, bind_eq_error_iff]
  refine or_congr_right ?_
  rw [← exists_and_right]
  refine exists_congr fun found => and_congr_right fun _ => ?_
  rw [bind_eq_error_iff]
  exact or_iff_left (by rintro ⟨_, -, h⟩; cases h)

/-! ## Filling in -/

variable {found : List (Variable × Option Json)} {t : Template} {own : Int} {indent : Option Int}

/-- A condition holds among values that have been looked up if it is supplied as true. -/
theorem holds_eq_isTrue {name : String} {x : Option Json} (hname : v.name = name)
    (hfind : found.find? (·.1.name = name) = some (v, x)) (hlookup : v.lookup values = .ok x) :
    holds found name = isTrue values name := by
  subst hname
  rw [Variable.lookup] at hlookup
  rw [holds, hfind, isTrue]
  split at hlookup
  · rename_i hvalue
    split_ifs at hlookup
    obtain rfl := Except.ok.inj hlookup
    rw [hvalue]
  · rename_i hvalue
    split_ifs at hlookup
    obtain rfl := Except.ok.inj hlookup
    rw [hvalue]
  · rename_i hvalue
    split_ifs at hlookup
    obtain rfl := Except.ok.inj hlookup
    rw [hvalue]
    rename_i value _ _
    cases value <;> rfl

theorem fillParts_eq_error_iff {nodes : List Node} {parts : List (Part Template)}
    (h : List.Forall₂ (fun node part => ∀ e, fillPart values found part = .error e ↔
      resolve values (askedBelow declarations values node) = .error e) nodes parts) (e : Error) :
    fillParts values found parts = .error e ↔
      resolve values (nodes.flatMap (askedBelow declarations values)) = .error e := by
  induction h generalizing e with
  | nil => simp [fillParts, resolve]
  | @cons node part nodes parts hpart _ ih =>
    have hok : (∃ piece, fillPart values found part = .ok piece) ↔
        ∃ found, resolve values (askedBelow declarations values node) = .ok found := by
      simp only [exists_ok_iff, ne_eq, hpart]
    rw [List.flatMap_cons, resolve_append_eq_error_iff, fillParts, bind_eq_error_iff, hpart, ← hok,
      ← ih, ← exists_and_right]
    refine or_congr_right (exists_congr fun piece => and_congr_right fun _ => ?_)
    rw [bind_eq_error_iff]
    exact or_iff_left (by rintro ⟨_, -, h⟩; cases h)

/-- The formatters of the variables that a source asks for give a text for every value that suits. -/
def Formattable (declarations : List Declaration) (values : Table Json) (source : String) : Prop :=
  ∀ v, Asks declarations values source v → v.form = .plain →
    ∀ value, v.lookup values = .ok (some value) → ∃ text, v.format value = .ok text

variable {nodes : List Node}

/-- The value that a node of a source uses, among those that have been looked up. -/
theorem exists_found (hconsistent : Consistent declarations (nodes.filterMap Node.use?))
    (hfound : resolve values (variablesOf declarations (nodes.filterMap Node.use?)) = .ok found)
    {node : Node} (hnode : node ∈ nodes) {u : Use} (huse : node.use? = some u) :
    ∃ x, (variableOf declarations u).lookup values = .ok x ∧
      found.find? (·.1.name = u.1) = some (variableOf declarations u, x) :=
  find?_of_resolve hfound
    (hconsistent.find?_variablesOf (List.mem_filterMap.2 ⟨node, hnode, huse⟩))

/-- A branch of a source is filled in if its condition is supplied as true. -/
theorem holds_of_mem (hconsistent : Consistent declarations (nodes.filterMap Node.use?))
    (hfound : resolve values (variablesOf declarations (nodes.filterMap Node.use?)) = .ok found)
    {name body : String} {wholeLine : Bool} {p : Position}
    (hnode : .conditional name body wholeLine p ∈ nodes) : holds found name = isTrue values name := by
  obtain ⟨x, hx, hfind⟩ := exists_found hconsistent hfound hnode rfl
  exact holds_eq_isTrue (variableOf_name declarations _) hfind hx

/-- A placeholder whose value has been looked up does not fail. -/
theorem fillPart_slot_ne_error (hscan : scan source = .ok nodes)
    (hconsistent : Consistent declarations (nodes.filterMap Node.use?))
    (hfound : resolve values (variablesOf declarations (nodes.filterMap Node.use?)) = .ok found)
    (hformats : Formattable declarations values source) {name : String} {p : Position}
    (hnode : .placeholder name p ∈ nodes) : fillPart values found (.slot name) ≠ .error e := by
  obtain ⟨x, hx, hfind⟩ := exists_found hconsistent hfound hnode rfl
  rw [fillPart, formatted, hfind]
  cases x with
  | none => simp
  | some value =>
    obtain ⟨text, htext⟩ := hformats _ (.here hscan hnode rfl) rfl value hx
    simp [htext]

/-- A template is filled in unless a variable that its source asks for has a value that does not suit. -/
theorem fill_eq_error_iff (ht : ofSource declarations source own = .ok t)
    (hformats : Formattable declarations values source) :
    t.fill values indent = .error e ↔ resolve values (asked declarations values source) = .error e := by
  induction hlength : source.length using Nat.strong_induction_on generalizing source t own indent e with
  | _ n ih =>
    obtain ⟨nodes, hscan, hparts, hconsistent, hinputs, -⟩ := ofSource_eq_ok_iff.1 ht
    obtain ⟨parts, inputs, own'⟩ := t
    dsimp only at hparts hinputs
    rw [asked_eq hscan, resolve_append_eq_error_iff, fill, bind_eq_error_iff, ← hinputs,
      ← exists_and_right]
    refine or_congr_right (exists_congr fun found => and_congr_right fun hfound => ?_)
    rw [bind_eq_error_iff, or_iff_left (by rintro ⟨_, -, h⟩; cases h)]
    rw [hinputs] at hfound
    -- with all of its own variables found, a source fails only in a branch, and it takes those that are asked
    refine fillParts_eq_error_iff ?_ e
    have hnodes : List.Forall₂ (fun node part => node ∈ nodes ∧ IsPartOf declarations node part)
        nodes parts := (List.forall₂_and_left _ _).2 ⟨fun _ => id, hparts⟩
    refine hnodes.imp fun node part hpair d => ?_
    obtain ⟨hnode, hpart⟩ := hpair
    cases hpart with
    | text s => simp [fillPart, askedBelow, resolve]
    | slot name p =>
      exact iff_of_false (fillPart_slot_ne_error hscan hconsistent hfound hformats hnode)
        (by simp [askedBelow, resolve])
    | @branch name body wholeLine p template hbody =>
      rw [fillPart, askedBelow, holds_of_mem hconsistent hfound hnode]
      by_cases htrue : isTrue values name = true
      · rw [if_pos htrue, if_pos htrue]
        have hless := length_body_lt hscan hnode
        exact ih _ (hlength ▸ hless) hbody
          (fun v hv => hformats v (.inBranch hscan hnode htrue hv)) rfl
      · rw [if_neg htrue, if_neg htrue]
        simp [resolve]

/-! ## Values that make no difference -/

theorem resolve_congr {inputs : List Variable}
    (h : ∀ v ∈ inputs, values'.get? v.name = values.get? v.name) :
    resolve values' inputs = resolve values inputs := by
  induction inputs with
  | nil => rfl
  | cons v rest ih =>
    obtain ⟨hv, hrest⟩ := List.forall_mem_cons.1 h
    rw [resolve, resolve, lookup_congr hv, ih hrest]

theorem fillParts_congr {parts : List (Part Template)}
    (h : ∀ part ∈ parts, fillPart values' found part = fillPart values found part) :
    fillParts values' found parts = fillParts values found parts := by
  induction parts with
  | nil => rfl
  | cons part rest ih =>
    obtain ⟨hpart, hrest⟩ := List.forall_mem_cons.1 h
    rw [fillParts, fillParts, hpart, ih hrest]

/-- A template is filled in alike with values that agree where its source asks for them. -/
theorem fill_congr (ht : ofSource declarations source own = .ok t)
    (h : ∀ v, Asks declarations values source v → values'.get? v.name = values.get? v.name) :
    t.fill values' indent = t.fill values indent := by
  induction hlength : source.length using Nat.strong_induction_on generalizing source t own indent with
  | _ n ih =>
    obtain ⟨nodes, hscan, hparts, hconsistent, hinputs, -⟩ := ofSource_eq_ok_iff.1 ht
    obtain ⟨parts, inputs, own'⟩ := t
    dsimp only at hparts hinputs
    have hsame : resolve values' inputs = resolve values inputs := by
      refine resolve_congr fun v hv => h v ?_
      rw [hinputs] at hv
      obtain ⟨u, hu, rfl⟩ := mem_variablesOf.1 hv
      obtain ⟨node, hnode, huse⟩ := List.mem_filterMap.1 hu
      exact .here hscan hnode huse
    rw [fill, fill, hsame]
    cases hfound : resolve values inputs with
    | error d => rfl
    | ok found =>
      rw [hinputs] at hfound
      have hfill : fillParts values' found parts = fillParts values found parts := by
        refine fillParts_congr fun part hpart => ?_
        obtain ⟨node, hnode, hpart⟩ := exists_node_of_mem hparts hpart
        cases hpart with
        | text s => rfl
        | slot name p => rfl
        | @branch name body wholeLine p template hbody =>
          rw [fillPart, fillPart, holds_of_mem hconsistent hfound hnode]
          by_cases htrue : isTrue values name = true
          · rw [if_pos htrue, if_pos htrue]
            have hless := length_body_lt hscan hnode
            exact ih _ (hlength ▸ hless) hbody (fun v hv => h v (.inBranch hscan hnode htrue hv)) rfl
          · rw [if_neg htrue, if_neg htrue]
      simp only [bind, Except.bind, hfill]

/-! ## Building -/

theorem build_eq_error_iff {values : Table Json} :
    t.build values indent = .error e ↔ t.fill values indent = .error e := by
  rw [build]
  cases t.fill values indent <;> simp [Except.map]

/-- A build fails exactly if a variable that its source asks for has a value that does not suit: it is
missing, null or of another type where what is declared forbids it. The error is that of the first such
variable, in the order of `asked`. Values that agree where the source asks for them build the same text,
or fail with the same error. -/
theorem build_asks (ht : ofSource declarations source own = .ok t)
    (hformats : Formattable declarations values source) (indent : Option Int) :
    (∀ v, v ∈ asked declarations values source ↔ Asks declarations values source v) ∧
      ((∃ e, t.build values indent = .error e) ↔
        ∃ v e, Asks declarations values source v ∧ v.Refuses values e) ∧
      (∀ e, t.build values indent = .error e ↔ ∃ front v back,
        asked declarations values source = front ++ v :: back ∧
          (∀ w ∈ front, ∀ d, ¬ w.Refuses values d) ∧ v.Refuses values e) ∧
      ∀ values' : Table Json,
        (∀ v, Asks declarations values source v → values'.get? v.name = values.get? v.name) →
          t.build values' indent = t.build values indent := by
  have herror : ∀ e, t.build values indent = .error e ↔ ∃ front v back,
      asked declarations values source = front ++ v :: back ∧
        (∀ w ∈ front, ∀ d, ¬ w.Refuses values d) ∧ v.Refuses values e := fun e => by
    rw [build_eq_error_iff, fill_eq_error_iff ht hformats, resolve_eq_error_iff]
  refine ⟨fun v => mem_asked, ⟨?_, ?_⟩, herror, fun values' h => ?_⟩
  · rintro ⟨e, he⟩
    obtain ⟨front, v, back, hasked, -, hv⟩ := (herror e).1 he
    exact ⟨v, e, mem_asked.1 (hasked ▸ by simp), hv⟩
  · rintro ⟨v, e, hv, hrefuses⟩
    obtain ⟨d, hd⟩ := exists_error_of_refuses (mem_asked.2 hv) hrefuses
    exact ⟨d, (herror d).2 (resolve_eq_error_iff.1 hd)⟩
  · rw [build, build, fill_congr ht h]

/-- Values for the function that lack one its body asks for, and supply another of a wrong type. -/
def stubValuesWrong : Table Json :=
  [("c", .bool true), ("d", .str "no")]

theorem asked_stub : asked stubDeclarations stubValuesWrong stubSource = [
    { name := "c", form := .wholeLine }, { name := "w", nullable := true, wholeLine := true },
    { name := "x" }, { name := "d", form := .wholeLine }] := by
  have htrue : isTrue stubValuesWrong "c" = true := rfl
  have hfalse : isTrue stubValuesWrong "d" = false := rfl
  have hbody : asked stubDeclarations stubValuesWrong stubBodySource =
      [{ name := "x" }, { name := "d", form := .wholeLine }] := by
    rw [asked_eq scan_stubBodySource]
    simp only [List.flatMap_cons, List.flatMap_nil, askedBelow, hfalse]
    rfl
  rw [asked_eq scan_stubSource]
  simp only [List.flatMap_cons, List.flatMap_nil, askedBelow, htrue, if_true, hbody]
  rfl

theorem Asks.exists_use (h : Asks declarations values source v) :
    ∃ u, v = variableOf declarations u := by
  induction h with
  | here => exact ⟨_, rfl⟩
  | inBranch _ _ _ _ ih => exact ih

/-- What the function asks for is shown as it is. -/
theorem formattable_stub (values : Table Json) :
    Formattable stubDeclarations values stubSource := by
  intro v hv hplain value hvalue
  obtain ⟨⟨name, form⟩, rfl⟩ := hv.exists_use
  by_cases hname : name = "w"
  · subst hname
    exact ⟨_, rfl⟩
  · have hdeclared : declared stubDeclarations name = { name } := by
      simp [declared, stubDeclarations, Ne.symm hname]
    rw [variableOf, hdeclared]
    exact ⟨_, rfl⟩

/-- The function lacks a value for its body before the condition there is looked at, whatever else is
supplied. -/
theorem build_asks_stub :
    (ofSource stubDeclarations stubSource 0 = .ok stub ∧
      Formattable stubDeclarations stubValuesWrong stubSource) ∧
    stub.build stubValuesWrong = .error (.missing "x") ∧
    stub.build (("z", .int 1) :: stubValuesWrong) = .error (.missing "x") := by
  have hformats := formattable_stub stubValuesWrong
  obtain ⟨hmem, -, herror, hcongr⟩ := build_asks ofSource_stub hformats none
  have hmissing : stub.build stubValuesWrong = .error (.missing "x") := by
    have hx : ({ name := "x" } : Variable).Refuses stubValuesWrong (.missing "x") :=
      .missing rfl rfl rfl
    refine (herror _).2 ⟨[_, _], _, _, asked_stub, ?_, hx⟩
    intro w hw d hd
    rw [← lookup_eq_error_iff] at hd
    rcases List.mem_pair.1 hw with rfl | rfl
    · cases hd
    · cases hd
  refine ⟨⟨ofSource_stub, hformats⟩, hmissing, (hcongr _ fun v hv => ?_).trans hmissing⟩
  have hname : v.name ≠ "z" := by
    have hnames : ∀ w ∈ asked stubDeclarations stubValuesWrong stubSource, w.name ≠ "z" := by
      rw [asked_stub]
      simp
    exact hnames v ((hmem v).2 hv)
  have hother : (v.name == "z") = false := beq_false_of_ne hname
  rw [Table.get?, List.lookup_cons, hother]
  rfl

end Template

end ApiClient
