import ApiClient.Proofs.Naming.Fresh
import ApiClient.Proofs.Result
import ApiClient.Proofs.Template.Source
import Mathlib

/-!
# Putting a template together

A template has one piece for every node of its source (`IsPartOf`), and the variables that the nodes
use. A name may be used again in the form it has, and a condition is declared as a truth value or not at
all (`Consistent`); then the variables are those of the first uses in their order
(`registerAll_eq_ok_iff`). So a source has a template exactly if it is scanned, the branches of its nodes
have templates, and its uses are consistent (`ofSource_eq_ok_iff`).
-/

namespace ApiClient.Template

open Naming

/-! ## Uses -/

/-- A name, and the form it is used in. -/
abbrev Use := String × Form

/-- The use that a node makes of a variable. -/
def Node.use? : Node → Option Use
  | .text _ => none
  | .placeholder name _ => some (name, .plain)
  | .conditional name _ wholeLine _ => some (name, conditionForm wholeLine)

/-- The variable that a use is one of. -/
def variableOf (declarations : List Declaration) (u : Use) : Variable :=
  { declared declarations u.1 with form := u.2 }

/-- The variables of uses, in the order of their first uses. -/
def variablesOf (declarations : List Declaration) (uses : List Use) : List Variable :=
  (firstUses (· = ·) uses).map (variableOf declarations)

/-- A condition is declared as a truth value, or without a type. -/
def Use.Fits (declarations : List Declaration) (u : Use) : Prop :=
  u.2 = .plain ∨ (declared declarations u.1).type = none ∨
    (declared declarations u.1).type = some (.one .bool)

/-- Uses that go together: each fits what is declared, and a name has one form. -/
structure Consistent (declarations : List Declaration) (uses : List Use) : Prop where
  fits : ∀ u ∈ uses, u.Fits declarations
  eq_of_name : ∀ u ∈ uses, ∀ w ∈ uses, u.1 = w.1 → u = w

variable {declarations : List Declaration} {uses : List Use} {u : Use} {known inputs : List Variable}

theorem Consistent.subset {more : List Use} (h : Consistent declarations more)
    (hsub : uses ⊆ more) : Consistent declarations uses :=
  ⟨fun u hu => h.fits u (hsub hu), fun u hu w hw => h.eq_of_name u (hsub hu) w (hsub hw)⟩

theorem declared_name (declarations : List Declaration) (name : String) :
    (declared declarations name).name = name := by
  rw [declared]
  cases hfind : declarations.reverse.find? (·.name = name) with
  | none => rfl
  | some d => simpa using List.find?_some hfind

theorem variableOf_name (declarations : List Declaration) (u : Use) :
    (variableOf declarations u).name = u.1 :=
  declared_name declarations u.1

theorem mem_variablesOf {v : Variable} :
    v ∈ variablesOf declarations uses ↔ ∃ u ∈ uses, variableOf declarations u = v := by
  simp [variablesOf, mem_firstUses]

/-- A use among consistent ones finds its variable. -/
theorem Consistent.find?_variablesOf (h : Consistent declarations uses) (hu : u ∈ uses) :
    (variablesOf declarations uses).find? (·.name = u.1) = some (variableOf declarations u) := by
  have hname : (variableOf declarations u).name = u.1 := variableOf_name declarations u
  cases hfind : (variablesOf declarations uses).find? (·.name = u.1) with
  | none =>
    have hnone := List.find?_eq_none.1 hfind _ (mem_variablesOf.2 ⟨u, hu, rfl⟩)
    exact absurd (decide_eq_true hname) hnone
  | some v =>
    obtain ⟨w, hw, rfl⟩ := mem_variablesOf.1 (List.mem_of_find?_eq_some hfind)
    have hsame : w.1 = u.1 := by
      simpa [variableOf_name] using List.find?_some hfind
    rw [h.eq_of_name w hw u hu hsame]

theorem find?_variablesOf_eq_none {name : String} (h : ∀ u ∈ uses, u.1 ≠ name) :
    (variablesOf declarations uses).find? (·.name = name) = none := by
  refine List.find?_eq_none.2 fun v hv => ?_
  obtain ⟨u, hu, rfl⟩ := mem_variablesOf.1 hv
  simpa [variableOf_name] using h u hu

/-! ## Registering uses -/

/-- Notes uses one after another, after the variables `known`. -/
def registerAll (declarations : List Declaration) (known : List Variable) :
    List Use → Except Error (List Variable)
  | [] => .ok known
  | u :: rest => do registerAll declarations (← register declarations known u.1 u.2) rest

theorem registerAll_append (known : List Variable) (front back : List Use) :
    registerAll declarations known (front ++ back) =
      registerAll declarations known front >>= (registerAll declarations · back) := by
  induction front generalizing known with
  | nil => rfl
  | cons u rest ih =>
    rw [List.cons_append, registerAll, registerAll]
    cases register declarations known u.1 u.2 with
    | error e => rfl
    | ok more => exact ih more

theorem registerAll_singleton (known : List Variable) (u : Use) :
    registerAll declarations known [u] = register declarations known u.1 u.2 := by
  rw [registerAll]
  cases register declarations known u.1 u.2 <;> rfl

theorem variablesOf_append_of_mem (h : u ∈ uses) :
    variablesOf declarations (uses ++ [u]) = variablesOf declarations uses := by
  have hany : uses.any (decide <| · = u) = true := List.any_eq_true.2 ⟨u, h, by simp⟩
  rw [variablesOf, firstUses_append_singleton, hany, if_pos rfl, List.append_nil, variablesOf]

theorem variablesOf_append_of_notMem (h : u ∉ uses) :
    variablesOf declarations (uses ++ [u]) =
      variablesOf declarations uses ++ [variableOf declarations u] := by
  have hany : uses.any (decide <| · = u) = false :=
    List.any_eq_false.2 fun w hw => by simpa using fun heq : w = u => h (heq ▸ hw)
  rw [variablesOf, firstUses_append_singleton, hany, if_neg Bool.false_ne_true, List.map_append,
    variablesOf]
  rfl

theorem register_of_notMem (h : known.find? (·.name = u.1) = none) :
    register declarations known u.1 u.2 = .ok inputs ↔
      u.Fits declarations ∧ inputs = known ++ [variableOf declarations u] := by
  obtain ⟨name, form⟩ := u
  rw [register, h]
  simp only [Use.Fits, variableOf]
  cases htype : (declared declarations name).type with
  | none => cases form <;> simp [eq_comm]
  | some type =>
    by_cases hbool : type = .one .bool
    · subst hbool
      cases form <;> simp [eq_comm]
    · cases form <;> simp [hbool, eq_comm]

/-- One more use is noted if it goes together with those before it. -/
theorem register_eq_ok_iff (h : Consistent declarations uses) :
    register declarations (variablesOf declarations uses) u.1 u.2 = .ok inputs ↔
      Consistent declarations (uses ++ [u]) ∧ inputs = variablesOf declarations (uses ++ [u]) := by
  by_cases hname : ∃ w ∈ uses, w.1 = u.1
  · obtain ⟨w, hw, hsame⟩ := hname
    have hfind := h.find?_variablesOf hw
    rw [hsame] at hfind
    rw [register, hfind]
    dsimp only
    by_cases hform : (variableOf declarations w).form = u.2
    · obtain rfl : w = u := Prod.ext hsame hform
      have hsub : uses ++ [w] ⊆ uses := by simp [hw]
      rw [variablesOf_append_of_mem hw, if_pos hform, Except.ok.injEq, eq_comm (b := inputs)]
      exact ⟨fun heq => ⟨h.subset hsub, heq⟩, And.right⟩
    · rw [if_neg hform]
      refine iff_of_false nofun fun hboth => hform ?_
      rw [hboth.1.eq_of_name w (by simp [hw]) u (by simp) hsame]
      rfl
  · have hfresh : ∀ w ∈ uses, w.1 ≠ u.1 := fun w hw hsame => hname ⟨w, hw, hsame⟩
    have hu : u ∉ uses := fun hmem => hfresh u hmem rfl
    rw [register_of_notMem (find?_variablesOf_eq_none hfresh), variablesOf_append_of_notMem hu]
    refine and_congr_left fun _ => ⟨fun hfits => ⟨?_, ?_⟩, fun hall => hall.fits u (by simp)⟩
    · exact List.forall_mem_append.2 ⟨h.fits, List.forall_mem_singleton.2 hfits⟩
    · intro a ha b hb hab
      rcases List.mem_append.1 ha with ha | ha <;> rcases List.mem_append.1 hb with hb | hb
      · exact h.eq_of_name a ha b hb hab
      · exact absurd (List.mem_singleton.1 hb ▸ hab) (hfresh a ha)
      · exact absurd (List.mem_singleton.1 ha ▸ hab.symm) (hfresh b hb)
      · rw [List.mem_singleton.1 ha, List.mem_singleton.1 hb]

/-- Uses are noted if they are consistent, and give their variables. -/
theorem registerAll_eq_ok_iff : registerAll declarations [] uses = .ok inputs ↔
    Consistent declarations uses ∧ inputs = variablesOf declarations uses := by
  induction uses using List.reverseRecOn generalizing inputs with
  | nil =>
    have hnil : Consistent declarations [] := ⟨nofun, nofun⟩
    rw [registerAll, Except.ok.injEq, eq_comm]
    exact ⟨fun heq => ⟨hnil, heq⟩, And.right⟩
  | append_singleton uses u ih =>
    rw [registerAll_append]
    simp only [registerAll_singleton]
    constructor
    · intro h
      obtain ⟨known, hknown, hregister⟩ := exists_of_bind h
      obtain ⟨hconsistent, rfl⟩ := ih.1 hknown
      exact (register_eq_ok_iff hconsistent).1 hregister
    · intro h
      have hconsistent := h.1.subset (List.subset_append_left uses [u])
      rw [ih.2 ⟨hconsistent, rfl⟩]
      exact (register_eq_ok_iff hconsistent).2 h

/-! ## Nodes one by one -/

section Assemble

variable {f : String → Int → Except Error Template} {name text body : String} {wholeLine : Bool}
  {p : Position} {rest : List Node}

theorem bind_cons_eq_map (part : Part Template)
    (x : Except Error (List (Part Template) × List Variable)) :
    (do let (parts, known) ← x; return (part :: parts, known)) =
      x.map (Prod.map (part :: ·) id) := by
  cases x <;> rfl

theorem assemble_text : assemble declarations known (.text text :: rest)
    (fun _ body _ p _ => f body p.column) =
      (assemble declarations known rest fun _ body _ p _ => f body p.column).map
        (Prod.map (.text text :: ·) id) := by
  rw [assemble]
  exact bind_cons_eq_map _ _

theorem assemble_placeholder : assemble declarations known (.placeholder name p :: rest)
    (fun _ body _ p _ => f body p.column) =
      register declarations known name .plain >>= fun more =>
        (assemble declarations more rest fun _ body _ p _ => f body p.column).map
          (Prod.map (.slot name :: ·) id) := by
  rw [assemble]
  exact bind_congr fun _ => bind_cons_eq_map _ _

theorem assemble_conditional : assemble declarations known (.conditional name body wholeLine p :: rest)
    (fun _ body _ p _ => f body p.column) =
      f body p.column >>= fun t =>
        register declarations known name (conditionForm wholeLine) >>= fun more =>
          (assemble declarations more rest fun _ body _ p _ => f body p.column).map
            (Prod.map (.branch name wholeLine t :: ·) id) := by
  rw [assemble]
  exact bind_congr fun _ => bind_congr fun _ => bind_cons_eq_map _ _

end Assemble

/-! ## Pieces -/

/-- The piece that a node becomes. The branch of a conditional is a template of its own, with the
column of the conditional as its indent. -/
inductive IsPartOf (declarations : List Declaration) : Node → Part Template → Prop
  | text (text : String) : IsPartOf declarations (.text text) (.text text)
  | slot (name : String) (p : Position) : IsPartOf declarations (.placeholder name p) (.slot name)
  | branch {name source : String} {wholeLine : Bool} {p : Position} {body : Template}
    (hbody : ofSource declarations source p.column = .ok body) :
    IsPartOf declarations (.conditional name source wholeLine p) (.branch name wholeLine body)

/-- What the nodes of a source make of a template: its pieces, its variables and its indent. -/
structure Assembled (declarations : List Declaration) (nodes : List Node) (indent : Int)
    (t : Template) : Prop where
  parts : List.Forall₂ (IsPartOf declarations) nodes t.parts
  consistent : Consistent declarations (nodes.filterMap Node.use?)
  inputs_eq : t.inputs = variablesOf declarations (nodes.filterMap Node.use?)
  indent_eq : t.indent = indent

/-- One node is put in front of the others: its use is noted before theirs. -/
theorem assemble_cons_eq_ok_iff {node : Node} {nodes : List Node} {parts : List (Part Template)} :
    assemble declarations known (node :: nodes)
        (fun _ body _ p _ => ofSource declarations body p.column) = .ok (parts, inputs) ↔
      ∃ part more middle, IsPartOf declarations node part ∧
        registerAll declarations known node.use?.toList = .ok middle ∧
        assemble declarations middle nodes
          (fun _ body _ p _ => ofSource declarations body p.column) = .ok (more, inputs) ∧
        parts = part :: more := by
  constructor
  · intro h
    cases node with
    | text text =>
      rw [assemble_text] at h
      obtain ⟨⟨more, _⟩, hmore, hpair⟩ := exists_of_map h
      obtain ⟨rfl, rfl⟩ := Prod.mk.inj hpair
      exact ⟨_, more, known, .text text, rfl, hmore, rfl⟩
    | placeholder name p =>
      rw [assemble_placeholder] at h
      obtain ⟨middle, hmiddle, h₁⟩ := exists_of_bind h
      obtain ⟨⟨more, _⟩, hmore, hpair⟩ := exists_of_map h₁
      obtain ⟨rfl, rfl⟩ := Prod.mk.inj hpair
      exact ⟨_, more, middle, .slot name p, (registerAll_singleton known _).trans hmiddle, hmore, rfl⟩
    | conditional name source wholeLine p =>
      rw [assemble_conditional] at h
      obtain ⟨body, hbody, h₁⟩ := exists_of_bind h
      obtain ⟨middle, hmiddle, h₂⟩ := exists_of_bind h₁
      obtain ⟨⟨more, _⟩, hmore, hpair⟩ := exists_of_map h₂
      obtain ⟨rfl, rfl⟩ := Prod.mk.inj hpair
      exact ⟨_, more, middle, .branch hbody, (registerAll_singleton known _).trans hmiddle, hmore, rfl⟩
  · rintro ⟨part, more, middle, hpart, hmiddle, hmore, rfl⟩
    cases hpart with
    | text text =>
      obtain rfl := Except.ok.inj hmiddle
      rw [assemble_text, hmore]
      rfl
    | slot name p =>
      rw [Node.use?, Option.toList_some, registerAll_singleton] at hmiddle
      rw [assemble_placeholder, bind_of_ok hmiddle, hmore]
      rfl
    | branch hbody =>
      rw [Node.use?, Option.toList_some, registerAll_singleton] at hmiddle
      rw [assemble_conditional, bind_of_ok hbody, bind_of_ok hmiddle, hmore]
      rfl

theorem assemble_eq_ok_iff {nodes : List Node} {parts : List (Part Template)} :
    assemble declarations known nodes (fun _ body _ p _ => ofSource declarations body p.column) =
      .ok (parts, inputs) ↔
    List.Forall₂ (IsPartOf declarations) nodes parts ∧
      registerAll declarations known (nodes.filterMap Node.use?) = .ok inputs := by
  induction nodes generalizing known parts with
  | nil =>
    rw [assemble, List.forall₂_nil_left_iff, List.filterMap_nil, registerAll]
    simp only [Except.ok.injEq, Prod.mk.injEq]
    exact and_congr_left fun _ => eq_comm
  | cons node rest ih =>
    have huses : (node :: rest).filterMap Node.use? =
        node.use?.toList ++ rest.filterMap Node.use? := by
      rw [List.filterMap_cons]
      cases node.use? <;> rfl
    rw [assemble_cons_eq_ok_iff, huses, registerAll_append]
    constructor
    · rintro ⟨part, more, middle, hpart, hmiddle, hmore, rfl⟩
      obtain ⟨hparts, hinputs⟩ := ih.1 hmore
      rw [hmiddle]
      exact ⟨.cons hpart hparts, hinputs⟩
    · rintro ⟨hparts, hinputs⟩
      obtain ⟨middle, hmiddle, hrest⟩ := exists_of_bind hinputs
      cases hparts with
      | cons hpart hmore => exact ⟨_, _, middle, hpart, hmiddle, ih.2 ⟨hmore, hrest⟩, rfl⟩

/-- A source has a template exactly if its nodes make one. -/
theorem ofSource_eq_ok_iff {source : String} {indent : Int} {t : Template} :
    ofSource declarations source indent = .ok t ↔
      ∃ nodes, scan source = .ok nodes ∧ Assembled declarations nodes indent t := by
  rw [ofSource_eq]
  constructor
  · intro h
    cases hscan : scan source with
    | error e => simp [hscan, ofScan] at h
    | ok nodes =>
      rw [hscan, ofScan] at h
      obtain ⟨⟨parts, inputs⟩, hparts, hpure⟩ := exists_of_bind h
      obtain rfl := Except.ok.inj hpure
      obtain ⟨hparts, hinputs⟩ := assemble_eq_ok_iff.1 hparts
      obtain ⟨hconsistent, hvariables⟩ := registerAll_eq_ok_iff.1 hinputs
      exact ⟨nodes, rfl, hparts, hconsistent, hvariables, rfl⟩
  · rintro ⟨nodes, hscan, hparts, hconsistent, hvariables, rfl⟩
    obtain ⟨parts, inputs, indent⟩ := t
    have hinputs := registerAll_eq_ok_iff.2 ⟨hconsistent, hvariables⟩
    rw [hscan, ofScan, assemble_eq_ok_iff.2 ⟨hparts, hinputs⟩]
    rfl

end ApiClient.Template
