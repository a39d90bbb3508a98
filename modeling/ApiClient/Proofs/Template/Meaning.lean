import ApiClient.Proofs.Template.Filling
import ApiClient.Proofs.Template.Splitting
import Mathlib

/-!
# What a source gives

`Reads` says of a text of a source, by itself, which uses it makes of variables and which characters it
gives for values. A source has a template that builds a text exactly if it reads so with consistent uses
(`exists_build_iff`). A text and what stands behind it and a line feed read one by one
(`reads_append_newline_iff`), in whatever line they begin (`Reads.of_column`).
-/

namespace ApiClient.Template

/-! ## Atoms -/

/-- The use that an atom makes of a variable. -/
def Atom.use? : Atom → Option Use
  | .inl _ => none
  | .inr node => node.use?

/-- The uses that atoms make of variables. -/
def usesOf (atoms : List Atom) : List Use :=
  atoms.filterMap Atom.use?

/-- The characters that atoms give for values. A node gives what its piece does with the value of its
variable. -/
inductive Gives (declarations : List Declaration) (values : Table Json) :
    List Atom → List Char → Prop
  | nil : Gives declarations values [] []
  | char (c : Char) {atoms : List Atom} {text : List Char} (h : Gives declarations values atoms text) :
    Gives declarations values (.inl c :: atoms) (c :: text)
  | node {node : Node} {u : Use} {x : Option Json} {part : Part Template} {piece : List Char}
    {atoms : List Atom} {text : List Char} (huse : node.use? = some u)
    (hlookup : (variableOf declarations u).lookup values = .ok x)
    (hpart : IsPartOf declarations node part)
    (hpiece : fillPart values [(variableOf declarations u, x)] part = .ok piece)
    (h : Gives declarations values atoms text) :
    Gives declarations values (.inr node :: atoms) (piece ++ text)

variable {declarations : List Declaration} {values : Table Json} {atoms atoms' a b : List Atom}
  {text cs rest : List Char} {found : List (Variable × Option Json)} {nodes : List Node}
  {uses : List Use} {u : Use} {p q : Position}

theorem usesOf_append (a b : List Atom) : usesOf (a ++ b) = usesOf a ++ usesOf b :=
  List.filterMap_append

theorem usesOf_chars (cs : List Char) : usesOf (cs.map .inl) = [] := by
  rw [usesOf, List.filterMap_map]
  exact List.filterMap_eq_nil_iff.2 fun _ _ => rfl

theorem usesOf_flatMap_atoms (nodes : List Node) :
    usesOf (nodes.flatMap Node.atoms) = nodes.filterMap Node.use? := by
  induction nodes with
  | nil => rfl
  | cons node rest ih =>
    rw [List.flatMap_cons, usesOf_append, ih]
    cases node with
    | text s => rw [Node.atoms, usesOf_chars, List.nil_append, List.filterMap_cons_none (by rfl)]
    | placeholder name p => rfl
    | conditional name body wholeLine p => rfl

theorem gives_append_iff : Gives declarations values (a ++ b) text ↔
    ∃ x y, Gives declarations values a x ∧ Gives declarations values b y ∧ text = x ++ y := by
  constructor
  · intro h
    induction a generalizing text with
    | nil => exact ⟨[], text, .nil, h, rfl⟩
    | cons atom more ih =>
      cases h with
      | char c h =>
        obtain ⟨x, y, hx, hy, rfl⟩ := ih h
        exact ⟨c :: x, y, .char c hx, hy, rfl⟩
      | node huse hlookup hpart hpiece h =>
        obtain ⟨x, y, hx, hy, rfl⟩ := ih h
        exact ⟨_, y, .node huse hlookup hpart hpiece hx, hy, (List.append_assoc ..).symm⟩
  · rintro ⟨x, y, hx, hy, rfl⟩
    induction hx with
    | nil => exact hy
    | char c _ ih => exact .char c ih
    | node huse hlookup hpart hpiece _ ih =>
      rw [List.append_assoc]
      exact .node huse hlookup hpart hpiece ih

theorem gives_chars_iff : Gives declarations values (cs.map .inl) text ↔ text = cs := by
  induction cs generalizing text with
  | nil =>
    constructor
    · rintro ⟨⟩
      rfl
    · rintro rfl
      exact .nil
  | cons c more ih =>
    constructor
    · intro h
      cases h with
      | char _ h => rw [ih.1 h]
    · rintro rfl
      exact .char c (ih.2 rfl)

theorem Gives.exists_lookup (h : Gives declarations values atoms text) (hu : u ∈ usesOf atoms) :
    ∃ x, (variableOf declarations u).lookup values = .ok x := by
  induction h with
  | nil => cases hu
  | char c _ ih => exact ih hu
  | node huse hlookup _ _ _ ih =>
    rw [usesOf, List.filterMap_cons_some (show Atom.use? (.inr _) = some _ from huse)] at hu
    rcases List.mem_cons.1 hu with rfl | hu
    · exact ⟨_, hlookup⟩
    · exact ih hu

/-! ## Lines -/

theorem usesOf_eq_of_alike (h : List.Forall₂ Alike atoms atoms') : usesOf atoms = usesOf atoms' := by
  induction h with
  | nil => rfl
  | cons hatom _ ih =>
    cases hatom with
    | char c => exact ih
    | placeholder name p q => exact congrArg ((name, Form.plain) :: ·) ih
    | conditional name body wholeLine hcolumn =>
      exact congrArg ((name, conditionForm wholeLine) :: ·) ih

/-- Of its place, a node only shows the column. -/
theorem Gives.of_alike (h : Gives declarations values atoms text)
    (halike : List.Forall₂ Alike atoms atoms') : Gives declarations values atoms' text := by
  induction halike generalizing text with
  | nil => exact h
  | cons hatom _ ih =>
    cases hatom with
    | char c =>
      cases h with
      | char _ h => exact .char c (ih h)
    | placeholder name p q =>
      cases h with
      | node huse hlookup hpart hpiece h =>
        cases hpart with
        | slot => exact .node huse hlookup (.slot name q) hpiece (ih h)
    | conditional name body wholeLine hcolumn =>
      cases h with
      | node huse hlookup hpart hpiece h =>
        cases hpart with
        | branch hbody => exact .node huse hlookup (.branch (hcolumn ▸ hbody)) hpiece (ih h)

/-! ## Pieces -/

theorem exists_text_of_use?_eq_none {node : Node} (h : node.use? = none) : ∃ s, node = .text s := by
  cases node with
  | text s => exact ⟨s, rfl⟩
  | placeholder name p => cases h
  | conditional name body wholeLine p => cases h

theorem atoms_of_use? {node : Node} (h : node.use? = some u) : node.atoms = [.inr node] := by
  refine atoms_of_not_isText fun htext => ?_
  cases node with
  | text s => cases h
  | placeholder name p => exact htext
  | conditional name body wholeLine p => exact htext

theorem find?_variableOf (declarations : List Declaration) (u : Use) (x : Option Json) :
    List.find? (fun e : Variable × Option Json => decide (e.1.name = u.1))
      [(variableOf declarations u, x)] = some (variableOf declarations u, x) :=
  List.find?_cons_of_pos (decide_eq_true (variableOf_name declarations u))

/-- A piece asks for one variable only. -/
theorem fillPart_eq {node : Node} {part : Part Template} {x : Option Json} (huse : node.use? = some u)
    (hpart : IsPartOf declarations node part)
    (hfind : found.find? (·.1.name = u.1) = some (variableOf declarations u, x)) :
    fillPart values found part = fillPart values [(variableOf declarations u, x)] part := by
  have hone := find?_variableOf declarations u x
  cases hpart with
  | text s => cases huse
  | slot name p =>
    obtain rfl := Option.some.inj huse
    rw [fillPart, fillPart, formatted, formatted, hfind, hone]
  | branch hbody =>
    obtain rfl := Option.some.inj huse
    rw [fillPart, fillPart, holds, holds, hfind, hone]

theorem exists_fillParts_cons_iff {node : Node} :
    (∃ parts, List.Forall₂ (IsPartOf declarations) (node :: nodes) parts ∧
      fillParts values found parts = .ok text) ↔
    ∃ part piece more, IsPartOf declarations node part ∧ fillPart values found part = .ok piece ∧
      (∃ parts, List.Forall₂ (IsPartOf declarations) nodes parts ∧
        fillParts values found parts = .ok more) ∧ text = piece ++ more := by
  constructor
  · rintro ⟨parts, hparts, hfill⟩
    cases hparts with
    | cons hpart hmore =>
      rw [fillParts] at hfill
      obtain ⟨piece, hpiece, h₁⟩ := exists_of_bind hfill
      obtain ⟨more, htext, hpure⟩ := exists_of_bind h₁
      exact ⟨_, piece, more, hpart, hpiece, ⟨_, hmore, htext⟩, (Except.ok.inj hpure).symm⟩
  · rintro ⟨part, piece, more, hpart, hpiece, ⟨parts, hparts, hmore⟩, rfl⟩
    refine ⟨part :: parts, .cons hpart hparts, ?_⟩
    rw [fillParts, hpiece, hmore]
    rfl

theorem gives_node_iff {node : Node} (huse : node.use? = some u) :
    Gives declarations values (.inr node :: atoms) text ↔
      ∃ x part piece more, (variableOf declarations u).lookup values = .ok x ∧
        IsPartOf declarations node part ∧
        fillPart values [(variableOf declarations u, x)] part = .ok piece ∧
        Gives declarations values atoms more ∧ text = piece ++ more := by
  constructor
  · intro h
    cases h with
    | node huse' hlookup hpart hpiece h =>
      obtain rfl := Option.some.inj (huse.symm.trans huse')
      exact ⟨_, _, _, _, hlookup, hpart, hpiece, h, rfl⟩
  · rintro ⟨x, part, piece, more, hlookup, hpart, hpiece, h, rfl⟩
    exact .node huse hlookup hpart hpiece h

/-- The pieces of nodes give a text if the atoms of the nodes do. -/
theorem exists_fillParts_iff (hconsistent : Consistent declarations uses)
    (hfound : resolve values (variablesOf declarations uses) = .ok found)
    (hsub : nodes.filterMap Node.use? ⊆ uses) :
    (∃ parts, List.Forall₂ (IsPartOf declarations) nodes parts ∧
      fillParts values found parts = .ok text) ↔
    Gives declarations values (nodes.flatMap Node.atoms) text := by
  induction nodes generalizing text with
  | nil =>
    constructor
    · rintro ⟨parts, hparts, hfill⟩
      cases hparts
      obtain rfl := Except.ok.inj hfill
      exact .nil
    · intro h
      cases h
      exact ⟨[], .nil, rfl⟩
  | cons node rest ih =>
    rw [exists_fillParts_cons_iff, List.flatMap_cons]
    cases huse : node.use? with
    | none =>
      rw [List.filterMap_cons_none huse] at hsub
      obtain ⟨s, rfl⟩ := exists_text_of_use?_eq_none huse
      rw [Node.atoms, gives_append_iff]
      constructor
      · rintro ⟨_, piece, more, ⟨⟩, hpiece, hmore, rfl⟩
        obtain rfl := Except.ok.inj hpiece
        exact ⟨s.toList, more, gives_chars_iff.2 rfl, (ih hsub).1 hmore, rfl⟩
      · rintro ⟨piece, more, hpiece, hmore, rfl⟩
        obtain rfl := gives_chars_iff.1 hpiece
        exact ⟨.text s, s.toList, more, .text s, rfl, (ih hsub).2 hmore, rfl⟩
    | some u =>
      rw [List.filterMap_cons_some huse] at hsub
      obtain ⟨hu, hsub⟩ := List.cons_subset.1 hsub
      -- the table of all values has for the node what it needs, and no more is asked for
      obtain ⟨x, hlookup, hfind⟩ := find?_of_resolve hfound (hconsistent.find?_variablesOf hu)
      rw [atoms_of_use? huse, List.singleton_append, gives_node_iff huse]
      constructor
      · rintro ⟨part, piece, more, hpart, hpiece, hmore, rfl⟩
        rw [fillPart_eq huse hpart hfind] at hpiece
        exact ⟨x, part, piece, more, hlookup, hpart, hpiece, (ih hsub).1 hmore, rfl⟩
      · rintro ⟨x', part, piece, more, hlookup', hpart, hpiece, hmore, rfl⟩
        obtain rfl := Except.ok.inj (hlookup.symm.trans hlookup')
        rw [← fillPart_eq huse hpart hfind] at hpiece
        exact ⟨part, piece, more, hpart, hpiece, (ih hsub).2 hmore, rfl⟩

/-! ## Sources -/

/-- The characters `cs`, the first of which stands at `p`, make these uses of variables and give this
text. -/
def Reads (declarations : List Declaration) (values : Table Json) (p : Position) (cs : List Char)
    (uses : List Use) (text : List Char) : Prop :=
  ∃ atoms, atomsFrom p cs = .ok atoms ∧ usesOf atoms = uses ∧ Gives declarations values atoms text

theorem proper_of_atomsFrom (h : atomsFrom p cs = .ok atoms) : Proper atoms := by
  obtain ⟨ls, -, rfl⟩ := exists_of_map h
  exact proper_atomsOf ls

theorem flatMap_atoms_merge (h : atomsFrom p cs = .ok atoms) :
    (merge [] atoms).flatMap Node.atoms = atoms :=
  atoms_merge (proper_of_atomsFrom h)

theorem filterMap_use?_merge (h : atomsFrom p cs = .ok atoms) :
    (merge [] atoms).filterMap Node.use? = usesOf atoms := by
  rw [← usesOf_flatMap_atoms, flatMap_atoms_merge h]

variable {source : String} {own : Int} {indent : Option Int} {out : String}

/-- What a template of a source builds is what the characters of the source read as. -/
theorem reads_of_build {t : Template} (ht : ofSource declarations source own = .ok t)
    (hout : t.build values indent = .ok out) :
    ∃ uses text, Reads declarations values .start source.toList uses text ∧
      Consistent declarations uses ∧ out = String.ofList (finish (indent.getD own) text) := by
  obtain ⟨nodes, hscan, hparts, hconsistent, hinputs, rfl⟩ := ofSource_eq_ok_iff.1 ht
  rw [scan_eq_merge] at hscan
  obtain ⟨atoms, hatoms, rfl⟩ := exists_of_map hscan
  obtain ⟨filled, hfill, rfl⟩ := exists_of_map hout
  obtain ⟨found, text, hfound, htext, rfl⟩ := fill_eq_ok_iff.1 hfill
  rw [hinputs] at hfound
  have hgives := (exists_fillParts_iff hconsistent hfound (List.Subset.refl _)).1 ⟨_, hparts, htext⟩
  rw [filterMap_use?_merge hatoms] at hconsistent
  rw [flatMap_atoms_merge hatoms] at hgives
  exact ⟨usesOf atoms, text, ⟨atoms, hatoms, rfl, hgives⟩, hconsistent, rfl⟩

/-- A source whose characters read as a text, with uses that fit together, has a template that builds
it. -/
theorem exists_build_of_reads {text : List Char}
    (h : Reads declarations values .start source.toList uses text)
    (hconsistent : Consistent declarations uses) (own : Int) (indent : Option Int) :
    ∃ t, ofSource declarations source own = .ok t ∧
      t.build values indent = .ok (String.ofList (finish (indent.getD own) text)) := by
  obtain ⟨atoms, hatoms, rfl, hgives⟩ := h
  have huses := filterMap_use?_merge hatoms
  have hlookups : ∀ v ∈ variablesOf declarations (usesOf atoms), ∃ x, v.lookup values = .ok x := by
    intro v hv
    obtain ⟨u, hu, rfl⟩ := mem_variablesOf.1 hv
    exact hgives.exists_lookup hu
  obtain ⟨found, hfound⟩ := exists_resolve hlookups
  rw [← flatMap_atoms_merge hatoms] at hgives
  obtain ⟨parts, hparts, hfill⟩ :=
    (exists_fillParts_iff hconsistent hfound (huses ▸ List.Subset.refl _)).2 hgives
  have hscan : scan source = .ok (merge [] atoms) := by
    rw [scan_eq_merge, hatoms]
    rfl
  let t : Template := ⟨parts, variablesOf declarations (usesOf atoms), own⟩
  have ht : ofSource declarations source own = .ok t :=
    ofSource_eq_ok_iff.2 ⟨_, hscan, hparts, huses ▸ hconsistent, huses ▸ rfl, rfl⟩
  refine ⟨t, ht, ?_⟩
  rw [build, fill_eq_ok_iff.2 ⟨found, text, hfound, hfill, rfl⟩]
  rfl

/-- A source has a template that builds a text exactly if its characters read so. -/
theorem exists_build_iff :
    (∃ t, ofSource declarations source own = .ok t ∧ t.build values indent = .ok out) ↔
      ∃ uses text, Reads declarations values .start source.toList uses text ∧
        Consistent declarations uses ∧ out = String.ofList (finish (indent.getD own) text) := by
  constructor
  · rintro ⟨t, ht, hout⟩
    exact reads_of_build ht hout
  · rintro ⟨uses, text, hreads, hconsistent, rfl⟩
    exact exists_build_of_reads hreads hconsistent own indent

/-- A text and what stands behind it and a line feed read one by one. -/
theorem reads_append_newline_iff (h : ∃ atoms, atomsFrom p cs = .ok atoms) :
    Reads declarations values p (cs ++ '\n' :: rest) uses text ↔
      ∃ front frontText back backText, Reads declarations values p cs front frontText ∧
        Reads declarations values ((p.after cs).step '\n') rest back backText ∧
        uses = front ++ back ∧ text = frontText ++ '\n' :: backText := by
  obtain ⟨atoms, hatoms⟩ := h
  rw [Reads, atomsFrom_append_newline hatoms]
  constructor
  · rintro ⟨all, hall, rfl, hgives⟩
    obtain ⟨more, hmore, rfl⟩ := exists_of_map hall
    obtain ⟨x, y, hx, hy, rfl⟩ := gives_append_iff.1 hgives
    cases hy with
    | char _ hy =>
      exact ⟨usesOf atoms, x, usesOf more, _, ⟨atoms, hatoms, rfl, hx⟩, ⟨more, hmore, rfl, hy⟩,
        usesOf_append atoms _, rfl⟩
  · rintro ⟨front, x, back, y, ⟨atoms', hatoms', rfl, hx⟩, ⟨more, hmore, rfl, hy⟩, rfl, rfl⟩
    obtain rfl := Except.ok.inj (hatoms.symm.trans hatoms')
    refine ⟨atoms ++ .inl '\n' :: more, by rw [hmore]; rfl, usesOf_append atoms _, ?_⟩
    exact gives_append_iff.2 ⟨x, '\n' :: y, hx, .char '\n' hy, rfl⟩

/-- The line that a text begins in makes no difference. -/
theorem Reads.of_column (h : Reads declarations values p cs uses text)
    (hcolumn : p.column = q.column) : Reads declarations values q cs uses text := by
  obtain ⟨atoms, hatoms, rfl, hgives⟩ := h
  obtain ⟨atoms', hatoms', halike⟩ := exists_alike hatoms hcolumn
  exact ⟨atoms', hatoms', (usesOf_eq_of_alike halike).symm, hgives.of_alike halike⟩

end ApiClient.Template
