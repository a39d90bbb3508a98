import ApiClient.Template.Node
import Mathlib

/-!
# Text in nodes

The nodes of a template are put together of atoms, which are single characters and the nodes that are no
texts (`Node.atoms`, `Lexeme.atoms`). Nodes in which no text is empty and no two texts meet (`Merged`)
are the only such nodes of their atoms (`merge_atoms`), so the nodes that are made of lexemes are the
merged nodes with the lexemes' atoms (`spells_iff`).
-/

namespace ApiClient.Template

/-! ## Atoms -/

/-- A character of a text, or a node that is no text. -/
abbrev Atom := Char ⊕ Node

/-- The atoms of a node. -/
def Node.atoms : Node → List Atom
  | .text s => s.toList.map .inl
  | node => [.inr node]

/-- The atoms of a lexeme that begins at `p`. -/
def Lexeme.atoms (p : Position) : Lexeme → List Atom
  | .percent | .lone => [.inl '%']
  | .run cs => cs.map .inl
  | .slot name => [.inr (.placeholder (String.ofList name) p)]
  | .branch name body wholeLine =>
    [.inr (.conditional (String.ofList name) (String.ofList body) wholeLine p)]

/-- The atoms of lexemes with their places. -/
def atomsOf (ls : List (Lexeme × Position)) : List Atom :=
  ls.flatMap fun e => e.1.atoms e.2

/-- A node of text. -/
def Node.IsText : Node → Prop
  | .text _ => True
  | _ => False

instance : DecidablePred Node.IsText
  | .text _ => isTrue trivial
  | .placeholder _ _ | .conditional _ _ _ _ => isFalse id

/-- No text is empty, and no two texts meet. -/
structure Merged (nodes : List Node) : Prop where
  nonempty : .text "" ∉ nodes
  apart : nodes.IsChain fun a b => ¬ (a.IsText ∧ b.IsText)

/-- The nodes of atoms that follow the text `pending`. -/
def merge (pending : List Char) : List Atom → List Node
  | [] => textNode pending
  | .inl c :: rest => merge (pending ++ [c]) rest
  | .inr node :: rest => textNode pending ++ node :: merge [] rest

variable {pending text : List Char} {nodes : List Node}

theorem merge_text (text : List Char) (rest : List Atom) :
    merge pending (text.map .inl ++ rest) = merge (pending ++ text) rest := by
  induction text generalizing pending with
  | nil => simp
  | cons c more ih => simp [merge, ih]

theorem atoms_of_not_isText {node : Node} (h : ¬ node.IsText) : node.atoms = [.inr node] := by
  cases node with
  | text s => exact absurd trivial h
  | placeholder name p => rfl
  | conditional name body wholeLine p => rfl

theorem merge_of_not_isText (h : ∀ node ∈ nodes.head?, ¬ node.IsText) :
    merge pending (nodes.flatMap Node.atoms) =
      textNode pending ++ merge [] (nodes.flatMap Node.atoms) := by
  cases nodes with
  | nil => simp [merge, textNode]
  | cons node rest =>
    rw [List.flatMap_cons, atoms_of_not_isText (h node rfl), List.singleton_append, merge, merge]
    rfl

/-- Nodes that are merged are those of their atoms. -/
theorem merge_atoms (h : Merged nodes) : merge [] (nodes.flatMap Node.atoms) = nodes := by
  obtain ⟨hnonempty, hapart⟩ := h
  induction nodes with
  | nil => rfl
  | cons node rest ih =>
    obtain ⟨hnode, hrest⟩ := List.ne_and_not_mem_of_not_mem_cons hnonempty
    obtain ⟨hnext, hapart⟩ := List.isChain_cons.1 hapart
    have hmerge := ih hrest hapart
    by_cases htext : node.IsText
    · obtain ⟨s⟩ := node
      · have hs : s.toList ≠ [] := fun h => hnode (by rw [String.toList_eq_nil_iff.1 h])
        have hfollow : ∀ next ∈ rest.head?, ¬ next.IsText := fun next hmem h =>
          hnext next hmem ⟨trivial, h⟩
        rw [List.flatMap_cons, Node.atoms, merge_text, List.nil_append, merge_of_not_isText hfollow,
          hmerge, textNode, if_neg hs, String.ofList_toList, List.singleton_append]
      · cases htext
      · cases htext
    · rw [List.flatMap_cons, atoms_of_not_isText htext, List.singleton_append, merge, hmerge]
      rfl

/-! ## Lexemes -/

theorem nodesAfter_eq (pending : List Char) (ls : List (Lexeme × Position)) :
    nodesAfter pending ls = merge pending (atomsOf ls) := by
  fun_induction nodesAfter pending ls with
  | case1 => rfl
  | case2 _ _ _ ih | case3 _ _ _ ih => exact ih
  | case4 pending text p rest ih => exact ih.trans (merge_text text _).symm
  | case5 pending name p rest ih => exact congrArg _ (congrArg _ ih)
  | case6 pending name body wholeLine p rest ih => exact congrArg _ (congrArg _ ih)

theorem atoms_textNode (text : List Char) :
    (textNode text).flatMap Node.atoms = text.map .inl := by
  unfold textNode
  split_ifs with h
  · rw [h]
    rfl
  · simp [Node.atoms]

/-- The nodes among the atoms are no texts. -/
def Proper (atoms : List Atom) : Prop :=
  ∀ node, .inr node ∈ atoms → ¬ node.IsText

theorem proper_atomsOf (ls : List (Lexeme × Position)) : Proper (atomsOf ls) := by
  intro node hmem htext
  obtain ⟨⟨l, p⟩, -, hl⟩ := List.mem_flatMap.1 hmem
  cases l <;> simp only [Lexeme.atoms, List.mem_map, List.mem_singleton, reduceCtorEq, and_false,
    exists_false, Sum.inr.injEq] at hl <;> subst hl <;> exact htext

theorem atoms_merge {atoms : List Atom} (h : Proper atoms) :
    (merge pending atoms).flatMap Node.atoms = pending.map .inl ++ atoms := by
  induction atoms generalizing pending with
  | nil => rw [merge, atoms_textNode, List.append_nil]
  | cons atom rest ih =>
    have hrest : Proper rest := fun node hmem => h node (List.mem_cons_of_mem _ hmem)
    cases atom with
    | inl c => simp [merge, ih hrest]
    | inr node =>
      rw [merge, List.flatMap_append, atoms_textNode, List.flatMap_cons,
        atoms_of_not_isText (h node List.mem_cons_self), ih hrest]
      rfl

theorem text_empty_notMem_textNode (text : List Char) : .text "" ∉ textNode text := by
  unfold textNode
  split_ifs with h
  · exact List.not_mem_nil
  · intro hmem
    have hs := congrArg String.toList (Node.text.inj (List.mem_singleton.1 hmem))
    exact h (String.toList_ofList.symm.trans hs.symm)

theorem merged_merge {atoms : List Atom} (h : Proper atoms) : Merged (merge pending atoms) := by
  induction atoms generalizing pending with
  | nil =>
    refine ⟨text_empty_notMem_textNode pending, ?_⟩
    rw [merge, textNode]
    split_ifs
    · exact .nil
    · exact .singleton _
  | cons atom rest ih =>
    have hrest : Proper rest := fun node hmem => h node (List.mem_cons_of_mem _ hmem)
    cases atom with
    | inl c => exact ih hrest
    | inr node =>
      have hnode := h node List.mem_cons_self
      obtain ⟨hnonempty, hapart⟩ : Merged (merge [] rest) := ih hrest
      rw [merge]
      refine ⟨fun hmem => ?_, ?_⟩
      · rcases List.mem_append.1 hmem with hmem | hmem
        · exact text_empty_notMem_textNode pending hmem
        · rcases List.mem_cons.1 hmem with rfl | hmem
          · exact hnode trivial
          · exact hnonempty hmem
      · have hback := List.isChain_cons.2
          ⟨fun next _ hboth => hnode hboth.1, hapart⟩
        unfold textNode
        split_ifs
        · exact hback
        · exact List.isChain_cons.2 ⟨by rintro next ⟨⟩ hboth; exact hnode hboth.2, hback⟩

/-! ## Spelling -/

/-- Merged nodes with the values of the lexemes in order. -/
structure Spells (nodes : List Node) (ls : List (Lexeme × Position)) : Prop where
  merged : Merged nodes
  atoms_eq : nodes.flatMap Node.atoms = atomsOf ls

/-- The nodes that are made of lexemes are the merged nodes with their values. -/
theorem spells_iff {ls : List (Lexeme × Position)} : Spells nodes ls ↔ nodes = nodesAfter [] ls := by
  constructor
  · rintro ⟨hmerged, hatoms⟩
    rw [nodesAfter_eq, ← hatoms, merge_atoms hmerged]
  · rintro rfl
    rw [nodesAfter_eq]
    exact ⟨merged_merge (proper_atomsOf ls), atoms_merge (proper_atomsOf ls)⟩

end ApiClient.Template
