import ApiClient.Proofs.Text.Ascii
import ApiClient.Template.Basic
import Mathlib

/-!
# Templates of their nodes

`ofSource_eq` makes a template of the nodes that its source is scanned into, without regard to the
length of the source, and `scan_eq` scans a source off its bytes. Together they make the templates
of a dialect cheap to compute with. The nodes of a long source are told from its lexemes one by one,
character by character (`scan_of_agrees`).
-/

namespace ApiClient.Template

/-- The template of what a source is scanned into. -/
def ofScan (declarations : List Declaration) (scanned : Except SyntaxError (List Node))
    (indent : Int) : Except Error Template :=
  match scanned with
  | .error e => .error (.malformed e)
  | .ok nodes => do
    let (parts, inputs) ← assemble declarations [] nodes fun _ body _ p _ =>
      ofSource declarations body p.column
    return { parts, inputs, indent }

theorem ofSource_eq (declarations : List Declaration) (source : String) (indent : Int) :
    ofSource declarations source indent = ofScan declarations (scan source) indent := by
  rw [ofSource]
  split
  · rename_i e he
    simp only [he, ofScan]
  · rename_i nodes hnodes
    simp only [hnodes, ofScan]

theorem scan_eq (source : String) :
    scan source = (lexemes .start (Text.chars source)).map (nodesAfter []) := by
  rw [scan, Text.chars_eq]

/-! ## Lexemes and nodes -/

/-- Whether nodes begin with a text. -/
def beginsWithText : List Node → Bool
  | .text _ :: _ => true
  | _ => false

/-- Whether nodes are those of lexemes, one for one. -/
def agrees : List (Lexeme × Position) → List Node → Bool
  | [], [] => true
  | (.run text, _) :: ls, .text s :: nodes =>
    text = Text.chars s && text ≠ [] && !beginsWithText nodes && agrees ls nodes
  | (.slot name, p) :: ls, .placeholder s q :: nodes =>
    name = Text.chars s && p = q && agrees ls nodes
  | (.branch name body wholeLine, p) :: ls, .conditional s b w q :: nodes =>
    name = Text.chars s && body = Text.chars b && wholeLine = w && p = q && agrees ls nodes
  | _, _ => false

theorem nodesAfter_of_agrees {ls : List (Lexeme × Position)} {nodes : List Node}
    (h : agrees ls nodes = true) : nodesAfter [] ls = nodes ∧
      ∀ text : List Char, beginsWithText nodes = false → nodesAfter text ls = textNode text ++ nodes := by
  fun_induction agrees ls nodes with
  | case1 => simp [nodesAfter, textNode]
  | case2 text p ls s nodes ih =>
    simp only [Bool.and_eq_true, decide_eq_true_eq, Bool.not_eq_true'] at h
    obtain ⟨⟨⟨rfl, hne⟩, hbegins⟩, hrest⟩ := h
    obtain ⟨-, hnodes⟩ := ih hrest
    refine ⟨?_, fun _ h => by cases h⟩
    rw [nodesAfter, List.nil_append, hnodes _ hbegins, textNode, if_neg hne, Text.chars_eq,
      String.ofList_toList]
    rfl
  | case3 name p ls s q nodes ih =>
    simp only [Bool.and_eq_true, decide_eq_true_eq] at h
    obtain ⟨⟨rfl, rfl⟩, hrest⟩ := h
    simp [nodesAfter, textNode, (ih hrest).1, Text.chars_eq]
  | case4 name body wholeLine p ls s b w q nodes ih =>
    simp only [Bool.and_eq_true, decide_eq_true_eq] at h
    obtain ⟨⟨⟨⟨rfl, rfl⟩, rfl⟩, rfl⟩, hrest⟩ := h
    simp [nodesAfter, textNode, (ih hrest).1, Text.chars_eq]
  | case5 => cases h

/-- The nodes of a source that its lexemes agree with. -/
theorem scan_of_agrees {source : String} {nodes : List Node}
    (h : (lexemes .start (Text.chars source)).toOption.any (agrees · nodes) = true) :
    scan source = .ok nodes := by
  cases hls : lexemes .start (Text.chars source) with
  | error e =>
    rw [hls] at h
    cases h
  | ok ls =>
    rw [hls] at h
    rw [scan_eq, hls]
    exact congrArg Except.ok (nodesAfter_of_agrees h).1

end ApiClient.Template
