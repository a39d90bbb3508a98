import ApiClient.Proofs.Dialect.TypeTemplate
import Mathlib

/-!
# The layout of Python types

A named type whose texts are without the character of a marker (`NamedType.IsWritten`) is written in either
form block by block, with line feeds between the blocks (`renderType_of_classBlocks`,
`renderType_of_callBlocks`): its docstring, its imports, the line that begins the type, and a line for each
field, which is a text in one line (`isClean_of_mem_fieldLines`, `isClean_callLineOf`).
-/

namespace ApiClient

/-- A named type with this description, whose name is an identifier, whose fields have types of Python, and
whose texts are without the character of a marker. -/
structure NamedType.IsWritten (t : NamedType) (description : Option String) : Prop
    extends t.IsTyped description where
  name_isIdentifier : Naming.isPythonIdentifier t.name = true
  fields_isSpelt : ∀ f ∈ t.fields, Dialect.Python.IsSpelt f.type
  description_unmarked : ∀ s ∈ description, Template.Unmarked s.toList
  types_ne_empty : ∀ f ∈ t.fields, f.type.short ≠ ""
  comments_unmarked : ∀ f ∈ t.fields, ∀ s, f.description = .str s → Template.Unmarked s.toList

namespace Dialect.Python

open Naming Template

variable {t : NamedType} {description doc : Option String} {head : String}

/-! ## Lines -/

/-- Lines behind the same lead, which stands there by itself if there is no line. -/
def rows (lead : String) : List String → List String
  | [] => [lead]
  | xs => xs.map (lead ++ ·)

theorem join_rows (lead : String) (xs : List String) :
    lead ++ Text.join ("\n" ++ lead) xs = Text.join "\n" (rows lead xs) := by
  cases xs with
  | nil => exact String.append_empty
  | cons x rest =>
    have hrows : rows lead (x :: rest) = (lead ++ x) :: rest.map (lead ++ ·) := rfl
    rw [hrows]
    induction rest generalizing x with
    | nil => rfl
    | cons y rest ih =>
      rw [Text.join_cons_cons, List.map_cons, Text.join_cons_cons, ← ih y rfl]
      simp only [String.append_assoc]

theorem isClean_of_mem_rows {lead : String} (hlead : IsClean lead) {xs : List String}
    (h : ∀ x ∈ xs, IsClean x) : ∀ row ∈ rows lead xs, IsClean row := by
  cases xs with
  | nil => exact List.forall_mem_singleton.2 hlead
  | cons x rest => exact List.forall_mem_map.2 fun y hy => hlead.append (h y hy)

/-- A character of the words of a text that is not the blank between them is no blank. -/
theorem of_mem_collapse {c : Char} {text : String} (h : c ∈ (collapse text).toList) :
    c = ' ' ∨ Text.isBlank c = false ∧ c ∈ text.toList := by
  obtain hsep | ⟨word, hword, hc⟩ := Text.mem_join h
  · exact .inl (List.mem_singleton.1 (by simpa using hsep))
  · exact .inr (Text.of_mem_words hword hc)

theorem isClean_collapse {text : String} (h : Unmarked text.toList) : IsClean (collapse text) := by
  refine ⟨fun hmem => ?_, fun hmem => ?_⟩
  · obtain hsep | ⟨hblank, -⟩ := of_mem_collapse hmem
    · exact absurd hsep (by decide)
    · exact absurd hblank (by decide)
  · obtain hsep | ⟨-, htext⟩ := of_mem_collapse hmem
    · exact absurd hsep (by decide)
    · exact h htext

theorem isClean_of_isPythonIdentifier {name : String} (h : isPythonIdentifier name = true) :
    IsClean name := by
  rw [isPythonIdentifier, Bool.and_eq_true] at h
  exact isClean_of_isIdentifier h.1

theorem isClean_of_mem_fieldComment {f : Field}
    (h : ∀ s, f.description = .str s → Unmarked s.toList) {line : String}
    (hline : line ∈ fieldComment f) : IsClean line := by
  rw [fieldComment] at hline
  split at hline
  · rename_i s hs
    split_ifs at hline
    · cases hline
    · obtain rfl := List.mem_singleton.1 hline
      have hmark : IsClean "#: " := ⟨by decide, by decide⟩
      exact hmark.append (isClean_collapse (h s hs))
  · cases hline

theorem isClean_of_mem_fieldLines (h : t.IsWritten description) (hclass : isClassForm t = true)
    {line : String} (hline : line ∈ t.fields.flatMap fieldLines) : IsClean line := by
  obtain ⟨f, hf, hmem⟩ := List.mem_flatMap.1 hline
  rcases List.mem_append.1 hmem with hcomment | hfield
  · exact isClean_of_mem_fieldComment (h.comments_unmarked f hf) hcomment
  · obtain rfl := List.mem_singleton.1 hfield
    have hcolon : IsClean ": " := ⟨by decide, by decide⟩
    exact ((isClean_of_isPythonIdentifier (List.all_eq_true.1 hclass f hf)).append hcolon).append
      (isClean_typeHint (h.fields_isSpelt f hf))

theorem isClean_callLineOf (f : Field) : IsClean (callLineOf f) := by
  have hcolon : IsClean ": " := ⟨by decide, by decide⟩
  have hcomma : IsClean "," := ⟨by decide, by decide⟩
  exact (((isClean_literal _).append hcolon).append (isClean_literal _)).append hcomma

/-! ## Blocks -/

/-- The lines behind the docstring that both forms share. -/
def importLines (t : NamedType) : List String :=
  ["", "from __future__ import annotations", "", "from typing import " ++ Text.join ", " (typing t)] ++
  if t.references.isEmpty then [] else "" :: "if TYPE_CHECKING:" :: t.references.map importOf

/-- The blocks behind the docstring of a class. -/
def fieldBlocks (t : NamedType) : List String :=
  rows "    " (t.fields.flatMap fieldLines) ++ [""]

/-- The blocks of the class form. -/
def classBlocks (t : NamedType) (head : String) (doc : Option String) : List String :=
  head :: (importLines t ++ (["", "", "class " ++ t.name ++ "(TypedDict):"] ++
    ((doc.map ("    " ++ ·)).toList ++ fieldBlocks t)))

/-- The blocks of the call form. -/
def callBlocks (t : NamedType) (head : String) : List String :=
  head :: (importLines t ++ (["", t.name ++ " = TypedDict(", "    \"" ++ t.name ++ "\",", "    \x7b"] ++
    (rows "        " (t.fields.map callLineOf) ++ ["    \x7d,", ")", ""])))

theorem keptLines_newline_cons (rest : List Char) :
    keptLines ('\n' :: rest) = linesOfBlocks [""] ++ keptLines rest :=
  keptLines_append_cons [] rest

theorem keptLines_rows {lead : String} (hlead : IsClean lead) {xs : List String}
    (h : ∀ x ∈ xs, IsClean x) :
    keptLines (lead ++ Text.join ("\n" ++ lead) xs).toList = linesOfBlocks (rows lead xs) := by
  have hne : rows lead xs ≠ [] := by cases xs <;> simp [rows]
  have hunmarked : Unmarked (Text.join "\n" (rows lead xs)).toList :=
    unmarked_join (by decide) fun row hrow => (isClean_of_mem_rows hlead h row hrow).2
  rw [join_rows, keptLines_of_unmarked hunmarked, splitOnChar_join_lines hne]

theorem isClean_typingLine (t : NamedType) :
    IsClean ("from typing import " ++ Text.join ", " (typing t)) := by
  have hfront : IsClean "from typing import " := ⟨by decide, by decide⟩
  have hcomma : IsClean ", " := ⟨by decide, by decide⟩
  exact hfront.append (isClean_join hcomma fun _ => isClean_of_mem_typing)

theorem isClean_of_mem_importLines (h : ∀ n ∈ t.references, IsPlainName n) :
    ∀ line ∈ importLines t, IsClean line := by
  simp only [importLines, List.forall_mem_append, List.forall_mem_cons]
  refine ⟨⟨⟨by decide, by decide⟩, ⟨by decide, by decide⟩, ⟨by decide, by decide⟩,
    isClean_typingLine t, List.forall_mem_nil _⟩, ?_⟩
  split
  · exact List.forall_mem_nil _
  · simp only [List.forall_mem_cons, List.forall_mem_map]
    exact ⟨⟨by decide, by decide⟩, ⟨by decide, by decide⟩, fun n hn => isClean_importOf (h n hn)⟩

theorem referencesText_eq (h : t.references ≠ []) :
    referencesText t = Text.join "\n" ("" :: "if TYPE_CHECKING:" :: t.references.map importOf) := by
  obtain ⟨name, rest, hname⟩ := List.exists_cons_of_ne_nil h
  have hfront : "\nif TYPE_CHECKING:\n" = "" ++ "\n" ++ ("if TYPE_CHECKING:" ++ "\n") := by decide
  have hjoin : Text.join "\n" ("" :: "if TYPE_CHECKING:" :: t.references.map importOf) =
      "" ++ "\n" ++ ("if TYPE_CHECKING:" ++ "\n" ++ Text.join "\n" (t.references.map importOf)) := by
    simp only [hname, List.map_cons, Text.join_cons_cons]
  calc referencesText t
    _ = "" ++ "\n" ++ ("if TYPE_CHECKING:" ++ "\n") ++ Text.join "\n" (t.references.map importOf) :=
        congrArg (· ++ _) hfront
    _ = _ := String.append_assoc ..
    _ = _ := hjoin.symm

theorem keptLines_references (h : ∀ n ∈ t.references, IsPlainName n) :
    keptLines (held (!t.references.isEmpty) (finish 0 (referencesText t).toList)) = linesOfBlocks
      (if t.references.isEmpty then [] else "" :: "if TYPE_CHECKING:" :: t.references.map importOf) := by
  by_cases hempty : t.references = []
  · rw [hempty]
    rfl
  · have hsome : t.references.isEmpty = false := by simpa using hempty
    have hunmarked : Unmarked (referencesText t).toList := by
      rw [referencesText_eq hempty]
      refine unmarked_join (by decide) fun line hline => (isClean_of_mem_importLines h line ?_).2
      rw [importLines, hsome]
      exact List.mem_append_right _ hline
    have hfinish : finish 0 (referencesText t).toList = (referencesText t).toList :=
      String.ofList_injective (by rw [ofList_finish_zero (keptLines_block hunmarked)]; simp [Text.join])
    rw [hfinish, hsome]
    exact (keptLines_of_unmarked hunmarked).trans
      (by rw [referencesText_eq hempty, splitOnChar_join_lines (by simp)]; rfl)

theorem keptLines_moduleText (hhead : Unmarked head.toList) (h : ∀ n ∈ t.references, IsPlainName n) :
    keptLines (moduleText t head) = linesOfBlocks (head :: importLines t) := by
  rw [moduleText, keptLines_append_cons, keptLines_newline_cons, keptLines_append_cons,
    keptLines_newline_cons, keptLines_append_cons, keptLines_references h, keptLines_block hhead,
    keptLines_block (isClean_typingLine t).2, keptLines_block (by decide)]
  simp only [← linesOfBlocks_append, importLines, List.cons_append, List.nil_append]

theorem isClean_classHeader (h : t.IsWritten description) :
    IsClean ("class " ++ t.name ++ "(TypedDict):") := by
  have hfront : IsClean "class " := ⟨by decide, by decide⟩
  have hback : IsClean "(TypedDict):" := ⟨by decide, by decide⟩
  exact (hfront.append (isClean_of_isPythonIdentifier h.name_isIdentifier)).append hback

theorem isClean_callHeader (h : t.IsWritten description) : IsClean (t.name ++ " = TypedDict(") :=
  (isClean_of_isPythonIdentifier h.name_isIdentifier).append ⟨by decide, by decide⟩

theorem isClean_callTitle (h : t.IsWritten description) : IsClean ("    \"" ++ t.name ++ "\",") := by
  have hfront : IsClean "    \"" := ⟨by decide, by decide⟩
  have hback : IsClean "\"," := ⟨by decide, by decide⟩
  exact (hfront.append (isClean_of_isPythonIdentifier h.name_isIdentifier)).append hback

theorem keptLines_classText (h : t.IsWritten description) (hclass : isClassForm t = true)
    (hhead : Unmarked head.toList) (hdoc : ∀ text ∈ doc, Unmarked text.toList) :
    keptLines (classText t head doc) = linesOfBlocks (classBlocks t head doc) := by
  have hheader := isClean_classHeader h
  have hlead : IsClean "    " := ⟨by decide, by decide⟩
  have hfields : keptLines (classLinesOf t).toList =
      linesOfBlocks (rows "    " (t.fields.flatMap fieldLines)) :=
    keptLines_rows hlead fun line hline => isClean_of_mem_fieldLines h hclass hline
  have hlast : keptLines [] = linesOfBlocks [""] := rfl
  rw [classText, keptLines_append_cons,
    keptLines_moduleText hhead (isPlainName_of_mem_references h.fields_isSpelt), keptLines_newline_cons,
    keptLines_newline_cons, keptLines_append_cons, keptLines_block hheader.2, ← List.append_assoc,
    keptLines_append_cons, keptLines_described hlead.2 hlead.1 hdoc, keptLines_append_cons, hfields, hlast]
  simp only [← linesOfBlocks_append, classBlocks, fieldBlocks, List.append_assoc, List.cons_append,
    List.nil_append]

theorem keptLines_callText (h : t.IsWritten description) (hhead : Unmarked head.toList) :
    keptLines (callText t head) = linesOfBlocks (callBlocks t head) := by
  have hcall := isClean_callHeader h
  have htitle := isClean_callTitle h
  have hfields : keptLines (callLinesOf t).toList =
      linesOfBlocks (rows "        " (t.fields.map callLineOf)) := by
    have hlead : IsClean "        " := ⟨by decide, by decide⟩
    exact keptLines_rows hlead (List.forall_mem_map.2 fun f _ => isClean_callLineOf f)
  have hlast : keptLines [] = linesOfBlocks [""] := rfl
  rw [callText, keptLines_append_cons,
    keptLines_moduleText hhead (isPlainName_of_mem_references h.fields_isSpelt), keptLines_newline_cons,
    keptLines_append_cons, keptLines_block hcall.2, keptLines_append_cons, keptLines_block htitle.2,
    keptLines_append_cons, keptLines_block (by decide), keptLines_append_cons, hfields,
    keptLines_append_cons, keptLines_block (by decide), keptLines_append_cons,
    keptLines_block (by decide), hlast]
  simp only [← linesOfBlocks_append, callBlocks, List.cons_append, List.nil_append]

/-! ## Modules -/

theorem unmarked_docstring {indent : Nat} {text doc : String} (h : docstring indent text = .ok doc)
    (htext : Unmarked text.toList) : Unmarked doc.toList :=
  notMem_docstring (by decide) (by decide) (by decide) h htext

theorem unmarked_moduleDoc {namespaceName : String} (h : t.IsWritten description)
    (hnamespace : Unmarked namespaceName.toList) : Unmarked (moduleDoc t namespaceName).toList := by
  have hname := (isClean_of_isPythonIdentifier h.name_isIdentifier).2
  simp only [moduleDoc, String.toList_append, unmarked_append]
  exact ⟨⟨⟨hname, by decide⟩, hnamespace⟩, by decide⟩

theorem renderType_of_classBlocks (h : t.IsWritten description) (hclass : isClassForm t = true)
    {namespaceName : String} (hnamespace : Unmarked namespaceName.toList)
    (hhead : docstring 0 (moduleDoc t namespaceName) = .ok head)
    (hdoc : description.mapM (docstring 4) = .ok doc) :
    t.render python namespaceName = .ok (Text.join "\n" (classBlocks t head doc)) := by
  have hunmarked := unmarked_docstring hhead (unmarked_moduleDoc h hnamespace)
  have hdocs : ∀ text ∈ doc, Unmarked text.toList := by
    cases description with
    | none =>
      obtain rfl := Except.ok.inj hdoc
      simp
    | some s =>
      obtain ⟨text, htext, rfl⟩ := exists_of_map hdoc
      rintro text ⟨⟩
      exact unmarked_docstring htext (h.description_unmarked s rfl)
  rw [renderType_of_class h.toIsTyped hclass, build_typeClassPieces h.toIsTyped hhead hdoc,
    ofList_finish_zero (keptLines_classText h hclass hunmarked hdocs)]

theorem renderType_of_callBlocks (h : t.IsWritten description) (hcall : isClassForm t = false)
    {namespaceName : String} (hnamespace : Unmarked namespaceName.toList)
    (hhead : docstring 0 (moduleDoc t namespaceName) = .ok head) :
    t.render python namespaceName = .ok (Text.join "\n" (callBlocks t head)) := by
  have hunmarked := unmarked_docstring hhead (unmarked_moduleDoc h hnamespace)
  rw [renderType_of_call hcall, build_typeCallPieces hhead,
    ofList_finish_zero (keptLines_callText h hunmarked)]

end Dialect.Python

end ApiClient
