import ApiClient.Proofs.Dialect.TypeLayout
import ApiClient.Proofs.Dialect.TypedDict
import Mathlib

/-!
# The keys of Python types

A Python type is read back as a typed dictionary with its name. In the call form its keys are the names of
its fields; in the class form they are the names as the class mangles them, and nothing is read if a quote
of the docstring is left over, if the class has neither a docstring nor a field, or if a field bears the
name of the debug flag (`declared?_renderType`). So the keys are the names of the fields if and only if,
in the class form, none of this happens and no name is private to the class (`declaresExactly_iff`).
-/

namespace ApiClient.Dialect.Python

open Naming Template Text TypedDict

variable {t : NamedType} {description doc : Option String} {head namespaceName : String}

/-! ## Type hints -/

theorem balanced_of_isPlainName {name : String} (h : IsPlainName name) : Balanced name.toList := by
  refine balanced_of_all (List.all_eq_true.2 fun c hc => ?_)
  rcases h c hc with hname | rfl
  · rw [hname, Bool.true_or]
  · decide

theorem balanced_mapType {value : String} (h : Balanced value.toList) :
    Balanced (mapType .python value).toList := by
  have hkey : Balanced ("str, " ++ value).toList := by
    rw [String.toList_append]
    exact (balanced_of_all (by decide)).append h
  have hcut : mapType .python value = "dict" ++ "[" ++ ("str, " ++ value) ++ "]" := by
    have hfront : "dict[str, " = "dict" ++ "[" ++ "str, " := by decide
    rw [mapType, hfront]
    simp only [String.append_assoc]
  have hdict : Balanced "dict".toList := balanced_of_all (by decide)
  rw [hcut]
  exact hdict.bracket_of hkey

theorem balanced_sequenceType {item : String} (h : Balanced item.toList) :
    Balanced (sequenceType .python item).toList := by
  have hfront : Balanced "list".toList := balanced_of_all (by decide)
  have hopened : "list[" = "list" ++ "[" := by decide
  rw [sequenceType, hopened]
  exact hfront.bracket_of h

/-- A type expression closes what it opens. -/
theorem balanced_text {e : TypeExpr} (hproper : e.IsProper .python)
    (hnames : ∀ n ∈ e.names, IsPlainName n) : Balanced (e.text .python id).toList := by
  induction e with
  | plain text =>
    obtain rfl | ⟨type, format, htype⟩ := hproper
    · have hunit : unitType .python = mapType .python "Any" := by decide
      have hany : Balanced "Any".toList := balanced_of_all (by decide)
      rw [TypeExpr.text, hunit]
      exact balanced_mapType hany
    · exact balanced_of_isPlainName (isPlainName_of_mem_builtins (mem_builtins_of_scalarType htype))
  | named name => exact balanced_of_isPlainName (hnames name (List.mem_singleton_self name))
  | list item ih => exact balanced_sequenceType (ih hproper hnames)
  | table value ih => exact balanced_mapType (ih hproper hnames)

theorem isHint_typeHint {f : Field} (h : IsSpelt f.type) (hne : f.type.short ≠ "") :
    isHint (typeHint f).toList = true := by
  obtain ⟨e, hproper, hplain, hshort, -⟩ := h
  have hbalanced : Balanced f.type.short.toList := hshort ▸ balanced_text hproper hplain
  rw [typeHint]
  split
  · exact hbalanced.isHint fun hnil => hne (String.toList_injective hnil)
  · have hfront : "NotRequired[" = "NotRequired" ++ "[" := by decide
    rw [hfront]
    have hname : Balanced "NotRequired".toList := balanced_of_all (by decide)
    refine (hname.bracket_of hbalanced).isHint ?_
    simp [String.toList_append]

/-! ## Lines of fields -/

variable {cls : String} {rest : List (List Char)}

/-- A line of the class form, with its lead. -/
theorem toList_row (line : String) : ("    " ++ line).toList = [' ', ' ', ' ', ' '] ++ line.toList := by
  rw [String.toList_append]
  rfl

theorem classKeys?_comment {comment : String} (hreturn : '\r' ∉ comment.toList) :
    classKeys? cls (("    " ++ ("#" ++ comment)).toList :: rest) = classKeys? cls rest := by
  have hmark : ("#" ++ comment).toList = '#' :: comment.toList := by
    rw [String.toList_append]
    rfl
  rw [toList_row, hmark, classKeys?, if_neg (by simp), dropFront?_eq_some_iff.2 rfl]
  simp [hreturn]

theorem classKeys?_fieldComment (f : Field) :
    classKeys? cls ((fieldComment f).map (fun line => ("    " ++ line).toList) ++ rest) =
      classKeys? cls rest := by
  rw [fieldComment]
  split
  · rename_i s _
    split_ifs
    · rfl
    · have hmark : "#: " = "#" ++ ": " := by decide
      have hcolon : '\r' ∉ ": ".toList := by decide
      have hreturn : '\r' ∉ (": " ++ collapse s).toList := by
        rw [String.toList_append, List.mem_append, not_or]
        refine ⟨hcolon, fun hmem => ?_⟩
        obtain hsep | ⟨hblank, -⟩ := of_mem_collapse hmem
        · exact absurd hsep (by decide)
        · exact absurd hblank (by decide)
      rw [hmark, String.append_assoc]
      exact classKeys?_comment hreturn
  · rfl

theorem toList_annotated (name hint : String) :
    (name ++ ": " ++ hint).toList = name.toList ++ ':' :: ' ' :: hint.toList := by
  have hcolon : ": ".toList = [':', ' '] := by decide
  rw [String.toList_append, String.toList_append, hcolon, List.append_assoc]
  rfl

/-- An annotation begins with a character of its name. -/
theorem head?_annotated {name : String} (hname : isPythonIdentifier name = true) {c : Char}
    (hc : isIdentifierChar c = false) (hcolon : c ≠ ':') (hint : String) :
    (name ++ ": " ++ hint).toList.head? ≠ some c := by
  rw [toList_annotated]
  cases hchars : name.toList with
  | nil => simpa using hcolon.symm
  | cons d more =>
    intro hhead
    obtain rfl := Option.some.inj hhead
    have hchar := Literal.isIdentifierChar_of_mem_name hname d (by simp [hchars])
    rw [hc] at hchar
    cases hchar

theorem classKeys?_annotated {name hint : String} (hname : isPythonIdentifier name = true)
    (hhint : isHint hint.toList = true) :
    classKeys? cls (("    " ++ (name ++ ": " ++ hint)).toList :: rest) =
      if name = "__debug__" then none else (classKeys? cls rest).map (mangled cls name :: ·) := by
  have hcomment := head?_annotated hname (by decide : isIdentifierChar '#' = false) (by decide) hint
  rw [toList_annotated] at hcomment
  rw [toList_row, toList_annotated, classKeys?, if_neg (by simp), dropFront?_eq_some_iff.2 rfl]
  simp only [Option.bind_eq_bind, Option.bind_some, if_neg hcomment, annotated?_field hname hhint]
  split_ifs
  · rfl
  · cases classKeys? cls rest <;> rfl

theorem classKeys?_fields {fields : List Field} (hnames : ∀ f ∈ fields, isPythonIdentifier f.name = true)
    (hhints : ∀ f ∈ fields, isHint (typeHint f).toList = true) :
    classKeys? cls ((fields.flatMap fieldLines).map (fun line => ("    " ++ line).toList) ++ [[]]) =
      if ∃ f ∈ fields, f.name = "__debug__" then none
      else some (fields.map fun f => mangled cls f.name) := by
  induction fields with
  | nil => rfl
  | cons f more ih =>
    obtain ⟨hname, hnames⟩ := List.forall_mem_cons.1 hnames
    obtain ⟨hhint, hhints⟩ := List.forall_mem_cons.1 hhints
    rw [List.flatMap_cons, fieldLines, List.map_append, List.map_append, List.append_assoc,
      List.append_assoc, classKeys?_fieldComment, List.map_singleton, List.singleton_append,
      classKeys?_annotated hname hhint, ih hnames hhints]
    by_cases hdebug : f.name = "__debug__"
    · simp [hdebug]
    · by_cases hmore : ∃ f ∈ more, f.name = "__debug__"
      · simp [hmore]
      · simp [hdebug, hmore]

theorem callKeys?_entry {f : Field} (hhint : isHint (typeHint f).toList = true) :
    callKeys? (("        " ++ callLineOf f).toList :: rest) =
      (callKeys? rest).map (f.name :: ·) := by
  have hlead : ("        " ++ callLineOf f).toList =
      [' ', ' ', ' ', ' ', ' ', ' ', ' ', ' '] ++ (callLineOf f).toList := by
    rw [String.toList_append]
    rfl
  have hopen : ([' ', ' ', ' ', ' ', ' ', ' ', ' ', ' '] ++ (callLineOf f).toList) ≠
      "    \x7d,".toList := by
    intro heq
    have hfifth := congrArg (·[4]?) heq
    exact absurd hfifth (by simp)
  have hentry : entry? (callLineOf f).toList = some f.name := entry?_literals f.name hhint
  rw [hlead, callKeys?, if_neg hopen, dropFront?_eq_some_iff.2 rfl]
  simp only [Option.bind_eq_bind, Option.bind_some, hentry]
  cases callKeys? rest <;> rfl

theorem callKeys?_fields {fields : List Field} (hhints : ∀ f ∈ fields, isHint (typeHint f).toList = true) :
    callKeys? ((fields.map callLineOf).map (fun line => ("        " ++ line).toList) ++
      ["    \x7d,".toList, [')'], []]) = some (fields.map Field.name) := by
  induction fields with
  | nil => decide
  | cons f more ih =>
    obtain ⟨hhint, hhints⟩ := List.forall_mem_cons.1 hhints
    rw [List.map_cons, List.map_cons, List.cons_append, callKeys?_entry hhint, ih hhints]
    rfl

/-! ## Bodies -/

theorem linesOfBlocks_of_isClean {blocks : List String} (h : ∀ block ∈ blocks, IsClean block) :
    linesOfBlocks blocks = blocks.map String.toList := by
  rw [linesOfBlocks, List.map_eq_flatMap]
  exact List.flatMap_congr fun block hblock => splitOnChar_of_notMem (h block hblock).1

theorem linesOfBlocks_fieldBlocks (h : t.IsWritten description) (hclass : isClassForm t = true) :
    linesOfBlocks (fieldBlocks t) =
      (rows "    " (t.fields.flatMap fieldLines)).map String.toList ++ [[]] := by
  have hlead : IsClean "    " := ⟨by decide, by decide⟩
  have hrows := isClean_of_mem_rows hlead fun line hline => isClean_of_mem_fieldLines h hclass hline
  rw [fieldBlocks, linesOfBlocks_append, linesOfBlocks_of_isClean hrows]
  rfl

/-- A lead by itself is a blank line. -/
theorem classKeys?_rows (lines : List String) :
    classKeys? cls ((rows "    " lines).map String.toList ++ rest) =
      classKeys? cls (lines.map (fun line => ("    " ++ line).toList) ++ rest) := by
  cases lines with
  | nil =>
    have hblank : "    ".toList.all (· = ' ') = true := by decide
    exact if_pos hblank
  | cons line more =>
    rw [rows, List.map_map]
    · rfl
    · simp

theorem classKeys?_fieldBlocks (h : t.IsWritten description) (hclass : isClassForm t = true) :
    classKeys? t.name (linesOfBlocks (fieldBlocks t)) =
      if ∃ f ∈ t.fields, f.name = "__debug__" then none
      else some (t.fields.map fun f => mangled t.name f.name) := by
  rw [linesOfBlocks_fieldBlocks h hclass, classKeys?_rows]
  exact classKeys?_fields (List.all_eq_true.1 hclass)
    fun f hf => isHint_typeHint (h.fields_isSpelt f hf) (h.types_ne_empty f hf)

theorem head?_fieldLines (hclass : isClassForm t = true) :
    ∀ line ∈ t.fields.flatMap fieldLines, line.toList.head? ≠ some '"' := by
  intro line hline
  obtain ⟨f, hf, hmem⟩ := List.mem_flatMap.1 hline
  rcases List.mem_append.1 hmem with hcomment | hfield
  · rw [fieldComment] at hcomment
    split at hcomment
    · split_ifs at hcomment
      · cases hcomment
      · obtain rfl := List.mem_singleton.1 hcomment
        have hmark : "#: ".toList.head? = some '#' := by decide
        rw [String.toList_append, List.head?_append, hmark, Option.some_or]
        decide
    · cases hcomment
  · obtain rfl := List.mem_singleton.1 hfield
    exact head?_annotated (List.all_eq_true.1 hclass f hf) (by decide) (by decide) (typeHint f)

/-- A docstring of a class is passed over, unless a quote of it is left over. -/
theorem classBody?_docstring {s text : String} {blocks : List String} (hblocks : blocks ≠ [])
    (h : Docstring.behind? text.toList = some (if LeavesQuote s then ['"'] else [])) :
    classBody? cls (linesOfBlocks (("    " ++ text) :: blocks)) =
      if LeavesQuote s then none else classKeys? cls (linesOfBlocks blocks) := by
  have hlines : joinLines (linesOfBlocks (("    " ++ text) :: blocks)) =
      [' ', ' ', ' ', ' '] ++ (text.toList ++ '\n' :: (join "\n" blocks).toList) := by
    have hlead : "    ".toList = [' ', ' ', ' ', ' '] := by decide
    rw [joinLines_linesOfBlocks, toList_join_lines hblocks, String.toList_append, hlead, List.append_assoc]
  have hbehind := Docstring.behind?_append h ('\n' :: (join "\n" blocks).toList)
  by_cases hquote : LeavesQuote s
  · rw [if_pos hquote] at hbehind
    have hrest : splitOnChar '\n' (['"'] ++ '\n' :: (join "\n" blocks).toList) =
        ['"'] :: linesOfBlocks blocks := splitOnChar_append_join_lines (by decide) hblocks
    rw [classBody?_of_behind? hlines hbehind hrest, if_neg (by simp), if_pos hquote]
  · rw [if_neg hquote] at hbehind
    have hrest := splitOnChar_append_join_lines List.not_mem_nil hblocks
    rw [classBody?_of_behind? hlines hbehind hrest, if_pos rfl, if_neg hquote]

/-- The first line of a class without a docstring begins with no quote. -/
theorem exists_linesOfBlocks_fieldBlocks (h : t.IsWritten description) (hclass : isClassForm t = true) :
    ∃ line rest, linesOfBlocks (fieldBlocks t) = ([' ', ' ', ' ', ' '] ++ line) :: rest ∧
      line.head? ≠ some '"' := by
  have hlines := linesOfBlocks_fieldBlocks h hclass
  have hquote := head?_fieldLines hclass
  cases hfields : t.fields.flatMap fieldLines with
  | nil =>
    rw [hfields] at hlines
    exact ⟨[], _, hlines, by simp⟩
  | cons line more =>
    rw [hfields, rows, List.map_map, List.map_cons, List.cons_append, Function.comp_apply,
      toList_row] at hlines
    · exact ⟨line.toList, _, hlines, hquote line (by simp [hfields])⟩
    · simp

/-- What breaks the class form of a type. -/
def BreaksClass (t : NamedType) (description : Option String) : Prop :=
  (∃ s ∈ description, LeavesQuote s) ∨ (description = none ∧ t.fields = []) ∨
    ∃ f ∈ t.fields, f.name = "__debug__"

instance (t : NamedType) (description : Option String) : Decidable (BreaksClass t description) :=
  inferInstanceAs (Decidable (_ ∨ _ ∨ _))

theorem breaksClass_none : BreaksClass t none ↔ t.fields = [] ∨ ∃ f ∈ t.fields, f.name = "__debug__" := by
  simp [BreaksClass]

theorem breaksClass_some {s : String} :
    BreaksClass t (some s) ↔ LeavesQuote s ∨ ∃ f ∈ t.fields, f.name = "__debug__" := by
  simp [BreaksClass]

theorem classBody?_fieldBlocks (h : t.IsWritten description) (hclass : isClassForm t = true)
    (hdoc : description.mapM (docstring 4) = .ok doc) :
    classBody? t.name (linesOfBlocks ((doc.map ("    " ++ ·)).toList ++ fieldBlocks t)) =
      if BreaksClass t description then none
      else some (t.fields.map fun f => mangled t.name f.name) := by
  have hkeys := classKeys?_fieldBlocks h hclass
  cases description with
  | none =>
    -- the fields come first, and none of their lines can be taken for a docstring
    obtain rfl := Except.ok.inj hdoc
    obtain ⟨line, rest, hlines, hquote⟩ := exists_linesOfBlocks_fieldBlocks h hclass
    have hbody : classBody? t.name (linesOfBlocks (fieldBlocks t)) = _ := hlines ▸ classBody?_bare hquote
    rw [Option.map_none, Option.toList_none, List.nil_append, hbody, hkeys]
    by_cases hdebug : ∃ f ∈ t.fields, f.name = "__debug__"
    · rw [if_pos hdebug, if_pos (breaksClass_none.2 (.inr hdebug)), Option.bind_none]
    · rw [if_neg hdebug, Option.bind_some]
      simp [breaksClass_none, hdebug]
  | some s =>
    obtain ⟨text, htext, rfl⟩ := exists_of_map hdoc
    have hs : Text.allBlank s = false := by
      refine Bool.eq_false_iff.2 fun hblank => ?_
      rw [docstring_eq_error 4 hblank] at htext
      cases htext
    obtain ⟨text', htext', hbehind⟩ := behind?_docstring 4 hs
    obtain rfl := Except.ok.inj (htext.symm.trans htext')
    have hbody : classBody? t.name (linesOfBlocks (("    " ++ text) :: fieldBlocks t)) = _ :=
      classBody?_docstring (by simp [fieldBlocks]) hbehind
    rw [Option.map_some, Option.toList_some, List.singleton_append, hbody, hkeys]
    by_cases hquote : LeavesQuote s
    · rw [if_pos hquote, if_pos (breaksClass_some.2 (.inl hquote))]
    · rw [if_neg hquote]
      simp [breaksClass_some, hquote]

/-! ## Modules -/

/-- Behind its docstring a module is read line by line. -/
theorem declared?_join {blocks : List String} (hblocks : blocks ≠ [])
    (hhead : Docstring.behind? head.toList = some []) :
    declared? (join "\n" (head :: blocks)) = statements? (linesOfBlocks blocks) := by
  have hrest := splitOnChar_append_join_lines List.not_mem_nil hblocks
  rw [declared?, toList_join_lines hblocks, Docstring.behind?_append hhead]
  simp only [Option.bind_eq_bind, Option.bind_some, hrest]

theorem isPreamble_typingLine (t : NamedType) :
    isPreamble ("from typing import " ++ join ", " (typing t)).toList = true := by
  have hchars : ∀ c ∈ (join ", " (typing t)).toList, isImportChar c = true := fun c hc => by
    obtain hsep | ⟨name, hname, hc⟩ := mem_join hc
    · have hall : ", ".toList.all isImportChar = true := by decide
      exact List.all_eq_true.1 hall c hsep
    · rw [isImportChar, List.all_eq_true.1 (all_isWordChar_of_mem_typing hname) c hc, Bool.true_or]
  have hfront : "from typing import ".toList.all isImportChar = true := by decide
  have hcut : ("from typing import " ++ join ", " (typing t)).toList =
      ['f', 'r', 'o', 'm', ' '] ++ ("typing import ".toList ++ (join ", " (typing t)).toList) := by
    rw [String.toList_append]
    rfl
  have hall : ("from typing import " ++ join ", " (typing t)).toList.all isImportChar = true := by
    rw [String.toList_append, List.all_append, hfront, List.all_eq_true.2 hchars]
    rfl
  rw [isPreamble, hall, hcut]
  rfl

theorem isPreamble_importOf {name : String} (h : IsPlainName name) :
    isPreamble (importOf name).toList = true := by
  have hname : name.toList.all isImportChar = true := List.all_eq_true.2 fun c hc => by
    rw [isImportChar, (h c hc).isWordChar, Bool.true_or]
  have hfront : "    from .".toList.all isImportChar = true := by decide
  have himport : " import ".toList.all isImportChar = true := by decide
  have hcut : (importOf name).toList = [' ', ' ', ' ', ' '] ++ (['f', 'r', 'o', 'm', ' '] ++
      (".".toList ++ (name.toList ++ (" import ".toList ++ name.toList)))) := by
    simp only [importOf, String.toList_append, List.append_assoc]
    rfl
  have hall : (importOf name).toList.all isImportChar = true := by
    simp only [importOf, String.toList_append, List.all_append, hfront, hname, himport, Bool.and_self]
  rw [isPreamble, hall, hcut]
  rfl

theorem isPreamble_importLines (h : ∀ n ∈ t.references, IsPlainName n) :
    ∀ line ∈ linesOfBlocks (importLines t), isPreamble line = true := by
  rw [linesOfBlocks_of_isClean (isClean_of_mem_importLines h), List.forall_mem_map, importLines]
  simp only [List.forall_mem_append, List.forall_mem_cons]
  refine ⟨⟨by decide, by decide, by decide, isPreamble_typingLine t, List.forall_mem_nil _⟩, ?_⟩
  split
  · exact List.forall_mem_nil _
  · simp only [List.forall_mem_cons, List.forall_mem_map]
    exact ⟨by decide, by decide, fun n hn => isPreamble_importOf (h n hn)⟩

theorem declared?_classBlocks (h : t.IsWritten description) (hclass : isClassForm t = true)
    (hhead : Docstring.behind? head.toList = some []) (hdoc : description.mapM (docstring 4) = .ok doc) :
    declared? (join "\n" (classBlocks t head doc)) =
      if BreaksClass t description then none
      else some (t.name, t.fields.map fun f => mangled t.name f.name) := by
  have himports := isPreamble_importLines (isPlainName_of_mem_references h.fields_isSpelt)
  have hheader : linesOfBlocks ["", "", "class " ++ t.name ++ "(TypedDict):"] =
      [[], []] ++ [("class " ++ t.name ++ "(TypedDict):").toList] :=
    linesOfBlocks_of_isClean (by
      simp only [List.forall_mem_cons]
      exact ⟨⟨by decide, by decide⟩, ⟨by decide, by decide⟩, isClean_classHeader h,
        List.forall_mem_nil _⟩)
  have hblank : ∀ line ∈ [[], ([] : List Char)], isPreamble line = true := by decide
  rw [classBlocks, declared?_join (by simp [importLines]) hhead, linesOfBlocks_append,
    statements?_append himports, linesOfBlocks_append, hheader, List.append_assoc,
    statements?_append hblank, List.singleton_append, statements?_class h.name_isIdentifier,
    classBody?_fieldBlocks h hclass hdoc]
  split_ifs <;> rfl

theorem callBody?_opening (rest : List (List Char)) :
    callBody? cls (("    \"" ++ cls ++ "\",").toList :: "    \x7b".toList :: rest) = callKeys? rest := by
  rw [callBody?, if_pos (by simp)]

theorem declared?_callBlocks (h : t.IsWritten description) (hcall : isClassForm t = false)
    (hhead : Docstring.behind? head.toList = some []) :
    declared? (join "\n" (callBlocks t head)) = some (t.name, t.fields.map Field.name) := by
  have himports := isPreamble_importLines (isPlainName_of_mem_references h.fields_isSpelt)
  have hheader : linesOfBlocks
      ["", t.name ++ " = TypedDict(", "    \"" ++ t.name ++ "\",", "    \x7b"] =
        [[]] ++ [(t.name ++ " = TypedDict(").toList, ("    \"" ++ t.name ++ "\",").toList,
          "    \x7b".toList] :=
    linesOfBlocks_of_isClean (by
      simp only [List.forall_mem_cons]
      exact ⟨⟨by decide, by decide⟩, isClean_callHeader h, isClean_callTitle h, ⟨by decide, by decide⟩,
        List.forall_mem_nil _⟩)
  have hblank : ∀ line ∈ [([] : List Char)], isPreamble line = true := by decide
  obtain ⟨f, more, hfields⟩ := List.exists_cons_of_ne_nil fun hnil : t.fields = [] => by
    rw [isClassForm, hnil] at hcall
    cases hcall
  have hrows : rows "        " (t.fields.map callLineOf) =
      (t.fields.map callLineOf).map ("        " ++ ·) := by
    rw [hfields]
    rfl
  have hlines : linesOfBlocks (rows "        " (t.fields.map callLineOf) ++ ["    \x7d,", ")", ""]) =
      (t.fields.map callLineOf).map (fun line => ("        " ++ line).toList) ++
        ["    \x7d,".toList, [')'], []] := by
    have hlead : IsClean "        " := ⟨by decide, by decide⟩
    have hclean : ∀ row ∈ rows "        " (t.fields.map callLineOf), IsClean row :=
      isClean_of_mem_rows hlead (List.forall_mem_map.2 fun f _ => isClean_callLineOf f)
    rw [linesOfBlocks_append, linesOfBlocks_of_isClean hclean, hrows, List.map_map]
    rfl
  have hhints : ∀ f ∈ t.fields, isHint (typeHint f).toList = true := fun f hf =>
    isHint_typeHint (h.fields_isSpelt f hf) (h.types_ne_empty f hf)
  rw [callBlocks, declared?_join (by simp [importLines]) hhead, linesOfBlocks_append,
    statements?_append himports, linesOfBlocks_append, hheader, List.append_assoc,
    statements?_append hblank, hlines, List.cons_append, List.cons_append, List.singleton_append,
    statements?_call h.name_isIdentifier, callBody?_opening, callKeys?_fields hhints]
  rfl

/-- The docstring of a module ends at the quotes behind it. -/
theorem exists_head (t : NamedType) (namespaceName : String) :
    ∃ head, docstring 0 (moduleDoc t namespaceName) = .ok head ∧
      Docstring.behind? head.toList = some [] := by
  have hblank : Text.allBlank (moduleDoc t namespaceName) = false := allBlank_moduleDoc t namespaceName
  have hlast : (moduleDoc t namespaceName).toList.getLast? = some '.' := by
    have hend : " client.".toList.getLast? = some '.' := by decide
    rw [moduleDoc, String.toList_append, List.getLast?_append, hend, Option.some_or]
  have hquote : ¬LeavesQuote (moduleDoc t namespaceName) := not_leavesQuote hlast (by decide) (by decide)
  obtain ⟨head, hhead, hbehind⟩ := behind?_docstring 0 hblank
  rw [if_neg hquote] at hbehind
  exact ⟨head, hhead, hbehind⟩

/-! ## Keys -/

/-- The keys that the module of a type declares. -/
def keys (t : NamedType) : List String :=
  t.fields.map fun f => if isClassForm t then mangled t.name f.name else f.name

/-- A text declares a type with exactly the names of its fields as keys. -/
def DeclaresNames (text : String) (t : NamedType) : Prop :=
  ∃ keys, declared? text = some (t.name, keys) ∧ ∀ key, key ∈ keys ↔ key ∈ t.fields.map Field.name

theorem exists_declared (h : t.IsWritten description) (hnamespace : Unmarked namespaceName.toList)
    (hblank : ¬(isClassForm t = true ∧ IsBlankText description)) :
    ∃ text, t.render python namespaceName = .ok text ∧ declared? text =
      if isClassForm t = true ∧ BreaksClass t description then none else some (t.name, keys t) := by
  obtain ⟨head, hhead, hbehind⟩ := exists_head t namespaceName
  cases hform : isClassForm t with
  | true =>
    obtain ⟨doc, hdoc⟩ := exists_of_not_isBlankText fun htext => hblank ⟨hform, htext⟩
    refine ⟨_, renderType_of_classBlocks h hform hnamespace hhead hdoc, ?_⟩
    rw [declared?_classBlocks h hform hbehind hdoc]
    simp [keys, hform]
  | false =>
    refine ⟨_, renderType_of_callBlocks h hform hnamespace hhead, ?_⟩
    rw [declared?_callBlocks h hform hbehind]
    simp [keys, hform]

/-- The module of a Python type is not written in the class form for a blank description. If it is written,
it is read back as a typed dictionary with the name of the type and its keys, unless the class is broken;
so its keys are the names of the fields if and only if it is written in the call form, or the class is not
broken and keeps the name of every field. -/
theorem renderType_declares (h : t.IsWritten description) (hnamespace : Unmarked namespaceName.toList) :
    (isClassForm t = true ∧ IsBlankText description →
      t.render python namespaceName = .error (.format .empty)) ∧
    (¬(isClassForm t = true ∧ IsBlankText description) →
      ∃ text, t.render python namespaceName = .ok text ∧
        (declared? text =
          if isClassForm t = true ∧ BreaksClass t description then none else some (t.name, keys t)) ∧
        (DeclaresNames text t ↔ (isClassForm t = true →
          ¬BreaksClass t description ∧ ∀ f ∈ t.fields, TypedDict.IsKept t.name f.name))) := by
  refine ⟨fun hblank => ?_, fun hblank => ?_⟩
  · rw [renderType_of_class h.toIsTyped hblank.1]
    exact build_typeClassPieces_eq_error h.toIsTyped hblank.2 _ _
  · obtain ⟨text, htext, hdeclared⟩ := exists_declared h hnamespace hblank
    refine ⟨text, htext, hdeclared, ?_⟩
    have hkept := forall_mem_map_mangled_iff t.name (t.fields.map Field.name)
    rw [List.map_map, List.forall_mem_map] at hkept
    rw [DeclaresNames, hdeclared]
    cases hform : isClassForm t with
    | false =>
      have hkeys : keys t = t.fields.map Field.name := by simp [keys, hform]
      simp [hkeys]
    | true =>
      have hkeys : keys t = t.fields.map (mangled t.name ∘ Field.name) := by
        simp [keys, hform, Function.comp_def]
      by_cases hbreaks : BreaksClass t description
      · simp [hbreaks]
      · simp only [hbreaks, and_false, if_false, not_false_eq_true, true_and, forall_const,
          Option.some.injEq, Prod.mk.injEq, exists_eq_left', hkeys]
        exact hkept

theorem isWritten_page (h : description ≠ some "") (hdescription : ∀ s ∈ description, Unmarked s.toList)
    (names : List String) : (page description names).IsWritten description where
  toIsTyped := isTyped_page h names
  name_isIdentifier := by
    have hname : isPythonIdentifier "Page" = true := by decide +kernel
    exact hname
  fields_isSpelt := List.forall_mem_map.2 fun _ _ =>
    ⟨.plain "int", .inr ⟨"integer", .null, by decide⟩, List.forall_mem_nil _, rfl, rfl⟩
  description_unmarked := hdescription
  types_ne_empty := List.forall_mem_map.2 fun _ _ => (by decide : "int" ≠ "")
  comments_unmarked := List.forall_mem_map.2 fun _ _ _ hs => by cases hs

/-- Names that are no identifiers bring the call form about, which keeps a private name; a class keeps a
name with underscores on both sides. -/
theorem renderType_declares_page :
    ((page none ["a-b", "__v"]).IsWritten none ∧ (page (some "Pages.") ["__id__"]).IsWritten (some "Pages.") ∧
      Unmarked "shop".toList) ∧
    (∃ text, (page none ["a-b", "__v"]).render python "shop" = .ok text ∧
      DeclaresNames text (page none ["a-b", "__v"])) ∧
    ∃ text, (page (some "Pages.") ["__id__"]).render python "shop" = .ok text ∧
      DeclaresNames text (page (some "Pages.") ["__id__"]) := by
  have hcall := isWritten_page (by decide : none ≠ some "") (by simp) ["a-b", "__v"]
  have hclass := isWritten_page (by decide : some "Pages." ≠ some "") (by decide) ["__id__"]
  have hshop : Unmarked "shop".toList := by decide
  have hcallForm : isClassForm (page none ["a-b", "__v"]) = false := by decide +kernel
  have hclassForm : isClassForm (page (some "Pages.") ["__id__"]) = true := by decide +kernel
  have hdescription : ¬IsBlankText (some "Pages.") := by
    rintro ⟨s, hs, hblank⟩
    obtain rfl := Option.some.inj hs
    exact absurd hblank (by decide)
  have hbreaks : ¬BreaksClass (page (some "Pages.") ["__id__"]) (some "Pages.") := by
    have hlast : "Pages.".toList.getLast? = some '.' := by decide
    rw [breaksClass_some, not_or]
    exact ⟨not_leavesQuote hlast (by decide) (by decide), by simp [page]⟩
  have hkept : ∀ f ∈ (page (some "Pages.") ["__id__"]).fields, TypedDict.IsKept "Page" f.name :=
    List.forall_mem_singleton.2 (.inl (by decide))
  obtain ⟨text, htext, -, hdeclares⟩ :=
    (renderType_declares hcall hshop).2 fun hform => by simp [hcallForm] at hform
  obtain ⟨text', htext', -, hdeclares'⟩ :=
    (renderType_declares hclass hshop).2 fun hform => hdescription hform.2
  refine ⟨⟨hcall, hclass, hshop⟩, ⟨text, htext, hdeclares.2 fun hform => ?_⟩,
    text', htext', hdeclares'.2 fun _ => ⟨hbreaks, hkept⟩⟩
  rw [hcallForm] at hform
  cases hform

/-- In a class a private name becomes another key, and a field with the name of the debug flag leaves no
type to be read. -/
theorem renderType_mangles_page :
    (∃ text, (page none ["__v"]).render python "shop" = .ok text ∧
      declared? text = some ("Page", ["_Page__v"])) ∧
    ∃ text, (page none ["__debug__"]).render python "shop" = .ok text ∧ declared? text = none := by
  have hshop : Unmarked "shop".toList := by decide
  have hblank : ¬IsBlankText none := by simp [IsBlankText]
  have hwritten := isWritten_page (by decide : none ≠ some "") (by simp)
  obtain ⟨text, htext, hdeclared⟩ := exists_declared (hwritten ["__v"]) hshop fun hform => hblank hform.2
  obtain ⟨text', htext', hdeclared'⟩ :=
    exists_declared (hwritten ["__debug__"]) hshop fun hform => hblank hform.2
  refine ⟨⟨text, htext, ?_⟩, text', htext', ?_⟩
  · have hkeys : keys (page none ["__v"]) = ["_Page__v"] := by decide +kernel
    rw [hdeclared, if_neg (by decide +kernel), hkeys]
    rfl
  · rw [hdeclared', if_pos (by decide +kernel)]

end ApiClient.Dialect.Python
