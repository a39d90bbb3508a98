import ApiClient.Proofs.Dialect.BlockComment
import ApiClient.Proofs.Dialect.Docstring
import ApiClient.Proofs.Dialect.RootTemplate
import Mathlib

/-!
# The layout of root files

A root with the texts of a document, whose other values have their types (`Root.Says`), is written in
either dialect, whatever else it holds. The file is laid out around the texts: the title and the version
stand in a comment as they are, and a description as the dialect formats it, on lines that are missing if
there is none (`Python.exists_layout`, `Kotlin.exists_layout`). The Python class repeats the title.
-/

namespace ApiClient

/-- A root with these texts, whose other values are of the types that a client is generated with. -/
structure Root.Says (r : Root) (title version : String) (description : Option String) : Prop where
  title_eq : r.title = .str title
  version_eq : r.version = .str version
  description_eq : r.description = Dialect.orNull description
  namespace_eq : ∃ s, r.namespaceName = .str s
  servers_eq : ∃ urls : List String, r.servers = .arr (urls.map .str)
  functions_eq : ∃ xs : List String, r.scope.functions = .arr (xs.map .str)
  children_eq : ∃ xs : List String, r.scope.children = .arr (xs.map .str)
  hasTypes_eq : ∃ b, r.hasTypes = .bool b

namespace Dialect

open Template

variable {r : Root} {title version : String} {description : Option String}

theorem exists_baseUrl (h : r.Says title version description) :
    ∃ url, r.baseUrl = .ok (.str url) := by
  obtain ⟨urls, hurls⟩ := h.servers_eq
  rw [Root.baseUrl, hurls]
  cases urls with
  | nil => exact ⟨_, rfl⟩
  | cons url rest => exact ⟨url, rfl⟩

/-! ## Layout -/

/-- The line of a description behind another line, if there is a description. -/
def descriptionTail (lead : List Char) (format : String → String) : Option String → List Char
  | none => []
  | some s => '\n' :: (lead ++ (format s).toList)

/-- The line of a description is gone with the description, or stays as it is. -/
theorem keptText_described {head lead : List Char} (hhead : Unmarked head) (hlead : Unmarked lead)
    (hline : '\n' ∉ lead) {format : String → String}
    (h : ∀ s ∈ description, Unmarked (format s).toList) :
    keptText (head ++ '\n' :: (lead ++ described format description)) =
      head ++ descriptionTail lead format description ++ ['\n'] := by
  rw [keptText_append_cons, keptText_of_unmarked hhead]
  cases description with
  | none =>
    have hmarked : keptText (lead ++ described format none) = [] := by
      refine keptText_of_marked ?_ (List.suffix_append lead dropMarker).isInfix
      rw [described, List.mem_append]
      exact not_or.2 ⟨hline, by decide⟩
    rw [hmarked, descriptionTail, List.append_nil, List.append_nil]
  | some s =>
    rw [described, keptText_of_unmarked (unmarked_append.2 ⟨hlead, h s rfl⟩), descriptionTail]
    simp

namespace Python

/-- The text of the docstring at the head of a root file, up to the last line feed. -/
def rootDoc (title version : String) (description : Option String) : List Char :=
  '\n' :: title.toList ++ ' ' :: version.toList ++ '\n' :: descriptionTail [] headDoc description

/-- The docstring at the head of a root file. -/
def rootDocstring (title version : String) (description : Option String) : List Char :=
  Docstring.quotes ++ (rootDoc title version description ++ '\n' :: Docstring.quotes)

/-- What stands in front of the title in the docstring of the class with the operations. -/
def classFront : String :=
  "Entry point of the"

/-- What stands behind the title there, up to the last full stop. -/
def classBack : String :=
  "client; nested classes mirror the URL tree"

/-- The text of the docstring of the class with the operations, up to the last full stop. -/
def classDoc (title : String) : List Char :=
  classFront.toList ++ ' ' :: title.toList ++ ' ' :: classBack.toList

/-- The docstring of the class with the operations. -/
def classDocstring (title : String) : List Char :=
  Docstring.quotes ++ (classDoc title ++ '.' :: Docstring.quotes)

theorem unmarked_rootImports : Unmarked rootImports.toList := by
  rw [← Text.chars_eq]
  decide +kernel

theorem unmarked_rootSetup : Unmarked rootSetup.toList := by
  rw [← Text.chars_eq]
  decide +kernel

theorem supplies_values (h : r.Says title version description) (url : String) :
    Supplies ([("title", r.title), ("version", r.version), ("description", r.description),
      ("namespace", r.namespaceName), ("base_url", .str url), ("has_schemas", r.hasTypes),
      ("functions", r.scope.functions), ("children", r.scope.children)] ++ r.scope.conditions)
      title version description where
  title_eq := congrArg some h.title_eq
  version_eq := congrArg some h.version_eq
  description_eq := congrArg some h.description_eq
  namespace_eq := h.namespace_eq.imp fun _ hs => congrArg some hs
  base_url_eq := ⟨url, rfl⟩
  functions_eq := h.functions_eq.imp fun _ hs => congrArg some hs
  children_eq := h.children_eq.imp fun _ hs => congrArg some hs
  is_endpoint_eq := ⟨_, rfl⟩
  space_eq := ⟨_, rfl⟩
  has_children_eq := ⟨_, rfl⟩

theorem flatten_rootText (title version : String)
    (description types url functions space children : List Char) :
    (rootText title version description types url functions space children).flatten =
      (Docstring.quotes ++ '\n' :: title.toList ++ ' ' :: version.toList ++ ['\n'] ++
        '\n' :: ([] ++ description)) ++ '\n' :: (Docstring.quotes ++ '\n' :: (rootImports.toList ++
        '\n' :: ((types ++ '\n' :: "BASE_URL = ".toList ++ url) ++ '\n' :: (rootSetup.toList ++
        '\n' :: ("    ".toList ++ classDocstring title ++ '\n' :: ('\n' :: "    ".toList ++ functions ++
        '\n' :: space ++ '\n' :: "    ".toList ++ children)))))) ++ ['\n'] := by
  have hopen : "\"\"\"\n".toList = Docstring.quotes ++ ['\n'] := String.toList_ofList
  have hclose : "\n\"\"\"\n".toList = '\n' :: Docstring.quotes ++ ['\n'] := String.toList_ofList
  have hspace : " ".toList = [' '] := String.toList_ofList
  have hbreak : "\n".toList = ['\n'] := String.toList_ofList
  have htwo : "\n\n".toList = ['\n', '\n'] := String.toList_ofList
  have hindent : "\n    ".toList = '\n' :: "    ".toList := by simp
  have hurl : "\nBASE_URL = ".toList = '\n' :: "BASE_URL = ".toList := by simp
  have hfront : "\n    \"\"\"Entry point of the ".toList =
      '\n' :: "    ".toList ++ Docstring.quotes ++ classFront.toList ++ [' '] := by
    simp [Docstring.quotes, classFront]
  have hback : " client; nested classes mirror the URL tree.\"\"\"\n\n    ".toList =
      ' ' :: classBack.toList ++ '.' :: Docstring.quotes ++
        '\n' :: '\n' :: "    ".toList := by
    simp [Docstring.quotes, classBack]
  rw [rootText, classDocstring, classDoc]
  -- definitional steps would have the kernel compare the texts themselves
  simp -implicitDefEqProofs only [String.toList_append, hopen, hclose, hspace, hbreak, htwo, hindent,
    hurl, hfront, hback, List.flatten_cons, List.flatten_nil, List.append_assoc, List.cons_append,
    List.nil_append, List.append_nil]

/-- A root file: its docstring, the imports, what depends on the settings, and the class. -/
def rootLayout (title version : String) (description : Option String) (settings members : List Char) :
    List Char :=
  rootDocstring title version description ++ '\n' :: rootImports.toList ++ '\n' :: (settings ++
    rootSetup.toList ++ '\n' :: "    ".toList ++ classDocstring title ++ '\n' :: members)

/-- The pieces of a root file are laid out so without the lines that are to go. -/
theorem exists_finish_rootText (htitle : Unmarked title.toList) (hversion : Unmarked version.toList)
    (hdescription : ∀ s ∈ description, Unmarked (headDoc s).toList)
    (types url functions space children : List Char) : ∃ settings members,
      finish 0 (rootText title version (described headDoc description) types url functions space
        children).flatten = rootLayout title version description settings members := by
  have hquotes : Unmarked Docstring.quotes := by decide
  have hhead : Unmarked (Docstring.quotes ++
      '\n' :: title.toList ++ ' ' :: version.toList ++ ['\n']) := by
    simp only [unmarked_append, unmarked_cons]
    exact ⟨⟨⟨hquotes, by decide, htitle⟩, by decide, hversion⟩, by decide⟩
  have hclass : Unmarked ("    ".toList ++ classDocstring title) := by
    simp only [classDocstring, classDoc, unmarked_append, unmarked_cons]
    exact ⟨by decide, hquotes, ⟨⟨by decide +kernel, by decide, htitle⟩, by decide, by decide +kernel⟩,
      by decide, hquotes⟩
  refine ⟨keptText (types ++ '\n' :: "BASE_URL = ".toList ++ url),
    keptText ('\n' :: "    ".toList ++ functions ++ '\n' :: space ++ '\n' :: "    ".toList ++ children),
    ?_⟩
  rw [flatten_rootText, finish_append_newline, keptText_append_cons,
    keptText_described hhead List.not_mem_nil List.not_mem_nil hdescription,
    keptText_append_cons Docstring.quotes, keptText_of_unmarked hquotes,
    keptText_append_cons rootImports.toList, keptText_of_unmarked unmarked_rootImports,
    keptText_append_cons (types ++ '\n' :: "BASE_URL = ".toList ++ url),
    keptText_append_cons rootSetup.toList, keptText_of_unmarked unmarked_rootSetup,
    keptText_append_cons ("    ".toList ++ classDocstring title), keptText_of_unmarked hclass]
  simp only [rootLayout, rootDocstring, rootDoc, List.append_assoc, List.cons_append, List.nil_append]

/-- A root file with these texts is laid out so. -/
theorem exists_layout (h : r.Says title version description) (htitle : Unmarked title.toList)
    (hversion : Unmarked version.toList)
    (hdescription : ∀ s ∈ description, Unmarked (headDoc s).toList) :
    ∃ settings members, renderRoot r =
      .ok (String.ofList (rootLayout title version description settings members)) := by
  obtain ⟨url, hurl⟩ := exists_baseUrl h
  obtain ⟨hasTypes, htypes⟩ := h.hasTypes_eq
  obtain ⟨types, base, functions, space, children, hfill⟩ :=
    exists_fill_rootPieces (supplies_values h url) (congrArg some htypes)
  obtain ⟨settings, members, hfinish⟩ :=
    exists_finish_rootText htitle hversion hdescription types base functions space children
  rw [hfinish] at hfill
  refine ⟨settings, members, ?_⟩
  rw [renderRoot, hurl, rootTemplate_eq]
  exact congrArg (Except.map String.ofList) hfill

end Python

namespace Kotlin

/-- What stands in front of the description in the comment of a root file. -/
def lead : List Char :=
  [' ', '*', ' ']

/-- The text of the comment of a root file, up to the last blank. -/
def rootDoc (title version : String) (description : Option String) : List Char :=
  '*' :: '\n' :: lead ++ title.toList ++ ' ' :: version.toList ++
    descriptionTail lead headComment description ++ ['\n']

/-- The comment of a root file. -/
def rootComment (title version : String) (description : Option String) : List Char :=
  BlockComment.opener ++ (rootDoc title version description ++ ' ' :: BlockComment.closer)

theorem unmarked_rootImports : Unmarked rootImports.toList := by
  rw [← Text.chars_eq]
  decide +kernel

theorem supplies_values (h : r.Says title version description) (url : String) :
    Supplies ([("namespace", r.namespaceName), ("title", r.title), ("version", r.version),
      ("description", r.description), ("base_url", .str url), ("functions", r.scope.functions),
      ("children", r.scope.children)] ++ r.scope.conditions) title version description where
  title_eq := congrArg some h.title_eq
  version_eq := congrArg some h.version_eq
  description_eq := congrArg some h.description_eq
  namespace_eq := h.namespace_eq.imp fun _ hs => congrArg some hs
  base_url_eq := ⟨url, rfl⟩
  functions_eq := h.functions_eq.imp fun _ hs => congrArg some hs
  children_eq := h.children_eq.imp fun _ hs => congrArg some hs
  is_endpoint_eq := ⟨_, rfl⟩
  space_eq := ⟨_, rfl⟩
  has_children_eq := ⟨_, rfl⟩

/-- What stands between the comment and the address of the server. -/
def objectHead : String :=
  "object API \x7b\n    const val BASE_URL: String = "

/-- The lines behind the comment, up to the last line feed. -/
def afterComment (url functions space children : List Char) : List Char :=
  objectHead.toList ++ url ++ '\n' :: rootSetup.toList ++
    '\n' :: "    ".toList ++ functions ++ '\n' :: space ++ '\n' :: "    ".toList ++ children ++
    ['\n', '\x7d']

theorem flatten_rootText (package : List Char) (title version : String)
    (description url functions space children : List Char) :
    (rootText package title version description url functions space children).flatten =
      ("package ".toList ++ package) ++ '\n' :: (rootImports.toList ++ '\n' ::
        ((BlockComment.opener ++ '*' :: '\n' :: lead ++ title.toList ++ ' ' :: version.toList ++
          '\n' :: (lead ++ description)) ++ '\n' :: (' ' :: BlockComment.closer ++
        '\n' :: afterComment url functions space children))) ++ ['\n'] := by
  have hspace : " ".toList = [' '] := String.toList_ofList
  have hbreak : "\n".toList = ['\n'] := String.toList_ofList
  have hindent : "\n    ".toList = '\n' :: "    ".toList := by simp
  have hlead : "\n * ".toList = '\n' :: lead := String.toList_ofList
  have hopen : "\n/**\n * ".toList = '\n' :: BlockComment.opener ++ '*' :: '\n' :: lead :=
    String.toList_ofList
  have hclose : "\n */\nobject API \x7b\n    const val BASE_URL: String = ".toList =
      '\n' :: ' ' :: BlockComment.closer ++ '\n' :: objectHead.toList := by
    simp [BlockComment.closer, objectHead]
  have hlast : "\n\x7d\n".toList = ['\n', '\x7d', '\n'] := String.toList_ofList
  rw [rootText, afterComment]
  -- definitional steps would have the kernel compare the texts themselves
  simp -implicitDefEqProofs only [String.toList_append, hspace, hbreak, hindent, hlead, hopen, hclose,
    hlast, List.flatten_cons, List.flatten_nil, List.append_assoc, List.cons_append, List.nil_append,
    List.append_nil]

/-- A root file: its package, the imports, its comment, and the object. -/
def rootLayout (title version : String) (description : Option String) (package members : List Char) :
    List Char :=
  package ++ rootImports.toList ++ '\n' :: rootComment title version description ++ '\n' :: members

/-- The pieces of a root file are laid out so without the lines that are to go. -/
theorem exists_finish_rootText (htitle : Unmarked title.toList) (hversion : Unmarked version.toList)
    (hdescription : ∀ s ∈ description, Unmarked (headComment s).toList)
    (package url functions space children : List Char) : ∃ front members,
      finish 0 (rootText package title version (described headComment description) url functions space
        children).flatten = rootLayout title version description front members := by
  have hlead : Unmarked lead := by decide
  have hhead : Unmarked (BlockComment.opener ++ '*' :: '\n' :: lead ++ title.toList ++
      ' ' :: version.toList) := by
    simp only [unmarked_append, unmarked_cons]
    exact ⟨⟨⟨by decide, by decide, by decide, hlead⟩, htitle⟩, by decide, hversion⟩
  have hclose : Unmarked (' ' :: BlockComment.closer) := by decide
  refine ⟨keptText ("package ".toList ++ package),
    keptText (afterComment url functions space children), ?_⟩
  rw [flatten_rootText, finish_append_newline, keptText_append_cons,
    keptText_append_cons rootImports.toList, keptText_of_unmarked unmarked_rootImports,
    keptText_append_cons (_ ++ '\n' :: (lead ++ _)),
    keptText_described hhead hlead (by decide) hdescription,
    keptText_append_cons (' ' :: BlockComment.closer), keptText_of_unmarked hclose]
  simp only [rootLayout, rootComment, rootDoc, List.append_assoc, List.cons_append, List.nil_append]

/-- A root file with these texts is laid out so. -/
theorem exists_layout (h : r.Says title version description) (htitle : Unmarked title.toList)
    (hversion : Unmarked version.toList)
    (hdescription : ∀ s ∈ description, Unmarked (headComment s).toList) :
    ∃ package members, renderRoot r =
      .ok (String.ofList (rootLayout title version description package members)) := by
  obtain ⟨url, hurl⟩ := exists_baseUrl h
  obtain ⟨name, base, functions, space, children, hfill⟩ :=
    exists_fill_rootPieces (supplies_values h url)
  obtain ⟨package, members, hfinish⟩ :=
    exists_finish_rootText htitle hversion hdescription name base functions space children
  rw [hfinish] at hfill
  refine ⟨package, members, ?_⟩
  rw [renderRoot, hurl, rootTemplate_eq]
  exact congrArg (Except.map String.ofList) hfill

end Kotlin

end Dialect

end ApiClient
