import ApiClient.Proofs.Dialect.BlockComment
import ApiClient.Proofs.Dialect.ScopeTemplate
import ApiClient.Proofs.Template.Building
import ApiClient.Proofs.Template.Indenting
import Mathlib

/-!
# The layout of scopes

A scope whose members are blocks is laid out block by block (`scopeBlocks`): its head with the comment,
its callables, an empty line where scopes follow callables, and the scopes below it
(`renderScope_eq_layout`). Every member is moved by four blanks, and what is written is a block again, so a
callable inside several scopes is moved by four blanks for each of them (`Within.hasBlock`).
-/

namespace ApiClient

/-- A scope with these texts, all without the character of a marker, whose members are blocks. -/
structure Scope.Lists (s : Scope) (name : String) (url : Option String)
    (functions children : List String) : Prop extends s.Says name url functions children where
  name_unmarked : Template.Unmarked name.toList
  url_unmarked : ∀ u ∈ url, Template.Unmarked u.toList
  functions_isBlock : ∀ text ∈ functions, Template.IsBlock text
  children_isBlock : ∀ text ∈ children, Template.IsBlock text

namespace Dialect

open Template

/-! ## Blocks -/

/-- The block of the members of one kind, if there are any. -/
def memberBlock (texts : List String) : List String :=
  if texts.isEmpty then [] else [Text.join "\n\n" (texts.map (moved 4))]

/-- The blocks of the members of a scope. -/
def memberBlocks (functions children : List String) : List String :=
  memberBlock functions ++ (if !functions.isEmpty && !children.isEmpty then [""] else []) ++
    memberBlock children

/-- The blocks of a scope. -/
def scopeBlocks (d : Dialect) (name : String) (doc : Option String) (functions children : List String) :
    List String :=
  match d with
  | python => ("class " ++ name ++ ":") :: (doc.map ("    " ++ ·)).toList ++
      memberBlocks functions children ++
      (if functions.isEmpty && children.isEmpty then ["    pass"] else [])
  | kotlin => doc.toList ++ ("object " ++ name ++ " \x7b") :: memberBlocks functions children ++ ["\x7d"]

/-- A scope, laid out. -/
def scopeLayout (d : Dialect) (name : String) (doc : Option String) (functions children : List String) :
    String :=
  Text.join "\n" (scopeBlocks d name doc functions children)

/-! ## Lines that are kept -/

theorem keptLines_members {texts : List String} (h : ∀ text ∈ texts, IsBlock text) :
    keptLines ("    ".toList ++ held (!texts.isEmpty) (finish 4 (Text.join "\n\n" texts).toList)) =
      linesOfBlocks (memberBlock texts) := by
  have hindent : "    ".toList = List.replicate 4 ' ' := by simp [List.replicate]
  by_cases hempty : texts = []
  · subst hempty
    exact keptLines_dropMarker (by decide)
  · have hblock := isBlock_join hempty h
    have hfilled := hblock.replicate_append_finish 4
    rw [moved_join, ← hindent] at hfilled
    have hunmarked : Unmarked (Text.join "\n\n" (texts.map (moved 4))).toList := by
      rw [← moved_join]
      exact unmarked_moved hblock.unmarked 4
    have hnot : texts.isEmpty = false := by simpa using hempty
    have hheld := keptLines_held (by decide) hfilled hunmarked (!texts.isEmpty)
    rw [hnot] at hheld ⊢
    rw [memberBlock, hnot]
    exact hheld

variable {s : Scope} {name : String} {url doc : Option String} {functions children : List String}

theorem keptLines_memberText (hfunctions : ∀ text ∈ functions, IsBlock text)
    (hchildren : ∀ text ∈ children, IsBlock text) :
    keptLines ("    ".toList ++ memberText functions children) =
      linesOfBlocks (memberBlocks functions children) := by
  have hspace : keptLines ([] ++ held (!functions.isEmpty && !children.isEmpty) []) =
      linesOfBlocks (if !functions.isEmpty && !children.isEmpty then [""] else []) :=
    @keptLines_held [] [] List.not_mem_nil "" rfl (by decide) _
  rw [List.nil_append] at hspace
  rw [memberText, ← List.append_assoc, keptLines_append_cons, keptLines_append_cons,
    keptLines_members hfunctions, keptLines_members hchildren, hspace, memberBlocks,
    linesOfBlocks_append, linesOfBlocks_append, List.append_assoc]

/-! ## Layout -/

theorem unmarked_scopeComment {d : Dialect} {u text : String} (h : scopeComment d u = .ok text)
    (hu : Unmarked u.toList) : Unmarked text.toList := by
  have hendpoint : Unmarked ("Endpoint: " ++ u).toList := by
    rw [String.toList_append]
    exact unmarked_append.2 ⟨by decide, hu⟩
  cases d with
  | python => exact notMem_docstring (by decide) (by decide) (by decide) h hendpoint
  | kotlin =>
    obtain rfl := Except.ok.inj h
    exact notMem_docComment (by decide) (by decide) (by decide) hendpoint

theorem exists_scopeDoc (d : Dialect) (url : Option String) :
    ∃ doc, url.mapM (scopeComment d) = .ok doc := by
  cases url with
  | none => exact ⟨none, rfl⟩
  | some u =>
    obtain ⟨text, htext⟩ := exists_scopeComment d u
    exact ⟨some text, by rw [Option.mapM_some, htext]; rfl⟩

theorem unmarked_scopeDoc {d : Dialect} (h : url.mapM (scopeComment d) = .ok doc)
    (hurl : ∀ u ∈ url, Unmarked u.toList) : ∀ text ∈ doc, Unmarked text.toList := by
  cases url with
  | none =>
    obtain rfl := Except.ok.inj h
    simp
  | some u =>
    obtain ⟨text, htext, rfl⟩ := exists_of_map h
    rintro text ⟨⟩
    exact unmarked_scopeComment htext (hurl u rfl)

theorem keptLines_pythonText (hname : Unmarked name.toList) (hdoc : ∀ text ∈ doc, Unmarked text.toList)
    (hfunctions : ∀ text ∈ functions, IsBlock text) (hchildren : ∀ text ∈ children, IsBlock text) :
    keptLines (Python.scopeText name doc functions children) =
      linesOfBlocks (scopeBlocks python name doc functions children) := by
  have hhead : Unmarked ("class " ++ name ++ ":").toList := by
    simp only [String.toList_append, unmarked_append]
    exact ⟨⟨by decide, hname⟩, by decide⟩
  have hpass : keptLines ("    ".toList ++ held (functions.isEmpty && children.isEmpty) "pass".toList) =
      linesOfBlocks (if functions.isEmpty && children.isEmpty then ["    pass"] else []) :=
    keptLines_held (by decide) (by decide) (by decide) _
  rw [Python.scopeText, keptLines_append_cons, keptLines_append_cons, keptLines_append_cons,
    keptLines_block hhead, keptLines_described (by decide) (by decide) hdoc,
    keptLines_memberText hfunctions hchildren, hpass]
  simp only [scopeBlocks, ← linesOfBlocks_append, List.append_assoc, List.singleton_append]
  rfl

theorem keptLines_kotlinText (hname : Unmarked name.toList) (hdoc : ∀ text ∈ doc, Unmarked text.toList)
    (hfunctions : ∀ text ∈ functions, IsBlock text) (hchildren : ∀ text ∈ children, IsBlock text) :
    keptLines (Kotlin.scopeText name doc functions children) =
      linesOfBlocks (scopeBlocks kotlin name doc functions children) := by
  have hhead : Unmarked ("object " ++ name ++ " \x7b").toList := by
    simp only [String.toList_append, unmarked_append]
    exact ⟨⟨by decide, hname⟩, by decide⟩
  have hcomment : keptLines ("".toList ++ described id doc) =
      linesOfBlocks (doc.map ("" ++ ·)).toList := keptLines_described (by decide) (by decide) hdoc
  simp only [String.toList_empty, List.nil_append, String.empty_append, Option.map_id'] at hcomment
  rw [Kotlin.scopeText, keptLines_append_cons, keptLines_append_cons, keptLines_append_cons, hcomment,
    keptLines_block hhead, keptLines_memberText hfunctions hchildren, keptLines_block (by decide)]
  simp only [scopeBlocks, ← linesOfBlocks_append, List.append_assoc, List.cons_append, List.nil_append]

/-- A scope whose members are blocks is written as it is laid out. -/
theorem renderScope_eq_layout {d : Dialect} (h : s.Lists name url functions children)
    (hdoc : url.mapM (scopeComment d) = .ok doc) :
    d.renderScope s = .ok (scopeLayout d name doc functions children) := by
  have hunmarked := unmarked_scopeDoc hdoc h.url_unmarked
  cases d with
  | python =>
    rw [renderScope, Python.renderScope_eq h.toSays hdoc, ofList_finish_zero
      (keptLines_pythonText h.name_unmarked hunmarked h.functions_isBlock h.children_isBlock)]
    rfl
  | kotlin =>
    rw [renderScope, Kotlin.renderScope_eq h.toSays hdoc, ofList_finish_zero
      (keptLines_kotlinText h.name_unmarked hunmarked h.functions_isBlock h.children_isBlock)]
    rfl

/-! ## Blocks in blocks -/

theorem unmarked_memberBlocks (hfunctions : ∀ text ∈ functions, IsBlock text)
    (hchildren : ∀ text ∈ children, IsBlock text) :
    ∀ block ∈ memberBlocks functions children, Unmarked block.toList := by
  have hmembers : ∀ texts : List String, (∀ text ∈ texts, IsBlock text) →
      ∀ block ∈ memberBlock texts, Unmarked block.toList := fun texts h => by
    rw [memberBlock]
    split_ifs
    · exact List.forall_mem_nil _
    · exact List.forall_mem_singleton.2 <| unmarked_join (by decide) <| List.forall_mem_map.2
        fun text htext => unmarked_moved (h text htext).unmarked 4
  rw [memberBlocks, List.forall_mem_append, List.forall_mem_append]
  refine ⟨⟨hmembers functions hfunctions, ?_⟩, hmembers children hchildren⟩
  split_ifs <;> simp [Unmarked]

theorem unmarked_scopeBlocks (d : Dialect) (hname : Unmarked name.toList)
    (hdoc : ∀ text ∈ doc, Unmarked text.toList) (hfunctions : ∀ text ∈ functions, IsBlock text)
    (hchildren : ∀ text ∈ children, IsBlock text) :
    ∀ block ∈ scopeBlocks d name doc functions children, Unmarked block.toList := by
  have hmembers := unmarked_memberBlocks hfunctions hchildren
  cases d with
  | python =>
    have hline : ∀ block ∈ doc.map ("    " ++ ·), Unmarked block.toList := by
      rw [Option.forall_mem_map]
      intro text htext
      rw [String.toList_append]
      exact unmarked_append.2 ⟨by decide, hdoc text htext⟩
    simp only [scopeBlocks, List.forall_mem_append, List.forall_mem_cons, List.cons_append,
      Option.mem_toList]
    refine ⟨?_, ⟨hline, hmembers⟩, ?_⟩
    · simp only [String.toList_append, unmarked_append]
      exact ⟨⟨by decide, hname⟩, by decide⟩
    · split_ifs <;> simp [Unmarked]
  | kotlin =>
    simp only [scopeBlocks, List.forall_mem_append, List.forall_mem_cons, Option.mem_toList]
    refine ⟨⟨hdoc, ?_, hmembers⟩, by decide, List.forall_mem_nil _⟩
    simp only [String.toList_append, unmarked_append]
    exact ⟨⟨by decide, hname⟩, by decide⟩

/-- The first block of a scope begins with a character that is not blank. -/
theorem exists_scopeBlocks {d : Dialect} (hdoc : url.mapM (scopeComment d) = .ok doc) (name : String)
    (functions children : List String) : ∃ block rest c more,
      scopeBlocks d name doc functions children = block :: rest ∧ block.toList = c :: more ∧
        Text.isBlank c = false := by
  cases d with
  | python =>
    exact ⟨_, _, 'c', _, rfl, by rw [String.toList_append, String.toList_append]; rfl, by decide⟩
  | kotlin =>
    cases url with
    | none =>
      obtain rfl := Except.ok.inj hdoc
      exact ⟨_, _, 'o', _, rfl, by rw [String.toList_append, String.toList_append]; rfl, by decide⟩
    | some u =>
      obtain rfl : some (docComment ("Endpoint: " ++ u)) = doc := Except.ok.inj hdoc
      exact ⟨_, _, '/', _, rfl, by rw [toList_docComment]; rfl, by decide⟩

/-- What is written for a scope is a block again. -/
theorem isBlock_scopeLayout {d : Dialect} (h : s.Lists name url functions children)
    (hdoc : url.mapM (scopeComment d) = .ok doc) :
    IsBlock (scopeLayout d name doc functions children) := by
  have hunmarked : Unmarked (scopeLayout d name doc functions children).toList :=
    unmarked_join (by decide) (unmarked_scopeBlocks d h.name_unmarked
      (unmarked_scopeDoc hdoc h.url_unmarked) h.functions_isBlock h.children_isBlock)
  obtain ⟨block, rest, c, more, hblocks, hblock, hc⟩ := exists_scopeBlocks hdoc name functions children
  obtain ⟨tail, htail⟩ : ∃ tail, (Text.join "\n" (block :: rest)).toList = block.toList ++ tail := by
    cases rest with
    | nil => exact ⟨[], by simp [Text.join]⟩
    | cons next rest => exact ⟨_, by rw [Text.join_cons_cons, String.toList_append,
        String.toList_append, List.append_assoc]⟩
  have hfirst : (scopeLayout d name doc functions children).toList = c :: (more ++ tail) := by
    rw [scopeLayout, hblocks, htail, hblock, List.cons_append]
  exact isBlock_of_cons hfirst hc hunmarked

theorem hasBlock_memberBlocks {text : String} (h : text ∈ functions ∨ text ∈ children) :
    ∃ block ∈ memberBlocks functions children, HasBlock block (moved 4 text) := by
  have hmember : ∀ texts : List String, text ∈ texts →
      ∃ block ∈ memberBlock texts, HasBlock block (moved 4 text) := fun texts hmem => by
    have hnot : texts.isEmpty = false := by simpa using List.ne_nil_of_mem hmem
    refine ⟨_, by rw [memberBlock, hnot]; exact List.mem_singleton_self _, ?_⟩
    exact hasBlock_join (List.mem_map_of_mem hmem)
  simp only [memberBlocks, List.mem_append]
  rcases h with hfunction | hchild
  · obtain ⟨block, hmem, hblock⟩ := hmember functions hfunction
    exact ⟨block, .inl (.inl hmem), hblock⟩
  · obtain ⟨block, hmem, hblock⟩ := hmember children hchild
    exact ⟨block, .inr hmem, hblock⟩

/-- A member of a scope stands in it, moved by four blanks. -/
theorem hasBlock_scopeLayout (d : Dialect) (name : String) (doc : Option String) {text : String}
    (h : text ∈ functions ∨ text ∈ children) :
    HasBlock (scopeLayout d name doc functions children) (moved 4 text) := by
  obtain ⟨block, hmem, hblock⟩ := hasBlock_memberBlocks h
  have hblocks : block ∈ scopeBlocks d name doc functions children := by
    cases d <;> simp [scopeBlocks, hmem]
  exact (hasBlock_join_lines hblocks).trans hblock

/-- The text of a callable inside `n` scopes, each written and taken into the next. -/
inductive Within (d : Dialect) (callable : String) : Nat → String → Prop
  | self : Within d callable 0 callable
  | scope {n : Nat} {text out : String} {s : Scope} {name : String} {url : Option String}
    {functions children : List String} (h : Within d callable n text)
    (hs : s.Lists name url functions children) (hmem : text ∈ functions ∨ text ∈ children)
    (hout : d.renderScope s = .ok out) : Within d callable (n + 1) out

/-- A callable inside scopes is moved by four blanks for each of them. -/
theorem Within.hasBlock {d : Dialect} {callable text : String} {n : Nat} (h : Within d callable n text) :
    HasBlock text (moved (4 * n) callable) := by
  induction h with
  | self =>
    rw [Nat.mul_zero, moved_zero]
    exact List.infix_rfl
  | @scope n text out s name url functions children _ hs hmem hout ih =>
    obtain ⟨doc, hdoc⟩ := exists_scopeDoc d url
    obtain rfl := Except.ok.inj ((renderScope_eq_layout hs hdoc).symm.trans hout)
    -- the member is moved with the callable in it, so one scope adds four to its blanks
    have hinner := ih.moved 4
    rw [moved_moved] at hinner
    exact (hasBlock_scopeLayout d name doc hmem).trans hinner

/-- A template that is built with a greater indent gives its text with the rest of the blanks in front of
every line after the first that is not blank. A scope is written as it is laid out, with its members moved
by four blanks, and what is written is a block again: a callable inside any number of scopes stands there
moved by four blanks for each of them. -/
theorem renderScope_indents (d : Dialect) :
    (∀ (t : Template) (values : Table Json) (a b : Nat) (out : String),
      t.build values (some a) = .ok out →
      t.build values (some (a + b : Nat)) = .ok (movedRest b out)) ∧
    (∀ (s : Scope) (name : String) (url : Option String) (functions children : List String),
      s.Lists name url functions children → ∃ doc, url.mapM (scopeComment d) = .ok doc ∧
        d.renderScope s = .ok (scopeLayout d name doc functions children) ∧
        IsBlock (scopeLayout d name doc functions children)) ∧
    ∀ (callable : String) (n : Nat) (text : String), Within d callable n text →
      HasBlock text (moved (4 * n) callable) := by
  refine ⟨fun t values a b out hout => build_add_indent hout b, ?_, fun _ _ _ h => h.hasBlock⟩
  intro s name url functions children h
  obtain ⟨doc, hdoc⟩ := exists_scopeDoc d url
  exact ⟨doc, hdoc, renderScope_eq_layout h hdoc, isBlock_scopeLayout h hdoc⟩

/-- A function of two lines. -/
def getText : String :=
  "def get():\n    return 1"

/-- A scope with the function. -/
def usersScope : Scope where
  name := .str "Users"
  url := .str "/users"
  functions := .arr [.str getText]

/-- The scope with the function, written. -/
def usersText : String :=
  "class Users:\n    \"\"\"Endpoint: /users\"\"\"\n    def get():\n        return 1"

/-- A scope with the scope in it. -/
def shopScope : Scope where
  name := .str "Shop"
  children := .arr [.str usersText]

/-- The scope with the scope in it, written. -/
def shopText : String :=
  "class Shop:\n    class Users:\n        \"\"\"Endpoint: /users\"\"\"\n" ++
    "        def get():\n            return 1"

theorem lists_usersScope : usersScope.Lists "Users" (some "/users") [getText] [] where
  name_eq := rfl
  url_eq := rfl
  functions_eq := rfl
  children_eq := rfl
  name_unmarked := by decide
  url_unmarked := by decide
  functions_isBlock := by
    have htext : getText.toList = 'd' :: getText.toList.tail := by decide
    exact List.forall_mem_singleton.2 (isBlock_of_cons htext (by decide) (by decide))
  children_isBlock := List.forall_mem_nil _

theorem lists_shopScope : shopScope.Lists "Shop" none [] [usersText] where
  name_eq := rfl
  url_eq := rfl
  functions_eq := rfl
  children_eq := rfl
  name_unmarked := by decide
  url_unmarked := by simp
  functions_isBlock := List.forall_mem_nil _
  children_isBlock := by
    have htext : usersText.toList = 'c' :: usersText.toList.tail := by decide +kernel
    exact List.forall_mem_singleton.2 (isBlock_of_cons htext (by decide) (by decide +kernel))

theorem renderScope_users : python.renderScope usersScope = .ok usersText := by
  have hcomment : docstring 4 "Endpoint: /users" = .ok "\"\"\"Endpoint: /users\"\"\"" := by
    rw [docstring, lines_guardQuote]
    exact ok_of_toOption (by decide +kernel)
  have hdoc : (some "/users").mapM (scopeComment python) =
      .ok (some "\"\"\"Endpoint: /users\"\"\"") := by
    rw [Option.mapM_some, scopeComment]
    exact congrArg (Except.map some) hcomment
  rw [renderScope_eq_layout lists_usersScope hdoc]
  exact congrArg Except.ok (by decide +kernel)

theorem renderScope_shop : python.renderScope shopScope = .ok shopText := by
  rw [renderScope_eq_layout lists_shopScope rfl]
  exact congrArg Except.ok (by decide +kernel)

/-- A function with a body is moved by two blanks, and the function of two lines by eight blanks inside the
two scopes. -/
theorem renderScope_indents_shop :
    (stub.build stubValues (some (0 : Nat)) = .ok "def f():\n    a\n    b%c%" ∧
      usersScope.Lists "Users" (some "/users") [getText] [] ∧ Within python getText 2 shopText) ∧
    stub.build stubValues (some (0 + 2 : Nat)) = .ok "def f():\n      a\n      b%c%" ∧
    python.renderScope usersScope = .ok usersText ∧ IsBlock usersText ∧
    HasBlock shopText "        def get():\n            return 1" := by
  have hout : stub.build stubValues (some (0 : Nat)) = .ok "def f():\n    a\n    b%c%" :=
    ok_of_toOption (by decide +kernel)
  have hwithin : Within python getText 2 shopText :=
    .scope (.scope .self lists_usersScope (.inl List.mem_cons_self) renderScope_users) lists_shopScope
      (.inr List.mem_cons_self) renderScope_shop
  obtain ⟨hbuild, hscope, hblock⟩ := renderScope_indents python
  obtain ⟨doc, -, hrender, hisBlock⟩ := hscope _ _ _ _ _ lists_usersScope
  have hlayout := Except.ok.inj (renderScope_users.symm.trans hrender)
  have hmovedRest : movedRest 2 "def f():\n    a\n    b%c%" = "def f():\n      a\n      b%c%" := by
    decide +kernel
  have hmoved : moved (4 * 2) getText = "        def get():\n            return 1" := by decide +kernel
  refine ⟨⟨hout, lists_usersScope, hwithin⟩, ?_, renderScope_users, ?_, ?_⟩
  · rw [hbuild stub stubValues 0 2 _ hout, hmovedRest]
  · rw [hlayout]
    exact hisBlock
  · rw [← hmoved]
    exact hblock getText 2 shopText hwithin

end Dialect

end ApiClient
