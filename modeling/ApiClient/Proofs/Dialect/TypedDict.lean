import ApiClient.Proofs.Dialect.Docstring
import ApiClient.Proofs.Dialect.Escaping
import ApiClient.Proofs.Template.Indenting
import ApiClient.Proofs.Types.Expression
import Mathlib

/-!
# Reading typed dictionaries

`TypedDict.declared?` reads a Python module that declares a typed dictionary into the name of the dictionary
and its keys, in the order in which they are declared, and refuses what is no such module. It knows the two
forms: a class with an optional docstring and an annotation on each line, whose names are mangled if they are
private to the class (`TypedDict.mangled`), and a call with a name and a literal dictionary. A docstring is
read up to its closing quotes, and a key of the call form as a string literal; of a type hint only the
characters and the brackets are looked at, and of the lines above the type that they are imports.
-/

namespace ApiClient

namespace TypedDict

open Naming Text

/-! ## Names -/

/-- The name of a class without the underscores in front of it. -/
def stem (cls : String) : List Char :=
  cls.toList.dropWhile (· = '_')

/-- A name with two underscores in front, and not two at its end. -/
def isPrivate (name : String) : Bool :=
  ['_', '_'].isPrefixOf name.toList && not (['_', '_'].isSuffixOf name.toList)

/-- What a name stands for in the body of a class. -/
def mangled (cls name : String) : String :=
  if isPrivate name && !(stem cls).isEmpty then "_" ++ String.ofList (stem cls) ++ name else name

/-- A name that is not changed in the body of a class. -/
def IsKept (cls name : String) : Prop :=
  isPrivate name = false ∨ stem cls = []

theorem mangled_of_isKept {cls name : String} (h : IsKept cls name) : mangled cls name = name := by
  refine if_neg ?_
  rcases h with hname | hstem
  · simp [hname]
  · simp [hstem]

theorem exists_stem {cls : String} (h : stem cls ≠ []) :
    ∃ c rest, stem cls = c :: rest ∧ c ≠ '_' := by
  obtain ⟨c, rest, hstem⟩ := List.exists_cons_of_ne_nil h
  have hfirst := List.head?_dropWhile_not (fun c => decide (c = '_')) cls.toList
  rw [← stem, hstem] at hfirst
  exact ⟨c, rest, hstem, by simpa using hfirst⟩

/-- A mangled name has one underscore in front, so it is not private. -/
theorem isKept_mangled (cls name : String) : IsKept cls (mangled cls name) := by
  by_cases h : IsKept cls name
  · rw [mangled_of_isKept h]
    exact h
  · obtain ⟨hprivate, hstem⟩ := not_or.1 h
    obtain ⟨c, rest, hcons, hc⟩ := exists_stem hstem
    have hone : "_".toList = ['_'] := by decide
    have hname : (mangled cls name).toList = '_' :: c :: (rest ++ name.toList) := by
      rw [mangled, if_pos (by simp [hprivate, hstem]), String.toList_append, String.toList_append, hone,
        hcons, String.toList_ofList]
      rfl
    refine .inl ?_
    rw [isPrivate, hname]
    simp [List.isPrefixOf, hc.symm]

/-- Mangled names are the names themselves if and only if none of them is changed. -/
theorem forall_mem_map_mangled_iff (cls : String) (names : List String) :
    (∀ key, key ∈ names.map (mangled cls) ↔ key ∈ names) ↔ ∀ name ∈ names, IsKept cls name := by
  refine ⟨fun h name hname => ?_, fun h key => ?_⟩
  · obtain ⟨other, -, rfl⟩ := List.mem_map.1 ((h name).2 hname)
    exact isKept_mangled cls other
  · rw [List.map_congr_left fun name hname => mangled_of_isKept (h name hname), List.map_id']

/-! ## Type hints -/

/-- A character of a type hint. -/
def isHintChar (c : Char) : Bool :=
  isAsciiAlphanumeric c || ['_', '[', ']', ',', ' '].contains c

/-- Whether every bracket is closed, where `depth` of them are open. -/
def closes : Nat → List Char → Bool
  | depth, [] => depth = 0
  | depth, '[' :: rest => closes (depth + 1) rest
  | 0, ']' :: _ => false
  | depth + 1, ']' :: rest => closes depth rest
  | depth, _ :: rest => closes depth rest

/-- A type hint, by its characters and brackets. -/
def isHint (cs : List Char) : Bool :=
  !cs.isEmpty && cs.all isHintChar && closes 0 cs

/-- A text in a type hint that leaves as many brackets open as before. -/
structure Balanced (cs : List Char) : Prop where
  all_isHintChar : cs.all isHintChar = true
  closes_append : ∀ depth rest, closes depth (cs ++ rest) = closes depth rest

theorem Balanced.append {a b : List Char} (ha : Balanced a) (hb : Balanced b) : Balanced (a ++ b) where
  all_isHintChar := by rw [List.all_append, ha.all_isHintChar, hb.all_isHintChar]; rfl
  closes_append depth rest := by rw [List.append_assoc, ha.closes_append, hb.closes_append]

theorem Balanced.bracket {cs : List Char} (h : Balanced cs) : Balanced ('[' :: (cs ++ [']'])) where
  all_isHintChar := by
    rw [List.all_cons, List.all_append, h.all_isHintChar]
    decide
  closes_append depth rest := by
    rw [List.cons_append, List.append_assoc, closes, h.closes_append, List.singleton_append, closes]

theorem Balanced.bracket_of {front inner : String} (hfront : Balanced front.toList)
    (hinner : Balanced inner.toList) : Balanced (front ++ "[" ++ inner ++ "]").toList := by
  have hopen : "[".toList = ['['] := by decide
  have hclose : "]".toList = [']'] := by decide
  have hcut : (front ++ "[" ++ inner ++ "]").toList =
      front.toList ++ '[' :: (inner.toList ++ [']']) := by
    simp only [String.toList_append, hopen, hclose, List.append_assoc, List.cons_append, List.nil_append]
  rw [hcut]
  exact hfront.append hinner.bracket

theorem closes_cons {c : Char} (hopen : c ≠ '[') (hclose : c ≠ ']') (depth : Nat) (rest : List Char) :
    closes depth (c :: rest) = closes depth rest := by
  cases depth <;> simp [closes, hclose]

/-- A text without brackets. -/
theorem balanced_of_all {cs : List Char}
    (h : cs.all (fun c => isAsciiAlphanumeric c || ['_', ',', ' '].contains c) = true) : Balanced cs := by
  induction cs with
  | nil => exact ⟨rfl, fun _ _ => rfl⟩
  | cons c rest ih =>
    rw [List.all_cons, Bool.and_eq_true] at h
    have hrest := ih h.2
    have hopen : c ≠ '[' := by rintro rfl; exact absurd h.1 (by decide)
    have hclose : c ≠ ']' := by rintro rfl; exact absurd h.1 (by decide)
    have hchar : isHintChar c = true := by
      have hc := h.1
      simp only [isHintChar, Bool.or_eq_true, List.contains_iff_mem, List.mem_cons,
        List.not_mem_nil, or_false] at hc ⊢
      tauto
    exact ⟨by rw [List.all_cons, hchar, hrest.all_isHintChar]; rfl,
      fun depth more => by rw [List.cons_append, closes_cons hopen hclose, hrest.closes_append]⟩

theorem Balanced.isHint {cs : List Char} (h : Balanced cs) (hne : cs ≠ []) : isHint cs = true := by
  have hclosed := h.closes_append 0 []
  rw [List.append_nil] at hclosed
  rw [TypedDict.isHint, h.all_isHintChar, hclosed]
  simp [hne, closes]

/-! ## String literals -/

/-- The characters of a string literal up to its closing quote, with what follows. -/
def text? (cs : List Char) : Option (List Char × List Char) :=
  if cs.head? = some '"' then some ([], cs.tail)
  else
    match h : Literal.Form.plain.piece? cs with
    | some (.char c, rest) =>
      have := Literal.Form.length_piece?_lt h
      (text? rest).map fun e => (c :: e.1, e.2)
    | _ => none
  termination_by cs.length

theorem text?_literalChar (c : Char) (rest : List Char) :
    text? (Json.literalChar c ++ rest) = (text? rest).map fun e => (c :: e.1, e.2) := by
  have hpiece : Literal.Form.plain.piece? (Json.literalChar c ++ rest) = some (.char c, rest) :=
    Literal.piece?_literalChar (by decide) rfl rest
  have hhead : (Json.literalChar c ++ rest).head? ≠ some '"' := by
    intro hquote
    obtain ⟨more, hmore⟩ := List.head?_eq_some_iff.1 hquote
    rw [hmore] at hpiece
    cases hpiece
  rw [text?, if_neg hhead]
  split
  · rename_i d more heq
    obtain ⟨hd, rfl⟩ := Prod.mk.inj (Option.some.inj (heq.symm.trans hpiece))
    obtain rfl := Literal.Piece.char.inj hd
    rfl
  · rename_i hother
    exact absurd hpiece (hother c rest)

/-- A text is read back from its literal. -/
theorem text?_flatMap (cs rest : List Char) :
    text? (cs.flatMap Json.literalChar ++ '"' :: rest) = some (cs, rest) := by
  induction cs with
  | nil => rw [List.flatMap_nil, List.nil_append, text?, if_pos List.head?_cons, List.tail_cons]
  | cons c cs ih => rw [List.flatMap_cons, List.append_assoc, text?_literalChar, ih, Option.map_some]

/-! ## Lines above the type -/

/-- A character of an import. -/
def isImportChar (c : Char) : Bool :=
  isWordChar c || ['.', ',', ' '].contains c

/-- A line above the type: an empty one, an import, or the condition that imports stand under. -/
def isPreamble (line : List Char) : Bool :=
  line.all isImportChar && (line.isEmpty || ['f', 'r', 'o', 'm', ' '].isPrefixOf (line.dropWhile (· = ' ')))
    || line = "if TYPE_CHECKING:".toList

theorem isPreamble_of_mem {line : List Char} (h : '(' ∈ line) : isPreamble line = false := by
  have hall : line.all isImportChar = false := List.all_eq_false.2 ⟨'(', h, by decide⟩
  have hline : line ≠ "if TYPE_CHECKING:".toList := by
    rintro rfl
    exact absurd h (by decide)
  rw [isPreamble, hall, Bool.false_and, Bool.false_or, decide_eq_false hline]

/-! ## Fields -/

/-- The key of an annotation, where the name of the debug flag is no target. -/
def annotated? (inside : List Char) : Option String :=
  match inside.dropWhile (· ≠ ':') with
  | ':' :: ' ' :: hint =>
    let name := String.ofList (inside.takeWhile (· ≠ ':'))
    if isPythonIdentifier name && name ≠ "__debug__" && isHint hint then some name else none
  | _ => none

/-- The keys of the lines of a class: annotations, comments and blank lines. -/
def classKeys? (cls : String) : List (List Char) → Option (List String)
  | [] => some []
  | line :: rest =>
    if line.all (· = ' ') then classKeys? cls rest
    else do
      let inside ← dropFront? [' ', ' ', ' ', ' '] line
      if inside.head? = some '#' then
        if '\r' ∈ inside then none else classKeys? cls rest
      else
        let key ← annotated? inside
        let keys ← classKeys? cls rest
        return mangled cls key :: keys

/-- The keys of a class, which begins with a docstring or has a key. -/
def classBody? (cls : String) (lines : List (List Char)) : Option (List String) := do
  let inside ← dropFront? [' ', ' ', ' ', ' '] (Template.joinLines lines)
  match Docstring.behind? inside with
  | some behind =>
    match splitOnChar '\n' behind with
    | [] :: rest => classKeys? cls rest
    | _ => none
  | none =>
    let keys ← classKeys? cls lines
    if keys.isEmpty then none else some keys

/-- The key of an entry, whose value is a type hint in a string literal. -/
def entry? (inside : List Char) : Option String := do
  let quoted ← dropFront? ['"'] inside
  let (key, behind) ← text? quoted
  let value ← dropFront? [':', ' ', '"'] behind
  let (hint, last) ← text? value
  if last = [','] && isHint hint then some (String.ofList key) else none

/-- The keys of the lines of a call, up to the end of the call. -/
def callKeys? : List (List Char) → Option (List String)
  | [] => none
  | line :: rest =>
    if line = "    \x7d,".toList then
      if rest.head? = some [')'] && rest.tail.all (·.isEmpty) then some [] else none
    else do
      let inside ← dropFront? [' ', ' ', ' ', ' ', ' ', ' ', ' ', ' '] line
      let key ← entry? inside
      let keys ← callKeys? rest
      return key :: keys

/-- The keys of a call with the name of the dictionary and its entries. -/
def callBody? (name : String) : List (List Char) → Option (List String)
  | title :: opening :: rest =>
    if title = ("    \"" ++ name ++ "\",").toList && opening = "    \x7b".toList then callKeys? rest
    else none
  | _ => none

/-! ## Modules -/

/-- The identifier between two texts. -/
def between? (front back : String) (line : List Char) : Option String := do
  let rest ← dropFront? front.toList line
  let inside ← dropFront? back.toList.reverse rest.reverse
  let name := String.ofList inside.reverse
  if isPythonIdentifier name then some name else none

/-- The name and the keys of the dictionary that the lines of a module declare. -/
def statements? : List (List Char) → Option (String × List String)
  | [] => none
  | line :: rest =>
    if isPreamble line then statements? rest
    else
      match between? "class " "(TypedDict):" line with
      | some name => (classBody? name rest).map (name, ·)
      | none => do
        let name ← between? "" " = TypedDict(" line
        let keys ← callBody? name rest
        return (name, keys)

/-- The name and the keys of the dictionary that a module declares behind its docstring. -/
def declared? (module : String) : Option (String × List String) := do
  let behind ← Docstring.behind? module.toList
  match splitOnChar '\n' behind with
  | [] :: lines => statements? lines
  | _ => none

/-! ## What is read -/

variable {cls name : String} {hint : List Char}

theorem colon_notMem (h : isPythonIdentifier name = true) : ':' ∉ name.toList := fun hmem =>
  absurd (Literal.isIdentifierChar_of_mem_name h _ hmem) (by decide)

theorem annotated?_field (hname : isPythonIdentifier name = true) (hhint : isHint hint = true) :
    annotated? (name.toList ++ ':' :: ' ' :: hint) =
      if name = "__debug__" then none else some name := by
  have hall : ∀ c ∈ name.toList, (c ≠ ':' : Bool) = true := fun c hc =>
    decide_eq_true fun heq => colon_notMem hname (heq ▸ hc)
  have hdrop : (name.toList ++ ':' :: ' ' :: hint).dropWhile (· ≠ ':') = ':' :: ' ' :: hint := by
    rw [List.dropWhile_append_of_pos hall]
    simp
  have htake : (name.toList ++ ':' :: ' ' :: hint).takeWhile (· ≠ ':') = name.toList := by
    rw [List.takeWhile_append_of_pos hall]
    simp
  rw [annotated?, hdrop]
  simp only [htake, String.ofList_toList, hname, hhint, Bool.true_and, Bool.and_true]
  by_cases hdebug : name = "__debug__" <;> simp [hdebug]

/-- A docstring of a class is passed over, if its line ends behind it. -/
theorem classBody?_of_behind? {lines rest : List (List Char)} {inside behind line : List Char}
    (hlines : Template.joinLines lines = [' ', ' ', ' ', ' '] ++ inside)
    (hbehind : Docstring.behind? inside = some behind)
    (hrest : splitOnChar '\n' behind = line :: rest) :
    classBody? cls lines = if line = [] then classKeys? cls rest else none := by
  rw [classBody?, hlines, dropFront?_eq_some_iff.2 rfl]
  simp only [Option.bind_eq_bind, Option.bind_some, hbehind, hrest]
  cases line <;> rfl

/-- A class whose first line begins with no quote has no docstring. -/
theorem classBody?_bare {line : List Char} {rest : List (List Char)} (h : line.head? ≠ some '"') :
    classBody? cls (([' ', ' ', ' ', ' '] ++ line) :: rest) =
      (classKeys? cls (([' ', ' ', ' ', ' '] ++ line) :: rest)).bind fun keys =>
        if keys.isEmpty then none else some keys := by
  have hinside : (Template.joinLines (line :: rest)).head? ≠ some '"' := by
    cases rest with
    | nil => exact h
    | cons next rest =>
      rw [Template.joinLines, List.head?_append]
      · cases hhead : line.head? with
        | none => simp
        | some c => simpa [hhead] using h
      · simp
  rw [classBody?, Template.joinLines_cons_append, dropFront?_eq_some_iff.2 rfl]
  simp only [Option.bind_eq_bind, Option.bind_some, Docstring.behind?_eq_none hinside]

theorem entry?_literals (key : String) {hint : String} (hhint : isHint hint.toList = true) :
    entry? (Json.literal key ++ ": " ++ Json.literal hint ++ ",").toList = some key := by
  have hcolon : ": ".toList = [':', ' '] := by decide
  have hcomma : ",".toList = [','] := by decide
  have hcut : (Json.literal key ++ ": " ++ Json.literal hint ++ ",").toList =
      ['"'] ++ (key.toList.flatMap Json.literalChar ++ '"' :: ([':', ' ', '"'] ++
        (hint.toList.flatMap Json.literalChar ++ '"' :: [',']))) := by
    simp only [Json.literal, String.toList_append, String.toList_ofList, hcolon, hcomma,
      List.cons_append, List.append_assoc, List.nil_append]
  rw [hcut, entry?, dropFront?_eq_some_iff.2 rfl]
  simp only [Option.bind_eq_bind, Option.bind_some, text?_flatMap, dropFront?_eq_some_iff.2 rfl, hhint]
  simp

theorem between?_eq_some_iff {front back : String} {line : List Char} :
    between? front back line = some name ↔
      isPythonIdentifier name = true ∧ line = (front ++ name ++ back).toList := by
  simp only [between?, Option.bind_eq_bind, Option.bind_eq_some_iff, dropFront?_eq_some_iff,
    Option.ite_none_right_eq_some, Option.some.injEq, String.toList_append]
  constructor
  · rintro ⟨rest, rfl, inside, hinside, hidentifier, rfl⟩
    have hrest : rest = inside.reverse ++ back.toList := by
      rw [← List.reverse_reverse rest, hinside, List.reverse_append, List.reverse_reverse]
    exact ⟨hidentifier, by rw [String.toList_ofList, hrest, List.append_assoc]⟩
  · rintro ⟨hidentifier, rfl⟩
    refine ⟨name.toList ++ back.toList, by rw [List.append_assoc], name.toList.reverse, ?_, ?_, ?_⟩
    · rw [List.reverse_append]
    · rw [List.reverse_reverse, String.ofList_toList]
      exact hidentifier
    · rw [List.reverse_reverse, String.ofList_toList]

theorem statements?_append {front : List (List Char)} (h : ∀ line ∈ front, isPreamble line = true)
    (rest : List (List Char)) : statements? (front ++ rest) = statements? rest := by
  induction front with
  | nil => rfl
  | cons line front ih =>
    obtain ⟨hline, hfront⟩ := List.forall_mem_cons.1 h
    rw [List.cons_append, statements?, if_pos hline, ih hfront]

theorem statements?_class (h : isPythonIdentifier name = true) (rest : List (List Char)) :
    statements? (("class " ++ name ++ "(TypedDict):").toList :: rest) =
      (classBody? name rest).map (name, ·) := by
  have hopen : '(' ∈ ("class " ++ name ++ "(TypedDict):").toList := by
    simp only [String.toList_append, List.mem_append]
    exact .inr (by decide)
  rw [statements?, isPreamble_of_mem hopen, between?_eq_some_iff.2 ⟨h, rfl⟩]
  rfl

theorem statements?_call (h : isPythonIdentifier name = true) (rest : List (List Char)) :
    statements? ((name ++ " = TypedDict(").toList :: rest) =
      (callBody? name rest).map (name, ·) := by
  have hopen : '(' ∈ (name ++ " = TypedDict(").toList := by
    rw [String.toList_append, List.mem_append]
    exact .inr (by decide)
  have hclass : between? "class " "(TypedDict):" (name ++ " = TypedDict(").toList = none := by
    refine Option.eq_none_iff_forall_ne_some.2 fun other hother => ?_
    have hlast := congrArg List.getLast? (between?_eq_some_iff.1 hother).2
    have hparen : " = TypedDict(".toList.getLast? = some '(' := by decide
    have hcolon : "(TypedDict):".toList.getLast? = some ':' := by decide
    simp only [String.toList_append, List.getLast?_append, hparen, hcolon, Option.some_or] at hlast
    exact absurd hlast (by decide)
  have hname : between? "" " = TypedDict(" (name ++ " = TypedDict(").toList = some name :=
    between?_eq_some_iff.2 ⟨h, by rw [String.empty_append]⟩
  rw [statements?, isPreamble_of_mem hopen, hclass, hname]
  simp only [Bool.false_eq_true, if_false, Option.bind_eq_bind, Option.bind_some]
  cases callBody? name rest <;> rfl

end TypedDict

end ApiClient
