import ApiClient.Dialect.Url
import ApiClient.Json.Reader
import ApiClient.Proofs.Text.Line
import Mathlib

/-!
# Reading string literals

`Literal.read` reads a string literal of a dialect into the characters of its text and the names whose
values are put into it (`Literal.Piece`), and refuses what is no literal. It knows the literals in
double quotes: plain and formatted ones of Python, and those of Kotlin with their substitutions. What
it reads a compiler reads in the same way; it refuses the escapes by name, in octal or with other than four
digits, substitutions other than of a name in braces, and literals of several lines.

`Literal.Writes` says that a text, wherever it stands in a literal, is read as these pieces. It goes
through concatenation (`Literal.Writes.append`), so that a writer is known by what it writes for a
character.
-/

namespace ApiClient.Literal

/-! ## Pieces -/

/-- A place of a literal: a character of its text, or a name in whose place the value stands. -/
inductive Piece where
  | char (c : Char)
  | slot (name : String)
  deriving DecidableEq

/-- The text of a literal, where its names have values. -/
def chars (env : String → Option String) : List Piece → Option (List Char)
  | [] => some []
  | .char c :: rest => (chars env rest).map (c :: ·)
  | .slot name :: rest => do return (← env name).toList ++ (← chars env rest)

/-- The value of a literal, where its names have values. -/
def value (env : String → Option String) (pieces : List Piece) : Option String :=
  (chars env pieces).map String.ofList

theorem chars_append {env : String → Option String} {before after : List Piece} {a b : List Char}
    (ha : chars env before = some a) (hb : chars env after = some b) :
    chars env (before ++ after) = some (a ++ b) := by
  induction before generalizing a with
  | nil =>
    obtain rfl := Option.some.inj ha
    exact hb
  | cons piece rest ih =>
    cases piece with
    | char c =>
      obtain ⟨tail, htail, rfl⟩ := Option.map_eq_some_iff.1 ha
      rw [List.cons_append, chars, ih htail]
      rfl
    | slot name =>
      obtain ⟨text, htext, hrest⟩ := Option.bind_eq_some_iff.1 ha
      obtain ⟨tail, htail, hpure⟩ := Option.bind_eq_some_iff.1 hrest
      obtain rfl := Option.some.inj hpure
      simp [chars, htext, ih htail]

theorem chars_map_char (env : String → Option String) (cs : List Char) :
    chars env (cs.map .char) = some cs := by
  induction cs with
  | nil => rfl
  | cons c rest ih => simp [chars, ih]

/-- Pieces with a slash between neighbours. -/
def joined : List (List Piece) → List Piece
  | [] => []
  | [part] => part
  | part :: rest => part ++ .char '/' :: joined rest

/-- The value of parts with slashes between them is that of the parts with slashes between them. -/
theorem value_joined {env : String → Option String} {parts : List (List Piece)} {texts : List String}
    (h : List.Forall₂ (fun part text => chars env part = some text.toList) parts texts) :
    value env (joined parts) = some (Text.join "/" texts) := by
  have hchars : chars env (joined parts) = some (Text.join "/" texts).toList := by
    induction h with
    | nil => rfl
    | @cons part text parts texts hpart hrest ih =>
      cases hrest with
      | nil => exact hpart
      | cons hnext hmore =>
        rw [Text.join_cons_cons, joined, String.toList_append, String.toList_append,
          List.append_assoc]
        · refine chars_append hpart ?_
          rw [chars, ih]
          rfl
        · simp
  rw [value, hchars, Option.map_some, String.ofList_toList]

/-! ## Names -/

/-- A letter of a name in Kotlin. -/
def isKotlinLetter (c : Char) : Bool :=
  Text.inRanges Text.letters c || Text.inRanges Text.letterNumbers c || c = '_'

/-- A character that may stand in a name between backticks. -/
def isQuotable (c : Char) : Bool :=
  c ≠ '`' && c ≠ '\n' && c ≠ '\r' && c ≠ '\x7d'

/-- A name of Kotlin: letters and digits that are no hard keyword, or a text between backticks. -/
def isKotlinName (name : String) : Bool :=
  match name.toList with
  | [] => false
  | c :: rest =>
    if c = '`' then
      rest.getLast? = some '`' && !rest.dropLast.isEmpty && rest.dropLast.all isQuotable
    else
      isKotlinLetter c && rest.all (fun c => isKotlinLetter c || Text.inRanges Text.decimalDigits c) &&
        !Naming.kotlinKeywords.contains name

/-- A name that may be substituted in a literal. -/
def isName : Dialect → String → Bool
  | .python, name => Naming.isPythonIdentifier name
  | .kotlin, name => isKotlinName name

/-! ## Literals -/

/-- The forms of literals. -/
inductive Form where
  | plain | formatted | kotlin
  deriving DecidableEq

/-- The character of an escape by one letter. -/
def Form.letter? (form : Form) (c : Char) : Option Char :=
  match c with
  | '\\' => some '\\'
  | '"' => some '"'
  | '\'' => some '\''
  | 'n' => some '\n'
  | 'r' => some '\r'
  | 't' => some '\t'
  | 'b' => some (Char.ofNat 8)
  | '$' => if form = kotlin then some '$' else none
  | 'f' => if form = kotlin then none else some (Char.ofNat 12)
  | 'a' => if form = kotlin then none else some (Char.ofNat 7)
  | 'v' => if form = kotlin then none else some (Char.ofNat 11)
  | _ => none

/-- The character of an escape, which has begun with a backslash. Halves of pairs are refused. -/
def Form.escaped? (form : Form) : List Char → Option (Char × List Char)
  | 'u' :: a :: b :: c :: d :: rest => do
    let unit ← Json.fourHex? a b c d
    if Json.isHighUnit unit || Json.isLowUnit unit then none else some (Char.ofNat unit, rest)
  | c :: rest => (form.letter? c).map fun c => (c, rest)
  | [] => none

/-- The name up to the next closing brace, which is taken. -/
def named? (d : Dialect) (cs : List Char) : Option (Piece × List Char) :=
  match cs.dropWhile (· ≠ '\x7d') with
  | [] => none
  | _ :: rest =>
    if isName d (String.ofList (cs.takeWhile (· ≠ '\x7d'))) then
      some (.slot (String.ofList (cs.takeWhile (· ≠ '\x7d'))), rest)
    else none

/-- A character with a meaning of its own: braces in a formatted literal, a dollar sign in Kotlin. -/
def Form.isMark : Form → Char → Bool
  | plain, _ => false
  | formatted, c => c = '\x7b' || c = '\x7d'
  | kotlin, c => c = '$'

/-- The piece that begins with such a character: a brace is written twice or opens a name, and a
dollar sign opens a name with the brace after it. -/
def Form.marked? : Form → Char → List Char → Option (Piece × List Char)
  | formatted, c, d :: rest =>
    if c = d then some (.char c, rest) else if c = '\x7b' then named? .python (d :: rest) else none
  | kotlin, c, d :: rest =>
    if d = '\x7b' then named? .kotlin rest
    else if isKotlinLetter d || d = '`' then none
    else some (.char c, d :: rest)
  | _, _, _ => none

/-- A character that may stand for itself. -/
def Form.mayStand (form : Form) (c : Char) : Bool :=
  c ≠ '"' && c ≠ '\n' && c ≠ '\r' && (form = kotlin || c ≠ Char.ofNat 0)

/-- The first piece of a literal, with what follows it. -/
def Form.piece? (form : Form) : List Char → Option (Piece × List Char)
  | [] => none
  | c :: rest =>
    if c = '\\' then (form.escaped? rest).map fun e => (.char e.1, e.2)
    else if form.isMark c then form.marked? c rest
    else if form.mayStand c then some (.char c, rest)
    else none

theorem length_named?_lt {d : Dialect} {cs rest : List Char} {piece : Piece}
    (h : named? d cs = some (piece, rest)) : rest.length < cs.length := by
  have hlength := (List.dropWhile_suffix (l := cs) (· ≠ '\x7d')).length_le
  rw [named?] at h
  split at h
  · cases h
  · rename_i c after hafter
    rw [hafter] at hlength
    split at h
    · obtain ⟨-, rfl⟩ := Prod.mk.inj (Option.some.inj h)
      exact hlength
    · cases h

theorem Form.length_escaped?_lt {form : Form} {cs rest : List Char} {c : Char}
    (h : form.escaped? cs = some (c, rest)) : rest.length < cs.length := by
  unfold escaped? at h
  split at h
  · obtain ⟨unit, -, hunit⟩ := Option.bind_eq_some_iff.1 h
    split at hunit
    · cases hunit
    · obtain ⟨-, rfl⟩ := Prod.mk.inj (Option.some.inj hunit)
      simp only [List.length_cons]
      omega
  · obtain ⟨d, -, hd⟩ := Option.map_eq_some_iff.1 h
    obtain ⟨-, rfl⟩ := Prod.mk.inj hd
    exact Nat.lt_succ_self _
  · cases h

theorem Form.length_marked?_lt {form : Form} {c : Char} {cs rest : List Char} {piece : Piece}
    (h : form.marked? c cs = some (piece, rest)) : rest.length < (c :: cs).length := by
  unfold marked? at h
  split at h
  · split at h
    · obtain ⟨-, rfl⟩ := Prod.mk.inj (Option.some.inj h)
      simp only [List.length_cons]
      omega
    · split at h
      · exact (length_named?_lt h).trans (Nat.lt_succ_self _)
      · cases h
  · split at h
    · exact (length_named?_lt h).trans (by simp only [List.length_cons]; omega)
    · split at h
      · cases h
      · obtain ⟨-, rfl⟩ := Prod.mk.inj (Option.some.inj h)
        exact Nat.lt_succ_self _
  · cases h

theorem Form.length_piece?_lt {form : Form} {cs rest : List Char} {piece : Piece}
    (h : form.piece? cs = some (piece, rest)) : rest.length < cs.length := by
  cases cs with
  | nil => cases h
  | cons c cs =>
    rw [piece?] at h
    split at h
    · obtain ⟨e, he, hpiece⟩ := Option.map_eq_some_iff.1 h
      obtain ⟨-, rfl⟩ := Prod.mk.inj hpiece
      exact (length_escaped?_lt he).trans (Nat.lt_succ_self _)
    · split at h
      · exact length_marked?_lt h
      · split at h
        · obtain ⟨-, rfl⟩ := Prod.mk.inj (Option.some.inj h)
          exact Nat.lt_succ_self _
        · cases h

/-- The pieces of a literal up to its closing quote, after which nothing stands. -/
def Form.pieces (form : Form) (cs : List Char) : Option (List Piece) :=
  if cs = ['"'] then some []
  else
    match h : form.piece? cs with
    | none => none
    | some (piece, rest) =>
      have := length_piece?_lt h
      (form.pieces rest).map (piece :: ·)
  termination_by cs.length

/-- The pieces of a string literal of a dialect. -/
def read (d : Dialect) (literal : String) : Option (List Piece) :=
  match d, literal.toList with
  | .python, '"' :: rest => Form.plain.pieces rest
  | .python, 'f' :: '"' :: rest => Form.formatted.pieces rest
  | .kotlin, '"' :: rest => Form.kotlin.pieces rest
  | _, _ => none

/-! ## What is written for pieces -/

/-- A text is read as these pieces, whatever follows it in a literal. -/
def Writes (form : Form) (cs : List Char) (pieces : List Piece) : Prop :=
  ∀ rest, form.pieces (cs ++ rest) = (form.pieces rest).map (pieces ++ ·)

variable {form : Form} {cs cs' : List Char} {pieces pieces' : List Piece}

theorem writes_nil (form : Form) : Writes form [] [] := by
  intro rest
  cases h : form.pieces rest <;> simp [h]

theorem Writes.append (h : Writes form cs pieces) (h' : Writes form cs' pieces') :
    Writes form (cs ++ cs') (pieces ++ pieces') := by
  intro rest
  rw [List.append_assoc, h, h', Option.map_map]
  congr 1
  funext more
  exact (List.append_assoc _ _ _).symm

theorem Form.piece?_quote (form : Form) : form.piece? ['"'] = none := by
  cases form <;> decide

/-- What is read as one piece whatever follows it. -/
theorem writes_of_piece? {piece : Piece}
    (h : ∀ rest, form.piece? (cs ++ rest) = some (piece, rest)) : Writes form cs [piece] := by
  intro rest
  have hquote : cs ++ rest ≠ ['"'] := by
    intro heq
    have hpiece := h rest
    rw [heq, form.piece?_quote] at hpiece
    cases hpiece
  rw [Form.pieces, if_neg hquote]
  split
  · rename_i hnone
    rw [h rest] at hnone
    cases hnone
  · rename_i piece' rest' hsome
    obtain ⟨rfl, rfl⟩ := Prod.mk.inj (Option.some.inj ((h rest).symm.trans hsome))
    rfl

theorem writes_flatMap {write : Char → List Char}
    (h : ∀ c ∈ cs, Writes form (write c) [.char c]) :
    Writes form (cs.flatMap write) (cs.map .char) := by
  induction cs with
  | nil => exact writes_nil form
  | cons c rest ih =>
    rw [List.flatMap_cons, List.map_cons]
    exact (h c List.mem_cons_self).append (ih fun d hd => h d (List.mem_cons_of_mem c hd))

/-- Texts with slashes between them are read as what they are read as, with slashes between. -/
theorem writes_join {write : Char → List Char} (hslash : Writes form (write '/') [.char '/'])
    {texts : List String} {parts : List (List Piece)}
    (h : List.Forall₂ (fun text part => Writes form (text.toList.flatMap write) part) texts parts) :
    Writes form ((Text.join "/" texts).toList.flatMap write) (joined parts) := by
  have hone : "/".toList = ['/'] := by decide
  induction h with
  | nil => exact writes_nil form
  | cons hpart hrest ih =>
    cases hrest with
    | nil => exact hpart
    | cons hnext hmore =>
      rw [Text.join_cons_cons, joined, String.toList_append, String.toList_append, hone,
        List.flatMap_append, List.flatMap_append, List.append_assoc, List.flatMap_singleton]
      · exact hpart.append (hslash.append ih)
      · simp

/-- A literal is read as what stands between its quotes. -/
theorem Writes.pieces_quote (h : Writes form cs pieces) :
    form.pieces (cs ++ ['"']) = some pieces := by
  rw [h, Form.pieces, if_pos rfl, Option.map_some, List.append_nil]

end ApiClient.Literal
