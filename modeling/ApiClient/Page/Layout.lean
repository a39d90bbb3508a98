import ApiClient.Failure
import ApiClient.Page.Bundled

/-!
# Layouts

A page template of the user's own: literal text with placeholders such as `title` or
`description | first_line` in double braces. `Layout.render` fills one in.
-/

namespace ApiClient.Page

/-- A piece of a layout. -/
inductive Piece where
  | text (text : List Char)
  | placeholder (name : String) (filters : List String)
  deriving DecidableEq, Repr

/-- The pieces of a layout in order. -/
abbrev Layout := List Piece

namespace Layout

/-- A text with line feeds for all its line ends. -/
def plainLines : List Char → List Char
  | '\r' :: '\n' :: rest => '\n' :: plainLines rest
  | '\r' :: rest => '\n' :: plainLines rest
  | c :: rest => c :: plainLines rest
  | [] => []

/-- What stands before the closing braces, and what follows them. -/
def untilClose : List Char → Option (List Char × List Char)
  | [] => none
  | '\x7d' :: '\x7d' :: rest => some ([], rest)
  | c :: rest => (untilClose rest).map fun (inside, after) => (c :: inside, after)

theorem length_untilClose {cs inside after : List Char}
    (h : untilClose cs = some (inside, after)) : after.length < cs.length := by
  fun_induction untilClose cs generalizing inside after with
  | case1 => simp at h
  | case2 rest =>
    simp only [Option.some.injEq, Prod.mk.injEq] at h
    obtain ⟨-, rfl⟩ := h
    simp only [List.length_cons]
    omega
  | case3 c rest _ ih =>
    obtain ⟨⟨i, a⟩, hi, he⟩ := Option.map_eq_some_iff.1 h
    simp only [Prod.mk.injEq] at he
    obtain ⟨-, rfl⟩ := he
    have := ih hi
    simp only [List.length_cons]
    omega

/-- A placeholder: a name and filters with bars between them. -/
def placeholderOf (inside : List Char) : Piece :=
  match (Text.splitOnChar '|' inside).map fun part => String.ofList (Text.trim part) with
  | [] => .placeholder "" []
  | name :: filters => .placeholder name filters

/-- The pieces of a text; braces that are not closed are text. -/
def pieces (cs : List Char) : Layout :=
  match cs with
  | [] => []
  | '\x7b' :: '\x7b' :: rest =>
    match h : untilClose rest with
    | some (inside, after) =>
      have := length_untilClose h
      placeholderOf inside :: pieces after
    | none => [.text cs]
  | c :: rest => .text [c] :: pieces rest
  termination_by cs.length

/-- The layout of a text. -/
def ofText (text : String) : Layout :=
  pieces (plainLines text.toList)

/-- A value after its filters. -/
def filtered (value : Json) : List String → Except Cause Json
  | [] => .ok value
  | name :: rest =>
    match Filter.ofName? name with
    | none => .error (.unknownPlaceholder name)
    | some f =>
      match f.apply value with
      | .ok s => filtered (.str s) rest
      | .error e => .error (.misfit e)

/-- The text of a piece. -/
def pieceText (values : Values) : Piece → Except Cause String
  | .text text => .ok (String.ofList text)
  | .placeholder name filters =>
    match values.get? name with
    | none => .error (.unknownPlaceholder name)
    | some value => (filtered value filters).map Json.display

/-- The text of a layout with its values. -/
def render (values : Values) : Layout → Except Cause String
  | [] => .ok ""
  | piece :: rest => do
    let text ← pieceText values piece
    let more ← render values rest
    return text ++ more

end Layout

end ApiClient.Page
