import ApiClient.Template.Position
import ApiClient.Text.Replace

/-!
# Lexemes of a template

A template is text with placeholders. `lexeme` reads the lexeme that begins a text:

* `%%`, a literal percent sign;
* `%name%`, a placeholder;
* `%name -> "body"%`, a conditional in a line;
* `%~name -> "body"~%`, a conditional that stands for whole lines;
* a run of characters without a percent sign;
* a percent sign that opens none of these, and costs only itself.

Spaces and tabs may stand around the arrow and before the closing sign. After `%~`, and after a
name and an arrow, the rest of a conditional has to follow.

`length_lexeme` says that a lexeme takes at least one character, and that the body of a
conditional is shorter than the text that held it.
-/

namespace ApiClient.Template

open Text

/-- What was expected where a conditional breaks off. -/
inductive Expected where
  | identifier | arrow | quotedString | closingQuote | wholeLineEnd | inlineEnd
  deriving DecidableEq, Repr

/-- A lexeme by its value. -/
inductive Lexeme where
  | percent
  | lone
  | run (text : List Char)
  | slot (name : List Char)
  | branch (name body : List Char) (wholeLine : Bool)
  deriving DecidableEq, Repr

/-! ## Pieces of a placeholder -/

/-- A character that may begin a placeholder's name. -/
def isNameStart (c : Char) : Bool :=
  c.isAlpha || c = '_'

/-- A character of a placeholder's name. -/
def isNameChar (c : Char) : Bool :=
  c.isAlphanum || c = '_'

/-- A blank that may stand around an arrow. -/
def isSpace (c : Char) : Bool :=
  c = ' ' || c = '\t'

/-- The name that begins a text, empty when there is none. -/
def nameOf : List Char → List Char
  | [] => []
  | c :: rest => if isNameStart c then c :: rest.takeWhile isNameChar else []

/-- A text from its first character on that is no space or tab. -/
def skipSpaces (cs : List Char) : List Char :=
  cs.dropWhile isSpace

/-- The characters an escape stands for; an unknown one stands for itself. -/
def unescape (c : Char) : List Char :=
  if c = 'n' then ['\n']
  else if c = 't' then ['\t']
  else if c = '"' then ['"']
  else if c = '\\' then ['\\']
  else ['\\', c]

/-- The value of a string after its opening quote, and what follows its closing quote. A string
does not go beyond its line. -/
def stringBody : List Char → Option (List Char × List Char)
  | [] => none
  | ['\\'] => none
  | '\\' :: c :: rest => (stringBody rest).map fun (body, rest) => (unescape c ++ body, rest)
  | c :: rest =>
    if c = '"' then some ([], rest)
    else if c = '\n' then none
    else (stringBody rest).map fun (body, rest) => (c :: body, rest)

/-- Where a conditional breaks off: what was expected, and the text from there on. -/
abbrev Break := Expected × List Char

/-- The value of a quoted string at the front of `cs`. -/
def quotedString (cs : List Char) : Except Break (List Char × List Char) :=
  match cs with
  | '"' :: rest =>
    match stringBody rest with
    | some found => .ok found
    | none => .error (.closingQuote, cs)
  | _ => .error (.quotedString, cs)

/-- What follows `front` in `cs`. -/
def expect (front : List Char) (expected : Expected) (cs : List Char) :
    Except Break (List Char) :=
  match dropFront? front cs with
  | some rest => .ok rest
  | none => .error (expected, cs)

/-- A conditional from the body on: the body, and what follows the closing sign. -/
def conditionalBody (close : List Char) (expected : Expected) (cs : List Char) :
    Except Break (List Char × List Char) :=
  match quotedString (skipSpaces cs) with
  | .error e => .error e
  | .ok (body, rest) =>
    match expect close expected (skipSpaces rest) with
    | .error e => .error e
    | .ok rest => .ok (body, rest)

/-! ## Lexemes -/

/-- A whole-line conditional after `%~`. -/
def wholeLineLexeme (cs : List Char) : Except Break (Lexeme × List Char) :=
  let name := nameOf cs
  if name = [] then .error (.identifier, cs)
  else
    match expect ['-', '>'] .arrow (skipSpaces (cs.drop name.length)) with
    | .error e => .error e
    | .ok rest =>
      match conditionalBody ['~', '%'] .wholeLineEnd rest with
      | .error e => .error e
      | .ok (body, rest) => .ok (.branch name body true, rest)

/-- A placeholder or a conditional in a line, after `%`. -/
def inlineLexeme (cs : List Char) : Except Break (Lexeme × List Char) :=
  let name := nameOf cs
  if name = [] then .ok (.lone, cs)
  else
    match cs.drop name.length with
    | '%' :: rest => .ok (.slot name, rest)
    | after =>
      match dropFront? ['-', '>'] (skipSpaces after) with
      | none => .ok (.lone, cs)
      | some rest =>
        match conditionalBody ['%'] .inlineEnd rest with
        | .error e => .error e
        | .ok (body, rest) => .ok (.branch name body false, rest)

/-- The lexeme that begins with `c`, followed by `cs`. -/
def lexeme (c : Char) (cs : List Char) : Except Break (Lexeme × List Char) :=
  if c = '%' then
    match cs with
    | '%' :: rest => .ok (.percent, rest)
    | '~' :: rest => wholeLineLexeme rest
    | _ => inlineLexeme cs
  else .ok (.run (c :: cs.takeWhile (· ≠ '%')), cs.dropWhile (· ≠ '%'))

/-! ## Lengths -/

theorem length_dropWhile_le (p : Char → Bool) (cs : List Char) :
    (cs.dropWhile p).length ≤ cs.length :=
  (List.dropWhile_sublist p).length_le

theorem length_unescape_le (c : Char) : (unescape c).length ≤ 2 := by
  unfold unescape
  repeat' split
  all_goals simp

/-- A string's value and the rest together are shorter than the text they were read from. -/
theorem length_stringBody {cs body rest : List Char} (h : stringBody cs = some (body, rest)) :
    body.length + rest.length < cs.length := by
  fun_induction stringBody cs generalizing body rest with
  | case1 => simp at h
  | case2 => simp at h
  | case3 c tail ih =>
    obtain ⟨⟨b, r⟩, hb, he⟩ := Option.map_eq_some_iff.1 h
    simp only [Prod.mk.injEq] at he
    obtain ⟨rfl, rfl⟩ := he
    have := ih hb
    have := length_unescape_le c
    simp only [List.length_append, List.length_cons]
    omega
  | case4 => simp_all
  | case5 => simp at h
  | case6 c tail _ _ _ _ ih =>
    obtain ⟨⟨b, r⟩, hb, he⟩ := Option.map_eq_some_iff.1 h
    simp only [Prod.mk.injEq] at he
    obtain ⟨rfl, rfl⟩ := he
    have := ih hb
    simp only [List.length_cons]
    omega

theorem length_quotedString {cs body rest : List Char}
    (h : quotedString cs = .ok (body, rest)) : body.length + rest.length < cs.length := by
  unfold quotedString at h
  split at h
  · split at h
    · rename_i tail _ found hs
      simp only [Except.ok.injEq] at h
      subst h
      have := length_stringBody hs
      simp only [List.length_cons]
      omega
    · simp at h
  · simp at h

theorem length_expect_le {front cs rest : List Char} {e : Expected}
    (h : expect front e cs = .ok rest) : rest.length ≤ cs.length := by
  unfold expect at h
  split at h
  · rename_i r hr
    simp only [Except.ok.injEq] at h
    subst h
    have := length_of_dropFront? hr
    omega
  · simp at h

theorem length_conditionalBody {close cs body rest : List Char} {e : Expected}
    (h : conditionalBody close e cs = .ok (body, rest)) :
    body.length < cs.length ∧ rest.length < cs.length := by
  unfold conditionalBody at h
  have hs : (skipSpaces cs).length ≤ cs.length := length_dropWhile_le _ _
  split at h
  · simp at h
  · rename_i b r hq
    have := length_quotedString hq
    split at h
    · simp at h
    · rename_i r' hr
      simp only [Except.ok.injEq, Prod.mk.injEq] at h
      obtain ⟨rfl, rfl⟩ := h
      have := length_expect_le hr
      have : (skipSpaces r).length ≤ r.length := length_dropWhile_le _ _
      omega

theorem length_skipSpaces_drop_le (n : Nat) (cs : List Char) :
    (skipSpaces (cs.drop n)).length ≤ cs.length :=
  Nat.le_trans (length_dropWhile_le _ _) (by simp)

theorem length_wholeLineLexeme {cs rest : List Char} {l : Lexeme}
    (h : wholeLineLexeme cs = .ok (l, rest)) :
    rest.length ≤ cs.length ∧ ∀ name body w, l = .branch name body w → body.length < cs.length := by
  unfold wholeLineLexeme at h
  dsimp only at h
  split at h
  · cases h
  split at h
  · cases h
  rename_i behind harrow
  split at h
  · cases h
  rename_i body rest hbody
  obtain ⟨rfl, rfl⟩ := Prod.mk.inj (Except.ok.inj h)
  have := length_expect_le harrow
  have := length_skipSpaces_drop_le (nameOf cs).length cs
  have := length_conditionalBody hbody
  refine ⟨by omega, ?_⟩
  rintro name body w ⟨⟩
  omega

theorem length_inlineLexeme {cs rest : List Char} {l : Lexeme}
    (h : inlineLexeme cs = .ok (l, rest)) :
    rest.length ≤ cs.length ∧ ∀ name body w, l = .branch name body w → body.length < cs.length := by
  unfold inlineLexeme at h
  dsimp only at h
  split at h
  · obtain ⟨rfl, rfl⟩ := Prod.mk.inj (Except.ok.inj h)
    exact ⟨Nat.le_refl _, by simp⟩
  have hdrop : (cs.drop (nameOf cs).length).length ≤ cs.length := by simp
  split at h
  · rename_i rest hclose
    obtain ⟨rfl, rfl⟩ := Prod.mk.inj (Except.ok.inj h)
    rw [hclose, List.length_cons] at hdrop
    exact ⟨by omega, by simp⟩
  split at h
  -- without an arrow the percent sign stands alone
  · obtain ⟨rfl, rfl⟩ := Prod.mk.inj (Except.ok.inj h)
    exact ⟨Nat.le_refl _, by simp⟩
  rename_i behind harrow
  split at h
  · cases h
  rename_i body rest hbody
  obtain ⟨rfl, rfl⟩ := Prod.mk.inj (Except.ok.inj h)
  have := length_of_dropFront? harrow
  have := length_skipSpaces_drop_le (nameOf cs).length cs
  have := length_conditionalBody hbody
  refine ⟨by omega, ?_⟩
  rintro name body w ⟨⟩
  omega

/-- A lexeme takes at least its first character, and the body of a conditional is shorter than
the text it was read from. -/
theorem length_lexeme {c : Char} {cs rest : List Char} {l : Lexeme}
    (h : lexeme c cs = .ok (l, rest)) :
    rest.length ≤ cs.length ∧ ∀ name body w, l = .branch name body w → body.length < cs.length := by
  unfold lexeme at h
  split at h
  · split at h
    · obtain ⟨rfl, rfl⟩ := Prod.mk.inj (Except.ok.inj h)
      exact ⟨by simp, by simp⟩
    · obtain ⟨hrest, hbody⟩ := length_wholeLineLexeme h
      exact ⟨Nat.le_succ_of_le hrest, fun name body w hl => Nat.lt_succ_of_lt (hbody name body w hl)⟩
    · exact length_inlineLexeme h
  · obtain ⟨rfl, rfl⟩ := Prod.mk.inj (Except.ok.inj h)
    exact ⟨length_dropWhile_le _ _, by simp⟩

end ApiClient.Template
