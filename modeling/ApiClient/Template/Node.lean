import ApiClient.Template.Lexeme

/-!
# Nodes of a template

`scan` reads a template into its nodes: literal text, placeholders and conditionals, each
placeholder with the position of its percent sign. Adjacent text is one node and no text node is
empty.

`length_body_lt` says that the body of a conditional is shorter than the template, so a template
inside a template comes to an end.
-/

namespace ApiClient.Template

/-- A node of a template. The body of a conditional is the text of a template of its own. -/
inductive Node where
  | text (text : String)
  | placeholder (name : String) (position : Position)
  | conditional (name body : String) (wholeLine : Bool) (position : Position)
  deriving DecidableEq, Repr

/-- A template that does not follow the grammar, and where. -/
structure SyntaxError where
  expected : Expected
  position : Position
  deriving DecidableEq, Repr

/-! ## Lexemes with their places -/

/-- The characters of `cs` in front of `rest`, which is an end of it. -/
def before (cs rest : List Char) : List Char :=
  cs.take (cs.length - rest.length)

/-- The lexemes of `cs` with the places where they begin, the first at `p`. -/
def lexemes (p : Position) (cs : List Char) : Except SyntaxError (List (Lexeme × Position)) :=
  match cs with
  | [] => .ok []
  | c :: tail =>
    match h : lexeme c tail with
    | .error (expected, rest) => .error ⟨expected, p.after (before (c :: tail) rest)⟩
    | .ok (l, rest) =>
      have : rest.length < (c :: tail).length := Nat.lt_succ_of_le (length_lexeme h).1
      match lexemes (p.after (before (c :: tail) rest)) rest with
      | .error e => .error e
      | .ok more => .ok ((l, p) :: more)
  termination_by cs.length
  decreasing_by exact this

/-! ## Nodes -/

/-- A text node, unless the text is empty. -/
def textNode (text : List Char) : List Node :=
  if text = [] then [] else [.text (String.ofList text)]

/-- The nodes of lexemes that follow the text `pending`. -/
def nodesAfter (pending : List Char) : List (Lexeme × Position) → List Node
  | [] => textNode pending
  | (.percent, _) :: rest => nodesAfter (pending ++ ['%']) rest
  | (.lone, _) :: rest => nodesAfter (pending ++ ['%']) rest
  | (.run text, _) :: rest => nodesAfter (pending ++ text) rest
  | (.slot name, p) :: rest =>
    textNode pending ++ .placeholder (String.ofList name) p :: nodesAfter [] rest
  | (.branch name body wholeLine, p) :: rest =>
    textNode pending ++
      .conditional (String.ofList name) (String.ofList body) wholeLine p :: nodesAfter [] rest

/-- The nodes of a template. -/
def scan (source : String) : Except SyntaxError (List Node) :=
  (lexemes .start source.toList).map (nodesAfter [])

/-! ## Lengths -/

theorem length_body_of_mem_lexemes {p q : Position} {cs name body : List Char} {w : Bool}
    {ls : List (Lexeme × Position)} (h : lexemes p cs = .ok ls)
    (hm : (.branch name body w, q) ∈ ls) : body.length < cs.length := by
  fun_induction lexemes p cs generalizing ls with
  | case1 =>
    simp only [Except.ok.injEq] at h
    subst h
    simp at hm
  | case2 => simp at h
  | case3 => simp at h
  | case4 p c tail l rest hl hlt more hmore ih =>
    simp only [Except.ok.injEq] at h
    subst h
    rcases List.mem_cons.1 hm with he | hm
    · have := (length_lexeme hl).2 name body w (by simp_all)
      simp only [List.length_cons]
      omega
    · have := ih hmore hm
      omega

theorem mem_nodesAfter {pending : List Char} {ls : List (Lexeme × Position)} {name body : String}
    {w : Bool} {q : Position} (h : .conditional name body w q ∈ nodesAfter pending ls) :
    ∃ n b, (Lexeme.branch n b w, q) ∈ ls ∧ body = String.ofList b := by
  have text : ∀ cs, Node.conditional name body w q ∉ textNode cs := by
    intro cs
    unfold textNode
    split <;> simp
  fun_induction nodesAfter pending ls with
  | case1 => exact absurd h (text _)
  | case2 _ _ _ ih | case3 _ _ _ ih | case4 _ _ _ _ ih =>
    obtain ⟨n, b, hm, hb⟩ := ih h
    exact ⟨n, b, List.mem_cons_of_mem _ hm, hb⟩
  | case5 _ _ _ _ ih =>
    rcases List.mem_append.1 h with h | h
    · exact absurd h (text _)
    · rcases List.mem_cons.1 h with h | h
      · simp at h
      · obtain ⟨n, b, hm, hb⟩ := ih h
        exact ⟨n, b, List.mem_cons_of_mem _ hm, hb⟩
  | case6 _ n b _ _ _ ih =>
    rcases List.mem_append.1 h with h | h
    · exact absurd h (text _)
    · rcases List.mem_cons.1 h with h | h
      · simp only [Node.conditional.injEq] at h
        obtain ⟨rfl, rfl, rfl, rfl⟩ := h
        exact ⟨n, b, List.mem_cons_self, rfl⟩
      · obtain ⟨n, b, hm, hb⟩ := ih h
        exact ⟨n, b, List.mem_cons_of_mem _ hm, hb⟩

/-- The body of a conditional is shorter than the template it stands in. -/
theorem length_body_lt {source name body : String} {w : Bool} {p : Position} {ns : List Node}
    (h : scan source = .ok ns) (hm : .conditional name body w p ∈ ns) :
    body.length < source.length := by
  unfold scan at h
  cases hl : lexemes .start source.toList with
  | error e => simp [hl, Except.map] at h
  | ok ls =>
    simp only [hl, Except.map, Except.ok.injEq] at h
    subst h
    obtain ⟨n, b, hn, rfl⟩ := mem_nodesAfter hm
    simpa [← String.length_toList] using length_body_of_mem_lexemes hl hn

end ApiClient.Template
