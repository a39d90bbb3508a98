import ApiClient.Proofs.Template.Scanning
import Mathlib

/-!
# Printing a template

`print` writes nodes as a source: text with every percent sign doubled, placeholders between percent
signs, and the body of a conditional between quotes, with its backslashes, quotes, line feeds and tabs
escaped. Scanning what has been printed gives the nodes again, at the places they are printed at
(`scan_print`).
-/

namespace ApiClient.Template

/-! ## Printing -/

/-- A character of a body as it is written between quotes. -/
def escape : Char → List Char
  | '\\' => ['\\', '\\']
  | '"' => ['\\', '"']
  | '\n' => ['\\', 'n']
  | '\t' => ['\\', 't']
  | c => [c]

/-- A character of a text as it is written outside of placeholders. -/
def double (c : Char) : List Char :=
  if c = '%' then ['%', '%'] else [c]

/-- A body between quotes, behind a space. -/
def quoted (body : String) : List Char :=
  ' ' :: '"' :: (body.toList.flatMap escape ++ ['"'])

/-- A node as it is written. -/
def Node.written : Node → List Char
  | .text s => s.toList.flatMap double
  | .placeholder name _ => '%' :: (name.toList ++ ['%'])
  | .conditional name body false _ =>
    '%' :: (name.toList ++ ' ' :: '-' :: '>' :: (quoted body ++ ['%']))
  | .conditional name body true _ =>
    '%' :: '~' :: (name.toList ++ ' ' :: '-' :: '>' :: (quoted body ++ ['~', '%']))

/-- The source of nodes. -/
def print (nodes : List Node) : String :=
  String.ofList (nodes.flatMap Node.written)

/-- A node with the place `p`, if it has one. -/
def Node.moveTo (p : Position) : Node → Node
  | .text s => .text s
  | .placeholder name _ => .placeholder name p
  | .conditional name body wholeLine _ => .conditional name body wholeLine p

/-- The nodes at the places they are written at, the first at `p`. -/
def settle (p : Position) : List Node → List Node
  | [] => []
  | node :: rest => node.moveTo p :: settle (p.after node.written) rest

/-- A node whose name is a name of the grammar, if it has one. -/
def Node.IsNamed : Node → Prop
  | .text _ => True
  | .placeholder name _ => IsName name.toList
  | .conditional name _ _ _ => IsName name.toList

instance : DecidablePred Node.IsNamed
  | .text _ => isTrue trivial
  | .placeholder name _ => inferInstanceAs (Decidable (IsName name.toList))
  | .conditional name _ _ _ => inferInstanceAs (Decidable (IsName name.toList))

/-! ## Lexemes of what is written -/

variable {p : Position} {l : Lexeme} {text rest : List Char} {nodes : List Node}

/-- The atoms of a text that begins at `p`. -/
def atomsFrom (p : Position) (cs : List Char) : Except SyntaxError (List Atom) :=
  (lexemes p cs).map atomsOf

theorem scan_eq_merge (source : String) :
    scan source = (atomsFrom .start source.toList).map (merge []) := by
  rw [scan, atomsFrom]
  cases lexemes .start source.toList with
  | error e => rfl
  | ok ls => exact congrArg Except.ok (nodesAfter_eq [] ls)

theorem atomsFrom_nil (p : Position) : atomsFrom p [] = .ok [] := by
  rw [atomsFrom, lexemes]
  rfl

theorem atomsFrom_append (h : IsLexeme text l) (hrest : MayFollow l rest) (p : Position) :
    atomsFrom p (text ++ rest) = (atomsFrom (p.after text) rest).map (l.atoms p ++ ·) := by
  rw [atomsFrom, lexemes_append h hrest, atomsFrom]
  cases lexemes (p.after text) rest <;> rfl

theorem atomsFrom_run (h : '%' ∉ text) (hrest : ∀ c ∈ rest.head?, c = '%') (p : Position) :
    atomsFrom p (text ++ rest) = (atomsFrom (p.after text) rest).map (text.map .inl ++ ·) := by
  by_cases hne : text = []
  · subst hne
    exact (congrFun Except.map_id _).symm
  · exact atomsFrom_append (.run hne h) hrest p

theorem atomsFrom_cons {c : Char} (hc : c ≠ '%') (p : Position) (rest : List Char) :
    atomsFrom p (c :: rest) = (atomsFrom (p.step c) rest).map (.inl c :: ·) := by
  -- the character and the run behind it are one run
  have hfront : '%' ∉ rest.takeWhile (· ≠ '%') := fun hmem => by
    simpa using List.mem_takeWhile_imp hmem
  have hback : ∀ d ∈ (rest.dropWhile (· ≠ '%')).head?, d = '%' := fun d hd => by
    simpa using eq_false_of_mem_head?_dropWhile _ _ d hd
  have hlong := atomsFrom_run (List.not_mem_cons_of_ne_of_not_mem (Ne.symm hc) hfront) hback p
  have hshort := atomsFrom_run hfront hback (p.step c)
  rw [List.cons_append, List.takeWhile_append_dropWhile] at hlong
  rw [List.takeWhile_append_dropWhile] at hshort
  rw [hlong, hshort, Position.after, List.foldl_cons, ← Position.after]
  cases atomsFrom ((p.step c).after (rest.takeWhile (· ≠ '%'))) (rest.dropWhile (· ≠ '%')) <;> rfl

theorem atomsFrom_plain (h : '%' ∉ text) (p : Position) (rest : List Char) :
    atomsFrom p (text ++ rest) = (atomsFrom (p.after text) rest).map (text.map .inl ++ ·) := by
  induction text generalizing p with
  | nil => exact (congrFun Except.map_id _).symm
  | cons c more ih =>
    obtain ⟨hc, hmore⟩ := List.ne_and_not_mem_of_not_mem_cons h
    have hplace : p.after (c :: more) = (p.step c).after more := rfl
    rw [List.cons_append, atomsFrom_cons hc.symm, ih hmore, hplace]
    cases atomsFrom ((p.step c).after more) rest <;> rfl

theorem atomsFrom_double (text rest : List Char) (p : Position) :
    atomsFrom p (text.flatMap double ++ rest) =
      (atomsFrom (p.after (text.flatMap double)) rest).map (text.map .inl ++ ·) := by
  induction text generalizing p with
  | nil => exact (congrFun Except.map_id _).symm
  | cons c more ih =>
    have hfirst : ∀ rest, atomsFrom p (double c ++ rest) =
        (atomsFrom (p.after (double c)) rest).map (.inl c :: ·) := fun rest => by
      by_cases hc : c = '%'
      · rw [hc]
        exact atomsFrom_append .percent trivial p
      · rw [double, if_neg hc]
        exact atomsFrom_cons hc p rest
    rw [List.flatMap_cons, List.append_assoc, hfirst, ih, Position.after_append]
    cases atomsFrom ((p.after (double c)).after (more.flatMap double)) rest <;> rfl

theorem denotes_escape (body : List Char) : Denotes (body.flatMap escape) body := by
  induction body with
  | nil => exact .nil
  | cons c more ih =>
    rw [List.flatMap_cons]
    unfold escape
    split
    · exact .backslash ih
    · exact .quote ih
    · exact .newline ih
    · exact .tab ih
    · exact .plain ‹_› ‹_› ‹_› ih

theorem isGap_space : IsGap [' '] :=
  List.forall_mem_singleton.2 rfl

theorem isBody_quoted (body : String) : IsBody (quoted body) body.toList :=
  .mk isGap_space (denotes_escape body.toList) fun _ h => absurd h List.not_mem_nil

/-- A node that is written is read again, at the place it is written at. -/
theorem atomsFrom_written {node : Node} (h : node.IsNamed) (p : Position) (rest : List Char) :
    atomsFrom p (node.written ++ rest) =
      (atomsFrom (p.after node.written) rest).map ((node.moveTo p).atoms ++ ·) := by
  cases node with
  | text s => exact atomsFrom_double s.toList rest p
  | placeholder name q =>
    have hlexeme := IsLexeme.slot h
    rw [Node.written, atomsFrom_append hlexeme trivial, Lexeme.atoms, String.ofList_toList]
    rfl
  | conditional name body wholeLine q =>
    cases wholeLine with
    | false =>
      have hlexeme := IsLexeme.inline h isGap_space (isBody_quoted body)
      have hfollow : MayFollow (.branch name.toList body.toList false) rest := trivial
      have hread := atomsFrom_append hlexeme hfollow p
      rw [Lexeme.atoms, String.ofList_toList, String.ofList_toList] at hread
      exact hread
    | true =>
      have hlexeme := IsLexeme.wholeLine h isGap_space (isBody_quoted body)
      have hfollow : MayFollow (.branch name.toList body.toList true) rest := trivial
      have hread := atomsFrom_append hlexeme hfollow p
      rw [Lexeme.atoms, String.ofList_toList, String.ofList_toList] at hread
      exact hread

theorem atomsFrom_print (h : ∀ node ∈ nodes, node.IsNamed) (p : Position) :
    atomsFrom p (nodes.flatMap Node.written) = .ok ((settle p nodes).flatMap Node.atoms) := by
  induction nodes generalizing p with
  | nil => exact atomsFrom_nil p
  | cons node rest ih =>
    obtain ⟨hnode, hrest⟩ := List.forall_mem_cons.1 h
    rw [List.flatMap_cons, atomsFrom_written hnode, ih hrest]
    rfl

/-! ## Places -/

theorem map_moveTo_settle (p q : Position) (nodes : List Node) :
    (settle p nodes).map (Node.moveTo q) = nodes.map (Node.moveTo q) := by
  induction nodes generalizing p with
  | nil => rfl
  | cons node rest ih =>
    rw [settle, List.map_cons, ih, List.map_cons]
    cases node <;> rfl

theorem isText_moveTo (p : Position) (node : Node) : (node.moveTo p).IsText ↔ node.IsText := by
  cases node <;> rfl

theorem merged_map_moveTo (p : Position) : Merged (nodes.map (Node.moveTo p)) ↔ Merged nodes := by
  have hempty : .text "" ∈ nodes.map (Node.moveTo p) ↔ .text "" ∈ nodes := by
    rw [List.mem_map]
    constructor
    · rintro ⟨node, hnode, heq⟩
      cases node with
      | text s => exact heq ▸ hnode
      | placeholder name q => cases heq
      | conditional name body wholeLine q => cases heq
    · exact fun h => ⟨_, h, rfl⟩
  have hapart : (nodes.map (Node.moveTo p)).IsChain (fun a b => ¬ (a.IsText ∧ b.IsText)) ↔
      nodes.IsChain fun a b => ¬ (a.IsText ∧ b.IsText) := by
    simp only [List.isChain_map, isText_moveTo]
  exact ⟨fun ⟨h, h'⟩ => ⟨mt hempty.2 h, hapart.1 h'⟩, fun ⟨h, h'⟩ => ⟨mt hempty.1 h, hapart.2 h'⟩⟩

/-- Scanning gives nodes that have been printed again, up to their places, if no text is empty, no two
texts meet, and the names are names. -/
theorem scan_print (hmerged : Merged nodes) (hnames : ∀ node ∈ nodes, node.IsNamed) :
    ∃ found, scan (print nodes) = .ok found ∧
      found.map (Node.moveTo .start) = nodes.map (Node.moveTo .start) := by
  have hplaces := map_moveTo_settle .start .start nodes
  have hsettled : Merged (settle .start nodes) := by
    rwa [← merged_map_moveTo .start, hplaces, merged_map_moveTo]
  refine ⟨settle .start nodes, ?_, hplaces⟩
  rw [scan_eq_merge, print, String.toList_ofList, atomsFrom_print hnames]
  exact congrArg Except.ok (merge_atoms hsettled)

/-- Nodes that meet at percent signs, and a body that reads like a template. -/
def bordered : List Node :=
  [.text "~%", .conditional "c" "\"%x%\"\\\n" true .start, .placeholder "x" .start,
    .placeholder "y1" .start, .text "%~ z%"]

theorem scan_print_bordered : (Merged bordered ∧ ∀ node ∈ bordered, node.IsNamed) ∧
    ∃ found, scan (print bordered) = .ok found ∧
      found.map (Node.moveTo .start) = bordered.map (Node.moveTo .start) := by
  have hmerged : Merged bordered := ⟨by decide, by decide⟩
  have hnames : ∀ node ∈ bordered, node.IsNamed := by decide +kernel
  exact ⟨⟨hmerged, hnames⟩, scan_print hmerged hnames⟩

end ApiClient.Template
