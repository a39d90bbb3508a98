import ApiClient.Proofs.Template.Assembly
import Mathlib

/-!
# Characters of a template

The marker of a line that is to go begins with a character of its own. Reading a template never makes
that character up: a source without it has nodes without it (`unmarked_scan`), and the template of such
a source has texts without it at every depth (`unmarked_of_hasText`). The pieces of a template are those
of its nodes, one by one, and the branch of a conditional is the template of its body, indented by the
column of the conditional (`isOfSource`).
-/

namespace ApiClient.Template

open Text

/-- A text without the character that a marker begins with. -/
def Unmarked (text : List Char) : Prop :=
  Char.ofNat 0 ∉ text

instance (text : List Char) : Decidable (Unmarked text) :=
  inferInstanceAs (Decidable (Char.ofNat 0 ∉ text))

variable {cs rest text : List Char}

theorem unmarked_append {a b : List Char} : Unmarked (a ++ b) ↔ Unmarked a ∧ Unmarked b := by
  simp only [Unmarked, List.mem_append, not_or]

theorem unmarked_cons {c : Char} : Unmarked (c :: cs) ↔ Char.ofNat 0 ≠ c ∧ Unmarked cs := by
  simp only [Unmarked, List.mem_cons, not_or, ne_eq]

theorem Unmarked.sublist (h : Unmarked cs) (hsub : rest.Sublist cs) : Unmarked rest :=
  fun hmem => h (hsub.subset hmem)

/-! ## Pieces of a placeholder -/

theorem unmarked_unescape {c : Char} (h : Char.ofNat 0 ≠ c) : Unmarked (unescape c) := by
  unfold unescape
  split_ifs
  iterate 4 decide
  simp [Unmarked, h]

theorem unmarked_stringBody {body : List Char} (h : stringBody cs = some (body, rest))
    (hcs : Unmarked cs) : Unmarked body ∧ Unmarked rest := by
  fun_induction stringBody cs generalizing body rest with
  | case1 => cases h
  | case2 => cases h
  | case3 c tail ih =>
    obtain ⟨⟨b, r⟩, hb, he⟩ := Option.map_eq_some_iff.1 h
    obtain ⟨rfl, rfl⟩ := Prod.mk.inj he
    obtain ⟨-, hc, htail⟩ := (unmarked_cons.1 hcs).imp_right unmarked_cons.1
    obtain ⟨hbody, hrest⟩ := ih hb htail
    exact ⟨unmarked_append.2 ⟨unmarked_unescape hc, hbody⟩, hrest⟩
  | case4 =>
    obtain ⟨rfl, rfl⟩ := Prod.mk.inj (Option.some.inj h)
    exact ⟨List.not_mem_nil, (unmarked_cons.1 hcs).2⟩
  | case5 => cases h
  | case6 c tail _ _ _ _ ih =>
    obtain ⟨⟨b, r⟩, hb, he⟩ := Option.map_eq_some_iff.1 h
    obtain ⟨rfl, rfl⟩ := Prod.mk.inj he
    obtain ⟨hc, htail⟩ := unmarked_cons.1 hcs
    obtain ⟨hbody, hrest⟩ := ih hb htail
    exact ⟨unmarked_cons.2 ⟨hc, hbody⟩, hrest⟩

theorem unmarked_quotedString {body : List Char} (h : quotedString cs = .ok (body, rest))
    (hcs : Unmarked cs) : Unmarked body ∧ Unmarked rest := by
  unfold quotedString at h
  split at h
  · rename_i tail
    split at h
    · rename_i found hfound
      obtain rfl := Except.ok.inj h
      exact unmarked_stringBody hfound (unmarked_cons.1 hcs).2
    · cases h
  · cases h

theorem sublist_of_dropFront? {front : List Char} (h : dropFront? front cs = some rest) :
    rest.Sublist cs := by
  rw [dropFront?_eq_some_iff.1 h]
  exact List.sublist_append_right _ _

theorem sublist_of_expect {front : List Char} {e : Expected} (h : expect front e cs = .ok rest) :
    rest.Sublist cs := by
  unfold expect at h
  split at h
  · rename_i r hr
    obtain rfl := Except.ok.inj h
    exact sublist_of_dropFront? hr
  · cases h

theorem unmarked_conditionalBody {close body : List Char} {e : Expected}
    (h : conditionalBody close e cs = .ok (body, rest)) (hcs : Unmarked cs) :
    Unmarked body ∧ Unmarked rest := by
  unfold conditionalBody at h
  split at h
  · cases h
  · rename_i b r hquoted
    obtain ⟨hbody, hr⟩ := unmarked_quotedString hquoted (hcs.sublist (List.dropWhile_sublist _))
    split at h
    · cases h
    · rename_i r' hclose
      obtain ⟨rfl, rfl⟩ := Prod.mk.inj (Except.ok.inj h)
      exact ⟨hbody, hr.sublist ((sublist_of_expect hclose).trans (List.dropWhile_sublist _))⟩

/-! ## Lexemes -/

/-- A lexeme whose text or body is unmarked. -/
def Lexeme.Unmarked : Lexeme → Prop
  | .run text => Template.Unmarked text
  | .branch _ body _ => Template.Unmarked body
  | _ => True

theorem unmarked_wholeLineLexeme {l : Lexeme} (h : wholeLineLexeme cs = .ok (l, rest))
    (hcs : Unmarked cs) : l.Unmarked ∧ Unmarked rest := by
  unfold wholeLineLexeme at h
  dsimp only at h
  split at h
  · cases h
  · split at h
    · cases h
    · rename_i r harrow
      have hr : Unmarked r := hcs.sublist
        ((sublist_of_expect harrow).trans ((List.dropWhile_sublist _).trans (List.drop_sublist _ _)))
      split at h
      · cases h
      · rename_i body r' hbody
        obtain ⟨rfl, rfl⟩ := Prod.mk.inj (Except.ok.inj h)
        exact unmarked_conditionalBody hbody hr

theorem unmarked_inlineLexeme {l : Lexeme} (h : inlineLexeme cs = .ok (l, rest))
    (hcs : Unmarked cs) : l.Unmarked ∧ Unmarked rest := by
  unfold inlineLexeme at h
  dsimp only at h
  split at h
  · obtain ⟨rfl, rfl⟩ := Prod.mk.inj (Except.ok.inj h)
    exact ⟨trivial, hcs⟩
  · have hafter : Unmarked (cs.drop (nameOf cs).length) := hcs.sublist (List.drop_sublist _ _)
    split at h
    · rename_i r hr
      obtain ⟨rfl, rfl⟩ := Prod.mk.inj (Except.ok.inj h)
      rw [hr] at hafter
      exact ⟨trivial, (unmarked_cons.1 hafter).2⟩
    · split at h
      · obtain ⟨rfl, rfl⟩ := Prod.mk.inj (Except.ok.inj h)
        exact ⟨trivial, hcs⟩
      · rename_i r hr
        have hr := hafter.sublist ((sublist_of_dropFront? hr).trans (List.dropWhile_sublist _))
        split at h
        · cases h
        · rename_i body r' hbody
          obtain ⟨rfl, rfl⟩ := Prod.mk.inj (Except.ok.inj h)
          exact unmarked_conditionalBody hbody hr

theorem unmarked_lexeme {c : Char} {l : Lexeme} (h : lexeme c cs = .ok (l, rest))
    (hcs : Unmarked (c :: cs)) : l.Unmarked ∧ Unmarked rest := by
  obtain ⟨hc, htail⟩ := unmarked_cons.1 hcs
  unfold lexeme at h
  split at h
  · split at h
    · obtain ⟨rfl, rfl⟩ := Prod.mk.inj (Except.ok.inj h)
      exact ⟨trivial, (unmarked_cons.1 htail).2⟩
    · exact unmarked_wholeLineLexeme h (unmarked_cons.1 htail).2
    · exact unmarked_inlineLexeme h htail
  · obtain ⟨rfl, rfl⟩ := Prod.mk.inj (Except.ok.inj h)
    exact ⟨unmarked_cons.2 ⟨hc, htail.sublist (List.takeWhile_sublist _)⟩,
      htail.sublist (List.dropWhile_sublist _)⟩

theorem unmarked_lexemes {p : Position} {ls : List (Lexeme × Position)}
    (h : lexemes p cs = .ok ls) (hcs : Unmarked cs) : ∀ l ∈ ls, l.1.Unmarked := by
  fun_induction lexemes p cs generalizing ls with
  | case1 =>
    obtain rfl := Except.ok.inj h
    exact fun l hl => absurd hl List.not_mem_nil
  | case2 => cases h
  | case3 => cases h
  | case4 p c tail l rest hlexeme _ more hmore ih =>
    obtain rfl := Except.ok.inj h
    obtain ⟨hl, hrest⟩ := unmarked_lexeme hlexeme hcs
    exact List.forall_mem_cons.2 ⟨hl, ih hmore hrest⟩

/-! ## Nodes -/

/-- A node whose text or body is unmarked. -/
def Node.Unmarked : Node → Prop
  | .text text => Template.Unmarked text.toList
  | .placeholder _ _ => True
  | .conditional _ body _ _ => Template.Unmarked body.toList

theorem unmarked_textNode (h : Unmarked text) : ∀ n ∈ textNode text, n.Unmarked := by
  unfold textNode
  split
  · exact fun n hn => absurd hn List.not_mem_nil
  · exact List.forall_mem_singleton.2 (by simpa [Node.Unmarked] using h)

theorem unmarked_nodesAfter {pending : List Char} {ls : List (Lexeme × Position)}
    (hpending : Unmarked pending) (hls : ∀ l ∈ ls, l.1.Unmarked) :
    ∀ n ∈ nodesAfter pending ls, n.Unmarked := by
  fun_induction nodesAfter pending ls with
  | case1 => exact unmarked_textNode hpending
  | case2 pending _ rest ih | case3 pending _ rest ih =>
    exact ih (unmarked_append.2 ⟨hpending, by decide⟩) (List.forall_mem_cons.1 hls).2
  | case4 pending text _ rest ih =>
    obtain ⟨htext, hrest⟩ := List.forall_mem_cons.1 hls
    exact ih (unmarked_append.2 ⟨hpending, htext⟩) hrest
  | case5 pending name p rest ih =>
    refine List.forall_mem_append.2 ⟨unmarked_textNode hpending, ?_⟩
    exact List.forall_mem_cons.2 ⟨trivial, ih List.not_mem_nil (List.forall_mem_cons.1 hls).2⟩
  | case6 pending name body w p rest ih =>
    obtain ⟨hbody, hrest⟩ := List.forall_mem_cons.1 hls
    refine List.forall_mem_append.2 ⟨unmarked_textNode hpending, ?_⟩
    exact List.forall_mem_cons.2
      ⟨by simpa [Node.Unmarked, Lexeme.Unmarked] using hbody, ih List.not_mem_nil hrest⟩

/-- The nodes of a source without the character are without it. -/
theorem unmarked_scan {source : String} {nodes : List Node} (h : scan source = .ok nodes)
    (hsource : Unmarked source.toList) : ∀ n ∈ nodes, n.Unmarked := by
  obtain ⟨ls, hls, rfl⟩ := exists_of_map h
  exact unmarked_nodesAfter List.not_mem_nil (unmarked_lexemes hls hsource)

/-! ## Pieces -/

variable {declarations : List Declaration}

/-- A template of a source: its pieces are those of the nodes of the source. -/
structure IsOfSource (declarations : List Declaration) (source : String) (indent : Int)
    (t : Template) : Prop where
  indent_eq : t.indent = indent
  parts : ∃ nodes, scan source = .ok nodes ∧ List.Forall₂ (IsPartOf declarations) nodes t.parts

theorem isOfSource {source : String} {indent : Int} {t : Template}
    (h : ofSource declarations source indent = .ok t) : IsOfSource declarations source indent t := by
  obtain ⟨nodes, hscan, hassembled⟩ := ofSource_eq_ok_iff.1 h
  exact ⟨hassembled.indent_eq, nodes, hscan, hassembled.parts⟩

/-! ## Texts -/

/-- A text of a template, of its own or of a branch. -/
inductive HasText : Template → String → Prop
  | here {t : Template} {text : String} (hmem : .text text ∈ t.parts) : HasText t text
  | inBranch {t body : Template} {name : String} {wholeLine : Bool} {text : String}
    (hmem : .branch name wholeLine body ∈ t.parts) (h : HasText body text) : HasText t text

theorem exists_node_of_mem {nodes : List Node} {parts : List (Part Template)}
    (h : List.Forall₂ (IsPartOf declarations) nodes parts) {part : Part Template}
    (hmem : part ∈ parts) : ∃ node ∈ nodes, IsPartOf declarations node part := by
  induction h with
  | nil => cases hmem
  | cons hpart _ ih =>
    rcases List.mem_cons.1 hmem with rfl | hmem
    · exact ⟨_, List.mem_cons_self, hpart⟩
    · obtain ⟨node, hnode, hpart'⟩ := ih hmem
      exact ⟨node, List.mem_cons_of_mem _ hnode, hpart'⟩

theorem unmarked_of_hasText {source : String} {indent : Int} {t : Template} {text : String}
    (h : ofSource declarations source indent = .ok t) (hsource : Unmarked source.toList)
    (htext : HasText t text) : Unmarked text.toList := by
  induction htext generalizing source indent with
  | here hmem =>
    obtain ⟨nodes, hscan, hparts⟩ := (isOfSource h).parts
    obtain ⟨_, hnode, hpart⟩ := exists_node_of_mem hparts hmem
    cases hpart with
    | text => exact unmarked_scan hscan hsource _ hnode
  | inBranch hmem _ ih =>
    obtain ⟨nodes, hscan, hparts⟩ := (isOfSource h).parts
    obtain ⟨_, hnode, hpart⟩ := exists_node_of_mem hparts hmem
    cases hpart with
    | branch hbody => exact ih hbody (unmarked_scan hscan hsource _ hnode)

end ApiClient.Template
