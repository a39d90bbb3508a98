import ApiClient.Proofs.Template.Filling
import ApiClient.Proofs.Template.Marker
import Mathlib

/-!
# Indented texts

A text is moved to the right by putting blanks in front of each of its lines that is not blank (`moved`),
which goes through joining (`moved_join`) and adds up (`moved_moved`). A template that is built with a
greater indent gives the text it gives with a smaller one, with the rest of the blanks in front of the lines
after the first (`build_add_indent`).
-/

namespace ApiClient

namespace Template

open Text

variable {cs : List Char} {text : String}

/-! ## Lines -/

theorem joinLines_cons_of_ne_nil {lines : List (List Char)} (h : lines ≠ []) (line : List Char) :
    joinLines (line :: lines) = line ++ '\n' :: joinLines lines := by
  rw [joinLines]
  exact h

theorem joinLines_cons_append (front first : List Char) (rest : List (List Char)) :
    joinLines ((front ++ first) :: rest) = front ++ joinLines (first :: rest) := by
  cases rest with
  | nil => rfl
  | cons next rest => simp [joinLines]

/-- A text is put together of its lines. -/
theorem joinLines_splitOnChar (cs : List Char) : joinLines (splitOnChar '\n' cs) = cs := by
  induction cs with
  | nil => rfl
  | cons c rest ih =>
    obtain ⟨piece, more, hrest⟩ := List.exists_cons_of_ne_nil (splitOnChar_ne_nil '\n' rest)
    by_cases hc : c = '\n'
    · rw [splitOnChar, if_pos hc, joinLines_cons_of_ne_nil (splitOnChar_ne_nil '\n' rest), ih, hc]
      rfl
    · have hfirst := joinLines_cons_append [c] piece more
      rw [← hrest, ih] at hfirst
      rw [splitOnChar_cons_of_ne hc hrest]
      exact hfirst

/-- The lines of blocks, one block after another. -/
def linesOfBlocks (blocks : List String) : List (List Char) :=
  blocks.flatMap fun block => splitOnChar '\n' block.toList

theorem linesOfBlocks_append (a b : List String) :
    linesOfBlocks (a ++ b) = linesOfBlocks a ++ linesOfBlocks b :=
  List.flatMap_append

theorem linesOfBlocks_singleton (block : String) :
    linesOfBlocks [block] = splitOnChar '\n' block.toList := by
  rw [linesOfBlocks, List.flatMap_singleton]

theorem toList_join_lines {blocks : List String} (h : blocks ≠ []) (block : String) :
    (join "\n" (block :: blocks)).toList = block.toList ++ '\n' :: (join "\n" blocks).toList := by
  obtain ⟨next, more, rfl⟩ := List.exists_cons_of_ne_nil h
  simp [join_cons_cons, String.toList_append]

/-- Texts with line feeds between them have the lines of each. -/
theorem splitOnChar_join_lines {blocks : List String} (h : blocks ≠ []) :
    splitOnChar '\n' (join "\n" blocks).toList = linesOfBlocks blocks := by
  induction blocks with
  | nil => exact absurd rfl h
  | cons b rest ih =>
    cases rest with
    | nil => exact (linesOfBlocks_singleton b).symm
    | cons next rest =>
      have hne : next :: rest ≠ [] := List.cons_ne_nil next rest
      rw [toList_join_lines hne, splitOnChar_append, ih hne]
      rfl

/-- A line in front of texts is cut off from their lines. -/
theorem splitOnChar_append_join_lines {line : List Char} (hline : '\n' ∉ line) {blocks : List String}
    (h : blocks ≠ []) :
    splitOnChar '\n' (line ++ '\n' :: (join "\n" blocks).toList) = line :: linesOfBlocks blocks := by
  rw [splitOnChar_append, splitOnChar_of_notMem hline, splitOnChar_join_lines h, List.singleton_append]

/-- The lines of texts are put together to the texts with line feeds between them. -/
theorem joinLines_linesOfBlocks (blocks : List String) :
    joinLines (linesOfBlocks blocks) = (join "\n" blocks).toList := by
  by_cases h : blocks = []
  · rw [h]
    rfl
  · rw [← splitOnChar_join_lines h, joinLines_splitOnChar]

/-! ## Kept blocks -/

theorem keptLines_block {text : String} (h : Unmarked text.toList) :
    keptLines text.toList = linesOfBlocks [text] := by
  rw [keptLines_of_unmarked h, linesOfBlocks_singleton]

theorem newline_notMem_dropMarker : '\n' ∉ dropMarker := by
  decide

theorem keptLines_dropMarker {lead : List Char} (h : '\n' ∉ lead) : keptLines (lead ++ dropMarker) = [] := by
  refine keptLines_of_marked ?_ (List.suffix_append lead dropMarker).isInfix
  rw [List.mem_append]
  exact not_or.2 ⟨h, newline_notMem_dropMarker⟩

theorem keptLines_held {lead piece : List Char} (hlead : '\n' ∉ lead) {text : String}
    (htext : lead ++ piece = text.toList) (h : Unmarked text.toList) (b : Bool) :
    keptLines (lead ++ held b piece) = linesOfBlocks (if b then [text] else []) := by
  cases b with
  | true =>
    have hpiece : lead ++ held true piece = text.toList := htext
    rw [hpiece, keptLines_block h]
    rfl
  | false => exact keptLines_dropMarker hlead

/-- What is kept of a text without an indent are its kept lines with line feeds between them. -/
theorem ofList_finish_zero {blocks : List String} (h : keptLines cs = linesOfBlocks blocks) :
    String.ofList (finish 0 cs) = join "\n" blocks := by
  rw [finish_eq, Int.toNat_zero, indentLines_zero, h, joinLines_linesOfBlocks, String.ofList_toList]

/-! ## Moved lines -/

/-- A line with `n` more blanks in front of it. A blank line stays as it is. -/
def deeper (n : Nat) (line : List Char) : List Char :=
  if line.all isBlank then line else List.replicate n ' ' ++ line

/-- A text with `n` more blanks in front of every line that is not blank. -/
def moved (n : Nat) (text : String) : String :=
  String.ofList (joinLines ((splitOnChar '\n' text.toList).map (deeper n)))

/-- A text with `n` more blanks in front of every line after the first that is not blank. -/
def movedRest (n : Nat) (text : String) : String :=
  String.ofList (joinLines ((splitOnChar '\n' text.toList).take 1 ++
    ((splitOnChar '\n' text.toList).drop 1).map (deeper n)))

theorem indentLines_cons (n : Nat) (first : List Char) (rest : List (List Char)) :
    indentLines n (first :: rest) = first :: rest.map (deeper n) :=
  rfl

theorem deeper_nil (n : Nat) : deeper n [] = [] :=
  rfl

theorem isBlank_replicate (n : Nat) : (List.replicate n ' ').all isBlank = true :=
  List.all_eq_true.2 fun c hc => by rw [List.eq_of_mem_replicate hc]; rfl

theorem all_isBlank_deeper (n : Nat) (line : List Char) :
    (deeper n line).all isBlank = line.all isBlank := by
  rw [deeper]
  split_ifs
  · rfl
  · rw [List.all_append, isBlank_replicate, Bool.true_and]

theorem deeper_deeper (m n : Nat) (line : List Char) :
    deeper m (deeper n line) = deeper (n + m) line := by
  rw [deeper, all_isBlank_deeper, deeper, deeper]
  split_ifs
  · rfl
  · rw [← List.append_assoc, ← List.replicate_add, Nat.add_comm]

theorem newline_notMem_deeper {line : List Char} (h : '\n' ∉ line) (n : Nat) :
    '\n' ∉ deeper n line := by
  rw [deeper]
  split_ifs
  · exact h
  · rw [List.mem_append]
    exact not_or.2 ⟨fun hmem => absurd (List.eq_of_mem_replicate hmem) (by decide), h⟩

theorem splitOnChar_moved (n : Nat) (text : String) :
    splitOnChar '\n' (moved n text).toList = (splitOnChar '\n' text.toList).map (deeper n) := by
  rw [moved, String.toList_ofList]
  exact splitOnChar_joinLines _ (by simp [splitOnChar_ne_nil]) <| List.forall_mem_map.2 fun line hline =>
    newline_notMem_deeper (notMem_of_mem_splitOnChar hline) n

theorem eq_of_lines {a b : String} (h : splitOnChar '\n' a.toList = splitOnChar '\n' b.toList) :
    a = b := by
  refine String.toList_injective ?_
  rw [← joinLines_splitOnChar a.toList, h, joinLines_splitOnChar]

theorem moved_zero (text : String) : moved 0 text = text := by
  have hdeeper : ∀ line, deeper 0 line = line := fun line => by
    rw [deeper]
    split_ifs <;> rfl
  refine eq_of_lines ?_
  rw [splitOnChar_moved, List.map_congr_left fun line _ => hdeeper line, List.map_id']

theorem moved_moved (m n : Nat) (text : String) : moved m (moved n text) = moved (n + m) text := by
  refine eq_of_lines ?_
  simp only [splitOnChar_moved, List.map_map]
  exact List.map_congr_left fun line _ => deeper_deeper m n line

/-- Texts with an empty line between them have the lines of each, and the empty lines. -/
theorem splitOnChar_join_blank (s t : String) (rest : List String) :
    splitOnChar '\n' (join "\n\n" (s :: t :: rest)).toList =
      splitOnChar '\n' s.toList ++ [] :: splitOnChar '\n' (join "\n\n" (t :: rest)).toList := by
  have hcut : (join "\n\n" (s :: t :: rest)).toList =
      s.toList ++ '\n' :: ([] ++ '\n' :: (join "\n\n" (t :: rest)).toList) := by
    simp [join_cons_cons, String.toList_append]
  rw [hcut, splitOnChar_append, splitOnChar_append]
  rfl

/-- Texts with an empty line between them are moved one by one. -/
theorem moved_join (n : Nat) : ∀ texts : List String,
    moved n (join "\n\n" texts) = join "\n\n" (texts.map (moved n))
  | [] => rfl
  | [s] => rfl
  | s :: t :: rest => by
    have ih := moved_join n (t :: rest)
    refine eq_of_lines ?_
    rw [List.map_cons] at ih
    rw [splitOnChar_moved, List.map_cons, List.map_cons, splitOnChar_join_blank, splitOnChar_join_blank,
      ← ih, splitOnChar_moved, splitOnChar_moved, List.map_append, List.map_cons, deeper_nil]

/-! ## Blocks -/

/-- A text without the character of a marker whose first line is not blank. -/
structure IsBlock (text : String) : Prop where
  unmarked : Unmarked text.toList
  first_line : ∃ line rest, splitOnChar '\n' text.toList = line :: rest ∧ line.all isBlank = false

theorem isBlock_of_cons {c : Char} {rest : List Char} (htext : text.toList = c :: rest)
    (hc : isBlank c = false) (h : Unmarked text.toList) : IsBlock text := by
  obtain ⟨piece, more, hrest⟩ := List.exists_cons_of_ne_nil (splitOnChar_ne_nil '\n' rest)
  have hbreak : c ≠ '\n' := by
    rintro rfl
    exact absurd hc (by decide)
  refine ⟨h, c :: piece, more, ?_, by simp [hc]⟩
  rw [htext, splitOnChar_cons_of_ne hbreak hrest]

theorem unmarked_deeper {line : List Char} (h : Unmarked line) (n : Nat) : Unmarked (deeper n line) := by
  rw [deeper]
  split_ifs
  · exact h
  · exact unmarked_spaces n h

theorem unmarked_moved (h : Unmarked text.toList) (n : Nat) : Unmarked (moved n text).toList := by
  rw [moved, String.toList_ofList]
  exact unmarked_joinLines <| List.forall_mem_map.2 fun line hline =>
    unmarked_deeper (h.sublist (sublist_of_mem_splitOnChar hline)) n

/-- A block that stands behind some blanks, with that many blanks in front of its other lines. -/
theorem IsBlock.replicate_append_finish (h : IsBlock text) (n : Nat) :
    List.replicate n ' ' ++ finish n text.toList = (moved n text).toList := by
  obtain ⟨line, rest, hlines, hline⟩ := h.first_line
  have hfirst : deeper n line = List.replicate n ' ' ++ line := by
    rw [deeper, hline]
    rfl
  rw [finish_eq, keptLines_of_unmarked h.unmarked, Int.toNat_natCast, moved, String.toList_ofList,
    hlines, indentLines_cons, ← joinLines_cons_append, List.map_cons, hfirst]

/-- The lines of a block stand one after another in a text. -/
def HasBlock (text block : String) : Prop :=
  splitOnChar '\n' block.toList <:+: splitOnChar '\n' text.toList

theorem HasBlock.trans {a b c : String} (hab : HasBlock a b) (hbc : HasBlock b c) : HasBlock a c :=
  List.IsInfix.trans hbc hab

theorem HasBlock.moved {block : String} (h : HasBlock text block) (n : Nat) :
    HasBlock (Template.moved n text) (Template.moved n block) := by
  rw [HasBlock, splitOnChar_moved, splitOnChar_moved]
  exact List.IsInfix.map (deeper n) h

theorem hasBlock_join_lines {blocks : List String} {block : String} (h : block ∈ blocks) :
    HasBlock (join "\n" blocks) block := by
  rw [HasBlock, splitOnChar_join_lines (List.ne_nil_of_mem h)]
  obtain ⟨front, back, rfl⟩ := List.append_of_mem h
  exact ⟨linesOfBlocks front, linesOfBlocks back, by
    rw [linesOfBlocks_append, ← List.singleton_append, linesOfBlocks_append, linesOfBlocks_singleton,
      List.append_assoc]⟩

theorem isBlock_join {texts : List String} (hne : texts ≠ []) (h : ∀ text ∈ texts, IsBlock text) :
    IsBlock (join "\n\n" texts) := by
  refine ⟨unmarked_join (by decide) fun text htext => (h text htext).unmarked, ?_⟩
  match texts, hne, h with
  | [s], _, h => exact (h s List.mem_cons_self).first_line
  | s :: t :: rest, _, h =>
    obtain ⟨line, more, hlines, hline⟩ := (h s List.mem_cons_self).first_line
    exact ⟨line, _, by rw [splitOnChar_join_blank, hlines, List.cons_append], hline⟩

theorem hasBlock_join {texts : List String} {block : String} (h : block ∈ texts) :
    HasBlock (join "\n\n" texts) block := by
  induction texts with
  | nil => cases h
  | cons s rest ih =>
    cases rest with
    | nil =>
      obtain rfl := List.mem_singleton.1 h
      exact List.infix_rfl
    | cons t rest =>
      rw [HasBlock, splitOnChar_join_blank]
      rcases List.mem_cons.1 h with rfl | hrest
      · exact (List.prefix_append _ _).isInfix
      · exact List.IsInfix.trans (ih hrest)
          ((List.suffix_cons _ _).trans (List.suffix_append _ _)).isInfix

/-! ## Greater indents -/

theorem newline_notMem_of_mem_keptLines {line : List Char} (h : line ∈ keptLines cs) : '\n' ∉ line :=
  notMem_of_mem_splitOnChar (List.mem_of_mem_filter h)

theorem ofList_finish_add (a b : Nat) (cs : List Char) :
    String.ofList (finish (a + b : Nat) cs) = movedRest b (String.ofList (finish a cs)) := by
  rw [movedRest, String.toList_ofList, finish_eq, finish_eq, Int.toNat_natCast, Int.toNat_natCast]
  cases hkept : keptLines cs with
  | nil => rfl
  | cons first rest =>
    have hlines : splitOnChar '\n' (joinLines (first :: rest.map (deeper a))) =
        first :: rest.map (deeper a) := by
      have hline : ∀ line ∈ first :: rest, '\n' ∉ line := fun line hline =>
        @newline_notMem_of_mem_keptLines cs _ (hkept ▸ hline)
      obtain ⟨hfirst, hrest⟩ := List.forall_mem_cons.1 hline
      refine splitOnChar_joinLines _ (List.cons_ne_nil _ _) (List.forall_mem_cons.2 ⟨hfirst, ?_⟩)
      exact List.forall_mem_map.2 fun line hline => newline_notMem_deeper (hrest line hline) a
    rw [indentLines_cons, indentLines_cons, hlines, List.take_one, List.drop_one, List.tail_cons,
      List.map_map]
    simp [Function.comp_def, deeper_deeper]

/-- A template that is built with a greater indent. -/
theorem build_add_indent {t : Template} {values : Table Json} {a : Nat} {out : String}
    (h : t.build values (some a) = .ok out) (b : Nat) :
    t.build values (some (a + b : Nat)) = .ok (movedRest b out) := by
  obtain ⟨filled, hfill, rfl⟩ := exists_of_map h
  obtain ⟨found, text, hfound, htext, rfl⟩ := fill_eq_ok_iff.1 hfill
  rw [build, fill_eq_ok_iff.2 ⟨found, text, hfound, htext, rfl⟩]
  exact congrArg Except.ok (ofList_finish_add a b text)

end Template

end ApiClient
