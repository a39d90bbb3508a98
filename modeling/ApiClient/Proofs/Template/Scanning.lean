import ApiClient.Proofs.Result
import ApiClient.Proofs.Template.Grammar
import ApiClient.Proofs.Template.Merging
import Mathlib

/-!
# Scanning a template

A source is scanned from the left, lexeme by lexeme (`Reaches`), until nothing is left or a conditional
breaks off (`exists_end`). So `scan` gives the merged nodes of the lexemes that a source splits into, each
with the place of its percent sign, and fails exactly when a conditional breaks off
(`scan_follows_grammar`).
-/

namespace ApiClient

/-- The place behind the characters of a text. -/
def Position.behind (done : List Char) : Position :=
  ⟨done.count '\n' + 1, (done.reverse.takeWhile (· ≠ '\n')).length⟩

theorem Position.after_append (p : Position) (front back : List Char) :
    p.after (front ++ back) = (p.after front).after back :=
  List.foldl_append

theorem Position.after_start (done : List Char) : Position.start.after done = .behind done := by
  induction done using List.reverseRecOn with
  | nil => rfl
  | append_singleton done c ih =>
    rw [after_append, ih, after, List.foldl_cons, List.foldl_nil, step]
    split_ifs with hc
    · simp [behind, hc]
    · simp [behind, hc]

namespace Template

/-! ## One lexeme -/

variable {p : Position} {l : Lexeme} {ls : List (Lexeme × Position)}
  {source text done rest cs : List Char}

theorem IsLexeme.ne_nil (h : IsLexeme text l) : text ≠ [] := by
  cases h with
  | run hne _ => exact hne
  | percent | lone | slot _ | inline _ _ _ | wholeLine _ _ _ => exact List.cons_ne_nil _ _

theorem before_append (text rest : List Char) : before (text ++ rest) rest = text := by
  rw [before, List.length_append, Nat.add_sub_cancel, List.take_left]

/-- The lexemes of a text are its first lexeme and those of what is left. -/
theorem lexemes_append (h : IsLexeme text l) (hrest : MayFollow l rest) (p : Position) :
    lexemes p (text ++ rest) = (lexemes (p.after text) rest).map ((l, p) :: ·) := by
  obtain ⟨c, more, rfl⟩ := List.exists_cons_of_ne_nil h.ne_nil
  have hlexeme := lexeme_of_isLexeme h hrest (List.cons_append ..).symm
  rw [List.cons_append, lexemes]
  split
  · rename_i heq
    rw [hlexeme] at heq
    cases heq
  · rename_i l' rest' heq
    obtain ⟨rfl, rfl⟩ := Prod.mk.inj (Except.ok.inj (hlexeme.symm.trans heq))
    have hbefore : before (c :: (more ++ rest)) rest = c :: more := before_append (c :: more) rest
    simp only [hbefore]
    cases lexemes (p.after (c :: more)) rest <;> rfl

theorem exists_error_of_breaksOff (h : BreaksOff cs) (p : Position) :
    ∃ e, lexemes p cs = .error e := by
  obtain ⟨c, more, rfl⟩ : ∃ c more, cs = c :: more := by
    cases h <;> exact ⟨_, _, rfl⟩
  obtain ⟨⟨expected, rest⟩, hlexeme⟩ := lexeme_eq_error_iff.2 h
  rw [lexemes]
  split
  · exact ⟨_, rfl⟩
  · rename_i heq
    rw [hlexeme] at heq
    cases heq

/-! ## The scan -/

/-- The scan of `source` has read the text `done` as the lexemes `ls`, each with the place of its first
character, and has come to `rest`. -/
inductive Reaches (source : List Char) :
    List (Lexeme × Position) → List Char → List Char → Prop
  | start : Reaches source [] [] source
  | step {ls : List (Lexeme × Position)} {done text rest : List Char} {l : Lexeme}
    (h : Reaches source ls done (text ++ rest)) (hl : IsLexeme text l) (hrest : MayFollow l rest) :
    Reaches source (ls ++ [(l, .behind done)]) (done ++ text) rest

theorem Reaches.eq_append (h : Reaches source ls done rest) : source = done ++ rest := by
  induction h with
  | start => rfl
  | step _ _ _ ih => rw [ih, List.append_assoc]

/-- The lexemes of the source are those read so far and those of what is left. -/
theorem Reaches.lexemes_eq (h : Reaches source ls done rest) :
    lexemes .start source = (lexemes (.behind done) rest).map (ls ++ ·) := by
  induction h with
  | start =>
    change lexemes .start source = (lexemes .start source).map _
    cases lexemes .start source <;> rfl
  | @step ls done text rest l _ hl hrest ih =>
    have hplace : (Position.behind done).after text = .behind (done ++ text) := by
      rw [← Position.after_start, ← Position.after_start, Position.after_append]
    rw [ih, lexemes_append hl hrest, hplace]
    cases lexemes (.behind (done ++ text)) rest with
    | error e => rfl
    | ok more => simp [Except.map]

/-- A scan comes to an end: nothing is left, or a conditional breaks off. -/
theorem Reaches.exists_end (h : Reaches source ls done rest) :
    ∃ ls done rest, Reaches source ls done rest ∧ (rest = [] ∨ BreaksOff rest) := by
  -- what is left gets shorter with every lexeme
  induction hlength : rest.length using Nat.strong_induction_on generalizing ls done rest with
  | _ n ih =>
    cases rest with
    | nil => exact ⟨ls, done, [], h, Or.inl rfl⟩
    | cons c more =>
      cases hlexeme : lexeme c more with
      | error e => exact ⟨ls, done, _, h, Or.inr (lexeme_eq_error_iff.1 ⟨e, hlexeme⟩)⟩
      | ok found =>
        obtain ⟨l, rest⟩ := found
        have hless := (length_lexeme hlexeme).1
        obtain ⟨text, hl, hrest, htext⟩ := lexeme_eq_ok_iff.1 hlexeme
        exact ih rest.length (hlength ▸ Nat.lt_succ_of_le hless) (.step (htext ▸ h) hl hrest) rfl

theorem scan_eq_error {ls : List (Lexeme × Position)} {source : String}
    (h : Reaches source.toList ls done rest) (hrest : BreaksOff rest) :
    ∃ e, scan source = .error e := by
  obtain ⟨e, he⟩ := exists_error_of_breaksOff hrest (.behind done)
  rw [scan, h.lexemes_eq, he]
  exact ⟨e, rfl⟩

theorem scan_eq_ok {source : String} (h : Reaches source.toList ls done []) :
    scan source = .ok (nodesAfter [] ls) := by
  rw [scan, h.lexemes_eq, lexemes]
  simp [Except.map]

/-- Scanning follows the grammar. It gives nodes exactly if the source splits from the left into lexemes
whose values they are, and it fails exactly if, behind such lexemes, a conditional breaks off. -/
theorem scan_follows_grammar (source : String) :
    (∀ nodes, scan source = .ok nodes ↔
      ∃ ls, Reaches source.toList ls source.toList [] ∧ Spells nodes ls) ∧
    ((∃ e, scan source = .error e) ↔
      ∃ ls done rest, Reaches source.toList ls done rest ∧ BreaksOff rest) := by
  have hstart : Reaches source.toList [] [] source.toList := .start
  obtain ⟨ls, done, rest, hreaches, rfl | hbreaks⟩ := hstart.exists_end
  · have hdone : source.toList = done := by simpa using hreaches.eq_append
    have hscan := scan_eq_ok hreaches
    subst hdone
    constructor
    · intro nodes
      constructor
      · intro h
        obtain rfl := Except.ok.inj (hscan.symm.trans h)
        exact ⟨ls, hreaches, spells_iff.2 rfl⟩
      · rintro ⟨ls', hreaches', hspells⟩
        rw [scan_eq_ok hreaches', spells_iff.1 hspells]
    · refine ⟨fun ⟨e, he⟩ => ?_, fun ⟨ls', done, rest, hreaches', hbreaks⟩ => ?_⟩
      · rw [hscan] at he
        cases he
      · exact scan_eq_error hreaches' hbreaks
  · obtain ⟨e, he⟩ := scan_eq_error hreaches hbreaks
    refine ⟨fun nodes => ⟨fun h => ?_, fun ⟨ls', hreaches', _⟩ => ?_⟩,
      fun _ => ⟨ls, done, rest, hreaches, hbreaks⟩, fun _ => ⟨e, he⟩⟩
    · rw [he] at h
      cases h
    · have hscan := scan_eq_ok hreaches'
      rw [he] at hscan
      cases hscan

end Template

end ApiClient
