import ApiClient.Proofs.Template.LineEnds
import Mathlib

/-!
# Templates inside templates

The body of a conditional is the source of a template of its own, which may hold conditionals again. It is
no piece of the source that it stands in: what stands there is its spelling in a string.
`IsBodyOf.length_lt` says that it is shorter all the same, so that templates inside templates come to an
end.

They come to an end soon. Where a quote stands behind `n` backslashes in a body, it is spelt with a
backslash before itself and before each of these (`Denotes.hasQuote`). So the backslashes are twice as many
with every template around, and a source that has templates `depth + 1` deep has at least `2 ^ depth`
characters (`Nested.two_pow_le_length`).
-/

namespace ApiClient.Template

variable {source body inner : String} {nodes : List Node} {depth n : Nat}
  {written value cs : List Char}

/-! ## Bodies -/

/-- A source is the body of a conditional in another one. -/
def IsBodyOf (body source : String) : Prop :=
  ∃ nodes name wholeLine p, scan source = .ok nodes ∧ .conditional name body wholeLine p ∈ nodes

theorem IsBodyOf.length_lt (h : IsBodyOf body source) : body.length < source.length := by
  obtain ⟨nodes, name, wholeLine, p, hscan, hmem⟩ := h
  exact length_body_lt hscan hmem

theorem isBodyOf_iff_of_scan (h : scan source = .ok nodes) : IsBodyOf body source ↔
    ∃ name wholeLine p, .conditional name body wholeLine p ∈ nodes := by
  constructor
  · rintro ⟨nodes', name, wholeLine, p, hscan, hmem⟩
    obtain rfl := Except.ok.inj (h.symm.trans hscan)
    exact ⟨name, wholeLine, p, hmem⟩
  · rintro ⟨name, wholeLine, p, hmem⟩
    exact ⟨nodes, name, wholeLine, p, h, hmem⟩

/-- Bodies of bodies come to an end, so what holds of a source if it holds of the bodies in it holds of every
source. -/
theorem wellFounded_isBodyOf : WellFounded IsBodyOf :=
  Subrelation.wf IsBodyOf.length_lt (measure String.length).wf

/-- A source is inside another one, so many templates deep. -/
inductive Nested : Nat → String → String → Prop where
  | self (source : String) : Nested 0 source source
  | inside {depth : Nat} {source body inner : String} (hbody : IsBodyOf body source)
    (h : Nested depth body inner) : Nested (depth + 1) source inner

/-! ## Backslashes before a quote -/

/-- Somewhere in the text a quote stands behind `n` backslashes at least. -/
def HasQuote (n : Nat) (cs : List Char) : Prop :=
  ∃ front back, cs = front ++ (List.replicate n '\\' ++ '"' :: back)

theorem HasQuote.append_left (h : HasQuote n cs) (front : List Char) : HasQuote n (front ++ cs) := by
  obtain ⟨before, back, rfl⟩ := h
  exact ⟨front ++ before, back, (List.append_assoc ..).symm⟩

theorem HasQuote.append_right (h : HasQuote n cs) (back : List Char) : HasQuote n (cs ++ back) := by
  obtain ⟨before, behind, rfl⟩ := h
  exact ⟨before, behind ++ back, by simp⟩

theorem HasQuote.lt_length (h : HasQuote n cs) : n < cs.length := by
  obtain ⟨front, back, rfl⟩ := h
  simp only [List.length_append, List.length_replicate, List.length_cons]
  omega

theorem hasQuote_cons_iff {c : Char} : HasQuote n (c :: cs) ↔
    (∃ back, c :: cs = List.replicate n '\\' ++ '"' :: back) ∨ HasQuote n cs := by
  constructor
  · rintro ⟨front, back, h⟩
    cases front with
    | nil => exact .inl ⟨back, h⟩
    | cons d front => exact .inr ⟨front, back, (List.cons.inj h).2⟩
  · rintro (⟨back, h⟩ | h)
    · exact ⟨[], back, h⟩
    · exact h.append_left [c]

/-- The first character of backslashes with a quote behind them. -/
theorem eq_of_cons_eq_replicate {c : Char} {back : List Char}
    (h : c :: cs = List.replicate n '\\' ++ '"' :: back) :
    (n = 0 ∧ c = '"') ∨ ∃ m, n = m + 1 ∧ c = '\\' ∧ cs = List.replicate m '\\' ++ '"' :: back := by
  cases n with
  | zero => exact .inl ⟨rfl, (List.cons.inj h).1⟩
  | succ m =>
    obtain ⟨hc, hcs⟩ := List.cons.inj h
    exact .inr ⟨m, rfl, hc, hcs⟩

/-- What begins with backslashes and a quote is spelt with a backslash before each of these. -/
theorem Denotes.hasQuote_of_replicate {back : List Char} (h : Denotes written value)
    (hvalue : value = List.replicate n '\\' ++ '"' :: back) : HasQuote (2 * n + 1) written := by
  suffices hbegins : ∃ rest, written = List.replicate (2 * n + 1) '\\' ++ '"' :: rest by
    obtain ⟨rest, rfl⟩ := hbegins
    exact ⟨[], rest, rfl⟩
  induction h generalizing n with
  | nil => simp at hvalue
  | plain hquote hslash _ _ _ =>
    obtain ⟨-, hc⟩ | ⟨_, -, hc, -⟩ := eq_of_cons_eq_replicate hvalue
    · exact absurd hc hquote
    · exact absurd hc hslash
  | newline _ _ | tab _ _ =>
    obtain ⟨-, hc⟩ | ⟨_, -, hc, -⟩ := eq_of_cons_eq_replicate hvalue <;> cases hc
  | @quote written _ _ _ =>
    obtain ⟨rfl, -⟩ | ⟨_, -, hc, -⟩ := eq_of_cons_eq_replicate hvalue
    · exact ⟨written, rfl⟩
    · cases hc
  | backslash _ ih =>
    obtain ⟨-, hc⟩ | ⟨m, rfl, -, hrest⟩ := eq_of_cons_eq_replicate hvalue
    · cases hc
    · obtain ⟨rest, rfl⟩ := ih hrest
      exact ⟨rest, rfl⟩
  | other hc _ _ =>
    -- the character behind the backslash is read with it, and is neither a quote nor a backslash
    obtain ⟨-, hslash⟩ | ⟨m, rfl, -, hrest⟩ := eq_of_cons_eq_replicate hvalue
    · cases hslash
    · obtain ⟨-, rfl⟩ | ⟨_, -, rfl, -⟩ := eq_of_cons_eq_replicate hrest <;> simp at hc

/-- The characters `front` stand for one character, at which the backslashes before the quote begin, or
behind which the quote stands. -/
theorem Denotes.hasQuote_append {c : Char} (front : List Char)
    (h : Denotes (front ++ written) (c :: value)) (hvalue : HasQuote n (c :: value))
    (hrest : HasQuote n value → HasQuote (2 * n + 1) written) :
    HasQuote (2 * n + 1) (front ++ written) := by
  obtain ⟨back, hfirst⟩ | hvalue := hasQuote_cons_iff.1 hvalue
  · exact h.hasQuote_of_replicate hfirst
  · exact (hrest hvalue).append_left front

/-- A quote behind `n` backslashes is spelt with `2 * n + 1` of them. -/
theorem Denotes.hasQuote (h : Denotes written value) (hvalue : HasQuote n value) :
    HasQuote (2 * n + 1) written := by
  induction h with
  | nil =>
    obtain ⟨front, back, hvalue⟩ := hvalue
    simp at hvalue
  | @plain c _ _ hquote hslash hline h ih =>
    exact (Denotes.plain hquote hslash hline h).hasQuote_append [c] hvalue ih
  | newline h ih => exact h.newline.hasQuote_append ['\\', 'n'] hvalue ih
  | tab h ih => exact h.tab.hasQuote_append ['\\', 't'] hvalue ih
  | quote h ih => exact h.quote.hasQuote_append ['\\', '"'] hvalue ih
  | backslash h ih => exact h.backslash.hasQuote_append ['\\', '\\'] hvalue ih
  | @other c _ _ hc h ih =>
    refine (Denotes.other hc h).hasQuote_append ['\\', c] hvalue fun hvalue => ?_
    obtain ⟨back, hsecond⟩ | hvalue := hasQuote_cons_iff.1 hvalue
    · obtain ⟨-, rfl⟩ | ⟨_, -, rfl, -⟩ := eq_of_cons_eq_replicate hsecond <;> simp at hc
    · exact ih hvalue

/-! ## Depths -/

/-- A body is spelt in the source between quotes. -/
theorem IsBodyOf.exists_denotes (h : IsBodyOf body source) : ∃ front written back,
    source.toList = front ++ '"' :: (written ++ '"' :: back) ∧ Denotes written body.toList := by
  obtain ⟨nodes, name, wholeLine, p, hscan, hmem⟩ := h
  obtain ⟨text, l, done, rest, hsource, hlexeme, hatoms⟩ :=
    exists_stands hscan hmem (by simp [Node.IsText])
  obtain ⟨name', -, hnode⟩ | ⟨name', value, wholeLine', rfl, hnode⟩ := slot_or_branch_of_atoms hatoms
  · cases hnode
  · obtain ⟨-, rfl, -, -⟩ := Node.conditional.inj hnode
    obtain ⟨opening, written, closing, rfl, -, -, hwritten⟩ := hlexeme.exists_string
    refine ⟨done ++ opening, written, closing ++ rest, by simp [hsource], ?_⟩
    rwa [String.toList_ofList]

theorem IsBodyOf.hasQuote_zero (h : IsBodyOf body source) : HasQuote 0 source.toList := by
  obtain ⟨front, written, back, hsource, -⟩ := h.exists_denotes
  exact ⟨front, written ++ '"' :: back, hsource⟩

theorem IsBodyOf.hasQuote (h : IsBodyOf body source) (hbody : HasQuote n body.toList) :
    HasQuote (2 * n + 1) source.toList := by
  obtain ⟨front, written, back, hsource, hwritten⟩ := h.exists_denotes
  rw [hsource, ← List.singleton_append, ← List.append_assoc]
  exact ((hwritten.hasQuote hbody).append_right _).append_left _

/-- A template that is deep inside another one is spelt with many backslashes before a quote. -/
theorem Nested.hasQuote (h : Nested (depth + 1) source inner) :
    HasQuote (2 ^ depth - 1) source.toList := by
  induction depth generalizing source with
  | zero =>
    cases h with
    | inside hbody _ => exact hbody.hasQuote_zero
  | succ depth ih =>
    cases h with
    | inside hbody h =>
      have hquote := hbody.hasQuote (ih h)
      have hpos : 0 < 2 ^ depth := Nat.two_pow_pos depth
      rwa [show 2 * (2 ^ depth - 1) + 1 = 2 ^ (depth + 1) - 1 by omega] at hquote

theorem Nested.two_pow_le_length (h : Nested (depth + 1) source inner) :
    2 ^ depth ≤ source.length := by
  have hlt := h.hasQuote.lt_length
  rw [String.length_toList] at hlt
  omega

end ApiClient.Template
