import ApiClient.Proofs.Template.Printing
import Mathlib

/-!
# Cutting a source at a line feed

No lexeme but a run reads a line feed that stands outside of quotes. So where a text splits into lexemes by
itself, what stands behind it and a line feed is read by itself too (`atomsFrom_append_newline`), and
the place where it begins shows in nothing but the lines of its nodes (`exists_alike`).
-/

namespace ApiClient

/-- The column behind a text does not depend on the line that it begins in. -/
theorem Position.column_after {p q : Position} (h : p.column = q.column) (cs : List Char) :
    (p.after cs).column = (q.after cs).column := by
  induction cs generalizing p q with
  | nil => exact h
  | cons c rest ih =>
    refine ih (p := p.step c) (q := q.step c) ?_
    rw [step, step, h]
    split_ifs <;> rfl

namespace Template

/-! ## Lexemes from the front -/

/-- The lexemes of a text, the first of which begins at `p`. -/
inductive Lexes : Position → List Char → List (Lexeme × Position) → Prop
  | nil (p : Position) : Lexes p [] []
  | cons {p : Position} {text rest : List Char} {l : Lexeme} {ls : List (Lexeme × Position)}
    (hl : IsLexeme text l) (hrest : MayFollow l rest) (h : Lexes (p.after text) rest ls) :
    Lexes p (text ++ rest) ((l, p) :: ls)

variable {p q : Position} {l : Lexeme} {ls : List (Lexeme × Position)} {cs text rest : List Char}
  {atoms : List Atom} {c : String} {line : List Char}

theorem Lexes.lexemes_eq (h : Lexes p cs ls) : lexemes p cs = .ok ls := by
  induction h with
  | nil p => rw [lexemes]
  | cons hl hrest _ ih =>
    rw [lexemes_append hl hrest, ih]
    rfl

theorem lexes_of_lexemes (h : lexemes p cs = .ok ls) : Lexes p cs ls := by
  -- what is left gets shorter with every lexeme
  induction hlength : cs.length using Nat.strong_induction_on generalizing p cs ls with
  | _ n ih =>
    cases cs with
    | nil =>
      rw [lexemes] at h
      obtain rfl := Except.ok.inj h
      exact .nil p
    | cons c tail =>
      cases hlexeme : lexeme c tail with
      | error e =>
        obtain ⟨e', he'⟩ := exists_error_of_breaksOff (lexeme_eq_error_iff.1 ⟨e, hlexeme⟩) p
        rw [he'] at h
        cases h
      | ok found =>
        obtain ⟨l, rest⟩ := found
        have hless := Nat.lt_succ_of_le (length_lexeme hlexeme).1
        obtain ⟨text, hl, hrest, htext⟩ := lexeme_eq_ok_iff.1 hlexeme
        rw [htext, lexemes_append hl hrest] at h
        obtain ⟨more, hmore, rfl⟩ := exists_of_map h
        rw [htext]
        exact .cons hl hrest (ih rest.length (hlength ▸ hless) hmore rfl)

theorem atomsFrom_eq_ok_iff :
    atomsFrom p cs = .ok atoms ↔ ∃ ls, Lexes p cs ls ∧ atomsOf ls = atoms := by
  constructor
  · intro h
    obtain ⟨ls, hls, rfl⟩ := exists_of_map h
    exact ⟨ls, lexes_of_lexemes hls, rfl⟩
  · rintro ⟨ls, hls, rfl⟩
    rw [atomsFrom, hls.lexemes_eq]
    rfl

/-! ## Line feeds -/

theorem IsGap.percent_notMem {gap : List Char} (h : IsGap gap) : '%' ∉ gap := fun hmem =>
  absurd (h _ hmem) (by decide)

theorem IsGap.newline_notMem {gap : List Char} (h : IsGap gap) : '\n' ∉ gap := fun hmem =>
  absurd (h _ hmem) (by decide)

theorem IsName.newline_notMem {name : List Char} (h : IsName name) : '\n' ∉ name := fun hmem =>
  absurd (h.isNameChar _ hmem) (by decide)

/-- What a percent sign needs to open something stands in one line. -/
theorem Opens.exists_front (h : Opens cs) :
    ∃ front rest, cs = front ++ rest ∧ '\n' ∉ front ∧ ∀ more, Opens (front ++ more) := by
  cases h with
  | percent rest => exact ⟨['%'], rest, rfl, by decide, .percent⟩
  | wholeLine rest => exact ⟨['~'], rest, rfl, by decide, .wholeLine⟩
  | @slot name hslot rest =>
    refine ⟨name ++ ['%'], rest, by simp, by simp [hslot.newline_notMem], fun more => ?_⟩
    simpa using Opens.slot hslot more
  | @inline name gap hinline hgap rest =>
    have hclear := hgap.newline_notMem
    refine ⟨name ++ (gap ++ ['-', '>']), rest, by simp, by simp [hinline.newline_notMem, hclear],
      fun more => ?_⟩
    simpa using Opens.inline hinline hgap more

theorem not_opens_append_newline (h : ¬Opens cs) (rest : List Char) :
    ¬Opens (cs ++ '\n' :: rest) := by
  intro hopens
  obtain ⟨front, more, heq, hfront, hall⟩ := hopens.exists_front
  rcases List.append_eq_append_iff.1 heq with ⟨beyond, rfl, hline⟩ | ⟨inside, rfl, -⟩
  · cases beyond with
    | nil => exact h (by simpa using hall [])
    | cons d after =>
      obtain ⟨rfl, -⟩ := List.cons.inj hline
      exact hfront (by simp)
  · exact h (hall inside)

/-- A lexeme is the first one also if a line feed stands behind what follows it. -/
theorem atomsFrom_append_of_newline (hl : IsLexeme text l) (hrest : MayFollow l rest) (p : Position)
    (more : List Char) : atomsFrom p (text ++ (rest ++ '\n' :: more)) =
      (atomsFrom (p.after text) (rest ++ '\n' :: more)).map (l.atoms p ++ ·) := by
  cases hl with
  | run hne hpercent => exact atomsFrom_plain hpercent p _
  | lone => exact atomsFrom_append .lone (not_opens_append_newline hrest more) p
  | percent => exact atomsFrom_append .percent trivial p
  | slot hname => exact atomsFrom_append (.slot hname) trivial p
  | inline hname hgap hbody => exact atomsFrom_append (.inline hname hgap hbody) trivial p
  | wholeLine hname hgap hbody => exact atomsFrom_append (.wholeLine hname hgap hbody) trivial p

/-- What stands behind a text and a line feed is read by itself. -/
theorem atomsFrom_append_newline (h : atomsFrom p cs = .ok atoms) (rest : List Char) :
    atomsFrom p (cs ++ '\n' :: rest) =
      (atomsFrom ((p.after cs).step '\n') rest).map (atoms ++ .inl '\n' :: ·) := by
  obtain ⟨ls, hls, rfl⟩ := atomsFrom_eq_ok_iff.1 h
  clear h
  induction hls with
  | nil p => exact atomsFrom_cons (by decide) p rest
  | @cons p text after l ls hl hafter _ ih =>
    rw [List.append_assoc, atomsFrom_append_of_newline hl hafter, ih, Position.after_append]
    cases atomsFrom (((p.after text).after after).step '\n') rest with
    | error e => rfl
    | ok more => simp [Except.map, atomsOf]

/-! ## Lines -/

/-- The same atom, but perhaps in another line. -/
inductive Alike : Atom → Atom → Prop
  | char (c : Char) : Alike (.inl c) (.inl c)
  | placeholder (name : String) (p q : Position) :
    Alike (.inr (.placeholder name p)) (.inr (.placeholder name q))
  | conditional (name body : String) (wholeLine : Bool) {p q : Position} (h : p.column = q.column) :
    Alike (.inr (.conditional name body wholeLine p)) (.inr (.conditional name body wholeLine q))

theorem alike_atoms (l : Lexeme) (h : p.column = q.column) :
    List.Forall₂ Alike (l.atoms p) (l.atoms q) := by
  cases l with
  | percent | lone => exact .cons (.char '%') .nil
  | run text =>
    rw [Lexeme.atoms, Lexeme.atoms, List.forall₂_map_left_iff, List.forall₂_map_right_iff,
      List.forall₂_same]
    exact fun c _ => .char c
  | slot name => exact .cons (.placeholder _ p q) .nil
  | branch name body wholeLine => exact .cons (.conditional _ _ _ h) .nil

/-- A text that begins in the same column of another line has the same atoms, in other lines. -/
theorem exists_alike (h : atomsFrom p cs = .ok atoms) (hcolumn : p.column = q.column) :
    ∃ atoms', atomsFrom q cs = .ok atoms' ∧ List.Forall₂ Alike atoms atoms' := by
  obtain ⟨ls, hls, rfl⟩ := atomsFrom_eq_ok_iff.1 h
  clear h
  suffices hlexes : ∃ ls', Lexes q cs ls' ∧ List.Forall₂ Alike (atomsOf ls) (atomsOf ls') by
    obtain ⟨ls', hls', halike⟩ := hlexes
    exact ⟨atomsOf ls', atomsFrom_eq_ok_iff.2 ⟨ls', hls', rfl⟩, halike⟩
  induction hls generalizing q with
  | nil p => exact ⟨[], .nil q, .nil⟩
  | @cons p text rest l ls hl hrest _ ih =>
    obtain ⟨ls', hls', halike⟩ := ih (Position.column_after hcolumn text)
    refine ⟨(l, q) :: ls', .cons hl hrest hls', ?_⟩
    exact List.rel_append (alike_atoms l hcolumn) halike

/-! ## Conditionals on lines of their own -/

/-- A line with a whole-line conditional on `c` and nothing but spaces and tabs around it. -/
inductive IsBranchLine (c : String) : List Char → Prop
  | mk {before text behind body : List Char} (hbefore : IsGap before)
    (htext : IsLexeme text (.branch c.toList body true)) (hbehind : IsGap behind) :
    IsBranchLine c (before ++ (text ++ behind))

theorem IsBranchLine.exists_atomsFrom (h : IsBranchLine c line) (p : Position) :
    ∃ before behind body q, IsGap before ∧ IsGap behind ∧ atomsFrom p line =
      .ok (before.map .inl ++ .inr (.conditional c body true q) :: behind.map .inl) := by
  obtain ⟨hbefore, htext, hbehind⟩ := h
  rename_i before text behind body
  refine ⟨before, behind, String.ofList body, p.after before, hbefore, hbehind, ?_⟩
  have hlast := atomsFrom_plain hbehind.percent_notMem ((p.after before).after text) []
  rw [List.append_nil, atomsFrom_nil] at hlast
  rw [atomsFrom_plain hbefore.percent_notMem, atomsFrom_append htext trivial, hlast, Lexeme.atoms,
    String.ofList_toList]
  simp [Except.map]

end Template

end ApiClient
