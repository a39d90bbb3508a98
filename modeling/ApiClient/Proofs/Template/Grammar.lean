import ApiClient.Template.Lexeme
import Mathlib

/-!
# The grammar of templates

What may stand in a template, said without reading it: `IsLexeme text l` holds of the characters of a
lexeme and its value. A lone percent sign is one that opens nothing (`Opens`), and a text breaks off
(`BreaksOff`) where a sign opens a conditional that does not come to its end.

`lexeme_eq_ok_iff` says that the reader takes exactly these lexemes off the front of a text, and
`lexeme_eq_error_iff` that it fails exactly where the text breaks off.
-/

namespace ApiClient.Template

open Text

/-! ## The grammar -/

/-- A name: a letter or an underscore, then such characters and digits. -/
inductive IsName : List Char → Prop
  | mk {c : Char} {more : List Char} (hstart : isNameStart c = true)
    (hmore : ∀ d ∈ more, isNameChar d = true) : IsName (c :: more)

instance : DecidablePred IsName
  | [] => isFalse nofun
  | c :: more => decidable_of_iff (isNameStart c = true ∧ more.all isNameChar = true)
    ⟨fun h => .mk h.1 (List.all_eq_true.1 h.2),
      fun ⟨hstart, hmore⟩ => ⟨hstart, List.all_eq_true.2 hmore⟩⟩

/-- A gap of spaces and tabs, which may be empty. -/
def IsGap (cs : List Char) : Prop :=
  ∀ c ∈ cs, isSpace c = true

/-- The characters between the quotes of a string, and what they stand for. A backslash that begins no
escape stands for itself, together with the character behind it. -/
inductive Denotes : List Char → List Char → Prop
  | nil : Denotes [] []
  | plain {c : Char} {written value : List Char} (hquote : c ≠ '"') (hslash : c ≠ '\\')
    (hline : c ≠ '\n') (h : Denotes written value) : Denotes (c :: written) (c :: value)
  | newline {written value : List Char} (h : Denotes written value) :
    Denotes ('\\' :: 'n' :: written) ('\n' :: value)
  | tab {written value : List Char} (h : Denotes written value) :
    Denotes ('\\' :: 't' :: written) ('\t' :: value)
  | quote {written value : List Char} (h : Denotes written value) :
    Denotes ('\\' :: '"' :: written) ('"' :: value)
  | backslash {written value : List Char} (h : Denotes written value) :
    Denotes ('\\' :: '\\' :: written) ('\\' :: value)
  | other {c : Char} {written value : List Char} (hc : c ∉ ['n', 't', '"', '\\'])
    (h : Denotes written value) : Denotes ('\\' :: c :: written) ('\\' :: c :: value)

/-- The quoted body of a conditional with the gaps around it, and its value. -/
inductive IsBody : List Char → List Char → Prop
  | mk {before written value behind : List Char} (hbefore : IsGap before)
    (hwritten : Denotes written value) (hbehind : IsGap behind) :
    IsBody (before ++ '"' :: (written ++ '"' :: behind)) value

/-- The characters of a lexeme, and its value. -/
inductive IsLexeme : List Char → Lexeme → Prop
  | percent : IsLexeme ['%', '%'] .percent
  | lone : IsLexeme ['%'] .lone
  | run {text : List Char} (hne : text ≠ []) (h : '%' ∉ text) : IsLexeme text (.run text)
  | slot {name : List Char} (hname : IsName name) : IsLexeme ('%' :: (name ++ ['%'])) (.slot name)
  | inline {name gap body value : List Char} (hname : IsName name) (hgap : IsGap gap)
    (hbody : IsBody body value) :
    IsLexeme ('%' :: (name ++ (gap ++ '-' :: '>' :: (body ++ ['%'])))) (.branch name value false)
  | wholeLine {name gap body value : List Char} (hname : IsName name) (hgap : IsGap gap)
    (hbody : IsBody body value) :
    IsLexeme ('%' :: '~' :: (name ++ (gap ++ '-' :: '>' :: (body ++ ['~', '%']))))
      (.branch name value true)

/-- What follows a percent sign that is not alone. -/
inductive Opens : List Char → Prop
  | percent (rest : List Char) : Opens ('%' :: rest)
  | wholeLine (rest : List Char) : Opens ('~' :: rest)
  | slot {name : List Char} (hname : IsName name) (rest : List Char) : Opens (name ++ '%' :: rest)
  | inline {name gap : List Char} (hname : IsName name) (hgap : IsGap gap) (rest : List Char) :
    Opens (name ++ (gap ++ '-' :: '>' :: rest))

/-- What may follow a lexeme: nothing that a lone sign opens, and no more of a run. -/
def MayFollow : Lexeme → List Char → Prop
  | .lone, rest => ¬ Opens rest
  | .run _, rest => ∀ c ∈ rest.head?, c = '%'
  | _, _ => True

/-- A complete conditional begins the text. -/
def BeginsBranch (wholeLine : Bool) (cs : List Char) : Prop :=
  ∃ text name value rest, cs = text ++ rest ∧ IsLexeme text (.branch name value wholeLine)

/-- The text begins like a conditional and does not come to its end. -/
inductive BreaksOff : List Char → Prop
  | wholeLine {rest : List Char} (h : ¬ BeginsBranch true ('%' :: '~' :: rest)) :
    BreaksOff ('%' :: '~' :: rest)
  | inline {name gap rest : List Char} (hname : IsName name) (hgap : IsGap gap)
    (h : ¬ BeginsBranch false ('%' :: (name ++ (gap ++ '-' :: '>' :: rest)))) :
    BreaksOff ('%' :: (name ++ (gap ++ '-' :: '>' :: rest)))

/-! ## Characters of a class -/

section Class

variable {p : Char → Bool} {front rest : List Char}

theorem takeWhile_append_of_stop (hfront : ∀ c ∈ front, p c = true)
    (hrest : ∀ c ∈ rest.head?, p c = false) : (front ++ rest).takeWhile p = front := by
  rw [List.takeWhile_append_of_pos hfront]
  cases rest with
  | nil => simp
  | cons c more => simp [hrest c rfl]

theorem dropWhile_append_of_stop (hfront : ∀ c ∈ front, p c = true)
    (hrest : ∀ c ∈ rest.head?, p c = false) : (front ++ rest).dropWhile p = rest := by
  rw [List.dropWhile_append_of_pos hfront]
  cases rest with
  | nil => rfl
  | cons c more => simp [hrest c rfl]

theorem eq_false_of_mem_head?_dropWhile (p : Char → Bool) (cs : List Char) :
    ∀ c ∈ (cs.dropWhile p).head?, p c = false := by
  intro c hc
  have h := List.head?_dropWhile_not p cs
  rwa [Option.mem_def.1 hc] at h

end Class

variable {name gap body value text rest cs : List Char}

/-! ## Names and gaps -/

theorem IsName.isNameChar (h : IsName name) : ∀ c ∈ name, isNameChar c = true := by
  obtain ⟨hstart, hmore⟩ := h
  refine List.forall_mem_cons.2 ⟨?_, hmore⟩
  simp only [isNameStart, Template.isNameChar, Bool.or_eq_true, Char.isAlphanum] at hstart ⊢
  exact hstart.imp_left Or.inl

theorem nameOf_append (h : IsName name) (hrest : ∀ c ∈ rest.head?, isNameChar c = false) :
    nameOf (name ++ rest) = name := by
  obtain ⟨hstart, hmore⟩ := h
  rw [List.cons_append, nameOf, if_pos hstart, takeWhile_append_of_stop hmore hrest]

theorem isName_nameOf (h : nameOf cs ≠ []) :
    IsName (nameOf cs) ∧ cs = nameOf cs ++ cs.drop (nameOf cs).length := by
  cases cs with
  | nil => exact absurd rfl h
  | cons c more =>
    by_cases hstart : isNameStart c = true
    · rw [nameOf, if_pos hstart]
      have hmore : c :: more.takeWhile isNameChar <+: c :: more :=
        (List.prefix_cons_inj c).2 (List.takeWhile_prefix _)
      exact ⟨.mk hstart fun d hd => List.mem_takeWhile_imp hd,
        (List.prefix_iff_eq_append.1 hmore).symm⟩
    · rw [nameOf, if_neg hstart] at h
      exact absurd rfl h

theorem skipSpaces_append (hgap : IsGap gap) (hrest : ∀ c ∈ rest.head?, isSpace c = false) :
    skipSpaces (gap ++ rest) = rest :=
  dropWhile_append_of_stop hgap hrest

theorem exists_gap (cs : List Char) : ∃ gap, IsGap gap ∧ cs = gap ++ skipSpaces cs :=
  ⟨cs.takeWhile isSpace, fun _ hc => List.mem_takeWhile_imp hc,
    (List.takeWhile_append_dropWhile).symm⟩

/-- What a gap and an arrow begin with. -/
theorem eq_of_mem_head?_gap (hgap : IsGap gap) {c : Char} (hc : c ∈ (gap ++ '-' :: rest).head?) :
    c = ' ' ∨ c = '\t' ∨ c = '-' := by
  cases gap with
  | nil =>
    obtain rfl := Option.some.inj hc
    exact Or.inr (Or.inr rfl)
  | cons d more =>
    obtain rfl := Option.some.inj hc
    have hspace := hgap d List.mem_cons_self
    simp only [isSpace, Bool.or_eq_true, decide_eq_true_eq] at hspace
    exact hspace.imp_right Or.inl

/-! ## Strings -/

theorem denotes_unescape (c : Char) (h : Denotes text value) :
    Denotes ('\\' :: c :: text) (unescape c ++ value) := by
  unfold unescape
  split_ifs with hn ht hq hb
  · exact hn ▸ .newline h
  · exact ht ▸ .tab h
  · exact hq ▸ .quote h
  · exact hb ▸ .backslash h
  · exact .other (by simp [hn, ht, hq, hb]) h

theorem stringBody_escape {c : Char} :
    stringBody ('\\' :: c :: cs) =
      (stringBody cs).map fun (body, rest) => (unescape c ++ body, rest) := by
  rw [stringBody]

theorem stringBody_append (h : Denotes text value) (rest : List Char) :
    stringBody (text ++ '"' :: rest) = some (value, rest) := by
  induction h with
  | nil => simp [stringBody]
  | @plain c written value hquote hslash hline _ ih =>
    rw [List.cons_append, stringBody.eq_4, if_neg hquote, if_neg hline, ih]
    · rfl
    · exact fun h => absurd h hslash
    · exact fun _ _ h => absurd h hslash
  | newline _ ih => simp [stringBody_escape, ih, unescape]
  | tab _ ih => simp [stringBody_escape, ih, unescape]
  | quote _ ih => simp [stringBody_escape, ih, unescape]
  | backslash _ ih => simp [stringBody_escape, ih, unescape]
  | other hc _ ih =>
    simp only [List.mem_cons, List.not_mem_nil, or_false, not_or] at hc
    simp [stringBody_escape, ih, unescape, hc]

theorem exists_of_stringBody (h : stringBody cs = some (value, rest)) :
    ∃ text, Denotes text value ∧ cs = text ++ '"' :: rest := by
  fun_induction stringBody cs generalizing value rest with
  | case1 => cases h
  | case2 => cases h
  | case3 c tail ih =>
    obtain ⟨⟨b, r⟩, hb, he⟩ := Option.map_eq_some_iff.1 h
    obtain ⟨rfl, rfl⟩ := Prod.mk.inj he
    obtain ⟨text, htext, rfl⟩ := ih hb
    exact ⟨_, denotes_unescape c htext, rfl⟩
  | case4 tail =>
    obtain ⟨rfl, rfl⟩ := Prod.mk.inj (Option.some.inj h)
    exact ⟨[], .nil, rfl⟩
  | case5 => cases h
  | case6 c tail hend hslash hquote hline ih =>
    obtain ⟨⟨b, r⟩, hb, he⟩ := Option.map_eq_some_iff.1 h
    obtain ⟨rfl, rfl⟩ := Prod.mk.inj he
    obtain ⟨text, htext, rfl⟩ := ih hb
    refine ⟨c :: text, .plain hquote ?_ hline htext, rfl⟩
    rintro rfl
    obtain ⟨d, more, htail⟩ := List.exists_cons_of_ne_nil (l := text ++ '"' :: r) (by simp)
    exact hslash d more rfl htail

theorem quotedString_append (h : Denotes text value) (rest : List Char) :
    quotedString ('"' :: (text ++ '"' :: rest)) = .ok (value, rest) := by
  rw [quotedString, stringBody_append h]

theorem exists_of_quotedString (h : quotedString cs = .ok (value, rest)) :
    ∃ text, Denotes text value ∧ cs = '"' :: (text ++ '"' :: rest) := by
  unfold quotedString at h
  split at h
  · rename_i tail
    split at h
    · rename_i found hfound
      obtain rfl := Except.ok.inj h
      obtain ⟨text, htext, rfl⟩ := exists_of_stringBody hfound
      exact ⟨text, htext, rfl⟩
    · cases h
  · cases h

/-! ## Bodies -/

theorem expect_eq_ok_iff {front : List Char} {e : Expected} :
    expect front e cs = .ok rest ↔ cs = front ++ rest := by
  rw [expect, ← dropFront?_eq_some_iff]
  cases dropFront? front cs <;> simp

section Body

variable {c : Char} {close : List Char} {e : Expected}

theorem conditionalBody_append (hc : isSpace c = false) (h : IsBody body value) (rest : List Char) :
    conditionalBody (c :: close) e (body ++ c :: (close ++ rest)) = .ok (value, rest) := by
  obtain ⟨hbefore, hwritten, hbehind⟩ := h
  rename_i before written behind
  have hfront : skipSpaces (before ++ '"' :: (written ++ '"' :: (behind ++ c :: (close ++ rest)))) =
      '"' :: (written ++ '"' :: (behind ++ c :: (close ++ rest))) :=
    skipSpaces_append hbefore (by rintro d ⟨⟩; decide)
  have hback : skipSpaces (behind ++ c :: (close ++ rest)) = c :: (close ++ rest) :=
    skipSpaces_append hbehind (by rintro d ⟨⟩; exact hc)
  have hclose : expect (c :: close) e (c :: (close ++ rest)) = .ok rest := expect_eq_ok_iff.2 rfl
  simp only [List.append_assoc, List.cons_append, conditionalBody, hfront,
    quotedString_append hwritten, hback, hclose]

theorem exists_of_conditionalBody (h : conditionalBody close e cs = .ok (value, rest)) :
    ∃ body, IsBody body value ∧ cs = body ++ (close ++ rest) := by
  unfold conditionalBody at h
  obtain ⟨before, hbefore, hcs⟩ := exists_gap cs
  split at h
  · cases h
  · rename_i found after hquoted
    obtain ⟨written, hwritten, hskip⟩ := exists_of_quotedString hquoted
    obtain ⟨behind, hbehind, hafter⟩ := exists_gap after
    split at h
    · cases h
    · rename_i tail hclose
      obtain ⟨rfl, rfl⟩ := Prod.mk.inj (Except.ok.inj h)
      refine ⟨_, .mk hbefore hwritten hbehind, ?_⟩
      rw [hcs, hskip, hafter, expect_eq_ok_iff.1 hclose]
      simp

end Body

/-! ## Placeholders and conditionals -/

theorem IsName.ne_nil (h : IsName name) : name ≠ [] := by
  obtain ⟨-, -⟩ := h
  exact List.cons_ne_nil _ _

theorem nameOf_gap (hname : IsName name) (hgap : IsGap gap) :
    nameOf (name ++ (gap ++ '-' :: '>' :: rest)) = name := by
  refine nameOf_append hname fun c hc => ?_
  rcases eq_of_mem_head?_gap hgap hc with rfl | rfl | rfl <;> decide

theorem skipSpaces_arrow (hgap : IsGap gap) :
    skipSpaces (gap ++ '-' :: '>' :: rest) = '-' :: '>' :: rest :=
  skipSpaces_append hgap (by rintro c ⟨⟩; decide)

theorem wholeLineLexeme_eq_ok_iff {l : Lexeme} : wholeLineLexeme cs = .ok (l, rest) ↔
    ∃ name gap body value, IsName name ∧ IsGap gap ∧ IsBody body value ∧
      l = .branch name value true ∧
      cs = name ++ (gap ++ '-' :: '>' :: (body ++ '~' :: '%' :: rest)) := by
  constructor
  · intro h
    unfold wholeLineLexeme at h
    dsimp only at h
    split at h
    · cases h
    · rename_i hne
      obtain ⟨hname, hcs⟩ := isName_nameOf hne
      obtain ⟨gap, hgap, hafter⟩ := exists_gap (cs.drop (nameOf cs).length)
      split at h
      · cases h
      · rename_i tail harrow
        rw [expect_eq_ok_iff.1 harrow] at hafter
        split at h
        · cases h
        · rename_i value' rest' hclosed
          obtain ⟨rfl, rfl⟩ := Prod.mk.inj (Except.ok.inj h)
          obtain ⟨body, hbody, rfl⟩ := exists_of_conditionalBody hclosed
          exact ⟨_, gap, body, _, hname, hgap, hbody, rfl, hcs.trans (by rw [hafter]; rfl)⟩
  · rintro ⟨name, gap, body, value, hname, hgap, hbody, rfl, rfl⟩
    have harrow : expect ['-', '>'] .arrow ('-' :: '>' :: (body ++ '~' :: '%' :: rest)) =
        .ok (body ++ '~' :: '%' :: rest) := expect_eq_ok_iff.2 rfl
    have hclosed : conditionalBody ['~', '%'] .wholeLineEnd (body ++ '~' :: '%' :: rest) =
        .ok (value, rest) := conditionalBody_append (by decide) hbody rest
    simp only [wholeLineLexeme, nameOf_gap hname hgap, if_neg hname.ne_nil, List.drop_left' rfl,
      skipSpaces_arrow hgap, harrow, hclosed]

theorem inlineLexeme_slot (hname : IsName name) (rest : List Char) :
    inlineLexeme (name ++ '%' :: rest) = .ok (.slot name, rest) := by
  have hend : nameOf (name ++ '%' :: rest) = name :=
    nameOf_append hname (by rintro c ⟨⟩; decide)
  simp only [inlineLexeme, hend, if_neg hname.ne_nil, List.drop_left' rfl]

theorem inlineLexeme_arrow_eq_ok_iff (hname : IsName name) (hgap : IsGap gap) {l : Lexeme} :
    inlineLexeme (name ++ (gap ++ '-' :: '>' :: cs)) = .ok (l, rest) ↔
      ∃ body value, IsBody body value ∧ l = .branch name value false ∧
        cs = body ++ '%' :: rest := by
  have harrow : dropFront? ['-', '>'] ('-' :: '>' :: cs) = some cs := dropFront?_eq_some_iff.2 rfl
  simp only [inlineLexeme, nameOf_gap hname hgap, if_neg hname.ne_nil, List.drop_left' rfl]
  split
  · rename_i tail hpercent
    have hhead : '%' ∈ (gap ++ '-' :: '>' :: cs).head? := by
      rw [hpercent]
      rfl
    exact absurd (eq_of_mem_head?_gap hgap hhead) (by decide)
  · simp only [skipSpaces_arrow hgap, harrow]
    constructor
    · intro h
      split at h
      · cases h
      · rename_i value rest' hclosed
        obtain ⟨rfl, rfl⟩ := Prod.mk.inj (Except.ok.inj h)
        obtain ⟨body, hbody, rfl⟩ := exists_of_conditionalBody hclosed
        exact ⟨body, value, hbody, rfl, rfl⟩
    · rintro ⟨body, value, hbody, rfl, rfl⟩
      have hclosed : conditionalBody ['%'] .inlineEnd (body ++ '%' :: rest) = .ok (value, rest) :=
        conditionalBody_append (by decide) hbody rest
      rw [hclosed]

/-- A percent sign that opens nothing is alone. -/
theorem inlineLexeme_of_not_opens (h : ¬ Opens cs) : inlineLexeme cs = .ok (.lone, cs) := by
  unfold inlineLexeme
  dsimp only
  split
  · rfl
  · rename_i hne
    obtain ⟨hname, hcs⟩ := isName_nameOf hne
    split
    · rename_i tail hafter
      rw [hafter] at hcs
      exact absurd (hcs ▸ .slot hname tail) h
    · split
      · rfl
      · rename_i after _ tail harrow
        obtain ⟨gap, hgap, hafter⟩ := exists_gap (cs.drop (nameOf cs).length)
        rw [dropFront?_eq_some_iff.1 harrow] at hafter
        rw [hafter] at hcs
        exact absurd (hcs ▸ .inline hname hgap tail) h

/-! ## Lexemes -/

theorem lexeme_wholeLine (cs : List Char) : lexeme '%' ('~' :: cs) = wholeLineLexeme cs :=
  rfl

theorem lexeme_name (hname : IsName name) (rest : List Char) :
    lexeme '%' (name ++ rest) = inlineLexeme (name ++ rest) := by
  obtain ⟨hstart, -⟩ := hname
  unfold lexeme
  split
  · split
    · rename_i heq
      obtain ⟨rfl, -⟩ := List.cons.inj heq
      exact absurd hstart (by decide)
    · rename_i heq
      obtain ⟨rfl, -⟩ := List.cons.inj heq
      exact absurd hstart (by decide)
    · rfl
  · exact absurd rfl ‹_›

theorem lexeme_of_not_opens (h : ¬ Opens cs) : lexeme '%' cs = .ok (.lone, cs) := by
  unfold lexeme
  split
  · split
    · exact absurd (.percent _) h
    · exact absurd (.wholeLine _) h
    · exact inlineLexeme_of_not_opens h
  · exact absurd rfl ‹_›

theorem lexeme_run {c : Char} (hc : c ≠ '%') (cs : List Char) :
    lexeme c cs = .ok (.run (c :: cs.takeWhile (· ≠ '%')), cs.dropWhile (· ≠ '%')) := by
  unfold lexeme
  rw [if_neg hc]

/-- The reader takes what is a lexeme off the front of a text, if what is left may follow it. -/
theorem lexeme_of_isLexeme {c : Char} {l : Lexeme} (h : IsLexeme text l) (hrest : MayFollow l rest)
    (htext : c :: cs = text ++ rest) : lexeme c cs = .ok (l, rest) := by
  cases h with
  | percent =>
    obtain ⟨rfl, rfl⟩ := List.cons.inj htext
    rfl
  | lone =>
    obtain ⟨rfl, rfl⟩ := List.cons.inj htext
    exact lexeme_of_not_opens hrest
  | run hne hpercent =>
    obtain ⟨d, more, rfl⟩ := List.exists_cons_of_ne_nil hne
    rw [List.cons_append] at htext
    obtain ⟨rfl, rfl⟩ := List.cons.inj htext
    obtain ⟨hc, hmore⟩ := List.ne_and_not_mem_of_not_mem_cons hpercent
    have hfront : ∀ d ∈ more, decide (d ≠ '%') = true := fun d hd =>
      decide_eq_true fun heq => hmore (heq ▸ hd)
    have hback : ∀ d ∈ rest.head?, decide (d ≠ '%') = false := fun d hd => by
      simp [hrest d hd]
    rw [lexeme_run hc.symm, takeWhile_append_of_stop hfront hback,
      dropWhile_append_of_stop hfront hback]
  | slot hname =>
    simp only [List.cons_append, List.append_assoc, List.nil_append] at htext
    obtain ⟨rfl, rfl⟩ := List.cons.inj htext
    rw [lexeme_name hname]
    exact inlineLexeme_slot hname rest
  | inline hname hgap hbody =>
    simp only [List.cons_append, List.append_assoc, List.nil_append] at htext
    obtain ⟨rfl, rfl⟩ := List.cons.inj htext
    rw [lexeme_name hname]
    exact (inlineLexeme_arrow_eq_ok_iff hname hgap).2 ⟨_, _, hbody, rfl, rfl⟩
  | wholeLine hname hgap hbody =>
    simp only [List.cons_append, List.append_assoc, List.nil_append] at htext
    obtain ⟨rfl, rfl⟩ := List.cons.inj htext
    exact wholeLineLexeme_eq_ok_iff.2 ⟨_, _, _, _, hname, hgap, hbody, rfl, rfl⟩

/-- What the reader takes off the front of a text is a lexeme, and what is left may follow it. -/
theorem exists_of_lexeme {c : Char} {l : Lexeme} (h : lexeme c cs = .ok (l, rest)) :
    ∃ text, IsLexeme text l ∧ MayFollow l rest ∧ c :: cs = text ++ rest := by
  by_cases hc : c = '%'
  · subst hc
    by_cases hopens : Opens cs
    · cases hopens with
      | percent tail =>
        obtain ⟨rfl, rfl⟩ := Prod.mk.inj (Except.ok.inj h)
        exact ⟨_, .percent, trivial, rfl⟩
      | wholeLine tail =>
        rw [lexeme_wholeLine] at h
        obtain ⟨name, gap, body, value, hname, hgap, hbody, rfl, rfl⟩ :=
          wholeLineLexeme_eq_ok_iff.1 h
        exact ⟨_, .wholeLine hname hgap hbody, trivial, by simp⟩
      | slot hname tail =>
        rw [lexeme_name hname, inlineLexeme_slot hname] at h
        obtain ⟨rfl, rfl⟩ := Prod.mk.inj (Except.ok.inj h)
        exact ⟨_, .slot hname, trivial, by simp⟩
      | inline hname hgap tail =>
        rw [lexeme_name hname, inlineLexeme_arrow_eq_ok_iff hname hgap] at h
        obtain ⟨body, value, hbody, rfl, rfl⟩ := h
        exact ⟨_, .inline hname hgap hbody, trivial, by simp⟩
    · rw [lexeme_of_not_opens hopens] at h
      obtain ⟨rfl, rfl⟩ := Prod.mk.inj (Except.ok.inj h)
      exact ⟨_, .lone, hopens, rfl⟩
  · rw [lexeme_run hc] at h
    obtain ⟨rfl, rfl⟩ := Prod.mk.inj (Except.ok.inj h)
    refine ⟨_, .run (List.cons_ne_nil _ _) ?_, fun d hd => ?_, ?_⟩
    · refine List.not_mem_cons_of_ne_of_not_mem (Ne.symm hc) fun hmem => ?_
      simpa using List.mem_takeWhile_imp hmem
    · simpa using eq_false_of_mem_head?_dropWhile _ _ d hd
    · rw [List.cons_append, List.takeWhile_append_dropWhile]

theorem lexeme_eq_ok_iff {c : Char} {l : Lexeme} : lexeme c cs = .ok (l, rest) ↔
    ∃ text, IsLexeme text l ∧ MayFollow l rest ∧ c :: cs = text ++ rest :=
  ⟨exists_of_lexeme, fun ⟨_, htext, hrest, heq⟩ => lexeme_of_isLexeme htext hrest heq⟩

theorem not_beginsBranch_of_error {c : Char} {e : Break} (h : lexeme c cs = .error e)
    (wholeLine : Bool) : ¬ BeginsBranch wholeLine (c :: cs) := by
  rintro ⟨text, name, value, rest, heq, htext⟩
  rw [lexeme_of_isLexeme htext trivial heq] at h
  cases h

/-- The reader fails exactly where a conditional breaks off. -/
theorem lexeme_eq_error_iff {c : Char} :
    (∃ e, lexeme c cs = .error e) ↔ BreaksOff (c :: cs) := by
  constructor
  · rintro ⟨e, h⟩
    have hbranch := not_beginsBranch_of_error h
    by_cases hc : c = '%'
    · subst hc
      by_cases hopens : Opens cs
      · cases hopens with
        | percent tail => cases h
        | wholeLine tail => exact .wholeLine (hbranch true)
        | slot hname tail =>
          rw [lexeme_name hname, inlineLexeme_slot hname] at h
          cases h
        | inline hname hgap tail => exact .inline hname hgap (hbranch false)
      · rw [lexeme_of_not_opens hopens] at h
        cases h
    · rw [lexeme_run hc] at h
      cases h
  · intro h
    cases hlexeme : lexeme c cs with
    | error e => exact ⟨e, rfl⟩
    | ok found =>
      obtain ⟨l, rest⟩ := found
      cases h with
      | wholeLine hnone =>
        rw [lexeme_wholeLine] at hlexeme
        obtain ⟨name, gap, body, value, hname, hgap, hbody, rfl, rfl⟩ :=
          wholeLineLexeme_eq_ok_iff.1 hlexeme
        exact absurd ⟨_, _, _, rest, by simp, .wholeLine hname hgap hbody⟩ hnone
      | inline hname hgap hnone =>
        rw [lexeme_name hname, inlineLexeme_arrow_eq_ok_iff hname hgap] at hlexeme
        obtain ⟨body, value, hbody, rfl, rfl⟩ := hlexeme
        exact absurd ⟨_, _, _, rest, by simp, .inline hname hgap hbody⟩ hnone

end ApiClient.Template
