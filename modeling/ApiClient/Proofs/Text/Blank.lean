import ApiClient.Proofs.Text.Line
import ApiClient.Proofs.Text.Occurrence
import ApiClient.Text.Blank
import Mathlib

/-!
# White space and breaks

A text is what `trim` keeps of it between white space (`exists_trim`), and a text without white space
at its end keeps its last character (`isBlank_of_getLast?_trim`). `Lined` says how a text is made of its
lines and of the breaks behind them; what holds of a text exactly when it holds on both sides of every
break holds of the text exactly when it holds of its lines (`forall_linesOf_iff`), as a part without white
space that does not occur in it (`not_isInfix_iff_forall_linesOf`).
-/

namespace ApiClient.Text

variable {cs rest line : List Char} {lines : List (List Char)} {c : Char}

/-! ## White space -/

theorem isBlank_of_isLineBreak (h : isLineBreak c = true) : isBlank c = true := by
  simp only [isLineBreak, isBlank, Bool.or_eq_true, Bool.and_eq_true, decide_eq_true_eq] at h ⊢
  omega

theorem exists_trimEnd (cs : List Char) :
    ∃ back, cs = trimEnd cs ++ back ∧ ∀ c ∈ back, isBlank c = true := by
  induction cs with
  | nil => exact ⟨[], rfl, by simp⟩
  | cons c rest ih =>
    obtain ⟨back, hrest, hback⟩ := ih
    rw [trimEnd]
    cases hkept : trimEnd rest with
    | nil =>
      rw [hkept, List.nil_append] at hrest
      subst hrest
      by_cases hc : isBlank c = true
      · exact ⟨c :: rest, by simp [hc], by simpa [hc] using hback⟩
      · exact ⟨rest, by simp [hc], hback⟩
    | cons d kept => exact ⟨back, by rw [hkept] at hrest; rw [hrest]; rfl, hback⟩

theorem exists_trim (cs : List Char) : ∃ front back, cs = front ++ trim cs ++ back ∧
    (∀ c ∈ front, isBlank c = true) ∧ ∀ c ∈ back, isBlank c = true := by
  obtain ⟨back, hcs, hback⟩ := exists_trimEnd (trimStart cs)
  refine ⟨cs.takeWhile isBlank, back, ?_, fun c => List.mem_takeWhile_imp, hback⟩
  rw [List.append_assoc, trim, ← hcs, trimStart, List.takeWhile_append_dropWhile]

theorem isBlank_of_getLast?_trimEnd (h : (trimEnd cs).getLast? = some c) : isBlank c = false := by
  induction cs with
  | nil => cases h
  | cons d rest ih =>
    rw [trimEnd] at h
    cases hkept : trimEnd rest with
    | nil =>
      rw [hkept] at h
      by_cases hd : isBlank d = true
      · simp [hd] at h
      · simp only [hd] at h
        obtain rfl : d = c := by simpa using h
        simpa using hd
    | cons e kept =>
      rw [hkept] at h ih
      exact ih (by simpa using h)

theorem isBlank_of_getLast?_trim (h : (trim cs).getLast? = some c) : isBlank c = false :=
  isBlank_of_getLast?_trimEnd h

theorem isLineBreak_of_getLast?_trim (h : (trim cs).getLast? = some c) : isLineBreak c = false := by
  refine Bool.eq_false_iff.2 fun hc => ?_
  have hblank := isBlank_of_getLast?_trim h
  rw [isBlank_of_isLineBreak hc] at hblank
  cases hblank

theorem mem_of_mem_trim (h : c ∈ trim cs) : c ∈ cs := by
  obtain ⟨front, back, hcs, -⟩ := exists_trim cs
  rw [hcs]
  exact List.mem_append_left _ (List.mem_append_right _ h)

/-- A text whose last character is no blank keeps it. -/
theorem getLast?_trim (h : cs.getLast? = some c) (hc : isBlank c = false) :
    (trim cs).getLast? = some c := by
  have hblank : ∀ {part : List Char}, (∀ d ∈ part, isBlank d = true) → part.getLast? ≠ some c :=
    fun hall hlast => by
      rw [hall c (List.mem_of_getLast? hlast)] at hc
      cases hc
  obtain ⟨front, back, hcs, hfront, hback⟩ := exists_trim cs
  rw [hcs, List.getLast?_append, List.getLast?_append, Option.or_eq_some_iff,
    Option.or_eq_some_iff] at h
  rcases h with hlast | ⟨-, hlast | ⟨-, hlast⟩⟩
  · exact absurd hlast (hblank hback)
  · exact hlast
  · exact absurd hlast (hblank hfront)

theorem trim_ne_nil {text : String} (h : allBlank text = false) : trim text.toList ≠ [] := by
  intro htrim
  obtain ⟨front, back, hcs, hfront, hback⟩ := exists_trim text.toList
  rw [htrim, List.append_nil] at hcs
  refine Bool.eq_false_iff.1 h (List.all_eq_true.2 fun c hc => ?_)
  rw [hcs] at hc
  exact (List.mem_append.1 hc).elim (hfront c) (hback c)

/-- A word has no white space, and its characters are those of the text. -/
theorem of_mem_wordsFrom {begun word : List Char} (hbegun : ∀ c ∈ begun, isBlank c = false)
    (hword : word ∈ wordsFrom begun cs) (hc : c ∈ word) :
    isBlank c = false ∧ (c ∈ begun ∨ c ∈ cs) := by
  induction cs generalizing begun with
  | nil =>
    rw [wordsFrom] at hword
    split_ifs at hword
    · cases hword
    · obtain rfl := List.mem_singleton.1 hword
      exact ⟨hbegun c hc, .inl hc⟩
  | cons d rest ih =>
    have hnil := @ih [] (by simp)
    rw [wordsFrom] at hword
    split_ifs at hword with hd hempty
    · exact (hnil hword).imp_right fun h => .inr (List.mem_cons_of_mem d (h.resolve_left (by simp)))
    · rcases List.mem_cons.1 hword with rfl | hrest
      · exact ⟨hbegun c hc, .inl hc⟩
      · exact (hnil hrest).imp_right fun h => .inr (List.mem_cons_of_mem d (h.resolve_left (by simp)))
    · have hmore : ∀ e ∈ begun ++ [d], isBlank e = false :=
        List.forall_mem_append.2 ⟨hbegun, List.forall_mem_singleton.2 (Bool.eq_false_iff.2 hd)⟩
      obtain ⟨hblank, hmem⟩ := ih hmore hword
      refine ⟨hblank, ?_⟩
      simp only [List.mem_append, List.mem_cons] at hmem ⊢
      tauto

theorem of_mem_words {text word : String} (hword : word ∈ words text) (hc : c ∈ word.toList) :
    isBlank c = false ∧ c ∈ text.toList := by
  obtain ⟨cs, hcs, rfl⟩ := List.mem_map.1 hword
  rw [String.toList_ofList] at hc
  exact (of_mem_wordsFrom (by simp) hcs hc).imp_right fun h => h.resolve_left (by simp)

/-! ## Lines -/

/-- A text is its lines, with a break behind each of them but perhaps the last. -/
inductive Lined : List Char → List (List Char) → Prop
  | nil : Lined [] []
  | last {line : List Char} (hne : line ≠ []) (hline : ∀ c ∈ line, isLineBreak c = false) :
    Lined line [line]
  | next {line brk rest : List Char} {lines : List (List Char)}
    (hline : ∀ c ∈ line, isLineBreak c = false) (hne : brk ≠ [])
    (hbrk : ∀ c ∈ brk, isLineBreak c = true) (hrest : Lined rest lines) :
    Lined (line ++ brk ++ rest) (line :: lines)

theorem Lined.cons (h : Lined rest (line :: lines)) (hc : isLineBreak c = false) :
    Lined (c :: rest) ((c :: line) :: lines) := by
  cases h with
  | last hne hline => exact .last (List.cons_ne_nil c _) (List.forall_mem_cons.2 ⟨hc, hline⟩)
  | next hline hne hbrk hrest =>
    exact .next (List.forall_mem_cons.2 ⟨hc, hline⟩) hne hbrk hrest

theorem lined_linesOf (cs : List Char) : Lined cs (linesOf cs) := by
  fun_induction linesOf cs with
  | case1 => exact .nil
  | case2 rest ih =>
    have hbreak : ∀ c ∈ ['\r', '\n'], isLineBreak c = true := by simp [isLineBreak]
    exact @Lined.next [] ['\r', '\n'] rest _ (by simp) (by simp) hbreak ih
  | case3 c rest _ hc ih =>
    exact @Lined.next [] [c] rest _ (by simp) (by simp) (by simpa using hc) ih
  | case4 c rest _ hc hrest ih =>
    rw [hrest] at ih
    cases ih
    exact .last (by simp) (by simpa using hc)
  | case5 c rest _ hc line more hrest ih =>
    rw [hrest] at ih
    exact ih.cons (by simpa using hc)

/-- What holds of a text exactly when it holds on both sides of a break holds of it exactly when it
holds of its lines. -/
theorem Lined.forall_iff {p : List Char → Prop} (h : Lined cs lines) (hnil : p [])
    (hbreak : ∀ a c b, isLineBreak c = true → (p (a ++ c :: b) ↔ p a ∧ p b)) :
    p cs ↔ ∀ line ∈ lines, p line := by
  induction h with
  | nil => simpa using hnil
  | last => simp
  | @next line brk rest lines _ hne hbrk _ ih =>
    have hbrks : ∀ brk : List Char, (∀ c ∈ brk, isLineBreak c = true) → (p (brk ++ rest) ↔ p rest) := by
      intro brk hbrk
      induction brk with
      | nil => rfl
      | cons c brk ihb =>
        obtain ⟨hc, hbrk⟩ := List.forall_mem_cons.1 hbrk
        have hcut := hbreak [] c (brk ++ rest) hc
        rw [List.nil_append, and_iff_right hnil] at hcut
        rw [List.cons_append, hcut, ihb hbrk]
    obtain ⟨c, brk, rfl⟩ := List.exists_cons_of_ne_nil hne
    obtain ⟨hc, hbrk⟩ := List.forall_mem_cons.1 hbrk
    rw [List.append_assoc, List.cons_append, hbreak line c _ hc, hbrks brk hbrk, ih, List.forall_mem_cons]

theorem forall_linesOf_iff {p : List Char → Prop} (hnil : p [])
    (hbreak : ∀ a c b, isLineBreak c = true → (p (a ++ c :: b) ↔ p a ∧ p b)) (cs : List Char) :
    p cs ↔ ∀ line ∈ linesOf cs, p line :=
  (lined_linesOf cs).forall_iff hnil hbreak

/-- What holds of a text exactly when it holds on both sides of a line feed holds of texts that are
joined by line feeds exactly when it holds of each of them. -/
theorem forall_join_iff {p : List Char → Prop} (hnil : p [])
    (hbreak : ∀ a b, p (a ++ '\n' :: b) ↔ p a ∧ p b) (parts : List String) :
    p (join "\n" parts).toList ↔ ∀ s ∈ parts, p s.toList := by
  induction parts with
  | nil => simpa [join] using hnil
  | cons s rest ih =>
    cases rest with
    | nil => simp [join]
    | cons t rest =>
      have hcut : (join "\n" (s :: t :: rest)).toList =
          s.toList ++ '\n' :: (join "\n" (t :: rest)).toList := by
        simp [join_cons_cons, String.toList_append]
      rw [hcut, hbreak, ih, List.forall_mem_cons (a := s)]

/-- What holds of a text exactly when it holds on both sides of a character holds of it exactly when it
holds of the pieces between the occurrences of that character. -/
theorem forall_splitOnChar_iff {p : List Char → Prop} {sep : Char}
    (hbreak : ∀ a b, p (a ++ sep :: b) ↔ p a ∧ p b) (cs : List Char) :
    p cs ↔ ∀ piece ∈ splitOnChar sep cs, p piece := by
  induction hlength : cs.length using Nat.strong_induction_on generalizing cs with
  | _ n ih =>
    by_cases hmem : sep ∈ cs
    · obtain ⟨a, b, rfl, hfront⟩ := List.eq_append_cons_of_mem hmem
      have hless : b.length < n := by
        rw [← hlength, List.length_append, List.length_cons]
        omega
      rw [hbreak, splitOnChar_append, splitOnChar_of_notMem hfront, ih _ hless b rfl]
      exact List.forall_mem_cons.symm
    · rw [splitOnChar_of_notMem hmem, List.forall_mem_singleton]

/-- A text without a break is its only line. -/
theorem linesOf_of_forall (hne : cs ≠ []) (h : ∀ c ∈ cs, isLineBreak c = false) :
    linesOf cs = [cs] := by
  have hlined := lined_linesOf cs
  generalize linesOf cs = lines at hlined
  cases hlined with
  | nil => exact absurd rfl hne
  | last => rfl
  | next _ hbrk hbreak _ =>
    obtain ⟨c, brk, rfl⟩ := List.exists_cons_of_ne_nil hbrk
    exact absurd (hbreak c List.mem_cons_self) (by simp [h c (by simp)])

/-- A text with a break that does not end in one has several lines. -/
theorem exists_of_linesOf (hc : c ∈ cs) (hbreak : isLineBreak c = true)
    (hlast : ∀ d ∈ cs.getLast?, isLineBreak d = false) :
    ∃ first second rest, linesOf cs = first :: second :: rest := by
  have hlined := lined_linesOf cs
  generalize linesOf cs = lines at hlined
  cases hlined with
  | nil => cases hc
  | last _ hline => simp [hline c hc] at hbreak
  | @next line brk rest lines hline hne hbrk hrest =>
    cases lines with
    | cons second more => exact ⟨line, second, more, rfl⟩
    | nil =>
      cases hrest
      obtain ⟨brk, d, rfl⟩ := (List.eq_nil_or_concat brk).resolve_left hne
      have hd := hlast d (by simp)
      simp [hbrk d (by simp)] at hd

/-! ## Parts without white space -/

variable {part : List Char} (hne : part ≠ []) (hpart : ∀ c ∈ part, isBlank c = false)

include hpart in
theorem notMem_of_isBlank (hc : isBlank c = true) : c ∉ part := fun hmem => by
  simp [hpart c hmem] at hc

include hne hpart

theorem isInfix_trimEnd_iff (cs : List Char) : part <:+: trimEnd cs ↔ part <:+: cs := by
  obtain ⟨back, hcs, hback⟩ := exists_trimEnd cs
  conv_rhs => rw [hcs]
  exact (isInfix_append_right_iff hne fun c hc => notMem_of_isBlank hpart (hback c hc)).symm

theorem isInfix_trim_iff (cs : List Char) : part <:+: trim cs ↔ part <:+: cs := by
  obtain ⟨front, back, hcs, hfront, hback⟩ := exists_trim cs
  conv_rhs => rw [hcs]
  rw [isInfix_append_right_iff hne fun c hc => notMem_of_isBlank hpart (hback c hc),
    isInfix_append_left_iff hne fun c hc => notMem_of_isBlank hpart (hfront c hc)]

theorem not_isInfix_iff_forall_linesOf (cs : List Char) :
    ¬part <:+: cs ↔ ∀ line ∈ linesOf cs, ¬part <:+: line := by
  refine forall_linesOf_iff (p := fun cs => ¬part <:+: cs) (by simpa using hne) (fun a c b hc => ?_) cs
  rw [isInfix_append_cons_iff (notMem_of_isBlank hpart (isBlank_of_isLineBreak hc)), not_or]

theorem not_isInfix_join_iff (parts : List String) :
    ¬part <:+: (join "\n" parts).toList ↔ ∀ s ∈ parts, ¬part <:+: s.toList := by
  refine forall_join_iff (p := fun cs => ¬part <:+: cs) (by simpa using hne) (fun a b => ?_) parts
  rw [isInfix_append_cons_iff (notMem_of_isBlank hpart (by decide)), not_or]

end ApiClient.Text
