import ApiClient.Dialect.Comment
import ApiClient.Proofs.Result
import ApiClient.Proofs.Text.Blank
import Mathlib

/-!
# Docstrings

A docstring ends at the first three quotes in a row, where a backslash takes the character behind it
along (`Docstring.behindClose?`). Reading stops at no other character, so a text is open, or not, line
by line (`Docstring.staysOpen_append_cons`). An escaped text is open, and leaves no quote behind when its
last one is escaped as well, unless the quotes at its end come in threes: then the last of them has its
backslash already, and the second one takes it away (`Docstring.leads_guarded`).
-/

namespace ApiClient

namespace Docstring

/-! ## Reading -/

/-- What a docstring begins and ends with. -/
def quotes : List Char :=
  ['"', '"', '"']

/-- What follows the quotes that close a docstring, of whose text `run` quotes were just read. -/
def behindClose? : Nat → List Char → Option (List Char)
  | _, [] => none
  | _, '\\' :: _ :: rest => behindClose? 0 rest
  | run, '"' :: rest => if run = 2 then some rest else behindClose? (run + 1) rest
  | _, _ :: rest => behindClose? 0 rest

/-- What follows the docstring that a text begins with. -/
def behind? (cs : List Char) : Option (List Char) :=
  (Text.dropFront? quotes cs).bind (behindClose? 0)

/-- A text that does not close the docstring it stands in. -/
def StaysOpen (cs : List Char) : Prop :=
  behindClose? 0 cs = none

instance (cs : List Char) : Decidable (StaysOpen cs) :=
  inferInstanceAs (Decidable (behindClose? 0 cs = none))

variable {run run' : Nat} {cs a b rest : List Char} {c s : Char}

theorem behindClose?_cons_other (hquote : c ≠ '"') (hslash : c ≠ '\\') (run : Nat)
    (rest : List Char) : behindClose? run (c :: rest) = behindClose? 0 rest := by
  rw [behindClose?]
  · exact fun _ _ h => absurd h hslash
  · exact hquote

/-- A character that is neither a quote nor a backslash ends what was read before it. -/
theorem behindClose?_append_cons (hquote : s ≠ '"') (hslash : s ≠ '\\') (run : Nat)
    (a b : List Char) : behindClose? run (a ++ s :: b) =
      ((behindClose? run a).map (· ++ s :: b)).or (behindClose? 0 b) := by
  fun_induction behindClose? run a with
  | case1 run => exact behindClose?_cons_other hquote hslash run b
  | case2 run d rest ih => simpa [behindClose?] using ih
  | case3 rest => simp [behindClose?]
  | case4 run rest hrun ih => simpa [behindClose?, hrun] using ih
  | case5 run d rest hpair hd ih =>
    by_cases hdslash : d = '\\'
    · cases rest with
      | nil => simp [hdslash, behindClose?]
      | cons e rest => exact absurd rfl (hpair e rest hdslash)
    · rw [List.cons_append, behindClose?_cons_other hd hdslash]
      simpa using ih

theorem staysOpen_nil : StaysOpen [] :=
  rfl

theorem staysOpen_append_cons (hquote : s ≠ '"') (hslash : s ≠ '\\') :
    StaysOpen (a ++ s :: b) ↔ StaysOpen a ∧ StaysOpen b := by
  simp only [StaysOpen, behindClose?_append_cons hquote hslash, Option.or_eq_none_iff,
    Option.map_eq_none_iff]

theorem staysOpen_break (a : List Char) (c : Char) (b : List Char) (hc : Text.isLineBreak c = true) :
    StaysOpen (a ++ c :: b) ↔ StaysOpen a ∧ StaysOpen b := by
  refine staysOpen_append_cons ?_ ?_
  all_goals
    rintro rfl
    exact absurd hc (by decide)

/-- What follows a docstring is the same, whatever follows that. -/
theorem behindClose?_append (h : behindClose? run a = some rest) (b : List Char) :
    behindClose? run (a ++ b) = some (rest ++ b) := by
  fun_induction behindClose? run a with
  | case1 run => cases h
  | case2 run d more ih => simpa [behindClose?] using ih h
  | case3 more =>
    obtain rfl := Option.some.inj h
    simp [behindClose?]
  | case4 run more hrun ih => simpa [behindClose?, hrun] using ih h
  | case5 run d more hpair hd ih =>
    by_cases hdslash : d = '\\'
    · cases more with
      | nil => simp [behindClose?] at h
      | cons e more => exact absurd rfl (hpair e more hdslash)
    · rw [List.cons_append, behindClose?_cons_other hd hdslash]
      exact ih h

theorem behind?_append (h : behind? a = some rest) (b : List Char) :
    behind? (a ++ b) = some (rest ++ b) := by
  obtain ⟨inside, hinside, hclose⟩ := Option.bind_eq_some_iff.1 h
  rw [Text.dropFront?_eq_some_iff.1 hinside, List.append_assoc, behind?,
    Text.dropFront?_eq_some_iff.2 rfl, Option.bind_some, behindClose?_append hclose]

theorem behind?_eq_none (h : cs.head? ≠ some '"') : behind? cs = none := by
  cases cs with
  | nil => rfl
  | cons c rest =>
    have hc : '"' ≠ c := fun heq => h (congrArg some heq.symm)
    rw [behind?, quotes, Text.dropFront?, if_neg hc]
    rfl

theorem behindClose?_quotes (rest : List Char) : behindClose? 0 (quotes ++ rest) = some rest :=
  rfl

theorem behind?_quotes_append (cs : List Char) : behind? (quotes ++ cs) = behindClose? 0 cs := by
  rw [behind?, Text.dropFront?_eq_some_iff.2 rfl, Option.bind_some]

/-- A docstring whose closing quotes stand behind another character ends there if its text is open, and
before that if it is not. -/
theorem behind?_eq_some_iff (hquote : s ≠ '"') (hslash : s ≠ '\\') :
    behind? (quotes ++ (a ++ s :: (quotes ++ rest))) = some rest ↔ StaysOpen a := by
  rw [behind?_quotes_append, behindClose?_append_cons hquote hslash, behindClose?_quotes, StaysOpen]
  cases behindClose? 0 a with
  | none => simp
  | some tail =>
    simp only [Option.map_some, Option.some_or, Option.some.injEq, reduceCtorEq, iff_false]
    intro h
    have := congrArg List.length h
    simp only [quotes, List.length_append, List.length_cons] at this
    omega

/-! ## Texts that are read to their end -/

/-- Reading a text with `run` quotes before it comes to its end with `run'` quotes. -/
def Leads (run : Nat) (cs : List Char) (run' : Nat) : Prop :=
  ∀ rest, behindClose? run (cs ++ rest) = behindClose? run' rest

theorem Leads.append {mid : Nat} (ha : Leads run a mid) (hb : Leads mid b run') :
    Leads run (a ++ b) run' := fun rest => by
  rw [List.append_assoc, ha, hb]

theorem Leads.staysOpen (h : Leads 0 cs run') : StaysOpen cs := by
  simpa [StaysOpen, behindClose?] using h []

theorem leads_pair (run : Nat) (c : Char) : Leads run ['\\', c] 0 := fun rest => by
  simp [behindClose?]

theorem leads_quote (h : run ≠ 2) : Leads run ['"'] (run + 1) := fun rest => by
  simp [behindClose?, h]

theorem leads_other (hquote : c ≠ '"') (hslash : c ≠ '\\') (run : Nat) : Leads run [c] 0 :=
  behindClose?_cons_other hquote hslash run

/-! ## Escapes -/

/-- A text with its backslashes doubled and every three quotes escaped, from the left. -/
def escaped : List Char → List Char
  | [] => []
  | '"' :: '"' :: '"' :: rest => '\\' :: '"' :: '\\' :: '"' :: '\\' :: '"' :: escaped rest
  | '\\' :: rest => '\\' :: '\\' :: escaped rest
  | c :: rest => c :: escaped rest

/-- A text with a quote at its end escaped. -/
def guarded : List Char → List Char
  | [] => []
  | ['"'] => ['\\', '"']
  | c :: rest => c :: guarded rest

theorem guarded_append (hb : b ≠ []) : guarded (a ++ b) = a ++ guarded b := by
  induction a with
  | nil => rfl
  | cons c a ih =>
    rw [List.cons_append, guarded, ih, List.cons_append]
    intro _ h
    exact hb (List.append_eq_nil_iff.1 h).2

theorem guarded_singleton (hc : c ≠ '"') : guarded [c] = [c] := by
  rw [guarded, guarded]
  exact fun h _ => hc h

theorem guarded_ne_nil (h : cs ≠ []) : guarded cs ≠ [] := by
  fun_cases guarded cs <;> simp_all

theorem escaped_ne_nil (h : cs ≠ []) : escaped cs ≠ [] := by
  fun_cases escaped cs <;> simp_all

/-- How many quotes a text ends with. -/
def quotesAtEnd (cs : List Char) : Nat :=
  (cs.rtakeWhile (· = '"')).length

/-- A text ends with quotes, a number of threes. -/
def EndsInThrees (cs : List Char) : Prop :=
  0 < quotesAtEnd cs ∧ 3 ∣ quotesAtEnd cs

instance (cs : List Char) : Decidable (EndsInThrees cs) :=
  inferInstanceAs (Decidable (_ ∧ _))

theorem quotesAtEnd_append (a b : List Char) : quotesAtEnd (a ++ b) =
    if quotesAtEnd b = b.length then quotesAtEnd a + b.length else quotesAtEnd b := by
  simp only [quotesAtEnd, List.rtakeWhile, List.reverse_append, List.takeWhile_append,
    List.length_reverse]
  split_ifs <;> simp [*, Nat.add_comm]

theorem endsInThrees_cons_other (hc : c ≠ '"') (cs : List Char) :
    EndsInThrees (c :: cs) ↔ EndsInThrees cs := by
  have hone : quotesAtEnd [c] = 0 := by simp [quotesAtEnd, List.rtakeWhile, hc]
  have hcount : quotesAtEnd (c :: cs) = quotesAtEnd cs := by
    rw [← List.singleton_append, quotesAtEnd_append, hone, Nat.zero_add]
    split_ifs with h
    · exact h.symm
    · rfl
  rw [EndsInThrees, hcount, EndsInThrees]

theorem endsInThrees_quotes_append (hcs : cs ≠ []) :
    EndsInThrees (quotes ++ cs) ↔ EndsInThrees cs := by
  have hlength := List.length_pos_iff.2 hcs
  have hthree : quotesAtEnd quotes = 3 := by decide
  rw [EndsInThrees, quotesAtEnd_append, hthree, EndsInThrees]
  split_ifs <;> omega

/-- Fewer than three quotes at the front of a text are no more than two at its end. -/
theorem endsInThrees_cons_quote (hcs : cs ≠ []) (hfew : ∀ rest, cs ≠ '"' :: '"' :: rest) :
    EndsInThrees ('"' :: cs) ↔ EndsInThrees cs := by
  have hone : quotesAtEnd ['"'] = 1 := by decide
  rw [EndsInThrees, ← List.singleton_append, quotesAtEnd_append, hone, EndsInThrees]
  split_ifs with h
  · have hall : cs.rtakeWhile (· = '"') = cs :=
      (List.rtakeWhile_suffix _ _).eq_of_length h
    rw [List.rtakeWhile_eq_self_iff] at hall
    match cs, hcs, hfew with
    | [c], _, _ => simp [h]
    | c :: d :: rest, _, hfew =>
      obtain rfl : c = '"' := by simpa using hall c (by simp)
      obtain rfl : d = '"' := by simpa using hall d (by simp)
      exact absurd rfl (hfew rest)
  · rfl

theorem Leads.guarded_append {mid : Nat} (ha : Leads run a mid) (hne : b ≠ [])
    (hb : Leads mid (guarded b) run') : Leads run (guarded (a ++ b)) run' := by
  rw [Docstring.guarded_append hne]
  exact ha.append hb

theorem length_takeWhile_lt (hfew : ∀ rest, cs ≠ '"' :: '"' :: rest) :
    (cs.takeWhile (· = '"')).length < 2 := by
  match cs, hfew with
  | [], _ => decide
  | [c], _ => by_cases hc : c = '"' <;> simp [hc]
  | c :: d :: rest, hfew =>
    by_cases hc : c = '"'
    · have hd : d ≠ '"' := by
        rintro rfl
        exact hfew rest (by rw [hc])
      simp [hc, hd]
    · simp [hc]

/-- An escaped text is read to its end, with one quote left over if the quotes at its end come in
threes. -/
theorem leads_guarded {t : List Char} (ht : t ≠ [])
    (hrun : 0 < run → run + (t.takeWhile (· = '"')).length < 3) :
    Leads run (guarded (escaped t)) (if EndsInThrees t then 1 else 0) := by
  fun_induction escaped t generalizing run with
  | case1 => exact absurd rfl ht
  | case2 rest ih =>
    have htwo : Leads 0 ['\\', '"', '\\', '"'] 0 := (leads_pair 0 '"').append (leads_pair 0 '"')
    obtain rfl : run = 0 := by
      simp at hrun
      omega
    by_cases hrest : rest = []
    · -- the backslash of the last quote is taken along by the one that is put in front of the quote
      subst hrest
      exact (htwo.append (leads_pair 0 '\\')).append (leads_quote (by decide))
    · have hthrees : EndsInThrees ('"' :: '"' :: '"' :: rest) ↔ EndsInThrees rest :=
        endsInThrees_quotes_append hrest
      simp only [hthrees]
      exact (htwo.append (leads_pair 0 '"')).guarded_append (escaped_ne_nil hrest)
        (ih hrest (by simp))
  | case3 rest ih =>
    simp only [endsInThrees_cons_other (by decide : '\\' ≠ '"')]
    by_cases hrest : rest = []
    · subst hrest
      exact leads_pair run '\\'
    · exact (leads_pair run '\\').guarded_append (escaped_ne_nil hrest) (ih hrest (by simp))
  | case4 c rest hthree hslash ih =>
    by_cases hc : c = '"'
    · subst hc
      by_cases hrest : rest = []
      · subst hrest
        exact leads_pair run '"'
      · simp only [endsInThrees_cons_quote hrest fun more h => hthree more rfl h]
        have hfew := length_takeWhile_lt fun more h => hthree more rfl h
        simp only [List.takeWhile_cons, decide_true, if_true, List.length_cons] at hrun
        exact (leads_quote (by omega)).guarded_append (escaped_ne_nil hrest)
          (ih hrest fun _ => by omega)
    · simp only [endsInThrees_cons_other hc]
      have hone := leads_other hc (fun h => hslash h) run
      by_cases hrest : rest = []
      · subst hrest
        rw [escaped, guarded_singleton hc]
        exact hone
      · exact hone.guarded_append (escaped_ne_nil hrest) (ih hrest (by simp))

/-- A text with its backslashes doubled. -/
def slashed (cs : List Char) : List Char :=
  cs.flatMap fun c => if c = '\\' then ['\\', '\\'] else [c]

theorem slashed_cons_other (hc : c ≠ '\\') (cs : List Char) : slashed (c :: cs) = c :: slashed cs := by
  simp [slashed, hc]

theorem exists_of_slashed (h : slashed cs = '"' :: rest) :
    ∃ more, cs = '"' :: more ∧ slashed more = rest := by
  cases cs with
  | nil => simp [slashed] at h
  | cons c more =>
    by_cases hc : c = '\\'
    · simp [slashed, hc] at h
    · rw [slashed_cons_other hc, List.cons.injEq] at h
      exact ⟨more, by rw [h.1], h.2⟩

theorem escaped_eq (cs : List Char) :
    Text.replaceChars quotes ['\\', '"', '\\', '"', '\\', '"'] (slashed cs) = escaped cs := by
  fun_induction escaped cs with
  | case1 => rw [slashed, List.flatMap_nil, Text.replaceChars]
  | case2 rest ih =>
    have hfront : slashed ('"' :: '"' :: '"' :: rest) = quotes ++ slashed rest := by
      simp [slashed, quotes]
    rw [hfront, Text.replaceChars_append (by decide), ih]
    rfl
  | case3 rest ih =>
    have hfront : slashed ('\\' :: rest) = '\\' :: '\\' :: slashed rest := by
      simp [slashed]
    rw [hfront, Text.replaceChars_cons (by simp [Text.dropFront?, quotes]),
      Text.replaceChars_cons (by simp [Text.dropFront?, quotes]), ih]
  | case4 c rest hthree hslash ih =>
    rw [slashed_cons_other (fun h => hslash h), Text.replaceChars_cons, ih]
    rw [Option.eq_none_iff_forall_ne_some]
    intro after hafter
    obtain ⟨hc, htwo⟩ := List.cons.inj (Text.dropFront?_eq_some_iff.1 hafter)
    obtain ⟨more, rfl, hone⟩ := exists_of_slashed htwo
    obtain ⟨last, rfl, -⟩ := exists_of_slashed hone
    exact hthree last hc rfl

theorem escaped_append_break (cs : List Char) : escaped (cs ++ ['\n']) = escaped cs ++ ['\n'] := by
  fun_induction escaped cs with
  | case1 => rfl
  | case2 rest ih => simp [escaped, ih]
  | case3 rest ih => simp [escaped, ih]
  | case4 c rest hthree hslash ih =>
    rw [List.cons_append, escaped, ih, List.cons_append]
    · rintro more hc hmore
      rcases rest with _ | ⟨d, _ | ⟨e, rest⟩⟩
      all_goals simp_all
    · exact hslash

theorem staysOpen_escaped (cs : List Char) : StaysOpen (escaped cs) := by
  have hread : Leads 0 (guarded (escaped (cs ++ ['\n']))) _ := leads_guarded (by simp) (by simp)
  have hguard : guarded (escaped cs ++ ['\n']) = escaped cs ++ '\n' :: [] := by
    rw [guarded_append (by simp), guarded_singleton (by decide)]
  rw [escaped_append_break, hguard] at hread
  exact ((staysOpen_append_cons (by decide) (by decide)).1 hread.staysOpen).1

theorem toList_escapeDoc (s : String) : (Dialect.escapeDoc s).toList = escaped s.toList := by
  have hslash : "\\".toList = ['\\'] := by decide
  have hpair : "\\\\".toList = ['\\', '\\'] := by decide
  have hquotes : "\"\"\"".toList = quotes := by decide
  have hescaped : "\\\"\\\"\\\"".toList = ['\\', '"', '\\', '"', '\\', '"'] := by decide
  rw [Dialect.escapeDoc, Text.replaceAll, Text.replaceAll, hslash, hpair, hquotes, hescaped,
    String.toList_ofList, String.toList_ofList, Text.replaceChars_singleton, ← escaped_eq, slashed]

theorem toList_guardQuote (s : String) : (Dialect.guardQuote s).toList = guarded s.toList := by
  rw [Dialect.guardQuote]
  split
  · rename_i rest h
    have hs : s.toList = rest.reverse ++ ['"'] := by
      rw [← List.reverse_reverse s.toList, h, List.reverse_cons]
    have hpair : "\\\"".toList = ['\\', '"'] := by decide
    rw [hs, guarded_append (by simp), String.toList_append, String.toList_ofList, hpair]
    rfl
  · rename_i h
    rcases List.eq_nil_or_concat s.toList with hs | ⟨front, c, hs⟩
    · rw [hs]
      rfl
    · have hc : c ≠ '"' := by
        rintro rfl
        exact h front.reverse (by simp [hs])
      rw [hs, List.concat_eq_append, guarded_append (by simp), guarded_singleton hc]

theorem mem_escaped (hquote : c ≠ '"') (hslash : c ≠ '\\') : c ∈ escaped cs ↔ c ∈ cs := by
  fun_induction escaped cs <;> simp_all

theorem mem_guarded (hquote : c ≠ '"') (hslash : c ≠ '\\') : c ∈ guarded cs ↔ c ∈ cs := by
  fun_induction guarded cs <;> simp_all

theorem getLast?_escaped (cs : List Char) : (escaped cs).getLast? = cs.getLast? := by
  fun_induction escaped cs <;> simp_all [List.getLast?_cons]

theorem getLast?_guarded (cs : List Char) : (guarded cs).getLast? = cs.getLast? := by
  fun_induction guarded cs <;> simp_all [List.getLast?_cons]

end Docstring

namespace Dialect

open Docstring

/-! ## Docstrings of texts -/

theorem toList_headDoc (text : String) : (headDoc text).toList = escaped (Text.trim text.toList) := by
  rw [headDoc, toList_escapeDoc, Text.strip, String.toList_ofList]

theorem staysOpen_headDoc (text : String) : StaysOpen (headDoc text).toList := by
  rw [toList_headDoc]
  exact staysOpen_escaped _

theorem mem_of_mem_headDoc {c : Char} (hquote : c ≠ '"') (hslash : c ≠ '\\') {text : String}
    (h : c ∈ (headDoc text).toList) : c ∈ text.toList := by
  rw [toList_headDoc, mem_escaped hquote hslash] at h
  exact Text.mem_of_mem_trim h

/-- A text in one line that ends with quotes, a number of threes: its last quote is left over. -/
def LeavesQuote (text : String) : Prop :=
  (∀ c ∈ (Text.strip text).toList, Text.isLineBreak c = false) ∧
    EndsInThrees (Text.strip text).toList

instance (text : String) : Decidable (LeavesQuote text) :=
  inferInstanceAs (Decidable (_ ∧ _))

/-- A text that ends with another character leaves no quote over. -/
theorem not_leavesQuote {text : String} {c : Char} (h : text.toList.getLast? = some c)
    (hblank : Text.isBlank c = false) (hquote : c ≠ '"') : ¬LeavesQuote text := by
  obtain ⟨front, hfront⟩ := List.getLast?_eq_some_iff.1 (Text.getLast?_trim h hblank)
  have hstrip : (Text.strip text).toList = front ++ [c] := by
    rw [Text.strip, String.toList_ofList, hfront]
  rintro ⟨-, hpos, -⟩
  rw [hstrip, quotesAtEnd, List.rtakeWhile_concat_neg _ _ _ (by simpa using hquote)] at hpos
  exact absurd hpos (by decide)

theorem leads_blanks (n : Nat) : Leads 0 (blanks n).toList 0 := by
  rw [blanks, String.toList_ofList]
  induction n with
  | zero => exact fun _ => rfl
  | succ n ih => exact (leads_other (c := ' ') (by decide) (by decide) 0).append ih

theorem staysOpen_docLine {line : String} (h : StaysOpen line.toList) (indent : Nat) :
    StaysOpen (docLine indent line).toList := by
  rw [docLine]
  split_ifs
  · exact staysOpen_nil
  · rw [String.toList_append, StaysOpen, leads_blanks]
    exact h

/-- The text of a docstring without its quotes, line by line. -/
theorem lines_guardQuote (text : String) :
    Text.lines (guardQuote (escapeDoc text)) =
      (Text.linesOf (guarded (escaped text.toList))).map String.ofList := by
  rw [Text.lines, toList_guardQuote, toList_escapeDoc]

theorem mem_guarded_escaped_iff {c : Char} (hc : Text.isLineBreak c = true) (cs : List Char) :
    c ∈ guarded (escaped cs) ↔ c ∈ cs := by
  have hquote : c ≠ '"' := by rintro rfl; exact absurd hc (by decide)
  have hslash : c ≠ '\\' := by rintro rfl; exact absurd hc (by decide)
  rw [mem_guarded hquote hslash, mem_escaped hquote hslash]

section Characters

variable {c : Char} (hquote : c ≠ '"') (hslash : c ≠ '\\') (hblank : Text.isBlank c = false)

include hblank in
theorem notMem_docLine {line : String} (h : c ∉ line.toList) (indent : Nat) :
    c ∉ (docLine indent line).toList := by
  rw [docLine]
  split_ifs
  · exact List.not_mem_nil
  · rw [String.toList_append, blanks, String.toList_ofList, List.mem_append, not_or]
    refine ⟨fun hmem => ?_, h⟩
    rw [List.eq_of_mem_replicate hmem] at hblank
    exact absurd hblank (by decide)

include hblank in
theorem ne_of_isBlank {d : Char} (hd : Text.isBlank d = true) : c ≠ d := by
  rintro rfl
  rw [hd] at hblank
  cases hblank

include hquote hslash hblank in
/-- The lines of a docstring have no character that its text has not, but for those it is escaped with. -/
theorem notMem_guardedLines {text : String} (hc : c ∉ text.toList) :
    ∀ line ∈ Text.lines (guardQuote (escapeDoc (Text.strip text))), c ∉ line.toList := by
  have hbreak : ∀ a d b, Text.isLineBreak d = true → (c ∉ a ++ d :: b ↔ c ∉ a ∧ c ∉ b) :=
    fun a d b hd => by simp [ne_of_isBlank hblank (Text.isBlank_of_isLineBreak hd)]
  have hbody : c ∉ guarded (escaped (Text.strip text).toList) := by
    rw [mem_guarded hquote hslash, mem_escaped hquote hslash, Text.strip, String.toList_ofList]
    exact fun hmem => hc (Text.mem_of_mem_trim hmem)
  rw [lines_guardQuote, List.forall_mem_map]
  simp only [String.toList_ofList]
  exact (Text.forall_linesOf_iff (by simp) hbreak _).1 hbody

include hquote hslash hblank in
/-- A docstring has no character that its text has not, but for those it is escaped and laid out with. -/
theorem notMem_docstring {indent : Nat} {text doc : String} (h : docstring indent text = .ok doc)
    (hc : c ∉ text.toList) : c ∉ doc.toList := by
  have hlines := notMem_guardedLines hquote hslash hblank hc
  have hquotes : c ∉ "\"\"\"".toList := by simp [hquote]
  have hfeed : c ∉ "\n".toList := by simp [ne_of_isBlank hblank (d := '\n') (by decide)]
  rw [docstring] at h
  split at h
  · cases h
  · rename_i line hone
    obtain rfl := Except.ok.inj h
    simp only [String.toList_append, List.mem_append, not_or]
    exact ⟨⟨hquotes, hlines line (by simp [hone])⟩, hquotes⟩
  · rename_i line rest _ hmany
    obtain rfl := Except.ok.inj h
    rw [hmany] at hlines
    obtain ⟨hfirst, hrest⟩ := List.forall_mem_cons.1 hlines
    have hjoin : c ∉ (Text.join "\n" (rest.map (docLine indent))).toList := fun hmem => by
      obtain hsep | ⟨text, htext, hmem⟩ := Text.mem_join hmem
      · exact hfeed hsep
      · obtain ⟨line, hline, rfl⟩ := List.mem_map.1 htext
        exact notMem_docLine hblank (hrest line hline) indent hmem
    have hpad : c ∉ (blanks indent).toList := by
      rw [blanks, String.toList_ofList]
      exact fun hmem => ne_of_isBlank hblank (by decide) (List.eq_of_mem_replicate hmem)
    simp only [String.toList_append, List.mem_append, not_or]
    exact ⟨⟨⟨⟨⟨⟨hquotes, hfirst⟩, hfeed⟩, hjoin⟩, hfeed⟩, hpad⟩, hquotes⟩

end Characters

/-- A docstring of several lines ends at the quotes in its last one. -/
theorem behind?_of_lines (indent : Nat) {first : String} {rest : List String}
    (h : ∀ line ∈ first :: rest, StaysOpen line.toList) :
    behind? ("\"\"\"" ++ first ++ "\n" ++ Text.join "\n" (rest.map (docLine indent)) ++ "\n" ++
      blanks indent ++ "\"\"\"").toList = some [] := by
  obtain ⟨hfirst, hrest⟩ := List.forall_mem_cons.1 h
  have hjoin : StaysOpen (Text.join "\n" (rest.map (docLine indent))).toList :=
    (Text.forall_join_iff staysOpen_nil (fun a b => staysOpen_break a '\n' b (by decide)) _).2
      (List.forall_mem_map.2 fun line hline => staysOpen_docLine (hrest line hline) indent)
  have hbody := (staysOpen_append_cons (s := '\n') (by decide) (by decide)).2 ⟨hfirst, hjoin⟩
  have hcut : ("\"\"\"" ++ first ++ "\n" ++ Text.join "\n" (rest.map (docLine indent)) ++ "\n" ++
      blanks indent ++ "\"\"\"").toList = quotes ++
        ((first.toList ++ '\n' :: (Text.join "\n" (rest.map (docLine indent))).toList) ++
          '\n' :: ((blanks indent).toList ++ quotes)) := by
    simp [String.toList_append, quotes]
  rw [hcut, behind?_quotes_append, behindClose?_append_cons (by decide) (by decide), hbody,
    leads_blanks]
  rfl

/-- The docstring of a text that is not blank ends at the quotes behind it, except that for a text in
one line with threes of quotes at its end one quote is left over. -/
theorem behind?_docstring (indent : Nat) {text : String} (h : Text.allBlank text = false) :
    ∃ doc, docstring indent text = .ok doc ∧
      behind? doc.toList = some (if LeavesQuote text then ['"'] else []) := by
  have hstrip : (Text.strip text).toList = Text.trim text.toList := String.toList_ofList
  have hne : Text.trim text.toList ≠ [] := Text.trim_ne_nil h
  have hread : Leads 0 (guarded (escaped (Text.trim text.toList))) _ := leads_guarded hne (by simp)
  rw [docstring, lines_guardQuote, hstrip]
  by_cases hone : ∀ c ∈ Text.trim text.toList, Text.isLineBreak c = false
  · have hbreaks : ∀ c ∈ guarded (escaped (Text.trim text.toList)), Text.isLineBreak c = false :=
      fun c hc => Bool.eq_false_iff.2 fun hbreak => by
        simp [hone c ((mem_guarded_escaped_iff hbreak _).1 hc)] at hbreak
    rw [Text.linesOf_of_forall (guarded_ne_nil (escaped_ne_nil hne)) hbreaks]
    refine ⟨_, rfl, ?_⟩
    have hcut : ("\"\"\"" ++ String.ofList (guarded (escaped (Text.trim text.toList))) ++
        "\"\"\"").toList = quotes ++ (guarded (escaped (Text.trim text.toList)) ++ quotes) := by
      simp [String.toList_append, quotes]
    rw [hcut, behind?_quotes_append, hread]
    simp only [LeavesQuote, hstrip, and_iff_right hone]
    split_ifs <;> rfl
  · obtain ⟨c, hc, hbreak⟩ : ∃ c ∈ Text.trim text.toList, Text.isLineBreak c = true := by
      simpa using hone
    have hlast : ∀ d ∈ (guarded (escaped (Text.trim text.toList))).getLast?,
        Text.isLineBreak d = false := fun d hd => by
      rw [getLast?_guarded, getLast?_escaped] at hd
      exact Text.isLineBreak_of_getLast?_trim hd
    obtain ⟨first, second, rest, hlines⟩ :=
      Text.exists_of_linesOf ((mem_guarded_escaped_iff hbreak _).2 hc) hbreak hlast
    have hopen := (Text.forall_linesOf_iff staysOpen_nil staysOpen_break _).1 hread.staysOpen
    have hleaves : ¬LeavesQuote text := fun hleaves => hone (hstrip ▸ hleaves.1)
    rw [if_neg hleaves]
    rw [hlines] at hopen ⊢
    refine ⟨_, rfl, behind?_of_lines indent fun line hline => ?_⟩
    have hmem : line ∈ (first :: second :: rest).map String.ofList := hline
    obtain ⟨cs, hcs, rfl⟩ := List.mem_map.1 hmem
    rw [String.toList_ofList]
    exact hopen cs hcs

theorem behind?_docstring_of_line : Text.allBlank "say \"so\"" = false ∧
    ∃ doc, docstring 4 "say \"so\"" = .ok doc ∧
      behind? doc.toList = some (if LeavesQuote "say \"so\"" then ['"'] else []) :=
  ⟨by decide, behind?_docstring 4 (by decide)⟩

/-- Three quotes at the end of a line: the docstring is followed by a quote. -/
theorem docstring_threes : Text.allBlank "say \"\"\"" = false ∧
    ∃ doc, docstring 4 "say \"\"\"" = .ok doc ∧ behind? doc.toList = some ['"'] := by
  refine ⟨by decide, "\"\"\"say \\\"\\\"\\\\\"\"\"\"", ?_, by decide⟩
  rw [docstring, lines_guardQuote]
  exact ok_of_toOption (by decide +kernel)

end Dialect

end ApiClient
