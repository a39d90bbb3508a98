import ApiClient.Proofs.Dialect.Literal
import ApiClient.Proofs.Text.Word
import Mathlib

/-!
# What the writers of literals write

A character is written so that it is read as itself: in a literal of Python with the escapes of JSON
(`Literal.writes_literalChar`), in a formatted one with its braces doubled before
(`Literal.writes_doubled`), and in a literal of Kotlin with a backslash before a backslash, a quote and a
dollar sign, unless it ends a line (`Literal.writes_kotlinChar`). A name in braces is read as a
substitution (`Literal.writes_pythonSlot`, `Literal.writes_kotlinSlot`).
-/

namespace ApiClient.Literal

/-! ## Escapes -/

theorem hexValue?_hexDigit : ∀ n < 16, Json.hexValue? (Json.hexDigit n) = some n := by
  decide

theorem escaped?_hexDigits (form : Form) {n : Nat} (h : n < 0xd800) (rest : List Char) :
    form.escaped? ('u' :: (Json.hexDigits 4 n ++ rest)) = some (Char.ofNat n, rest) := by
  have hdigits : Json.hexDigits 4 n = [Json.hexDigit (n / 16 / 16 / 16 % 16),
      Json.hexDigit (n / 16 / 16 % 16), Json.hexDigit (n / 16 % 16), Json.hexDigit (n % 16)] := by
    simp [Json.hexDigits]
  have hdigit : ∀ m, Json.hexValue? (Json.hexDigit (m % 16)) = some (m % 16) := fun m =>
    hexValue?_hexDigit _ (Nat.mod_lt _ (by decide))
  have hvalue : (((n / 16 / 16 / 16 % 16) * 16 + n / 16 / 16 % 16) * 16 + n / 16 % 16) * 16 +
      n % 16 = n := by omega
  have hunit : (Json.isHighUnit n || Json.isLowUnit n) = false := by
    simp only [Json.isHighUnit, Json.isLowUnit, Bool.or_eq_false_iff, Bool.and_eq_false_iff,
      decide_eq_false_iff_not]
    omega
  rw [hdigits]
  simp only [List.cons_append, List.nil_append, Form.escaped?, Json.fourHex?, hdigit,
    Option.bind_eq_bind, Option.bind_some, Option.pure_def, hvalue, hunit]
  rfl

theorem piece?_escape (form : Form) {letter c : Char} (hletter : letter ≠ 'u')
    (h : form.letter? letter = some c) (rest : List Char) :
    form.piece? (['\\', letter] ++ rest) = some (.char c, rest) := by
  have hescaped : form.escaped? (letter :: rest) = some (c, rest) := by
    rw [Form.escaped?, h]
    · rfl
    · exact fun _ _ _ _ _ heq => absurd heq hletter
  rw [List.cons_append, List.singleton_append, Form.piece?, if_pos rfl, hescaped]
  rfl

theorem piece?_self {form : Form} {c : Char} (hescape : c ≠ '\\') (hmark : form.isMark c = false)
    (hstand : form.mayStand c = true) (rest : List Char) :
    form.piece? ([c] ++ rest) = some (.char c, rest) := by
  rw [List.singleton_append, Form.piece?, if_neg hescape, if_neg (by simp [hmark]), if_pos hstand]

/-! ## Characters of Python -/

theorem piece?_literalChar {form : Form} (hform : form ≠ .kotlin) {c : Char}
    (hmark : form.isMark c = false) (rest : List Char) :
    form.piece? (Json.literalChar c ++ rest) = some (.char c, rest) := by
  have hletter : ∀ {letter : Char}, letter ≠ 'u' → form.letter? letter = some c →
      form.piece? (['\\', letter] ++ rest) = some (.char c, rest) := fun hne h =>
    piece?_escape form hne h rest
  have hchar : ∀ {n : Nat}, c.toNat = n → Char.ofNat n = c := fun h => h ▸ Char.ofNat_toNat c
  unfold Json.literalChar
  split_ifs with hquote hescape hfeed hreturn htab hback hform' hcontrol
  · subst hquote
    exact hletter (by decide) rfl
  · subst hescape
    exact hletter (by decide) rfl
  · subst hfeed
    exact hletter (by decide) rfl
  · subst hreturn
    exact hletter (by decide) rfl
  · subst htab
    exact hletter (by decide) rfl
  · exact hletter (by decide) (congrArg some (hchar hback))
  · refine hletter (by decide) ?_
    rw [← hchar hform']
    exact if_neg hform
  · have hescaped := escaped?_hexDigits form (n := c.toNat) (by omega) rest
    rw [Char.ofNat_toNat] at hescaped
    rw [Json.unitEscape, List.cons_append, List.cons_append, Form.piece?, if_pos rfl, hescaped]
    rfl
  · have hzero : c ≠ Char.ofNat 0 := by
      rintro rfl
      exact hcontrol (by decide)
    exact piece?_self hescape hmark (by simp [Form.mayStand, hquote, hfeed, hreturn, hzero]) rest

theorem writes_literalChar {form : Form} (hform : form ≠ .kotlin) {c : Char}
    (hmark : form.isMark c = false) : Writes form (Json.literalChar c) [.char c] :=
  writes_of_piece? (piece?_literalChar hform hmark)

/-- A brace that is written twice is read as one, and the escapes of other characters as they are. -/
theorem writes_doubled (c : Char) :
    Writes .formatted ((Dialect.doubleBrace c).flatMap Json.literalChar) [.char c] := by
  rw [Dialect.doubleBrace]
  split_ifs with hbrace
  · have hliteral : Json.literalChar c = [c] := by
      rcases hbrace with rfl | rfl <;> decide
    refine writes_of_piece? fun rest => ?_
    have hmark : Form.formatted.isMark c = true := by
      rcases hbrace with rfl | rfl <;> decide
    have hescape : c ≠ '\\' := by
      rcases hbrace with rfl | rfl <;> decide
    simp only [List.flatMap_cons, List.flatMap_nil, hliteral, List.append_nil, List.cons_append,
      List.nil_append]
    rw [Form.piece?, if_neg hescape, if_pos hmark, Form.marked?, if_pos rfl]
  · rw [List.flatMap_singleton]
    refine writes_literalChar (by decide) ?_
    simpa [Form.isMark] using hbrace

/-! ## Characters of Kotlin -/

theorem writes_kotlinChar {c : Char} (hfeed : c ≠ '\n') (hreturn : c ≠ '\r') :
    Writes .kotlin (Dialect.kotlinChar c) [.char c] := by
  rw [Dialect.kotlinChar]
  split_ifs with hescape
  · refine writes_of_piece? (piece?_escape .kotlin ?_ ?_)
    · rcases hescape with rfl | rfl | rfl <;> decide
    · rcases hescape with rfl | rfl | rfl <;> rfl
  · rw [not_or, not_or] at hescape
    refine writes_of_piece? (piece?_self hescape.1 ?_ ?_)
    · simpa [Form.isMark] using hescape.2.2
    · simp [Form.mayStand, hescape.2.1, hfeed, hreturn]

/-! ## Names -/

theorem named?_append {d : Dialect} {name : String} (hname : isName d name = true)
    (hclose : '\x7d' ∉ name.toList) (rest : List Char) :
    named? d (name.toList ++ '\x7d' :: rest) = some (.slot name, rest) := by
  have hall : ∀ c ∈ name.toList, (c ≠ '\x7d' : Bool) = true := fun c hc =>
    decide_eq_true fun heq => hclose (heq ▸ hc)
  have hdrop : (name.toList ++ '\x7d' :: rest).dropWhile (· ≠ '\x7d') = '\x7d' :: rest := by
    rw [List.dropWhile_append_of_pos hall]
    simp
  have htake : (name.toList ++ '\x7d' :: rest).takeWhile (· ≠ '\x7d') = name.toList := by
    rw [List.takeWhile_append_of_pos hall]
    simp
  rw [named?, hdrop]
  simp only [htake, String.ofList_toList, hname, if_true]

/-- The characters of Python identifiers stand for themselves in every literal. -/
theorem of_isIdentifierChar {c : Char} (h : Text.isIdentifierChar c = true) :
    Json.literalChar c = [c] ∧ c ≠ '\x7b' ∧ c ≠ '\x7d' := by
  have hne : ∀ {d : Char}, Text.isIdentifierChar d = false → c ≠ d := by
    rintro d hd rfl
    rw [h] at hd
    cases hd
  have hcontrol : ¬ c.toNat < 0x20 := by
    intro hlt
    have hall : ∀ n < 0x20, Text.isIdentifierChar (Char.ofNat n) = false := by decide
    exact hne (hall c.toNat hlt) (Char.ofNat_toNat c).symm
  refine ⟨?_, hne (by decide), hne (by decide)⟩
  rw [Json.literalChar, if_neg (hne (by decide)), if_neg (hne (by decide)), if_neg (hne (by decide)),
    if_neg (hne (by decide)), if_neg (hne (by decide)), if_neg (by omega), if_neg (by omega),
    if_neg hcontrol]

theorem isIdentifierChar_of_mem_name {name : String} (h : Naming.isPythonIdentifier name = true) :
    ∀ c ∈ name.toList, Text.isIdentifierChar c = true := by
  rw [Naming.isPythonIdentifier, Bool.and_eq_true] at h
  exact Text.isIdentifierChar_of_mem h.1

theorem writes_pythonSlot {name : String} (h : Naming.isPythonIdentifier name = true) :
    Writes .formatted (("\x7b" ++ name ++ "\x7d").toList.flatMap Json.literalChar) [.slot name] := by
  have hopen : "\x7b".toList = ['\x7b'] := by decide
  have hclose : "\x7d".toList = ['\x7d'] := by decide
  have hchars := isIdentifierChar_of_mem_name h
  have hname : name.toList.flatMap Json.literalChar = name.toList := by
    calc name.toList.flatMap Json.literalChar
        = name.toList.flatMap (fun c => [c]) :=
          List.flatMap_congr fun c hc => (of_isIdentifierChar (hchars c hc)).1
      _ = name.toList := List.flatMap_singleton' _
  have hnot : '\x7d' ∉ name.toList := fun hmem => (of_isIdentifierChar (hchars _ hmem)).2.2 rfl
  have hfirst : ∀ c ∈ name.toList.head?, c ≠ '\x7b' := fun c hc =>
    (of_isIdentifierChar (hchars c (List.mem_of_mem_head? hc))).2.1
  refine writes_of_piece? fun rest => ?_
  have hnamed := named?_append (d := .python) h hnot rest
  rw [String.toList_append, String.toList_append, hopen, hclose, List.flatMap_append,
    List.flatMap_append, hname]
  cases hcs : name.toList with
  | nil =>
    rw [Naming.isPythonIdentifier, Text.isIdentifier, hcs] at h
    cases h
  | cons c more =>
    rw [hcs] at hnamed hfirst
    have hbrace : '\x7b' ≠ c := (hfirst c rfl).symm
    have hwritten : ['\x7b'].flatMap Json.literalChar ++ c :: more ++
        ['\x7d'].flatMap Json.literalChar ++ rest = '\x7b' :: c :: (more ++ '\x7d' :: rest) := by
      have hboth : ['\x7b'].flatMap Json.literalChar = ['\x7b'] ∧
          ['\x7d'].flatMap Json.literalChar = ['\x7d'] := by decide
      rw [hboth.1, hboth.2]
      simp
    rw [hwritten, Form.piece?, if_neg (by decide), if_pos (by decide), Form.marked?, if_neg hbrace,
      if_pos rfl]
    exact hnamed

/-- A name of Kotlin has no character that stands neither in a word nor between backticks. -/
theorem notMem_of_isKotlinName {name : String} {d : Char} (hquotable : isQuotable d = false)
    (hmark : d ≠ '`') (hword : (isKotlinLetter d || Text.inRanges Text.decimalDigits d) = false)
    (h : isKotlinName name = true) : d ∉ name.toList := by
  unfold isKotlinName at h
  split at h
  · cases h
  · rename_i c rest hchars
    rw [hchars]
    split_ifs at h with hquote
    · rw [Bool.and_eq_true, Bool.and_eq_true, decide_eq_true_eq, List.all_eq_true] at h
      obtain ⟨⟨hlast, -⟩, hall⟩ := h
      obtain ⟨front, rfl⟩ := List.getLast?_eq_some_iff.1 hlast
      rw [List.dropLast_concat] at hall
      intro hmem
      rw [hquote] at hmem
      have hfront : d ∈ front := by simpa [hmark] using hmem
      exact absurd (hall _ hfront) (by simp [hquotable])
    · rw [Bool.and_eq_true, Bool.and_eq_true, List.all_eq_true] at h
      obtain ⟨⟨hstart, hall⟩, -⟩ := h
      intro hmem
      rcases List.mem_cons.1 hmem with rfl | hmem
      · simp [hstart] at hword
      · exact absurd (hall _ hmem) (by simp [hword])

theorem close_notMem_of_isKotlinName {name : String} (h : isKotlinName name = true) :
    '\x7d' ∉ name.toList :=
  notMem_of_isKotlinName (by decide) (by decide) (by decide) h

theorem writes_kotlinSlot {name : String} (h : isKotlinName name = true) :
    Writes .kotlin ("$\x7b" ++ name ++ "\x7d").toList [.slot name] := by
  have hopen : "$\x7b".toList = ['$', '\x7b'] := by decide
  have hclose : "\x7d".toList = ['\x7d'] := by decide
  refine writes_of_piece? fun rest => ?_
  have hnamed := named?_append (d := .kotlin) h (close_notMem_of_isKotlinName h) rest
  rw [String.toList_append, String.toList_append, hopen, hclose, List.append_assoc,
    List.append_assoc, List.singleton_append, List.cons_append, List.cons_append, List.nil_append,
    Form.piece?, if_neg (by decide), if_pos (by decide), Form.marked?, if_pos rfl]
  exact hnamed

end ApiClient.Literal
