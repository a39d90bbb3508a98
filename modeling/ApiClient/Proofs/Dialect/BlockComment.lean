import ApiClient.Dialect.Comment
import ApiClient.Proofs.Text.Blank
import ApiClient.Proofs.Text.Line
import Mathlib

/-!
# Block comments

Block comments nest: a comment ends where everything that was opened in it is closed
(`BlockComment.behindClose?`). A text leaves a comment as deep as its openers and closers say
(`BlockComment.nesting`), which is told piece by piece where other characters stand between the pieces
(`BlockComment.nesting_append_cons`). An opened text has no closer left and the openers it had, so the
comment around it ends where it should if and only if there is none.
-/

namespace ApiClient

namespace BlockComment

/-- What opens a comment. -/
def opener : List Char :=
  ['/', '*']

/-- What closes a comment. -/
def closer : List Char :=
  ['*', '/']

/-! ## Reading -/

/-- What follows the end of a comment, for a text in it `depth` comments deep. -/
def behindClose? : Nat → List Char → Option (List Char)
  | _, [] => none
  | depth, '/' :: '*' :: rest => behindClose? (depth + 1) rest
  | 0, '*' :: '/' :: rest => some rest
  | depth + 1, '*' :: '/' :: rest => behindClose? depth rest
  | depth, _ :: rest => behindClose? depth rest

/-- What follows the comment that a text begins with. -/
def behind? (cs : List Char) : Option (List Char) :=
  (Text.dropFront? opener cs).bind (behindClose? 0)

/-- How many comments deep a text ends that begins `depth` comments deep; nothing if it closes one more
than that. -/
def nesting : Nat → List Char → Option Nat
  | depth, [] => some depth
  | depth, '/' :: '*' :: rest => nesting (depth + 1) rest
  | 0, '*' :: '/' :: _ => none
  | depth + 1, '*' :: '/' :: rest => nesting depth rest
  | depth, _ :: rest => nesting depth rest

variable {depth : Nat} {cs a b rest : List Char} {c s : Char}

theorem nesting_cons_other (hslash : c ≠ '/') (hstar : c ≠ '*') (depth : Nat) (rest : List Char) :
    nesting depth (c :: rest) = nesting depth rest := by
  rw [nesting]
  all_goals simp_all

theorem behindClose?_cons_other (hslash : c ≠ '/') (hstar : c ≠ '*') (depth : Nat)
    (rest : List Char) : behindClose? depth (c :: rest) = behindClose? depth rest := by
  rw [behindClose?]
  all_goals simp_all

theorem nesting_append_cons (hslash : s ≠ '/') (hstar : s ≠ '*') (depth : Nat) (a b : List Char) :
    nesting depth (a ++ s :: b) = (nesting depth a).bind (nesting · b) := by
  fun_induction nesting depth a with
  | case1 depth => exact nesting_cons_other hslash hstar depth b
  | case2 depth rest ih => simpa [nesting] using ih
  | case3 rest => simp [nesting]
  | case4 depth rest ih => simpa [nesting] using ih
  | case5 depth c rest hopen hclose hclose' ih =>
    rw [List.cons_append, nesting, ih]
    all_goals
      intros
      cases rest <;> simp_all

theorem behindClose?_append_cons (hslash : s ≠ '/') (hstar : s ≠ '*') (depth : Nat)
    (a b : List Char) : behindClose? depth (a ++ s :: b) =
      ((behindClose? depth a).map (· ++ s :: b)).or
        ((nesting depth a).bind (behindClose? · b)) := by
  fun_induction nesting depth a with
  | case1 depth => simpa [behindClose?] using behindClose?_cons_other hslash hstar depth b
  | case2 depth rest ih => simpa [behindClose?] using ih
  | case3 rest => simp [behindClose?]
  | case4 depth rest ih => simpa [behindClose?] using ih
  | case5 depth c rest hopen hclose hclose' ih =>
    rw [List.cons_append, behindClose?, ih, behindClose?]
    all_goals
      intros
      cases rest <;> simp_all

theorem length_behindClose? (h : behindClose? depth cs = some rest) :
    rest.length + 2 ≤ cs.length := by
  fun_induction behindClose? depth cs with
  | case1 => cases h
  | case3 cs =>
    obtain rfl := Option.some.inj h
    exact le_rfl
  | case2 _ _ ih | case4 _ _ ih | case5 _ _ _ _ _ _ ih =>
    have := ih h
    simp only [List.length_cons]
    omega

theorem nesting_of_behindClose? (h : behindClose? depth cs = some rest) : nesting depth cs = none := by
  fun_induction nesting depth cs with
  | case1 => cases h
  | case2 _ _ ih => exact ih h
  | case3 => rfl
  | case4 _ _ ih => exact ih h
  | case5 _ _ _ _ _ _ ih =>
    refine ih ?_
    rwa [behindClose?] at h
    all_goals assumption

theorem behind?_opener_append (cs : List Char) : behind? (opener ++ cs) = behindClose? 0 cs := by
  rw [behind?, Text.dropFront?_eq_some_iff.2 rfl, Option.bind_some]

/-- A comment whose closer stands behind another character ends there if and only if its text closes
what it opens and no more. -/
theorem behind?_eq_some_iff (hslash : s ≠ '/') (hstar : s ≠ '*') :
    behind? (opener ++ (a ++ s :: (closer ++ rest))) = some rest ↔ nesting 0 a = some 0 := by
  rw [behind?_opener_append, behindClose?_append_cons hslash hstar]
  cases hearly : behindClose? 0 a with
  | some tail =>
    rw [nesting_of_behindClose? hearly]
    refine iff_of_false (fun h => ?_) (by simp)
    have := congrArg List.length (Option.some.inj h)
    simp only [List.length_append, List.length_cons] at this
    omega
  | none =>
    cases nesting 0 a with
    | none => simp
    | some depth =>
      cases depth with
      | zero => simp [closer, behindClose?]
      | succ depth =>
        have hdeep : behindClose? depth rest ≠ some rest := fun h => by
          have := length_behindClose? h
          omega
        simpa [closer, behindClose?] using hdeep

/-! ## Openers -/

/-- How many comments a text without closers opens. -/
def openers : List Char → Nat
  | [] => 0
  | '/' :: '*' :: rest => openers rest + 1
  | _ :: rest => openers rest

theorem nesting_of_not_closer (h : ¬closer <:+: cs) (depth : Nat) :
    nesting depth cs = some (depth + openers cs) := by
  fun_induction nesting depth cs with
  | case1 depth => rfl
  | case2 depth rest ih =>
    rw [ih fun hrest => h (List.infix_cons (List.infix_cons hrest)), openers]
    congr 1
    omega
  | case3 rest => exact absurd (List.prefix_append closer rest).isInfix h
  | case4 depth rest => exact absurd (List.prefix_append closer rest).isInfix h
  | case5 depth c rest hopen _ _ ih =>
    rw [ih fun hrest => h (List.infix_cons hrest), openers]
    exact hopen

theorem openers_eq_zero_iff : openers cs = 0 ↔ ¬opener <:+: cs := by
  fun_induction openers cs with
  | case1 => simp [opener]
  | case2 rest ih =>
    exact iff_of_false (Nat.succ_ne_zero _) (not_not_intro (List.prefix_append opener rest).isInfix)
  | case3 c rest hopen ih =>
    have hfront : ¬(c = '/' ∧ rest.head? = some '*') := by
      rintro ⟨hc, hrest⟩
      obtain ⟨more, hmore⟩ := List.head?_eq_some_iff.1 hrest
      exact hopen more hc hmore
    rw [ih, opener, Text.isInfix_pair_cons_iff, or_iff_right hfront]

/-! ## Closers -/

/-- A text with a blank in every closer, from the left. -/
def opened : List Char → List Char
  | [] => []
  | '*' :: '/' :: rest => '*' :: ' ' :: '/' :: opened rest
  | c :: rest => c :: opened rest

theorem opened_eq (cs : List Char) :
    Text.replaceChars closer ['*', ' ', '/'] cs = opened cs := by
  fun_induction opened cs with
  | case1 => rw [Text.replaceChars]
  | case2 rest ih =>
    have hfront : '*' :: '/' :: rest = closer ++ rest := rfl
    rw [hfront, Text.replaceChars_append (by decide), ih]
    rfl
  | case3 c rest hclose ih =>
    rw [Text.replaceChars_cons, ih]
    rw [Option.eq_none_iff_forall_ne_some]
    intro after hafter
    obtain ⟨hc, hrest⟩ := List.cons.inj (Text.dropFront?_eq_some_iff.1 hafter)
    exact hclose after hc hrest

theorem head?_opened (cs : List Char) : (opened cs).head? = cs.head? := by
  fun_cases opened cs <;> rfl

theorem not_closer_opened (cs : List Char) : ¬closer <:+: opened cs := by
  fun_induction opened cs with
  | case1 => simp [closer]
  | case2 rest ih =>
    rw [closer] at ih ⊢
    simpa [Text.isInfix_pair_cons_iff] using ih
  | case3 c rest hclose ih =>
    rw [closer, Text.isInfix_pair_cons_iff, head?_opened]
    rintro (⟨hc, hrest⟩ | hrest)
    · obtain ⟨more, hmore⟩ := List.head?_eq_some_iff.1 hrest
      exact hclose more hc hmore
    · exact ih hrest

theorem opener_opened_iff (cs : List Char) : opener <:+: opened cs ↔ opener <:+: cs := by
  fun_induction opened cs with
  | case1 => rfl
  | case2 rest ih =>
    rw [opener] at ih ⊢
    simp [Text.isInfix_pair_cons_iff, head?_opened, ih]
  | case3 c rest hclose ih =>
    rw [opener] at ih ⊢
    rw [Text.isInfix_pair_cons_iff, Text.isInfix_pair_cons_iff, head?_opened, ih]

theorem mem_opened (h : c ∈ opened cs) : c = ' ' ∨ c ∈ cs := by
  fun_induction opened cs with
  | case1 => exact .inr h
  | case2 rest ih =>
    simp only [List.mem_cons] at h ⊢
    tauto
  | case3 d rest hclose ih =>
    simp only [List.mem_cons] at h ⊢
    tauto

/-- A comment around a text without closers ends where it should, or nowhere if the text opens
another one. -/
theorem behind?_of_not_closer (hslash : s ≠ '/') (hstar : s ≠ '*') (h : ¬closer <:+: a) :
    behind? (opener ++ (a ++ s :: closer)) = if opener <:+: a then none else some [] := by
  have hnesting := nesting_of_not_closer h 0
  have hearly : behindClose? 0 a = none := by
    rw [Option.eq_none_iff_forall_ne_some]
    intro tail htail
    rw [nesting_of_behindClose? htail] at hnesting
    cases hnesting
  rw [behind?_opener_append, behindClose?_append_cons hslash hstar, hearly, hnesting]
  split_ifs with hopener
  · have hsome : openers a ≠ 0 := fun hzero => openers_eq_zero_iff.1 hzero hopener
    obtain ⟨depth, hdepth⟩ := Nat.exists_eq_succ_of_ne_zero hsome
    simp [hdepth, closer, behindClose?]
  · rw [openers_eq_zero_iff.2 hopener]
    rfl

end BlockComment

namespace Dialect

open BlockComment

/-! ## Comments of texts -/

theorem toList_openComment (text : String) :
    (openComment text).toList = opened (Text.trim text.toList) := by
  have hcloser : "*/".toList = closer := by decide
  have hspaced : "* /".toList = ['*', ' ', '/'] := by decide
  rw [openComment, Text.replaceAll, hcloser, hspaced, Text.strip, String.toList_ofList,
    String.toList_ofList, opened_eq]

theorem isBlank_of_mem_mark {c : Char} (h : c ∈ opener ∨ c ∈ closer) : Text.isBlank c = false := by
  obtain rfl | rfl : c = '/' ∨ c = '*' := by
    simp only [opener, closer, List.mem_cons, List.not_mem_nil, or_false] at h
    tauto
  all_goals decide

theorem opener_openComment_iff (text : String) :
    opener <:+: (openComment text).toList ↔ opener <:+: text.toList := by
  rw [toList_openComment, opener_opened_iff,
    Text.isInfix_trim_iff (by decide) fun c hc => isBlank_of_mem_mark (.inl hc)]

theorem not_closer_openComment (text : String) : ¬closer <:+: (openComment text).toList := by
  rw [toList_openComment]
  exact not_closer_opened _

theorem isInfix_commentLine_iff {mark : List Char} (hne : mark ≠ [])
    (hmark : ∀ c ∈ mark, Text.isBlank c = false) (hstar : ¬mark <:+: [' ', '*']) (line : String) :
    mark <:+: (commentLine line).toList ↔ mark <:+: line.toList := by
  have hcut : (" * " ++ line).toList = [' ', '*'] ++ ' ' :: line.toList := by
    simp [String.toList_append]
  rw [commentLine, String.toList_ofList, Text.isInfix_trimEnd_iff hne hmark, hcut,
    Text.isInfix_append_cons_iff (Text.notMem_of_isBlank hmark (by decide)), or_iff_right hstar]

/-- The text between the marks of a comment, but for the blank in front of the closing one. -/
def commentBody (text : String) : List Char :=
  match Text.lines (openComment text) with
  | [line] => '*' :: ' ' :: line.toList
  | lines => '*' :: '\n' :: (Text.join "\n" (lines.map commentLine)).toList ++ ['\n']

theorem toList_docComment (text : String) :
    (docComment text).toList = opener ++ (commentBody text ++ ' ' :: closer) := by
  rw [docComment, commentBody]
  rcases Text.lines (openComment text) with _ | ⟨line, _ | ⟨next, rest⟩⟩
  all_goals simp [String.toList_append, opener, closer]

/-- A mark occurs between the marks of a comment if it does in the text. -/
theorem isInfix_commentBody_iff {mark : List Char} (hne : mark ≠ [])
    (hmark : ∀ c ∈ mark, Text.isBlank c = false) (hstar : ¬mark <:+: [' ', '*']) (text : String) :
    mark <:+: commentBody text ↔ mark <:+: (openComment text).toList := by
  have hfirst : ¬mark <:+: ['*'] := fun h => hstar (h.trans ⟨[' '], [], rfl⟩)
  have hspace := Text.notMem_of_isBlank hmark (c := ' ') (by decide)
  have hbreak := Text.notMem_of_isBlank hmark (c := '\n') (by decide)
  have hlines : ¬mark <:+: (openComment text).toList ↔
      ∀ line ∈ Text.lines (openComment text), ¬mark <:+: line.toList := by
    rw [Text.not_isInfix_iff_forall_linesOf hne hmark, Text.lines, List.forall_mem_map]
    simp only [String.toList_ofList]
  rw [← not_iff_not, hlines, commentBody]
  generalize Text.lines (openComment text) = lines
  split
  · rename_i line
    have hcut : '*' :: ' ' :: line.toList = ['*'] ++ ' ' :: line.toList := rfl
    rw [hcut, Text.isInfix_append_cons_iff hspace, or_iff_right hfirst, List.forall_mem_singleton]
  · have hcut : '*' :: '\n' :: (Text.join "\n" (lines.map commentLine)).toList ++ ['\n'] =
        ['*'] ++ '\n' :: ((Text.join "\n" (lines.map commentLine)).toList ++ '\n' :: []) := rfl
    rw [hcut, Text.isInfix_append_cons_iff hbreak, or_iff_right hfirst,
      Text.isInfix_append_cons_iff hbreak, List.infix_nil, or_iff_left hne,
      Text.not_isInfix_join_iff hne hmark, List.forall_mem_map]
    simp only [isInfix_commentLine_iff hne hmark hstar]

/-- A comment has no character that its text has not, but for those it is laid out with. -/
theorem notMem_docComment {c : Char} (hslash : c ≠ '/') (hstar : c ≠ '*')
    (hblank : Text.isBlank c = false) {text : String} (h : c ∉ text.toList) :
    c ∉ (docComment text).toList := by
  have hspace : c ≠ ' ' := by
    rintro rfl
    exact absurd hblank (by decide)
  have hopened : c ∉ (openComment text).toList := fun hmem => by
    rw [toList_openComment] at hmem
    exact h (Text.mem_of_mem_trim ((mem_opened hmem).resolve_left hspace))
  have hbody : c ∉ commentBody text := by
    rw [← List.singleton_infix_iff, isInfix_commentBody_iff (by simp) (by simpa using hblank)
      (by simp [List.singleton_infix_iff, hspace, hstar]), List.singleton_infix_iff]
    exact hopened
  rw [toList_docComment]
  simp [opener, closer, hslash, hstar, hspace, hbody]

/-- The comment of a text ends where it should, or nowhere if the text opens one. -/
theorem behind?_docComment (text : String) :
    behind? (docComment text).toList = if opener <:+: text.toList then none else some [] := by
  have hcloser : ¬closer <:+: commentBody text := by
    rw [isInfix_commentBody_iff (by decide) (fun c hc => isBlank_of_mem_mark (.inr hc)) (by decide)]
    exact not_closer_openComment text
  have hopener : opener <:+: commentBody text ↔ opener <:+: text.toList := by
    rw [isInfix_commentBody_iff (by decide) (fun c hc => isBlank_of_mem_mark (.inl hc)) (by decide),
      opener_openComment_iff]
  rw [toList_docComment, behind?_of_not_closer (by decide) (by decide) hcloser]
  simp only [hopener]

/-- A URL with a star behind its last slash opens a comment, and the one around it does not end. -/
theorem docComment_opener : Text.allBlank "Endpoint: /files/*" = false ∧
    behind? (docComment "Endpoint: /files/*").toList = none := by
  refine ⟨by decide, ?_⟩
  rw [toList_docComment, commentBody, Text.lines, toList_openComment]
  decide +kernel

/-! ## Comments at the head of a file -/

/-- A text with a star in front of every line after the first. -/
def starred (cs : List Char) : List Char :=
  cs.flatMap fun c => if c = '\n' then ['\n', ' ', '*', ' '] else [c]

theorem toList_headComment (text : String) :
    (headComment text).toList = starred (openComment text).toList := by
  have hbreak : "\n".toList = ['\n'] := by decide
  have hstar : "\n * ".toList = ['\n', ' ', '*', ' '] := by decide
  rw [headComment, Text.replaceAll, hbreak, hstar, String.toList_ofList, Text.replaceChars_singleton,
    starred]

theorem starred_append_break (a b : List Char) :
    starred (a ++ '\n' :: b) = starred a ++ '\n' :: ([' ', '*'] ++ ' ' :: starred b) := by
  simp [starred]

theorem starred_of_notMem {cs : List Char} (h : '\n' ∉ cs) : starred cs = cs := by
  induction cs with
  | nil => rfl
  | cons c rest ih =>
    obtain ⟨hc, hrest⟩ := List.ne_and_not_mem_of_not_mem_cons h
    rw [starred, List.flatMap_cons, if_neg hc.symm, ← starred, ih hrest]
    rfl

theorem isInfix_starred_iff {mark : List Char} (hmark : ∀ c ∈ mark, Text.isBlank c = false)
    (hstar : ¬mark <:+: [' ', '*']) (cs : List Char) : mark <:+: starred cs ↔ mark <:+: cs := by
  have hspace := Text.notMem_of_isBlank hmark (c := ' ') (by decide)
  have hbreak := Text.notMem_of_isBlank hmark (c := '\n') (by decide)
  have hstarred : ∀ a b, ¬mark <:+: starred (a ++ '\n' :: b) ↔
      ¬mark <:+: starred a ∧ ¬mark <:+: starred b := fun a b => by
    rw [starred_append_break, Text.isInfix_append_cons_iff hbreak, Text.isInfix_append_cons_iff hspace,
      or_iff_right hstar, not_or]
  have hplain : ∀ a b, ¬mark <:+: a ++ '\n' :: b ↔ ¬mark <:+: a ∧ ¬mark <:+: b := fun a b => by
    rw [Text.isInfix_append_cons_iff hbreak, not_or]
  -- both sides are told line by line, and a line has no star put in front of it
  rw [← not_iff_not, Text.forall_splitOnChar_iff (p := fun cs => ¬mark <:+: starred cs) hstarred,
    Text.forall_splitOnChar_iff (p := fun cs => ¬mark <:+: cs) hplain]
  refine forall₂_congr fun piece hpiece => ?_
  rw [starred_of_notMem (Text.notMem_of_mem_splitOnChar hpiece)]

theorem opener_headComment_iff (text : String) :
    opener <:+: (headComment text).toList ↔ opener <:+: text.toList := by
  rw [toList_headComment, isInfix_starred_iff (fun c hc => isBlank_of_mem_mark (.inl hc))
    (by decide), opener_openComment_iff]

theorem not_closer_headComment (text : String) : ¬closer <:+: (headComment text).toList := by
  rw [toList_headComment, isInfix_starred_iff (fun c hc => isBlank_of_mem_mark (.inr hc))
    (by decide)]
  exact not_closer_openComment text

theorem mem_of_mem_headComment {c : Char} (hspace : c ≠ ' ') (hstar : c ≠ '*') (hbreak : c ≠ '\n')
    {text : String} (h : c ∈ (headComment text).toList) : c ∈ text.toList := by
  rw [toList_headComment, starred, List.mem_flatMap] at h
  obtain ⟨d, hd, hc⟩ := h
  have hcd : c = d := by
    split_ifs at hc
    · simp [hspace, hstar, hbreak] at hc
    · exact List.mem_singleton.1 hc
  rw [toList_openComment] at hd
  exact Text.mem_of_mem_trim (hcd ▸ (mem_opened hd).resolve_left (hcd ▸ hspace))

end Dialect

end ApiClient
