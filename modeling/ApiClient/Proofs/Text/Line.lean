import ApiClient.Text.Blank
import Mathlib

/-!
# Lines of a text

A text is cut at the occurrences of a character into pieces without it (`notMem_of_mem_splitOnChar`),
and what stands between two occurrences is cut by itself (`splitOnChar_append`). Just one of the pieces
is not empty if the text is a word between such characters (`filter_splitOnChar_eq_singleton_iff`). Texts
without a character are told apart when they are joined by it (`join_injOn`). `HasLine` says that a text has a line,
and `mem_splitOnChar_join` that texts which are joined by line feeds are lines of the result.
-/

namespace ApiClient.Text

variable {sep : Char} {cs word : List Char}

/-! ## Pieces -/

theorem splitOnChar_ne_nil (sep : Char) (cs : List Char) : splitOnChar sep cs ≠ [] := by
  cases cs with
  | nil => simp [splitOnChar]
  | cons c rest =>
    rw [splitOnChar]
    split
    · simp
    · split <;> simp

theorem splitOnChar_cons_of_ne {c : Char} (h : c ≠ sep) {rest piece : List Char}
    {more : List (List Char)} (hrest : splitOnChar sep rest = piece :: more) :
    splitOnChar sep (c :: rest) = (c :: piece) :: more := by
  rw [splitOnChar, if_neg h, hrest]

theorem splitOnChar_append (sep : Char) (a b : List Char) :
    splitOnChar sep (a ++ sep :: b) = splitOnChar sep a ++ splitOnChar sep b := by
  induction a with
  | nil => simp [splitOnChar]
  | cons c rest ih =>
    by_cases h : c = sep
    · subst h
      simp [splitOnChar, ih]
    · obtain ⟨piece, more, hrest⟩ := List.exists_cons_of_ne_nil (splitOnChar_ne_nil sep rest)
      rw [List.cons_append, splitOnChar_cons_of_ne h hrest]
      rw [hrest] at ih
      rw [splitOnChar_cons_of_ne h ih]
      rfl

theorem splitOnChar_of_notMem (h : sep ∉ cs) : splitOnChar sep cs = [cs] := by
  induction cs with
  | nil => rfl
  | cons c rest ih =>
    obtain ⟨hc, hrest⟩ := List.ne_and_not_mem_of_not_mem_cons h
    exact splitOnChar_cons_of_ne hc.symm (ih hrest)

/-- A piece of a text is one of those behind its first character, or empty, or begins with that
character. -/
theorem mem_splitOnChar_cons {c : Char} {piece : List Char} (h : piece ∈ splitOnChar sep (c :: cs)) :
    piece ∈ splitOnChar sep cs ∨ piece = [] ∨
      c ≠ sep ∧ ∃ first ∈ splitOnChar sep cs, piece = c :: first := by
  by_cases hc : c = sep
  · rw [splitOnChar, if_pos hc] at h
    exact (List.mem_cons.1 h).elim (fun h => .inr (.inl h)) .inl
  · obtain ⟨first, more, hrest⟩ := List.exists_cons_of_ne_nil (splitOnChar_ne_nil sep cs)
    rw [splitOnChar_cons_of_ne hc hrest] at h
    rw [hrest]
    rcases List.mem_cons.1 h with h | h
    · exact .inr (.inr ⟨hc, first, List.mem_cons_self, h⟩)
    · exact .inl (List.mem_cons_of_mem _ h)

theorem notMem_of_mem_splitOnChar {piece : List Char} (h : piece ∈ splitOnChar sep cs) :
    sep ∉ piece := by
  induction cs generalizing piece with
  | nil =>
    obtain rfl := List.mem_singleton.1 h
    exact List.not_mem_nil
  | cons c rest ih =>
    obtain h | rfl | ⟨hc, first, hfirst, rfl⟩ := mem_splitOnChar_cons h
    · exact ih h
    · exact List.not_mem_nil
    · exact List.not_mem_cons_of_ne_of_not_mem hc.symm (ih hfirst)

theorem sublist_of_mem_splitOnChar {piece : List Char} (h : piece ∈ splitOnChar sep cs) :
    piece.Sublist cs := by
  induction cs generalizing piece with
  | nil =>
    obtain rfl := List.mem_singleton.1 h
    exact List.Sublist.refl _
  | cons c rest ih =>
    obtain h | rfl | ⟨-, first, hfirst, rfl⟩ := mem_splitOnChar_cons h
    · exact (ih h).cons c
    · exact List.nil_sublist _
    · exact (ih hfirst).cons_cons c

theorem head?_splitOnChar (sep : Char) (cs : List Char) :
    (splitOnChar sep cs).head? = some (cs.takeWhile (· ≠ sep)) := by
  induction cs with
  | nil => rfl
  | cons c rest ih =>
    by_cases hc : c = sep
    · simp [splitOnChar, hc]
    · obtain ⟨piece, more, hrest⟩ := List.exists_cons_of_ne_nil (splitOnChar_ne_nil sep rest)
      rw [hrest, List.head?_cons, Option.some.injEq] at ih
      rw [splitOnChar_cons_of_ne hc hrest, List.head?_cons, List.takeWhile_cons_of_pos (by simpa using hc),
        ih]

theorem eq_append_replicate_of_splitOnChar {piece : List Char} {more : List (List Char)}
    (h : splitOnChar sep cs = piece :: more) (hmore : ∀ m ∈ more, m = []) :
    cs = piece ++ List.replicate more.length sep := by
  induction cs generalizing piece more with
  | nil =>
    obtain ⟨rfl, rfl⟩ := List.cons.inj h
    rfl
  | cons c rest ih =>
    obtain ⟨first, others, hrest⟩ := List.exists_cons_of_ne_nil (splitOnChar_ne_nil sep rest)
    by_cases hc : c = sep
    · rw [splitOnChar, if_pos hc] at h
      obtain ⟨rfl, rfl⟩ := List.cons.inj h
      rw [hrest] at hmore
      obtain ⟨rfl, hothers⟩ := List.forall_mem_cons.1 hmore
      rw [hrest, List.length_cons, List.replicate_succ, ← List.nil_append (List.replicate _ _),
        ← ih hrest hothers, hc]
      rfl
    · rw [splitOnChar_cons_of_ne hc hrest] at h
      obtain ⟨rfl, rfl⟩ := List.cons.inj h
      rw [List.cons_append, ← ih hrest hmore]

theorem splitOnChar_replicate_append (sep : Char) (n : Nat) (cs : List Char) :
    splitOnChar sep (List.replicate n sep ++ cs) = List.replicate n [] ++ splitOnChar sep cs := by
  induction n with
  | zero => rfl
  | succ n ih =>
    rw [List.replicate_succ, List.cons_append, splitOnChar, if_pos rfl, ih]
    rfl

/-- One piece of a text is not empty exactly if it is a word with separators in front and behind. -/
theorem filter_splitOnChar_eq_singleton_iff :
    (splitOnChar sep cs).filter (· ≠ []) = [word] ↔ word ≠ [] ∧ sep ∉ word ∧
      ∃ m n, cs = List.replicate m sep ++ (word ++ List.replicate n sep) := by
  constructor
  · intro h
    have hword : word ∈ (splitOnChar sep cs).filter (· ≠ []) := h ▸ List.mem_singleton_self word
    obtain ⟨hmem, hne⟩ := List.mem_filter.1 hword
    refine ⟨of_decide_eq_true hne, notMem_of_mem_splitOnChar hmem, ?_⟩
    clear hword hmem hne
    induction cs with
    | nil => cases h
    | cons c rest ih =>
      by_cases hc : c = sep
      · rw [splitOnChar, if_pos hc] at h
        obtain ⟨m, n, hrest⟩ := ih h
        exact ⟨m + 1, n, by rw [hrest, hc]; rfl⟩
      · obtain ⟨piece, more, hrest⟩ := List.exists_cons_of_ne_nil (splitOnChar_ne_nil sep rest)
        rw [splitOnChar_cons_of_ne hc hrest] at h
        obtain ⟨rfl, hmore⟩ := List.cons.inj h
        rw [List.filter_eq_nil_iff] at hmore
        refine ⟨0, more.length, ?_⟩
        rw [eq_append_replicate_of_splitOnChar hrest fun m hm => by simpa using hmore m hm]
        rfl
  · rintro ⟨hne, hword, m, n, rfl⟩
    have hback : (splitOnChar sep (word ++ List.replicate n sep)).filter (· ≠ []) = [word] := by
      cases n with
      | zero => simp [splitOnChar_of_notMem hword, hne]
      | succ n =>
        have hblank := splitOnChar_replicate_append sep n []
        rw [List.append_nil] at hblank
        rw [List.replicate_succ, splitOnChar_append, splitOnChar_of_notMem hword, hblank]
        simp [splitOnChar, hne]
    rw [splitOnChar_replicate_append, List.filter_append, hback]
    simp

/-! ## Joining -/

theorem join_cons_cons (sep s t : String) (rest : List String) :
    join sep (s :: t :: rest) = s ++ sep ++ join sep (t :: rest) :=
  rfl

/-- A character of joined texts is one of the separator or of a text. -/
theorem mem_join {c : Char} {sep : String} {texts : List String}
    (h : c ∈ (join sep texts).toList) : c ∈ sep.toList ∨ ∃ text ∈ texts, c ∈ text.toList := by
  induction texts with
  | nil => cases h
  | cons s rest ih =>
    cases rest with
    | nil => exact Or.inr ⟨s, List.mem_cons_self, h⟩
    | cons t rest =>
      rw [join_cons_cons, String.toList_append, String.toList_append, List.mem_append,
        List.mem_append] at h
      rcases h with (hs | hsep) | hrest
      · exact Or.inr ⟨s, List.mem_cons_self, hs⟩
      · exact Or.inl hsep
      · obtain hsep | ⟨text, htext, hc⟩ := ih hrest
        · exact Or.inl hsep
        · exact Or.inr ⟨text, List.mem_cons_of_mem _ htext, hc⟩

/-- Texts without a character come back when they are joined by it and cut at it. -/
theorem splitOnChar_join {between : String} (hsep : between.toList = [sep]) : ∀ {parts : List String},
    parts ≠ [] → (∀ s ∈ parts, sep ∉ s.toList) →
      splitOnChar sep (join between parts).toList = parts.map String.toList
  | [], hne, _ => absurd rfl hne
  | [s], _, hparts => splitOnChar_of_notMem (hparts s List.mem_cons_self)
  | s :: t :: rest, _, hparts => by
    have hrest := splitOnChar_join hsep (List.cons_ne_nil t rest) fun u hu =>
      hparts u (List.mem_cons_of_mem _ hu)
    have hcut : (join between (s :: t :: rest)).toList =
        s.toList ++ sep :: (join between (t :: rest)).toList := by
      simp [join_cons_cons, String.toList_append, hsep]
    rw [hcut, splitOnChar_append, splitOnChar_of_notMem (hparts s List.mem_cons_self), hrest]
    rfl

/-- A text comes back when it is cut at a character and its pieces are joined by it. -/
theorem join_split {between : String} (hsep : between.toList = [sep]) (s : String) :
    join between (split sep s) = s := by
  have hjoin : ∀ cs : List Char,
      (join between ((splitOnChar sep cs).map String.ofList)).toList = cs := by
    intro cs
    induction cs with
    | nil => simp [splitOnChar, join]
    | cons c rest ih =>
      obtain ⟨piece, more, hrest⟩ := List.exists_cons_of_ne_nil (splitOnChar_ne_nil sep rest)
      by_cases h : c = sep
      · rw [hrest, List.map_cons] at ih
        rw [splitOnChar, if_pos h, hrest, List.map_cons, List.map_cons, join_cons_cons,
          String.toList_append, String.toList_append, hsep, ih, h]
        simp
      · rw [splitOnChar_cons_of_ne h hrest]
        rw [hrest] at ih
        cases more with
        | nil => simpa [join] using ih
        | cons next more =>
          simp only [List.map_cons, join_cons_cons, String.toList_append,
            String.toList_ofList, List.cons_append] at ih ⊢
          rw [ih]
  exact String.toList_injective (hjoin s.toList)

theorem join_injOn {between : String} (hsep : between.toList = [sep]) :
    Set.InjOn (join between) {parts | parts ≠ [] ∧ ∀ s ∈ parts, sep ∉ s.toList} := by
  rintro parts ⟨hne, hparts⟩ parts' ⟨hne', hparts'⟩ heq
  have hcut := congrArg (fun s : String => splitOnChar sep s.toList) heq
  simp only [splitOnChar_join hsep hne hparts, splitOnChar_join hsep hne' hparts'] at hcut
  exact List.map_injective_iff.2 (fun _ _ h => String.toList_injective h) hcut

/-! ## Lines -/

/-- A text has a line. -/
def HasLine (text line : String) : Prop :=
  line.toList ∈ splitOnChar '\n' text.toList

/-- Texts with line feeds and `front` between them, and `front` before the first, are the lines that
begin with `front`. -/
theorem mem_splitOnChar_join (front : String) {lines : List String} {line : String}
    (hmem : line ∈ lines) (hfront : '\n' ∉ front.toList) (hline : '\n' ∉ line.toList) :
    (front ++ line).toList ∈ splitOnChar '\n' (front ++ join ("\n" ++ front) lines).toList := by
  have hone : splitOnChar '\n' (front ++ line).toList = [(front ++ line).toList] := by
    refine splitOnChar_of_notMem ?_
    rw [String.toList_append, List.mem_append]
    exact not_or.2 ⟨hfront, hline⟩
  induction lines with
  | nil => cases hmem
  | cons s rest ih =>
    cases rest with
    | nil =>
      obtain rfl := List.mem_singleton.1 hmem
      rw [join, hone]
      exact List.mem_singleton_self _
    | cons t rest =>
      have hcut : (front ++ join ("\n" ++ front) (s :: t :: rest)).toList =
          (front ++ s).toList ++ '\n' :: (front ++ join ("\n" ++ front) (t :: rest)).toList := by
        simp [join_cons_cons, String.toList_append]
      rw [hcut, splitOnChar_append]
      rcases List.mem_cons.1 hmem with rfl | hmem
      · rw [hone]
        exact List.mem_append_left _ (List.mem_singleton_self _)
      · exact List.mem_append_right _ (ih hmem)

end ApiClient.Text
