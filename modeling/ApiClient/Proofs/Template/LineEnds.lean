import ApiClient.Proofs.Template.Source
import ApiClient.Proofs.Template.Splitting
import Mathlib

/-!
# Ends of lines in placeholders and conditionals

A placeholder stands in one line, and so does a conditional but for its string. A string ends at the first
quote that no backslash takes, and is refused if a line ends before without being taken. A quote or the end
of a line is taken when an odd number of backslashes stands in front of it, so these are the strings in which
all quotes and ends of lines are taken, and none by the closing quote's backslash (`Escaped`,
`exists_denotes_iff`). A string may go on in the next line behind such a backslash (`scan_of_escaped`), and
nowhere else (`newlines_behind_backslashes`).
-/

namespace ApiClient.Template

variable {c : Char} {front back text written value source done rest : List Char} {l : Lexeme}
  {ls : List (Lexeme × Position)} {p : Position}

/-! ## Backslashes -/

/-- The number of backslashes that a text ends with. -/
def slashes (cs : List Char) : Nat :=
  (cs.reverse.takeWhile (· = '\\')).length

/-- Only the backslashes behind any other character count. -/
theorem slashes_append_cons (hc : c ≠ '\\') (front back : List Char) :
    slashes (front ++ c :: back) = slashes back := by
  have hstop : (c :: front.reverse).takeWhile (· = '\\') = [] := by simp [hc]
  rw [slashes, slashes, List.reverse_append, List.reverse_cons, List.append_assoc,
    List.singleton_append, List.takeWhile_append, hstop, List.append_nil]
  split_ifs with hall
  · rw [hall]
  · rfl

/-- A backslash and the character it takes do not count among the others. -/
theorem even_slashes_escape (c : Char) (cs : List Char) :
    Even (slashes ('\\' :: c :: cs)) ↔ Even (slashes cs) := by
  by_cases hc : c = '\\'
  · subst hc
    rw [slashes, slashes, List.reverse_cons, List.reverse_cons, List.append_assoc,
      List.takeWhile_append]
    split_ifs with hall
    · rw [List.length_append, hall]
      simp [Nat.even_add]
    · rfl
  · rw [show '\\' :: c :: cs = ['\\'] ++ c :: cs from rfl, slashes_append_cons hc]

/-- Only a text with a backslash at its end has an odd number of them there. -/
theorem exists_of_odd_slashes (h : Odd (slashes front)) : ∃ before, front = before ++ ['\\'] := by
  cases front using List.reverseRecOn with
  | nil => exact absurd h (by decide)
  | append_singleton before c =>
    by_cases hc : c = '\\'
    · exact ⟨before, hc ▸ rfl⟩
    · rw [slashes_append_cons hc] at h
      exact absurd h (by decide)

/-! ## Strings -/

/-- All quotes and all ends of lines between the quotes of a string are taken by backslashes, and the quote
that closes the string is not. -/
structure Escaped (written : List Char) : Prop where
  taken : ∀ front c back, written = front ++ c :: back → c = '"' ∨ c = '\n' → Odd (slashes front)
  closed : Even (slashes written)

theorem escaped_nil : Escaped [] :=
  ⟨by simp, by simp [slashes]⟩

theorem escaped_cons (hslash : c ≠ '\\') :
    Escaped (c :: written) ↔ (c ≠ '"' ∧ c ≠ '\n') ∧ Escaped written := by
  have hcons : ∀ cs, slashes (c :: cs) = slashes cs := slashes_append_cons hslash []
  constructor
  · rintro ⟨htaken, hclosed⟩
    refine ⟨?_, fun front d back h hd => ?_, hcons written ▸ hclosed⟩
    · rw [← not_or]
      intro hc
      exact absurd (htaken [] c written rfl hc) (by decide)
    · rw [← hcons front]
      exact htaken (c :: front) d back (by rw [h, List.cons_append]) hd
  · rintro ⟨hc, htaken, hclosed⟩
    refine ⟨fun front d back h hd => ?_, (hcons written).symm ▸ hclosed⟩
    cases front with
    | nil =>
      obtain ⟨rfl, -⟩ := List.cons.inj h
      exact absurd hd (not_or.2 hc)
    | cons e front =>
      obtain ⟨rfl, htail⟩ := List.cons.inj h
      rw [hcons front]
      exact htaken front d back htail hd

theorem escaped_escape (c : Char) : Escaped ('\\' :: c :: written) ↔ Escaped written := by
  constructor
  · rintro ⟨htaken, hclosed⟩
    refine ⟨fun front d back h hd => ?_, (even_slashes_escape c written).1 hclosed⟩
    have hodd := htaken ('\\' :: c :: front) d back (by rw [h]; rfl) hd
    rwa [← Nat.not_even_iff_odd, even_slashes_escape, Nat.not_even_iff_odd] at hodd
  · rintro ⟨htaken, hclosed⟩
    refine ⟨fun front d back h hd => ?_, (even_slashes_escape c written).2 hclosed⟩
    match front with
    | [] =>
      obtain ⟨rfl, -⟩ := List.cons.inj h
      exact absurd hd (by decide)
    | [e] =>
      obtain ⟨rfl, -⟩ := List.cons.inj h
      decide
    | e :: f :: front =>
      simp only [List.cons_append, List.cons.injEq] at h
      obtain ⟨rfl, rfl, h⟩ := h
      rw [← Nat.not_even_iff_odd, even_slashes_escape, Nat.not_even_iff_odd]
      exact htaken front d back h hd

theorem Denotes.escaped (h : Denotes written value) : Escaped written := by
  induction h with
  | nil => exact escaped_nil
  | plain hquote hslash hline _ ih => exact (escaped_cons hslash).2 ⟨⟨hquote, hline⟩, ih⟩
  | newline _ ih | tab _ ih | quote _ ih | backslash _ ih | other _ _ ih =>
    exact (escaped_escape _).2 ih

theorem Escaped.exists_denotes : ∀ {written : List Char}, Escaped written → ∃ value, Denotes written value
  | [], _ => ⟨[], .nil⟩
  | [c], h => by
    by_cases hc : c = '\\'
    · subst hc
      exact absurd h.closed (by decide)
    · obtain ⟨⟨hquote, hline⟩, -⟩ := (escaped_cons hc).1 h
      exact ⟨[c], .plain hquote hc hline .nil⟩
  | c :: d :: rest, h => by
    by_cases hc : c = '\\'
    · subst hc
      obtain ⟨value, hvalue⟩ := ((escaped_escape d).1 h).exists_denotes
      exact ⟨_, denotes_unescape d hvalue⟩
    · obtain ⟨⟨hquote, hline⟩, hrest⟩ := (escaped_cons hc).1 h
      obtain ⟨value, hvalue⟩ := hrest.exists_denotes
      exact ⟨c :: value, .plain hquote hc hline hvalue⟩

/-- What may stand between the quotes of a string. -/
theorem exists_denotes_iff : (∃ value, Denotes written value) ↔ Escaped written :=
  ⟨fun ⟨_, h⟩ => h.escaped, Escaped.exists_denotes⟩

/-! ## Texts of nodes -/

/-- A character that only stands in the middle stands behind the front of the middle. -/
theorem exists_of_append_eq {middle : List Char} (h : front ++ (middle ++ back) = done ++ c :: rest)
    (hfront : c ∉ front) (hback : c ∉ back) :
    ∃ before behind, middle = before ++ c :: behind ∧ done = front ++ before := by
  induction front generalizing done with
  | nil =>
    rw [List.nil_append] at h
    obtain ⟨more, -, hback'⟩ | ⟨more, rfl, hrest⟩ := List.append_eq_append_iff.1 h
    · exact absurd (hback' ▸ List.mem_append_right more List.mem_cons_self) hback
    · cases more with
      | nil =>
        rw [List.nil_append] at hrest
        exact absurd (hrest ▸ List.mem_cons_self) hback
      | cons d behind =>
        obtain ⟨rfl, -⟩ := List.cons.inj hrest
        exact ⟨done, behind, rfl, rfl⟩
  | cons d front ih =>
    obtain ⟨hd, hfront⟩ := List.ne_and_not_mem_of_not_mem_cons hfront
    cases done with
    | nil => exact absurd (List.cons.inj h).1.symm hd
    | cons e done =>
      simp only [List.cons_append, List.cons.injEq] at h
      obtain ⟨rfl, h⟩ := h
      obtain ⟨before, behind, hmiddle, rfl⟩ := ih h hfront
      exact ⟨before, behind, hmiddle, rfl⟩

/-- Around the string of a conditional there is no end of a line. -/
theorem IsBody.exists_string {body : List Char} (h : IsBody body value) : ∃ before written behind,
    body = before ++ '"' :: (written ++ '"' :: behind) ∧ '\n' ∉ before ∧ '\n' ∉ behind ∧
      Denotes written value := by
  obtain ⟨hbefore, hwritten, hbehind⟩ := h
  exact ⟨_, _, _, rfl, hbefore.newline_notMem, hbehind.newline_notMem, hwritten⟩

theorem IsLexeme.newline_notMem_slot {name : List Char} (h : IsLexeme text (.slot name)) :
    '\n' ∉ text := by
  cases h with
  | slot hname => simpa using hname.newline_notMem

theorem IsLexeme.exists_string {name : List Char} {wholeLine : Bool}
    (h : IsLexeme text (.branch name value wholeLine)) : ∃ opening written closing,
    text = opening ++ '"' :: (written ++ '"' :: closing) ∧ '\n' ∉ opening ∧ '\n' ∉ closing ∧
      Denotes written value := by
  cases h with
  | inline hname hgap hbody =>
    obtain ⟨before, written, behind, rfl, hbefore, hbehind, hwritten⟩ := hbody.exists_string
    rename_i gap
    refine ⟨'%' :: (name ++ (gap ++ '-' :: '>' :: before)), written, behind ++ ['%'], by simp, ?_, ?_,
      hwritten⟩
    · simp [hname.newline_notMem, hgap.newline_notMem, hbefore]
    · simp [hbehind]
  | wholeLine hname hgap hbody =>
    obtain ⟨before, written, behind, rfl, hbefore, hbehind, hwritten⟩ := hbody.exists_string
    rename_i gap
    refine ⟨'%' :: '~' :: (name ++ (gap ++ '-' :: '>' :: before)), written, behind ++ ['~', '%'],
      by simp, ?_, ?_, hwritten⟩
    · simp [hname.newline_notMem, hgap.newline_notMem, hbefore]
    · simp [hbehind]

/-- A conditional has the end of a line only where a backslash takes it. -/
theorem IsLexeme.newline_taken {name : List Char} {wholeLine : Bool}
    (h : IsLexeme text (.branch name value wholeLine)) (hline : text = front ++ '\n' :: back) :
    Odd (slashes front) := by
  obtain ⟨opening, written, closing, rfl, hopening, hclosing, hwritten⟩ := h.exists_string
  have hopening' : '\n' ∉ opening ++ ['"'] := by simpa using hopening
  have hclosing' : '\n' ∉ '"' :: closing := by simpa using hclosing
  have hsplit : (opening ++ ['"']) ++ (written ++ '"' :: closing) = front ++ '\n' :: back := by
    simpa using hline
  obtain ⟨before, behind, hstring, rfl⟩ := exists_of_append_eq hsplit hopening' hclosing'
  rw [List.append_assoc, List.singleton_append, slashes_append_cons (by decide)]
  exact hwritten.escaped.taken before '\n' behind hstring (.inr rfl)

/-! ## Places in the source -/

/-- The node stands in the source with this text, from its percent sign to the last one. -/
def Node.Stands (source : List Char) (node : Node) (text : List Char) : Prop :=
  ∃ l done rest, source = done ++ (text ++ rest) ∧ IsLexeme text l ∧
    l.atoms (.behind done) = [.inr node]

/-- What has been read as a lexeme stands at its place. -/
theorem Reaches.exists_text (h : Reaches source ls done rest) (hmem : (l, p) ∈ ls) :
    ∃ front text back, source = front ++ (text ++ back) ∧ IsLexeme text l ∧ p = .behind front := by
  induction h with
  | start => simp at hmem
  | @step ls done text rest l' hreaches hl _ ih =>
    rcases List.mem_append.1 hmem with hmem | hmem
    · exact ih hmem
    · obtain ⟨rfl, rfl⟩ := Prod.mk.inj (List.mem_singleton.1 hmem)
      exact ⟨done, text, rest, hreaches.eq_append, hl, rfl⟩

theorem atoms_of_mem {node : Node} (h : .inr node ∈ l.atoms p) : l.atoms p = [.inr node] := by
  cases l <;> simp_all [Lexeme.atoms]

/-- A source that is accepted has been read to its end. -/
theorem exists_spells_of_scan {source : String} {nodes : List Node} (h : scan source = .ok nodes) :
    ∃ ls, Reaches source.toList ls source.toList [] ∧ Spells nodes ls := by
  have hstart : Reaches source.toList [] [] source.toList := .start
  obtain ⟨ls, done, rest, hreaches, rfl | hbreaks⟩ := hstart.exists_end
  · obtain rfl : source.toList = done := by simpa using hreaches.eq_append
    rw [scan_eq_ok hreaches] at h
    exact ⟨ls, hreaches, spells_iff.2 (Except.ok.inj h).symm⟩
  · obtain ⟨e, he⟩ := scan_eq_error hreaches hbreaks
    rw [he] at h
    cases h

/-- Every placeholder and every conditional that is read stands in the source. -/
theorem exists_stands {source : String} {nodes : List Node} (h : scan source = .ok nodes) {node : Node}
    (hmem : node ∈ nodes) (hkind : ¬node.IsText) : ∃ text, node.Stands source.toList text := by
  obtain ⟨ls, hreaches, hspells⟩ := exists_spells_of_scan h
  have hatom : .inr node ∈ atomsOf ls := by
    rw [← hspells.atoms_eq]
    exact List.mem_flatMap.2 ⟨node, hmem, atoms_of_not_isText hkind ▸ List.mem_singleton_self _⟩
  obtain ⟨⟨l, p⟩, hl, hnode⟩ := List.mem_flatMap.1 hatom
  obtain ⟨front, text, back, hsource, hlexeme, rfl⟩ := hreaches.exists_text hl
  exact ⟨text, l, front, back, hsource, hlexeme, atoms_of_mem hnode⟩

/-- A place is that of one beginning of a text only. -/
theorem eq_of_behind_eq (hfront : front <+: back) (h : Position.behind front = .behind back) :
    front = back := by
  obtain ⟨more, rfl⟩ := hfront
  simp only [Position.behind, Position.mk.injEq, List.count_append] at h
  obtain ⟨hcount, hcolumn⟩ := h
  have hline : ∀ c ∈ more.reverse, decide (c ≠ '\n') = true := fun c hc => by
    have hnone : more.count '\n' = 0 := by omega
    exact decide_eq_true fun heq =>
      List.count_eq_zero.1 hnone (heq ▸ List.mem_reverse.1 hc)
  rw [List.reverse_append, List.takeWhile_append_of_pos hline, List.length_append,
    List.length_reverse] at hcolumn
  have hmore : more = [] := List.eq_nil_of_length_eq_zero (by omega)
  rw [hmore, List.append_nil]

/-- A lexeme that is a node is a placeholder or a conditional. -/
theorem slot_or_branch_of_atoms {node : Node} (h : l.atoms p = [.inr node]) :
    (∃ name, l = .slot name ∧ node = .placeholder (String.ofList name) p) ∨
      ∃ name body wholeLine, l = .branch name body wholeLine ∧
        node = .conditional (String.ofList name) (String.ofList body) wholeLine p := by
  cases l with
  | percent | lone => simp [Lexeme.atoms] at h
  | run cs => cases cs <;> simp [Lexeme.atoms] at h
  | slot name => exact .inl ⟨name, rfl, (Sum.inr.inj (List.singleton_inj.1 h)).symm⟩
  | branch name body wholeLine =>
    exact .inr ⟨name, body, wholeLine, rfl, (Sum.inr.inj (List.singleton_inj.1 h)).symm⟩

theorem mayFollow_of_atoms {node : Node} (h : l.atoms p = [.inr node]) (rest : List Char) :
    MayFollow l rest := by
  obtain ⟨name, rfl, -⟩ | ⟨name, body, wholeLine, rfl, -⟩ := slot_or_branch_of_atoms h <;> trivial

/-- The place of the percent sign of a node that is no text. -/
def Node.place? : Node → Option Position
  | .text _ => none
  | .placeholder _ p => some p
  | .conditional _ _ _ p => some p

theorem place?_of_atoms {node : Node} (h : l.atoms p = [.inr node]) : node.place? = some p := by
  obtain ⟨name, -, rfl⟩ | ⟨name, body, wholeLine, -, rfl⟩ := slot_or_branch_of_atoms h <;> rfl

/-- A node stands in the source with one text. -/
theorem Node.Stands.unique {node : Node} {other : List Char} (h : node.Stands source text)
    (h' : node.Stands source other) : other = text := by
  obtain ⟨l, done, rest, hsource, hl, hatoms⟩ := h
  obtain ⟨l', done', rest', hsource', hl', hatoms'⟩ := h'
  have hplace : Position.behind done = .behind done' :=
    Option.some.inj ((place?_of_atoms hatoms).symm.trans (place?_of_atoms hatoms'))
  have hdone : done = done' := by
    have hbegins : done <+: source := hsource ▸ List.prefix_append ..
    have hbegins' : done' <+: source := hsource' ▸ List.prefix_append ..
    rcases List.prefix_or_prefix_of_prefix hbegins hbegins' with hd | hd
    · exact eq_of_behind_eq hd hplace
    · exact (eq_of_behind_eq hd hplace.symm).symm
  subst hdone
  have htexts : text ++ rest = other ++ rest' := List.append_cancel_left (hsource ▸ hsource')
  obtain ⟨c, more, hmore⟩ := List.exists_cons_of_ne_nil hl.ne_nil
  have hread : lexeme c (more ++ rest) = .ok (l, rest) :=
    lexeme_of_isLexeme hl (mayFollow_of_atoms hatoms rest) (by rw [hmore]; rfl)
  have hread' : lexeme c (more ++ rest) = .ok (l', rest') :=
    lexeme_of_isLexeme hl' (mayFollow_of_atoms hatoms' rest') (by rw [← htexts, hmore]; rfl)
  obtain ⟨-, rfl⟩ := Prod.mk.inj (Except.ok.inj (hread.symm.trans hread'))
  exact (List.append_cancel_right htexts).symm

/-! ## Sources -/

/-- An end of a line in the text of a node is taken by a backslash, in the string of a conditional. -/
theorem Node.Stands.newline_taken {node : Node} (h : node.Stands source text)
    (hline : text = front ++ '\n' :: back) :
    (∃ name body wholeLine p, node = .conditional name body wholeLine p) ∧ Odd (slashes front) := by
  obtain ⟨l, done, rest, -, hl, hatoms⟩ := h
  obtain ⟨name, rfl, -⟩ | ⟨name, body, wholeLine, rfl, rfl⟩ := slot_or_branch_of_atoms hatoms
  · exact absurd (hline ▸ List.mem_append_right front List.mem_cons_self) hl.newline_notMem_slot
  · exact ⟨⟨_, _, _, _, rfl⟩, hl.newline_taken hline⟩

theorem scan_of_isLexeme {name : List Char} {wholeLine : Bool}
    (h : IsLexeme text (.branch name value wholeLine)) : scan (String.ofList text) =
      .ok [.conditional (String.ofList name) (String.ofList value) wholeLine .start] := by
  have hreaches : Reaches (String.ofList text).toList [(.branch name value wholeLine, .start)] text [] := by
    rw [String.toList_ofList]
    have hstart : Reaches text [] [] (text ++ []) := by
      rw [List.append_nil]
      exact .start
    exact hstart.step h trivial
  exact scan_eq_ok hreaches

/-- A conditional with any string in which the quotes and the ends of lines are taken is accepted. -/
theorem scan_of_escaped {name : List Char} (hname : IsName name) (h : Escaped written) : ∃ body,
    scan (String.ofList ('%' :: (name ++ '-' :: '>' :: '"' :: (written ++ ['"', '%'])))) =
      .ok [.conditional (String.ofList name) body false .start] := by
  obtain ⟨value, hvalue⟩ := exists_denotes_iff.2 h
  have hgap : IsGap [] := by simp [IsGap]
  have hlexeme := IsLexeme.inline hname hgap (.mk hgap hvalue hgap)
  simp only [List.nil_append, List.cons_append, List.append_assoc] at hlexeme
  exact ⟨_, scan_of_isLexeme hlexeme⟩

/-- Every placeholder and every conditional that is read stands in the source with one text. This has no end
of a line but in the string of a conditional, behind a number of backslashes that is odd; so it stands in one
line exactly if no backslash ends a line in it. -/
theorem newlines_behind_backslashes {source : String} {nodes : List Node}
    (h : scan source = .ok nodes) : ∀ node ∈ nodes, ¬node.IsText →
      ∃ text, (∀ other, node.Stands source.toList other ↔ other = text) ∧
        (∀ front back, text = front ++ '\n' :: back →
          (∃ name body wholeLine p, node = .conditional name body wholeLine p) ∧
            Odd (slashes front)) ∧
        ('\n' ∉ text ↔ ∀ front back, text ≠ front ++ '\\' :: '\n' :: back) := by
  intro node hmem hkind
  obtain ⟨text, hstands⟩ := exists_stands h hmem hkind
  have htaken : ∀ front back, text = front ++ '\n' :: back →
      (∃ name body wholeLine p, node = .conditional name body wholeLine p) ∧ Odd (slashes front) :=
    fun front back hline => hstands.newline_taken hline
  refine ⟨text, fun other => ⟨hstands.unique, fun hother => hother ▸ hstands⟩, htaken,
    fun hnone front back hline => ?_, fun hnone hline => ?_⟩
  · exact hnone (hline ▸ by simp)
  · obtain ⟨front, back, htext⟩ := List.append_of_mem hline
    obtain ⟨before, rfl⟩ := exists_of_odd_slashes (htaken front back htext).2
    exact hnone before back (by rw [htext, List.append_assoc]; rfl)

/-- A conditional over two lines, between a placeholder and a conditional in one line. -/
theorem newlines_behind_backslashes_letter :
    let source := "Dear %name%,%note -> \"P.S.\\\nsoon\"%\n%~end -> \"\\n\"~%"
    let nodes := [.text "Dear ", .placeholder "name" ⟨1, 5⟩, .text ",",
      .conditional "note" "P.S.\\\nsoon" false ⟨1, 12⟩, .text "\n", .conditional "end" "\n" true ⟨3, 0⟩]
    scan source = .ok nodes ∧ ∀ node ∈ nodes, ¬node.IsText →
      ∃ text, (∀ other, node.Stands source.toList other ↔ other = text) ∧
        (∀ front back, text = front ++ '\n' :: back →
          (∃ name body wholeLine p, node = .conditional name body wholeLine p) ∧
            Odd (slashes front)) ∧
        ('\n' ∉ text ↔ ∀ front back, text ≠ front ++ '\\' :: '\n' :: back) := by
  intro source nodes
  have hscan : scan source = .ok nodes := scan_of_agrees (by decide +kernel)
  exact ⟨hscan, newlines_behind_backslashes hscan⟩

/-- A template that is one conditional, over two lines. -/
theorem newline_in_conditional :
    let source := "%a -> \"x\\\ny\"%"
    let node : Node := .conditional "a" "x\\\ny" false .start
    scan source = .ok [node] ∧ node.Stands source.toList source.toList ∧ '\n' ∈ source.toList := by
  intro source node
  have hstring : Denotes ['x', '\\', '\n', 'y'] ['x', '\\', '\n', 'y'] :=
    .plain (by decide) (by decide) (by decide)
      (.other (by decide) (.plain (by decide) (by decide) (by decide) .nil))
  have hblank : IsGap [' '] := by simp [IsGap, isSpace]
  have hempty : IsGap [] := by simp [IsGap]
  have hname : IsName ['a'] := by decide
  have hlexeme := IsLexeme.inline hname hblank (.mk hblank hstring hempty)
  have hsource : source.toList =
      ['%', 'a', ' ', '-', '>', ' ', '"', 'x', '\\', '\n', 'y', '"', '%'] := by decide
  refine ⟨scan_of_agrees (by decide +kernel), ?_, ?_⟩
  · rw [hsource]
    exact ⟨_, [], [], rfl, hlexeme, rfl⟩
  · rw [hsource]
    decide

end ApiClient.Template
