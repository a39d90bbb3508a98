import ApiClient.Proofs.Template.Building
import ApiClient.Proofs.Template.Meaning
import Mathlib

/-!
# Conditionals that do not hold

A line that holds nothing but a whole-line conditional is as good as absent while its condition does not
hold: a source without the line has a template too, which builds the same text (`build_without_line`).
The line gives its marker and gaps (`IsBranchLine.marked`), so it is not kept, and all else reads as
it does without it, the columns of other conditionals included.
-/

namespace ApiClient.Template

variable {declarations : List Declaration} {values : Table Json} {c : String} {x : Option Json}
  {line text : List Char} {uses : List Use} {p : Position}

/-! ## The line -/

theorem holds_eq_false {u : Use} (hc : values.get? u.1 ≠ some (.bool true))
    (hlookup : (variableOf declarations u).lookup values = .ok x) :
    holds [(variableOf declarations u, x)] u.1 = false := by
  rw [holds, find?_variableOf]
  split
  · rename_i b heq
    obtain ⟨-, rfl⟩ := Prod.mk.inj (Option.some.inj heq)
    have hvalue := get?_of_lookup hlookup
    rw [variableOf_name] at hvalue
    cases b with
    | false => rfl
    | true => exact absurd hvalue hc
  · rfl

/-- The line gives one line, which holds the marker. -/
theorem IsBranchLine.marked (h : IsBranchLine c line) (hc : values.get? c ≠ some (.bool true))
    (hreads : Reads declarations values p line uses text) :
    '\n' ∉ text ∧ dropMarker <:+: text := by
  obtain ⟨atoms, hatoms, -, hgives⟩ := hreads
  obtain ⟨before, behind, body, q, hbefore, hbehind, hline⟩ := h.exists_atomsFrom p
  obtain rfl := Except.ok.inj (hline.symm.trans hatoms)
  obtain ⟨front, rest, hfront, hrest, rfl⟩ := gives_append_iff.1 hgives
  obtain ⟨x, part, piece, back, hlookup, hpart, hpiece, hback, rfl⟩ := (gives_node_iff rfl).1 hrest
  have hfront' : front = before := gives_chars_iff.1 hfront
  have hback' : back = behind := gives_chars_iff.1 hback
  cases hpart with
  | branch hbody =>
    rw [fillPart, holds_eq_false hc hlookup] at hpiece
    obtain rfl : dropMarker = piece := Except.ok.inj hpiece
    have hmarker : '\n' ∉ dropMarker := by decide
    have hclear : '\n' ∉ front ++ (dropMarker ++ back) := by
      simp [hfront', hback', hbefore.newline_notMem, hbehind.newline_notMem, hmarker]
    exact ⟨hclear, ⟨_, _, List.append_assoc ..⟩⟩

/-! ## The source -/

/-- A source with a line that is a whole-line conditional on `c`, and the source without that line. What
stands in front of the line is a template by itself. -/
inductive WithoutLine (c : String) : String → String → Prop
  | between {front line back : String} (hfront : ∃ nodes, scan front = .ok nodes)
    (hline : IsBranchLine c line.toList) :
    WithoutLine c (front ++ "\n" ++ line ++ "\n" ++ back) (front ++ "\n" ++ back)
  | first {line back : String} (hline : IsBranchLine c line.toList) :
    WithoutLine c (line ++ "\n" ++ back) back
  | last {front line : String} (hfront : ∃ nodes, scan front = .ok nodes)
    (hline : IsBranchLine c line.toList) : WithoutLine c (front ++ "\n" ++ line) front

theorem exists_atomsFrom_of_scan {source : String} (h : ∃ nodes, scan source = .ok nodes) :
    ∃ atoms, atomsFrom .start source.toList = .ok atoms := by
  obtain ⟨nodes, hscan⟩ := h
  rw [scan_eq_merge] at hscan
  obtain ⟨atoms, hatoms, -⟩ := exists_of_map hscan
  exact ⟨atoms, hatoms⟩

theorem IsBranchLine.exists_ok (h : IsBranchLine c line) (p : Position) :
    ∃ atoms, atomsFrom p line = .ok atoms := by
  obtain ⟨before, behind, body, q, -, -, hline⟩ := h.exists_atomsFrom p
  exact ⟨_, hline⟩

theorem toList_append_newline (front back : String) :
    (front ++ "\n" ++ back).toList = front.toList ++ '\n' :: back.toList := by
  simp [String.toList_append]

/-- Without the line, a source reads with fewer uses and gives a text with the same lines that are kept. -/
theorem WithoutLine.exists_reads {source rest : String} (h : WithoutLine c source rest)
    (hc : values.get? c ≠ some (.bool true))
    (hreads : Reads declarations values .start source.toList uses text) :
    ∃ uses' text', Reads declarations values .start rest.toList uses' text' ∧ uses' ⊆ uses ∧
      keptLines text' = keptLines text := by
  cases h with
  | @between front line back hfront hline =>
    have hatoms := exists_atomsFrom_of_scan hfront
    have hsource : front ++ "\n" ++ line ++ "\n" ++ back =
        front ++ "\n" ++ (line ++ "\n" ++ back) := by simp only [String.append_assoc]
    rw [hsource, toList_append_newline, toList_append_newline,
      reads_append_newline_iff hatoms] at hreads
    obtain ⟨u, a, _, _, hu, hlines, rfl, rfl⟩ := hreads
    obtain ⟨w, d, v, b, hw, hv, rfl, rfl⟩ := (reads_append_newline_iff (hline.exists_ok _)).1 hlines
    obtain ⟨hone, hmarker⟩ := hline.marked hc hw
    refine ⟨u ++ v, a ++ '\n' :: b, ?_, by simp, ?_⟩
    · rw [toList_append_newline, reads_append_newline_iff hatoms]
      exact ⟨u, a, v, b, hu, hv.of_column rfl, rfl, rfl⟩
    · rw [keptLines_append_cons, keptLines_append_cons, keptLines_append_cons,
        keptLines_of_marked hone hmarker, List.nil_append]
  | @first line back hline =>
    rw [toList_append_newline, reads_append_newline_iff (hline.exists_ok _)] at hreads
    obtain ⟨w, d, v, b, hw, hv, rfl, rfl⟩ := hreads
    obtain ⟨hone, hmarker⟩ := hline.marked hc hw
    refine ⟨v, b, hv.of_column rfl, List.subset_append_right w v, ?_⟩
    rw [keptLines_append_cons, keptLines_of_marked hone hmarker, List.nil_append]
  | @last front line hfront hline =>
    rw [toList_append_newline, reads_append_newline_iff (exists_atomsFrom_of_scan hfront)] at hreads
    obtain ⟨u, a, w, d, hu, hw, rfl, rfl⟩ := hreads
    obtain ⟨hone, hmarker⟩ := hline.marked hc hw
    refine ⟨u, a, hu, List.subset_append_left u w, ?_⟩
    rw [keptLines_append_cons, keptLines_of_marked hone hmarker, List.append_nil]

/-- While its condition does not hold, a line that is a whole-line conditional may be left out: if the
template of a source builds a text, so does that of the source without the line, and it is the same. -/
theorem build_without_line {source rest : String} {own : Int} {indent : Option Int} {t : Template}
    {out : String} (h : WithoutLine c source rest) (hc : values.get? c ≠ some (.bool true))
    (ht : ofSource declarations source own = .ok t) (hout : t.build values indent = .ok out) :
    ∃ t', ofSource declarations rest own = .ok t' ∧ t'.build values indent = .ok out := by
  obtain ⟨uses, text, hreads, hconsistent, rfl⟩ := exists_build_iff.1 ⟨t, ht, hout⟩
  obtain ⟨uses', text', hreads', hsub, hkept⟩ := h.exists_reads hc hreads
  refine exists_build_iff.2 ⟨uses', text', hreads', hconsistent.subset hsub, ?_⟩
  rw [finish_eq, finish_eq, hkept]

/-- The line of the function's body. -/
def stubLine : String :=
  "    %~c -> \"%x%\\n%~d -> \\\"z\\\"~%\"~%"

theorem isBranchLine_stubLine : IsBranchLine "c" stubLine.toList := by
  have hline : stubLine.toList = List.replicate 4 ' ' ++ '%' :: stubLine.toList.drop 5 := by
    decide +kernel
  have hlexeme : lexeme '%' (stubLine.toList.drop 5) =
      .ok (.branch "c".toList stubBodySource.toList true, []) := ok_of_toOption (by decide +kernel)
  obtain ⟨text, htext, -, heq⟩ := exists_of_lexeme hlexeme
  rw [hline, heq]
  refine .mk (fun c hc => ?_) htext fun c hc => absurd hc List.not_mem_nil
  rw [List.eq_of_mem_replicate hc]
  rfl

theorem withoutLine_stub : WithoutLine "c" stubSource "def f():\n%w%" := by
  have hfront : scan "def f():" = .ok [.text "def f():"] := by
    rw [scan_eq]
    exact ok_of_toOption (by decide +kernel)
  have hsource : stubSource = "def f():" ++ "\n" ++ stubLine ++ "\n" ++ "%w%" := by decide +kernel
  have hrest : "def f():\n%w%" = "def f():" ++ "\n" ++ "%w%" := by decide +kernel
  rw [hsource, hrest]
  exact .between ⟨_, hfront⟩ isBranchLine_stubLine

/-- The values of a function with another body. -/
def stubValuesWithout : Table Json :=
  [("c", .bool false), ("w", .str "    pass")]

/-- The function reads as if the line with the branch were not there. -/
theorem build_without_line_stub :
    (WithoutLine "c" stubSource "def f():\n%w%" ∧ stubValuesWithout.get? "c" ≠ some (.bool true) ∧
      ofSource stubDeclarations stubSource 0 = .ok stub ∧
      stub.build stubValuesWithout = .ok "def f():\n    pass") ∧
    ∃ t, ofSource stubDeclarations "def f():\n%w%" 0 = .ok t ∧
      t.build stubValuesWithout = .ok "def f():\n    pass" := by
  have hvalue : stubValuesWithout.get? "c" ≠ some (.bool true) := by
    simp [stubValuesWithout, Table.get?]
  have hout : stub.build stubValuesWithout = .ok "def f():\n    pass" :=
    ok_of_toOption (by decide +kernel)
  exact ⟨⟨withoutLine_stub, hvalue, ofSource_stub, hout⟩,
    build_without_line withoutLine_stub hvalue ofSource_stub hout⟩

end ApiClient.Template
