import ApiClient.Proofs.Template.Recoding
import Mathlib

/-!
# Building a template

`Template.build_eq_render` says that building a template by marking lines gives what the evaluator by
rows does, the same text or the same error, and that nothing of the marking shows: no marker is left, and
the characters of a value are never read as those of a template.
-/

namespace ApiClient.Template

open Text

variable {declarations : List Declaration} {source : String} {own : Int} {t : Template}
  {values : Table Json}

/-- A template of a source, with the pieces of its nodes and its branches indented by their columns,
is built as the evaluator renders it: with the same text or the same error. Neither the source nor any
value that is formatted may hold the character of the marker. Then no marker is left, and a recoding of
the texts and the values recodes what is built. -/
theorem build_eq_render (ht : ofSource declarations source own = .ok t)
    (hsource : Unmarked source.toList)
    (hvalues : ∀ text, Formats values t text → Unmarked text.toList) (indent : Option Int) :
    t.build values indent = (t.render values indent).map String.ofList ∧
      (∀ out, t.build values indent = .ok out → occursIn dropMarker out.toList = false) ∧
      (∀ g, IsRecoding g →
        (t.recode g).build values indent = (t.build values indent).map (String.map g)) ∧
      IsOfSource declarations source own t := by
  have htexts : ∀ text, HasText t text → Unmarked text.toList :=
    fun text => unmarked_of_hasText ht hsource
  have hrefines := refines t htexts hvalues
  have hbuild : t.build values indent = (t.render values indent).map String.ofList := by
    rw [build, hrefines.fill_eq]
  refine ⟨hbuild, fun out hout => ?_, fun g hg => ?_, isOfSource ht⟩
  · rw [hbuild] at hout
    obtain ⟨text, htext, rfl⟩ := exists_of_map hout
    rw [String.toList_ofList]
    exact occursIn_dropMarker (hrefines.unmarked htext)
  · rw [hbuild, build, (refines_recode hg htexts hvalues).fill_eq, render_recode hg]
    cases t.render values indent with
    | error e => rfl
    | ok out =>
      refine congrArg Except.ok (String.toList_injective ?_)
      rw [String.toList_map, String.toList_ofList, String.toList_ofList]

/-! ## A template with every kind of line -/

/-- A function whose body is a branch with a branch of its own, and a value that takes its line along. -/
def stubSource : String :=
  "def f():\n    %~c -> \"%x%\\n%~d -> \\\"z\\\"~%\"~%\n%w%"

/-- The body of the function, as it stands between quotes in the source. -/
def stubBodySource : String :=
  "%x%\n%~d -> \"z\"~%"

/-- What is declared for the function. -/
def stubDeclarations : List Declaration :=
  [{ name := "w", nullable := true, wholeLine := true }]

/-- The template of the body. -/
def stubBody : Template where
  parts := [.slot "x", .text "\n", .branch "d" true ⟨[.text "z"], [], 0⟩]
  inputs := [{ name := "x" }, { name := "d", form := .wholeLine }]
  indent := 4

/-- The template of the function. -/
def stub : Template where
  parts := [.text "def f():\n    ", .branch "c" true stubBody, .text "\n", .slot "w"]
  inputs := [{ name := "c", form := .wholeLine },
    { name := "w", nullable := true, wholeLine := true }]
  indent := 0

/-- A body of two lines, the second of which reads like a placeholder. -/
def stubValues : Table Json :=
  [("c", .bool true), ("x", .str "a\nb%c%"), ("d", .bool false)]

theorem scan_stubSource : scan stubSource = .ok [
    .text "def f():\n    ", .conditional "c" stubBodySource true ⟨2, 4⟩, .text "\n",
    .placeholder "w" ⟨3, 0⟩] := by
  rw [scan_eq]
  exact ok_of_toOption (by decide +kernel)

theorem scan_stubBodySource : scan stubBodySource = .ok [
    .placeholder "x" ⟨1, 0⟩, .text "\n", .conditional "d" "z" true ⟨2, 0⟩] := by
  rw [scan_eq]
  exact ok_of_toOption (by decide +kernel)

theorem ofSource_stubBody : ofSource stubDeclarations stubBodySource 4 = .ok stubBody := by
  have hscan : scan "z" = .ok [.text "z"] := by
    rw [scan_eq]
    exact ok_of_toOption (by decide +kernel)
  have hz : ofSource stubDeclarations "z" 0 = .ok ⟨[.text "z"], [], 0⟩ := by
    rw [ofSource_eq, hscan]
    rfl
  rw [ofSource_eq, scan_stubBodySource]
  simp only [ofScan, assemble, Int.ofNat_zero, hz]
  rfl

theorem ofSource_stub : ofSource stubDeclarations stubSource 0 = .ok stub := by
  have hcolumn : ((4 : Nat) : Int) = 4 := rfl
  rw [ofSource_eq, scan_stubSource]
  simp only [ofScan, assemble, hcolumn, ofSource_stubBody]
  rfl

/-- The only value that the function formats is that of its body. -/
theorem eq_of_formats_stub {text : String} (h : Formats stubValues stub text) :
    text = "a\nb%c%" := by
  have hstub : resolve stubValues stub.inputs = .ok [
      ({ name := "c", form := .wholeLine }, some (.bool true)),
      ({ name := "w", nullable := true, wholeLine := true }, none)] := rfl
  have hbody : resolve stubValues stubBody.inputs = .ok [
      ({ name := "x" }, some (.str "a\nb%c%")),
      ({ name := "d", form := .wholeLine }, some (.bool false))] := rfl
  cases h with
  | here hfound hslot hvalue htext =>
    obtain rfl := Except.ok.inj (hstub.symm.trans hfound)
    obtain rfl : _ = "w" := by simpa [stub] using hslot
    simp at hvalue
  | inBranch hfound hbranch _ h =>
    obtain rfl := Except.ok.inj (hstub.symm.trans hfound)
    obtain ⟨rfl, rfl, rfl⟩ : _ = "c" ∧ _ = true ∧ _ = stubBody := by simpa [stub] using hbranch
    cases h with
    | here hfound hslot hvalue htext =>
      obtain rfl := Except.ok.inj (hbody.symm.trans hfound)
      obtain rfl : _ = "x" := by simpa [stubBody] using hslot
      obtain ⟨rfl, rfl⟩ : ({ name := "x" } : Variable) = _ ∧ Json.str "a\nb%c%" = _ := by
        simpa using hvalue
      exact (Except.ok.inj htext).symm
    | inBranch hfound hbranch hholds _ =>
      obtain rfl := Except.ok.inj (hbody.symm.trans hfound)
      obtain ⟨rfl, -⟩ : _ = "d" ∧ _ := by simpa [stubBody] using hbranch
      simp [holds] at hholds

theorem render_stub :
    stub.render stubValues none = .ok "def f():\n    a\n    b%c%".toList :=
  ok_of_toOption (by decide +kernel)

/-- A number sign in the place of every percent sign. -/
def unpercent (c : Char) : Char :=
  if c = '%' then '#' else c

theorem isRecoding_unpercent : IsRecoding unpercent where
  newline_iff c := by
    unfold unpercent
    split_ifs with h <;> simp [h]
  isBlank_eq c := by
    unfold unpercent
    split_ifs with h
    · rw [h]
      decide
    · rfl
  space_eq := rfl
  eq_nul {c} h := by
    unfold unpercent at h
    split_ifs at h
    · exact absurd h (by decide)
    · exact h

theorem build_eq_render_stub :
    (ofSource stubDeclarations stubSource 0 = .ok stub ∧ Unmarked stubSource.toList ∧
      ∀ text, Formats stubValues stub text → Unmarked text.toList) ∧
    stub.build stubValues = .ok "def f():\n    a\n    b%c%" ∧
    (stub.recode unpercent).build stubValues = .ok "def f():\n    a\n    b#c#" := by
  have hsource : Unmarked stubSource.toList := by decide +kernel
  have hvalues : ∀ text, Formats stubValues stub text → Unmarked text.toList := by
    intro text htext
    rw [eq_of_formats_stub htext]
    decide +kernel
  obtain ⟨hbuild, -, hrecode, -⟩ := build_eq_render ofSource_stub hsource hvalues none
  have hout : stub.build stubValues = .ok "def f():\n    a\n    b%c%" := by
    rw [hbuild, render_stub]
    exact congrArg Except.ok String.ofList_toList
  refine ⟨⟨ofSource_stub, hsource, hvalues⟩, hout, ?_⟩
  rw [hrecode unpercent isRecoding_unpercent, hout]
  exact congrArg Except.ok (by decide +kernel)

end ApiClient.Template
