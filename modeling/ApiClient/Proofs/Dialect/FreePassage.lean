import ApiClient.Proofs.Dialect.FreeText
import ApiClient.Proofs.Dialect.Passage
import Mathlib

/-!
# Parts without a marker

For every part of a client, `IsFree` lists the texts that may bring a marker into it: those that come from
a document as they are. Names, types and identifiers are without the character of the marker in any case.
If none of these texts holds the marker, then nothing that is handed over for the part does, in neither
dialect (`Dialect.spares_of_isFree`).
-/

namespace ApiClient

open Dialect Template Text

/-! ## Values -/

/-- The value is no text that holds the marker. -/
def Json.IsFree (j : Json) : Prop :=
  ∀ s, j = .str s → MarkerFree s.toList

/-- None of the elements is a text that holds the marker. -/
def Json.AreFree (j : Json) : Prop :=
  ∀ items, j.elements = .ok items → ∀ item ∈ items, item.IsFree

namespace Json

theorem isFree_str {s : String} (h : MarkerFree s.toList) : (str s).IsFree := by
  rintro _ ⟨⟩
  exact h

theorem isFree_null : null.IsFree := nofun

theorem IsFree.display {j : Json} (h : j.IsFree) : MarkerFree j.display.toList := by
  cases j with
  | str s => exact h s rfl
  | _ => exact markerFree_of_unmarked (unmarked_display nofun)

theorem areFree_arr {items : List Json} (h : ∀ item ∈ items, item.IsFree) : (arr items).AreFree := by
  rintro _ ⟨⟩
  exact h

end Json

namespace Template

/-- The value does not hold the marker when it is formatted. -/
def FreeAs (format : Json → Except Json.Misfit String) (value : Json) : Prop :=
  ∀ text, format value = .ok text → MarkerFree text.toList

variable {value : Json}

theorem freeAs_shown (h : value.IsFree) : FreeAs shown value := by
  rintro _ ⟨⟩
  exact h.display

theorem freeAs_text {s : String} (h : Unmarked s.toList) : FreeAs shown (.str s) :=
  freeAs_shown (Json.isFree_str (markerFree_of_unmarked h))

theorem freeAs_bool (b : Bool) : FreeAs shown (.bool b) :=
  freeAs_shown nofun

theorem freeAs_ofText_of {f : String → Except Json.Misfit String}
    (h : ∀ s out, value = .str s → f s = .ok out → MarkerFree out.toList) : FreeAs (ofText f) value := by
  intro text htext
  cases value with
  | str s => exact h s text rfl htext
  | _ => cases htext

theorem freeAs_ofText {f : String → Except Json.Misfit String} (h : value.IsFree)
    (hf : ∀ s out, f s = .ok out → (MarkerFree out.toList ↔ MarkerFree s.toList)) :
    FreeAs (ofText f) value :=
  freeAs_ofText_of fun s out hs hout => (hf s out hout).2 (h s hs)

theorem mem_of_texts {values : List Json} {xs : List String} (h : texts values = .ok xs) :
    ∀ x ∈ xs, .str x ∈ values := by
  induction values generalizing xs with
  | nil =>
    obtain rfl := Except.ok.inj h
    exact List.forall_mem_nil _
  | cons value rest ih =>
    cases value with
    | str s =>
      rw [texts] at h
      obtain ⟨more, hmore, hpure⟩ := exists_of_bind h
      obtain rfl := Except.ok.inj hpure
      exact List.forall_mem_cons.2
        ⟨List.mem_cons_self, fun x hx => List.mem_cons_of_mem _ (ih hmore x hx)⟩
    | _ => cases h

theorem freeAs_joined {separator : String} (hseparator : IsForeign dropMarker separator.toList)
    (h : value.AreFree) : FreeAs (joined separator) value := by
  intro text htext
  obtain ⟨items, hitems, h₁⟩ := exists_of_bind htext
  obtain ⟨xs, hxs, hpure⟩ := exists_of_bind h₁
  obtain rfl := Except.ok.inj hpure
  rw [markerFree_join_iff hseparator]
  exact fun x hx => h items hitems _ (mem_of_texts hxs x hx) x rfl

end Template

/-! ## Parts -/

/-- An argument whose name is no text with the marker. -/
structure Argument.IsFree (a : Argument) : Prop where
  name : a.name.IsFree
  identifier : Unmarked a.identifier.display.toList
  type : Unmarked a.type.toList

/-- An endpoint whose URL, summary and names of parameters are no texts with the marker. -/
structure Endpoint.IsFree (e : Endpoint) : Prop where
  verb : ∃ m : Method, e.verb = m.key
  url : e.urlExpression.IsFree
  result : e.returnType.IsFree
  summary : e.summary.IsFree
  argument : ∀ a ∈ e.arguments, a.IsFree

/-- A scope whose URL is no text with the marker, and the texts in it hold none. -/
structure Scope.IsFree (s : Scope) : Prop where
  name : s.name.IsFree
  url : s.url.IsFree
  functions : s.functions.AreFree
  children : s.children.AreFree

/-- A root whose title, version, description and URL are no texts with the marker. -/
structure Root.IsFree (r : Root) : Prop where
  namespaceName : r.namespaceName.IsFree
  title : r.title.IsFree
  version : r.version.IsFree
  description : r.description.IsFree
  baseUrl : ∀ j, r.baseUrl = .ok j → j.IsFree
  hasTypes : ∃ b, r.hasTypes = .bool b
  scope : r.scope.IsFree

/-- A field whose name and description are no texts with the marker. -/
structure Field.IsFree (f : Field) : Prop where
  name : MarkerFree f.name.toList
  identifier : Unmarked f.identifier.toList
  type : Unmarked f.type.short.toList
  named : ∀ n ∈ f.type.named, Unmarked n.toList
  description : f.description.IsFree

/-- A type whose description and fields are no texts with the marker. -/
structure NamedType.IsFree (t : NamedType) : Prop where
  name : Unmarked t.name.toList
  description : t.description.IsFree
  field : ∀ f ∈ t.fields, f.IsFree

/-- A part whose texts hold no marker. -/
def Passage.IsFree : Passage → Prop
  | .endpoint e => e.IsFree
  | .scope s => s.IsFree
  | .root r => r.IsFree
  | .type t namespaceName => t.IsFree ∧ Unmarked namespaceName.toList

/-! ## Endpoints -/

theorem Argument.IsFree.unmarked_spelled {a : Argument} (h : a.IsFree) {default : String}
    (hdefault : Unmarked default.toList) : Unmarked (a.identifier.display ++ ": " ++ a.type ++
      if a.required then "" else default).toList := by
  have hmarks : Unmarked ": ".toList ∧ Unmarked "".toList := by decide
  simp only [String.toList_append, unmarked_append]
  refine ⟨⟨⟨h.identifier, hmarks.1⟩, h.type⟩, ?_⟩
  split_ifs
  · exact hmarks.2
  · exact hdefault

namespace Endpoint

variable {e : Endpoint}

theorem IsFree.unmarked_name (h : e.IsFree) : Unmarked e.name.toList := by
  obtain ⟨m, hm⟩ := h.verb
  rw [Endpoint.name, hm]
  cases m <;> decide

theorem IsFree.body (h : e.IsFree) : ((e.body.map Argument.identifier).getD .null).IsFree := by
  cases hbody : e.body with
  | none => exact Json.isFree_null
  | some a =>
    have ha : a ∈ e.arguments := (List.mem_filter.1 (List.mem_of_mem_head? hbody)).1
    rintro s hs
    have hidentifier := (h.argument a ha).identifier
    rw [Option.map_some, Option.getD_some] at hs
    rw [hs] at hidentifier
    exact markerFree_of_unmarked hidentifier

theorem IsFree.doc (h : e.IsFree) {word : String} (hword : Unmarked word.toList) :
    (e.doc word).IsFree := by
  have hbreak : Unmarked "\n\n".toList := by decide
  rw [Endpoint.doc]
  split_ifs
  · refine Json.isFree_str ?_
    rw [String.toList_append, String.toList_append, markerFree_append_unmarked hword,
      markerFree_append_unmarked hbreak]
    exact h.summary.display
  · exact Json.isFree_str (markerFree_of_unmarked hword)
  · exact h.summary

theorem IsFree.located (h : e.IsFree) (location : String) : ∀ a ∈ e.located location, a.IsFree :=
  fun a ha => h.argument a (List.mem_filter.1 ha).1

/-- The parameters of a callable, however a dialect writes one. -/
theorem IsFree.parameters (h : e.IsFree) {write : Argument → String}
    (hwrite : ∀ a : Argument, a.IsFree → Unmarked (write a).toList) :
    (Json.arr (e.arguments.map fun a => .str (write a))).AreFree :=
  Json.areFree_arr <| List.forall_mem_map.2 fun a ha =>
    Json.isFree_str (markerFree_of_unmarked (hwrite a (h.argument a ha)))

end Endpoint

theorem Scope.IsFree.note {s : Scope} (h : s.IsFree) :
    MarkerFree ("Endpoint: " ++ s.url.display).toList := by
  have hfront : Unmarked "Endpoint: ".toList := by decide
  rw [String.toList_append, markerFree_append_of_unmarked hfront]
  exact h.url.display

namespace Dialect

theorem isForeign_comma : IsForeign dropMarker ", ".toList := by decide

theorem isForeign_feeds : IsForeign dropMarker "\n\n".toList := by decide

theorem isForeign_feed : IsForeign dropMarker "\n".toList := by decide

theorem isForeign_indent : IsForeign dropMarker "\n    ".toList := by decide

theorem isForeign_deeper : IsForeign dropMarker "\n        ".toList := by decide

namespace Python

variable {e : Endpoint}

theorem unmarked_renderArgument {a : Argument} (h : a.IsFree) :
    Unmarked (renderArgument a).toList :=
  h.unmarked_spelled (by decide)

theorem isFree_dictionary {arguments : List Argument} (h : ∀ a ∈ arguments, a.IsFree) :
    (dictionary arguments).IsFree := by
  have hmarks : Unmarked "\x7b".toList ∧ Unmarked "\x7d".toList ∧ Unmarked ", ".toList ∧
      Unmarked ": ".toList := by decide
  rw [dictionary]
  split_ifs
  · exact Json.isFree_null
  · refine Json.isFree_str (markerFree_of_unmarked ?_)
    simp only [String.toList_append, unmarked_append]
    refine ⟨⟨hmarks.1, unmarked_join hmarks.2.2.1 (List.forall_mem_map.2 fun a ha => ?_)⟩, hmarks.2.1⟩
    simp only [String.toList_append, unmarked_append]
    exact ⟨⟨Json.unmarked_spaced a.name, hmarks.2.2.2⟩, (h a ha).identifier⟩

theorem freeValues_endpoint (h : e.IsFree) :
    FreeValues endpointPlan.declarations (endpointValues e) := by
  have hword : Unmarked "Deprecated.".toList := by decide
  have hverb : Unmarked (toUpper e.verb).toList := by
    obtain ⟨m, hm⟩ := h.verb
    rw [hm]
    cases m <;> decide
  have hlocated : ∀ location, (dictionary (e.located location)).IsFree := fun location =>
    isFree_dictionary (h.located location)
  have hparameters := h.parameters fun _ => unmarked_renderArgument
  simp only [FreeValues, endpointValues, List.forall_mem_cons]
  exact ⟨freeAs_text h.unmarked_name, freeAs_joined isForeign_comma hparameters,
    freeAs_shown h.result, freeAs_ofText (h.doc hword) fun _ _ => markerFree_docstring_iff,
    freeAs_text hverb, freeAs_shown h.url, freeAs_shown (hlocated "query"),
    freeAs_shown (hlocated "header"), freeAs_bool _, freeAs_shown h.body, List.forall_mem_nil _⟩

theorem freeValues_scope {s : Scope} (h : s.IsFree) {doc : Json} (hdoc : scopeDoc s.url = .ok doc) :
    FreeValues scopePlan.declarations (scopeValues s doc) := by
  have hcomment : doc.IsFree := by
    rw [scopeDoc] at hdoc
    split_ifs at hdoc
    · obtain rfl := Except.ok.inj hdoc
      exact Json.isFree_null
    · obtain ⟨text, htext, rfl⟩ := exists_of_map hdoc
      exact Json.isFree_str ((markerFree_docstring_iff htext).2 h.note)
  simp only [FreeValues, scopeValues, Scope.conditions, List.forall_mem_append, List.forall_mem_cons]
  exact ⟨⟨freeAs_shown h.name, freeAs_shown hcomment, freeAs_joined isForeign_feeds h.functions,
    freeAs_joined isForeign_feeds h.children, List.forall_mem_nil _⟩, freeAs_bool _, freeAs_bool _,
    freeAs_bool _, freeAs_bool _, freeAs_bool _, List.forall_mem_nil _⟩

theorem freeValues_root {r : Root} (h : r.IsFree) (baseUrl : Json) :
    FreeValues rootPlan.declarations (rootValues r baseUrl) := by
  obtain ⟨hasTypes, htypes⟩ := h.hasTypes
  have hliteral : FreeAs (ofText fun s => .ok (pythonString s)) baseUrl := by
    refine freeAs_ofText_of fun s out _ hout => ?_
    obtain rfl := Except.ok.inj hout
    exact markerFree_of_unmarked (unmarked_pythonString s)
  have hdescription : FreeAs (ofText fun s => .ok (headDoc s)) r.description := by
    refine freeAs_ofText h.description fun s out hout => ?_
    obtain rfl := Except.ok.inj hout
    exact markerFree_headDoc_iff s
  simp only [FreeValues, rootValues, Scope.conditions, List.forall_mem_append, List.forall_mem_cons,
    htypes]
  exact ⟨⟨freeAs_shown h.title, freeAs_shown h.version, hdescription, freeAs_shown h.namespaceName,
    hliteral, freeAs_bool _, freeAs_joined isForeign_feeds h.scope.functions,
    freeAs_joined isForeign_feeds h.scope.children, List.forall_mem_nil _⟩, freeAs_bool _,
    freeAs_bool _, freeAs_bool _, freeAs_bool _, freeAs_bool _, List.forall_mem_nil _⟩

/-! ## Python types -/

variable {t : NamedType} {namespaceName : String}

theorem unmarked_typeHint {f : Field} (h : f.IsFree) : Unmarked (typeHint f).toList := by
  have hmarks : Unmarked "NotRequired[".toList ∧ Unmarked "]".toList := by decide
  rw [typeHint]
  split_ifs
  · exact h.type
  · simp only [String.toList_append, unmarked_append]
    exact ⟨⟨hmarks.1, h.type⟩, hmarks.2⟩

theorem markerFree_of_classLines {f : Field} (h : f.IsFree) {lines : List String}
    (hlines : classLines f.property = .ok lines) : ∀ line ∈ lines, MarkerFree line.toList := by
  have hmarks : Unmarked ": ".toList ∧ Unmarked "#: ".toList := by decide
  have hline : MarkerFree (f.name ++ ": " ++ typeHint f).toList := by
    rw [String.toList_append, String.toList_append, markerFree_append_unmarked (unmarked_typeHint h),
      markerFree_append_unmarked hmarks.1]
    exact h.name
  rw [classLines, propertyType_property] at hlines
  split at hlines
  · split at hlines
    · rename_i s hs
      obtain rfl := Except.ok.inj hlines
      refine List.forall_mem_cons.2 ⟨?_, List.forall_mem_singleton.2 hline⟩
      rw [String.toList_append, markerFree_append_of_unmarked hmarks.2, markerFree_collapse_iff]
      exact h.description s hs
    · cases hlines
  · obtain rfl := Except.ok.inj hlines
    exact List.forall_mem_singleton.2 hline

theorem markerFree_of_classBody {fields : List Field} (h : ∀ f ∈ fields, f.IsFree)
    {lines : List String} (hlines : classBody (fields.map Field.property) = .ok lines) :
    ∀ line ∈ lines, MarkerFree line.toList := by
  induction fields generalizing lines with
  | nil =>
    obtain rfl := Except.ok.inj hlines
    exact List.forall_mem_nil _
  | cons f rest ih =>
    obtain ⟨hf, hrest⟩ := List.forall_mem_cons.1 h
    rw [List.map_cons, classBody] at hlines
    obtain ⟨first, hfirst, h₁⟩ := exists_of_bind hlines
    obtain ⟨more, hmore, hpure⟩ := exists_of_bind h₁
    obtain rfl := Except.ok.inj hpure
    exact List.forall_mem_append.2 ⟨markerFree_of_classLines hf hfirst, ih hrest hmore⟩

theorem unmarked_callLine (f : Field) : Unmarked (callLine f.property).toList := by
  have hmarks : Unmarked ": ".toList ∧ Unmarked ",".toList := by decide
  simp only [callLine_property, String.toList_append, unmarked_append]
  exact ⟨⟨⟨Json.unmarked_literal _, hmarks.1⟩, Json.unmarked_literal _⟩, hmarks.2⟩

theorem unmarked_of_mem_typing {name : String} (h : name ∈ typing t) : Unmarked name.toList :=
  fun hmem => absurd (List.all_eq_true.1 (all_isWordChar_of_mem_typing h) _ hmem) (by decide)

theorem unmarked_of_mem_references (h : t.IsFree) : ∀ n ∈ t.references, Unmarked n.toList := by
  intro n hn
  obtain ⟨f, hf, hnamed⟩ := List.mem_flatMap.1 (List.mem_of_mem_filter (Naming.mem_firstUses.1 hn))
  exact (h.field f hf).named n hnamed

theorem areFree_lines {texts : List String} (h : ∀ text ∈ texts, MarkerFree text.toList) :
    (lines texts).AreFree :=
  Json.areFree_arr (List.forall_mem_map.2 fun text htext => Json.isFree_str (h text htext))

theorem freeValues_valuesOf (h : t.IsFree) (hnamespace : Unmarked namespaceName.toList)
    {fields : List String} (hfields : ∀ line ∈ fields, MarkerFree line.toList) (isClass : Bool) :
    FreeValues (typePlan isClass).declarations (valuesOf t (.str namespaceName) fields) := by
  have hmarks : Unmarked " schema of the ".toList ∧ Unmarked " client.".toList ∧
      Unmarked "    from .".toList ∧ Unmarked " import ".toList := by decide
  have hmodule : (Json.str (t.name ++ " schema of the " ++ (Json.str namespaceName).display ++
      " client.")).IsFree := by
    refine Json.isFree_str (markerFree_of_unmarked ?_)
    simp only [String.toList_append, unmarked_append]
    exact ⟨⟨⟨h.name, hmarks.1⟩, hnamespace⟩, hmarks.2.1⟩
  have htyping : (lines (typing t)).AreFree := areFree_lines fun name hname =>
    markerFree_of_unmarked (unmarked_of_mem_typing hname)
  have himports : (lines (t.references.map importOf)).AreFree := by
    refine areFree_lines (List.forall_mem_map.2 fun n hn => markerFree_of_unmarked ?_)
    have hname := unmarked_of_mem_references h n hn
    simp only [importOf, String.toList_append, unmarked_append]
    exact ⟨⟨⟨hmarks.2.2.1, hname⟩, hmarks.2.2.2⟩, hname⟩
  have hlines := areFree_lines hfields
  simp only [FreeValues, valuesOf, List.forall_mem_cons]
  -- the forms differ in what stands between the lines
  cases isClass <;> refine ⟨freeAs_ofText hmodule fun _ _ => markerFree_docstring_iff,
    freeAs_joined isForeign_comma htyping, freeAs_bool _, freeAs_joined isForeign_feed himports,
    freeAs_text h.name, freeAs_ofText h.description fun _ _ => markerFree_docstring_iff, ?_,
    List.forall_mem_nil _⟩
  case false => exact freeAs_joined isForeign_deeper hlines
  case true => exact freeAs_joined isForeign_indent hlines

theorem freeValues_type (h : t.IsFree) (hnamespace : Unmarked namespaceName.toList) {isClass : Bool}
    {values : Table Json} (hvalues : typeValues t.record (.str namespaceName) isClass = .ok values) :
    FreeValues (typePlan isClass).declarations values := by
  cases isClass with
  | true =>
    obtain ⟨fields, hfields, -⟩ := exists_of_bind hvalues
    have hclass : classBody (t.fields.map Field.property) = .ok fields := hfields
    have hrecord := @typeValues_record t true fields hclass (.str namespaceName)
    obtain rfl := Except.ok.inj (hrecord.symm.trans hvalues)
    exact freeValues_valuesOf h hnamespace (markerFree_of_classBody h.field hclass) true
  | false =>
    have hrecord := @typeValues_record t false _ rfl (.str namespaceName)
    obtain rfl := Except.ok.inj (hrecord.symm.trans hvalues)
    refine freeValues_valuesOf h hnamespace (List.forall_mem_map.2 ?_) false
    exact List.forall_mem_map.2 fun f _ => markerFree_of_unmarked (unmarked_callLine f)

end Python

/-! ## Kotlin -/

namespace Kotlin

variable {e : Endpoint} {t : NamedType} {namespaceName : String}

theorem freeAs_comment {value : Json} (h : value.IsFree) :
    FreeAs (ofText fun s => .ok (docComment s)) value := by
  refine freeAs_ofText h fun s out hout => ?_
  obtain rfl := Except.ok.inj hout
  exact markerFree_docComment_iff s

theorem unmarked_renderArgument {a : Argument} (h : a.IsFree) :
    Unmarked (renderArgument a).toList :=
  h.unmarked_spelled (by decide)

theorem isFree_of_setters {call : String} (hcall : Unmarked call.toList) {arguments : List Argument}
    (h : ∀ a ∈ arguments, a.IsFree) {values : List Json} (hvalues : setters call arguments = .ok values) :
    ∀ value ∈ values, value.IsFree := by
  have hmarks : Unmarked "(".toList ∧ Unmarked ", ".toList ∧ Unmarked ")".toList := by decide
  induction arguments generalizing values with
  | nil =>
    obtain rfl := Except.ok.inj hvalues
    exact List.forall_mem_nil _
  | cons a rest ih =>
    obtain ⟨ha, hrest⟩ := List.forall_mem_cons.1 h
    rw [setters] at hvalues
    obtain ⟨line, hline, h₁⟩ := exists_of_bind hvalues
    obtain ⟨more, hmore, hpure⟩ := exists_of_bind h₁
    obtain rfl := Except.ok.inj hpure
    refine List.forall_mem_cons.2 ⟨?_, ih hrest hmore⟩
    unfold setter at hline
    split at hline
    · rename_i name hname
      obtain rfl := Except.ok.inj hline
      refine Json.isFree_str ?_
      simp only [String.toList_append]
      rw [markerFree_append_unmarked hmarks.2.2, markerFree_append_unmarked ha.identifier,
        markerFree_append_unmarked hmarks.2.1, List.append_assoc, markerFree_append_of_unmarked hcall,
        markerFree_append_of_unmarked hmarks.1, markerFree_kotlinString_iff]
      exact ha.name name hname
    · cases hline

theorem freeValues_endpoint (h : e.IsFree) {query headers : List Json}
    (hquery : setters "parameter" (e.located "query") = .ok query)
    (hheaders : setters "header" (e.located "header") = .ok headers) :
    FreeValues endpointPlan.declarations (endpointValues e query headers) := by
  have hwords : Unmarked "@deprecated".toList ∧ Unmarked "parameter".toList ∧
      Unmarked "header".toList := by decide
  have hmethod : Unmarked (methodExpression e.verb).toList := by
    obtain ⟨m, hm⟩ := h.verb
    rw [hm]
    cases m <;> decide +kernel
  have hparameters := h.parameters fun _ => unmarked_renderArgument
  have hqueries := Json.areFree_arr (isFree_of_setters hwords.2.1 (h.located "query") hquery)
  have hheads := Json.areFree_arr (isFree_of_setters hwords.2.2 (h.located "header") hheaders)
  simp only [FreeValues, endpointValues, List.forall_mem_cons]
  exact ⟨freeAs_text h.unmarked_name, freeAs_joined isForeign_comma hparameters,
    freeAs_shown h.result, freeAs_comment (h.doc hwords.1), freeAs_shown h.url, freeAs_text hmethod,
    freeAs_bool _, freeAs_joined isForeign_feed hqueries, freeAs_bool _,
    freeAs_joined isForeign_feed hheads, freeAs_bool _, freeAs_shown h.body, List.forall_mem_nil _⟩

theorem freeValues_scope {s : Scope} (h : s.IsFree) :
    FreeValues scopePlan.declarations (scopeValues s) := by
  have hcomment : (scopeDoc s.url).IsFree := by
    rw [scopeDoc]
    split_ifs
    · exact Json.isFree_null
    · exact Json.isFree_str h.note
  simp only [FreeValues, scopeValues, Scope.conditions, List.forall_mem_append, List.forall_mem_cons]
  exact ⟨⟨freeAs_shown h.name, freeAs_comment hcomment, freeAs_joined isForeign_feeds h.functions,
    freeAs_joined isForeign_feeds h.children, List.forall_mem_nil _⟩, freeAs_bool _, freeAs_bool _,
    freeAs_bool _, freeAs_bool _, freeAs_bool _, List.forall_mem_nil _⟩

theorem freeValues_root {r : Root} (h : r.IsFree) {baseUrl : Json} (hurl : r.baseUrl = .ok baseUrl) :
    FreeValues rootPlan.declarations (rootValues r baseUrl) := by
  have hliteral : FreeAs (ofText fun s => .ok (kotlinString s)) baseUrl := by
    refine freeAs_ofText (h.baseUrl _ hurl) fun s out hout => ?_
    obtain rfl := Except.ok.inj hout
    exact markerFree_kotlinString_iff s
  have hdescription : FreeAs (ofText fun s => .ok (headComment s)) r.description := by
    refine freeAs_ofText h.description fun s out hout => ?_
    obtain rfl := Except.ok.inj hout
    exact markerFree_headComment_iff s
  simp only [FreeValues, rootValues, Scope.conditions, List.forall_mem_append, List.forall_mem_cons]
  exact ⟨⟨freeAs_shown h.namespaceName, freeAs_shown h.title, freeAs_shown h.version, hdescription,
    hliteral, freeAs_joined isForeign_feeds h.scope.functions,
    freeAs_joined isForeign_feeds h.scope.children, List.forall_mem_nil _⟩, freeAs_bool _,
    freeAs_bool _, freeAs_bool _, freeAs_bool _, freeAs_bool _, List.forall_mem_nil _⟩

theorem markerFree_parameterLine {f : Field} (h : f.IsFree) :
    MarkerFree (parameterLine f).toList := by
  have hmarks : Unmarked "@SerialName(".toList ∧ Unmarked ") val ".toList ∧ Unmarked ": ".toList ∧
      Unmarked ",".toList := by decide
  simp only [parameterLine, String.join, List.foldl_cons, List.foldl_nil, String.toList_append,
    String.toList_empty, List.nil_append]
  rw [markerFree_append_unmarked hmarks.2.2.2, markerFree_append_unmarked (unmarked_parameterType h.type),
    markerFree_append_unmarked hmarks.2.2.1, markerFree_append_unmarked h.identifier,
    markerFree_append_unmarked hmarks.2.1, markerFree_append_of_unmarked hmarks.1,
    markerFree_kotlinString_iff]
  exact h.name

theorem freeValues_type (h : t.IsFree) (hnamespace : Unmarked namespaceName.toList) {fields : List Json}
    (hfields : propertyLines t.record.properties = .ok fields) :
    FreeValues typePlan.declarations (recordValues t.record (.str namespaceName) fields) := by
  have hproperties : t.record.properties = t.fields.map Field.property := rfl
  rw [hproperties, propertyLines_map_property] at hfields
  obtain rfl := Except.ok.inj hfields
  have hlines : (Json.arr ((t.fields.map parameterLine).map .str)).AreFree := by
    refine Json.areFree_arr (List.forall_mem_map.2 (List.forall_mem_map.2 fun f hf => ?_))
    exact Json.isFree_str (markerFree_parameterLine (h.field f hf))
  simp only [FreeValues, recordValues, List.forall_mem_cons]
  exact ⟨freeAs_text hnamespace, freeAs_text h.name, freeAs_comment h.description,
    freeAs_joined isForeign_indent hlines, List.forall_mem_nil _⟩

end Kotlin

/-! ## Both -/

/-- Nothing that is handed over for a part holds the marker, if the texts of the part do not. -/
theorem spares_of_isFree (d : Dialect) {p : Passage} (h : p.IsFree) : d.Spares p := by
  intro plan values hhanded
  cases d with
  | python =>
    cases p with
    | endpoint e =>
      obtain ⟨rfl, rfl⟩ := Prod.mk.inj (Except.ok.inj hhanded)
      exact Python.freeValues_endpoint h
    | scope s =>
      obtain ⟨doc, hdoc, hpure⟩ := exists_of_bind_mapError hhanded
      obtain ⟨rfl, rfl⟩ := Prod.mk.inj (Except.ok.inj hpure)
      exact Python.freeValues_scope h hdoc
    | root r =>
      obtain ⟨baseUrl, -, hpure⟩ := exists_of_bind_mapError hhanded
      obtain ⟨rfl, rfl⟩ := Prod.mk.inj (Except.ok.inj hpure)
      exact Python.freeValues_root h baseUrl
    | type t namespaceName =>
      obtain ⟨isClass, -, h₁⟩ := exists_of_bind_mapError hhanded
      obtain ⟨_, hvalues, hpure⟩ := exists_of_bind_mapError h₁
      obtain ⟨rfl, rfl⟩ := Prod.mk.inj (Except.ok.inj hpure)
      exact Python.freeValues_type h.1 h.2 hvalues
  | kotlin =>
    cases p with
    | endpoint e =>
      obtain ⟨query, hquery, h₁⟩ := exists_of_bind_mapError hhanded
      obtain ⟨headers, hheaders, hpure⟩ := exists_of_bind_mapError h₁
      obtain ⟨rfl, rfl⟩ := Prod.mk.inj (Except.ok.inj hpure)
      exact Kotlin.freeValues_endpoint h hquery hheaders
    | scope s =>
      obtain ⟨rfl, rfl⟩ := Prod.mk.inj (Except.ok.inj hhanded)
      exact Kotlin.freeValues_scope h
    | root r =>
      obtain ⟨baseUrl, hurl, hpure⟩ := exists_of_bind_mapError hhanded
      obtain ⟨rfl, rfl⟩ := Prod.mk.inj (Except.ok.inj hpure)
      exact Kotlin.freeValues_root h hurl
    | type t namespaceName =>
      obtain ⟨fields, hfields, hpure⟩ := exists_of_bind_mapError hhanded
      obtain ⟨rfl, rfl⟩ := Prod.mk.inj (Except.ok.inj hpure)
      exact Kotlin.freeValues_type h.1 h.2 hfields

end Dialect

end ApiClient
