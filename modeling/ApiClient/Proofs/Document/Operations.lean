import ApiClient.Proofs.Document.Judging
import ApiClient.Proofs.Result
import Mathlib

/-!
# Operations of a document

A path of a document that has been read has an operation for some of the methods, one for each and in
the order of the methods (`Document.nodup_methods_of_ofJson`).
-/

namespace ApiClient.Document

variable {α β : Type}

/-- What is read of the entries of a table is read of one of them each. -/
theorem exists_of_mem_eachMember {entries : List (String × α)}
    {reader : ∀ key value, (key, value) ∈ entries → Read β} {table : List (String × β)}
    (h : eachMember entries reader = .ok table) {key : String} {b : β} (hmem : (key, b) ∈ table) :
    ∃ value hvalue, reader key value hvalue = .ok b := by
  induction entries generalizing table with
  | nil =>
    obtain rfl := Except.ok.inj h
    cases hmem
  | cons e rest ih =>
    obtain ⟨k, value⟩ := e
    rw [eachMember] at h
    obtain ⟨first, hfirst, hrest⟩ := exists_of_bind h
    obtain ⟨more, hmore, hpure⟩ := exists_of_bind hrest
    obtain rfl := Except.ok.inj hpure
    rcases List.mem_cons.1 hmem with heq | hmem
    · obtain ⟨rfl, rfl⟩ := Prod.mk.inj heq
      exact ⟨value, List.mem_cons_self, hfirst⟩
    · obtain ⟨value, hvalue, hread⟩ := ih hmore hmem
      exact ⟨value, List.mem_cons_of_mem _ hvalue, hread⟩

theorem sublist_methods_of_readOperations {place : String} {j : Json} : ∀ {methods : List Method}
    {operations : List (Method × Operation)}, readOperations place j methods = .ok operations →
      (operations.map Prod.fst).Sublist methods
  | [], operations, h => by
    rw [readOperations] at h
    obtain rfl := Except.ok.inj h
    exact List.nil_sublist _
  | m :: rest, operations, h => by
    rw [readOperations] at h
    obtain ⟨operation, -, hrest⟩ := exists_of_bind h
    obtain ⟨more, hmore, hpure⟩ := exists_of_bind hrest
    obtain rfl := Except.ok.inj hpure
    have hsub := sublist_methods_of_readOperations hmore
    cases operation with
    | none => exact hsub.cons m
    | some o => exact hsub.cons_cons m

theorem nodup_methods_of_readPathItem {place : String} {j : Json} {item : PathItem}
    (h : readPathItem place j = .ok item) : (item.operations.map Prod.fst).Nodup := by
  rw [readPathItem] at h
  obtain ⟨operations, hoperations, h₁⟩ := exists_of_bind h
  obtain ⟨servers, -, h₂⟩ := exists_of_bind h₁
  obtain ⟨parameters, -, hpure⟩ := exists_of_bind h₂
  obtain rfl := Except.ok.inj hpure
  have hall : Method.all.Nodup := by decide
  exact hall.sublist (sublist_methods_of_readOperations hoperations)

theorem nodup_methods_of_readPaths {j : Json} {paths : Table PathItem}
    (h : readPaths j = .ok paths) : ∀ e ∈ paths, (e.2.operations.map Prod.fst).Nodup := by
  intro e he
  obtain ⟨value, hvalue, hread⟩ := exists_of_mem_eachMember h he
  split at hread
  · obtain ⟨-, -, hitem⟩ := exists_of_bind hread
    exact nodup_methods_of_readPathItem hitem
  · cases hread

/-- What the paths and the components of a document are read of. -/
theorem readings_of_ofJson {j : Json} {d : Document} (h : ofJson j = .ok d) :
    readPaths (j.member "paths") = .ok d.paths ∧
      readComponents (j.member "components") = .ok d.components := by
  unfold ofJson at h
  split at h
  · obtain ⟨version, -, h₁⟩ := exists_of_bind h
    dsimp only at h₁
    split at h₁
    · obtain ⟨info, -, h₂⟩ := exists_of_bind h₁
      obtain ⟨-, -, h₃⟩ := exists_of_bind h₂
      obtain ⟨info, -, h₄⟩ := exists_of_bind h₃
      obtain ⟨value, hvalue, h₅⟩ := exists_of_bind h₄
      obtain ⟨-, -, h₆⟩ := exists_of_bind h₅
      obtain ⟨paths, hpaths, h₇⟩ := exists_of_bind h₆
      obtain ⟨servers, -, h₈⟩ := exists_of_bind h₇
      obtain ⟨-, -, h₉⟩ := exists_of_bind h₈
      obtain ⟨components, hcomponents, h₁₀⟩ := exists_of_bind h₉
      obtain ⟨-, -, h₁₁⟩ := exists_of_bind h₁₀
      obtain ⟨tags, -, h₁₂⟩ := exists_of_bind h₁₁
      obtain ⟨docs, -, h₁₃⟩ := exists_of_bind h₁₂
      obtain ⟨security, -, hpure⟩ := exists_of_bind h₁₃
      obtain rfl := Except.ok.inj hpure
      obtain rfl := eq_member_of_required hvalue
      exact ⟨hpaths, hcomponents⟩
    · cases h₁
  · cases h

/-- No path of a document has two operations for the same method. -/
theorem nodup_methods_of_ofJson {j : Json} {d : Document} (h : ofJson j = .ok d) :
    ∀ e ∈ d.paths, (e.2.operations.map Prod.fst).Nodup :=
  nodup_methods_of_readPaths (readings_of_ofJson h).1

end ApiClient.Document
