import ApiClient.Client.Signature
import ApiClient.Proofs.Json.Sameness
import ApiClient.Proofs.Naming.Digits
import Mathlib

/-!
# The order and the identifiers of arguments

Giving arguments identifiers changes nothing else (`Signature.forall₂_distinctFrom`). The search for
an identifier succeeds, since the names with numbers behind them give different ones, so no two
arguments have the same (`Signature.nodup_distinctFrom`). `Signature.Distinguishes` is the search as
a loop without a bound, and `Signature.distinctFrom_eq_loop` says that it ends and what it gives.

`Signature.arranged` puts the required ones first. When the arguments in the path have different
names, each is found under its own (`Signature.find?_pathIdentifiers`).
-/

namespace ApiClient.Signature

open Naming

variable {d : Dialect} {a b : Argument} {arguments : List Argument} {taken : List String}

/-! ## Identifiers -/

/-- An argument is another one with the identifier that is tried after some others. -/
def Renamed (d : Dialect) (a b : Argument) : Prop :=
  ∃ n, b = { a with identifier := .str (triedIdentifier d a n) }

/-- One of the identifiers that are tried is not taken. -/
theorem exists_triedIdentifier_notMem (d : Dialect) (a : Argument) (taken : List String) :
    ∃ n < taken.length + 2, triedIdentifier d a n ∉ taken := by
  have hinjective : Function.Injective fun n => triedIdentifier d a (n + 1) := fun m n h => by
    have hnumber := identifier_append_toString_injective d a.name.display h
    omega
  obtain ⟨n, hn, hfree⟩ := exists_notMem_of_injective hinjective (Nat.lt_succ_self taken.length)
  exact ⟨n + 1, by omega, hfree⟩

/-- The loop that tries identifiers for an argument ends. -/
theorem exists_distinctFrom_cons (d : Dialect) (taken : List String) (a : Argument)
    (rest : List Argument) : ∃ n, CountsTo (fun n => triedIdentifier d a n ∉ taken) 0 n ∧
      distinctFrom d taken (a :: rest) = { a with identifier := .str (triedIdentifier d a n) } ::
        distinctFrom d (triedIdentifier d a n :: taken) rest := by
  refine ⟨_, ?_, rfl⟩
  obtain ⟨n, hn, hfree⟩ := exists_triedIdentifier_notMem d a taken
  have hloop := countsTo_firstIndex (p := fun n => !taken.contains (triedIdentifier d a n))
    ⟨n, hn, by simpa using hfree⟩
  simpa using hloop

theorem forall₂_distinctFrom (d : Dialect) (taken : List String) (arguments : List Argument) :
    List.Forall₂ (Renamed d) arguments (distinctFrom d taken arguments) := by
  induction arguments generalizing taken with
  | nil => exact .nil
  | cons a rest ih =>
    obtain ⟨n, -, hcons⟩ := exists_distinctFrom_cons d taken a rest
    rw [hcons]
    exact .cons ⟨n, rfl⟩ (ih _)

theorem exists_distinctFrom_append (d : Dialect) (taken : List String) (xs ys : List Argument) :
    ∃ taken', distinctFrom d taken (xs ++ ys) =
      distinctFrom d taken xs ++ distinctFrom d taken' ys := by
  induction xs generalizing taken with
  | nil => exact ⟨taken, rfl⟩
  | cons a rest ih =>
    obtain ⟨taken', h⟩ := ih (_ :: taken)
    exact ⟨taken', congrArg (List.cons _) h⟩

/-- The identifiers are distinct, and none of them was taken. -/
theorem nodup_distinctFrom (d : Dialect) (taken : List String) (arguments : List Argument) :
    ((distinctFrom d taken arguments).map (·.identifier)).Nodup ∧
      ∀ b ∈ distinctFrom d taken arguments, ∀ x ∈ taken, b.identifier ≠ .str x := by
  induction arguments generalizing taken with
  | nil => simp [distinctFrom]
  | cons a rest ih =>
    obtain ⟨n, hloop, hcons⟩ := exists_distinctFrom_cons d taken a rest
    have hfree := (countsTo_iff.1 hloop).2.1
    obtain ⟨hnodup, houtside⟩ := ih (triedIdentifier d a n :: taken)
    rw [hcons, List.map_cons, List.nodup_cons]
    refine ⟨⟨fun hmem => ?_, hnodup⟩, fun b hb x hx => ?_⟩
    · obtain ⟨b, hb, heq⟩ := List.mem_map.1 hmem
      exact houtside b hb _ List.mem_cons_self heq
    · rcases List.mem_cons.1 hb with rfl | hb
      · rintro heq
        obtain rfl := Json.str.inj heq
        exact hfree hx
      · exact houtside b hb x (List.mem_cons_of_mem _ hx)

/-! ## The loop over the arguments -/

/-- What a loop over the arguments gives that tries one identifier after another for each of them, until
one is not taken, and takes it. -/
inductive Distinguishes (d : Dialect) : List String → List Argument → List Argument → Prop where
  | nil {taken : List String} : Distinguishes d taken [] []
  | cons {taken : List String} {a : Argument} {rest result : List Argument} {n : Nat}
      (ends : CountsTo (fun n => triedIdentifier d a n ∉ taken) 0 n)
      (more : Distinguishes d (triedIdentifier d a n :: taken) rest result) :
      Distinguishes d taken (a :: rest)
        ({ a with identifier := .str (triedIdentifier d a n) } :: result)

theorem distinguishes_iff {result : List Argument} :
    Distinguishes d taken arguments result ↔ result = distinctFrom d taken arguments := by
  constructor
  · intro h
    induction h with
    | nil => rfl
    | @cons taken a rest result n ends _ ih =>
      obtain ⟨n', ends', hcons⟩ := exists_distinctFrom_cons d taken a rest
      obtain rfl := ends.unique ends'
      rw [hcons, ih]
  · rintro rfl
    induction arguments generalizing taken with
    | nil => exact .nil
    | cons a rest ih =>
      obtain ⟨n, ends, hcons⟩ := exists_distinctFrom_cons d taken a rest
      rw [hcons]
      exact .cons ends ih

/-- The loop keeps the identifier that it tries first if that one is not taken. -/
theorem triedIdentifier_eq_iff {n : Nat} {x : String} (hx : a.identifier = .str x)
    (h : CountsTo (fun n => triedIdentifier d a n ∉ taken) 0 n) :
    triedIdentifier d a n = x ↔ x ∉ taken := by
  have hzero : triedIdentifier d a 0 = x := by rw [triedIdentifier, hx, Json.display]
  obtain ⟨-, hfree, -⟩ := countsTo_iff.1 h
  constructor
  · rintro rfl
    exact hfree
  · intro hnot
    obtain rfl : n = 0 := h.unique (.stop (hzero ▸ hnot))
    exact hzero

/-- An argument keeps its identifier if that is not taken and no argument before it has it. -/
theorem identifier_distinctFrom_iff {i : Nat} {x : String} (ha : arguments[i]? = some a)
    (hb : (distinctFrom d taken arguments)[i]? = some b) (hx : a.identifier = .str x) :
    b.identifier = .str x ↔
      x ∉ taken ∧ ∀ c ∈ (distinctFrom d taken arguments).take i, c.identifier ≠ .str x := by
  induction arguments generalizing taken i with
  | nil => simp at ha
  | cons first rest ih =>
    obtain ⟨n, ends, hcons⟩ := exists_distinctFrom_cons d taken first rest
    rw [hcons] at hb ⊢
    cases i with
    | zero =>
      obtain rfl := Option.some.inj ha
      obtain rfl := Option.some.inj hb
      simpa using triedIdentifier_eq_iff hx ends
    | succ i =>
      rw [List.getElem?_cons_succ] at ha hb
      rw [ih ha hb]
      simp [eq_comm, and_assoc, and_left_comm]

/-- **The identifiers of arguments.** With different numbers behind it a name gives different
identifiers, so the loop that tries them for an argument ends, whatever is taken, after no more of them
than are taken and one. The loop over the arguments gives the same arguments in the same order, changed
in nothing but their identifiers, which are distinct and were not taken. An argument keeps its own exactly
if that was not taken and is not the one of an argument before it, which may have been given it in the
loop. -/
theorem distinctFrom_eq_loop (d : Dialect) :
    (∀ name : String, Function.Injective fun n : Nat => d.identifier (name ++ toString n)) ∧
    (∀ (a : Argument) (taken : List String), ∃ n ≤ taken.length + 1,
      CountsTo (fun n => triedIdentifier d a n ∉ taken) 0 n) ∧
    ∀ (taken : List String) (arguments : List Argument), ∃ result,
      result = distinctFrom d taken arguments ∧
      (∀ given, Distinguishes d taken arguments given ↔ given = result) ∧
      List.Forall₂ (fun a b => ∃ x : String, b = { a with identifier := .str x }) arguments result ∧
      (result.map (·.identifier)).Nodup ∧
      (∀ b ∈ result, ∀ x ∈ taken, b.identifier ≠ .str x) ∧
      ∀ (i : Nat) (a b : Argument) (x : String),
        arguments[i]? = some a → result[i]? = some b → a.identifier = .str x →
          (b.identifier = a.identifier ↔
            x ∉ taken ∧ ∀ c ∈ result.take i, c.identifier ≠ a.identifier) := by
  refine ⟨identifier_append_toString_injective d, fun a taken => ?_, fun taken arguments => ?_⟩
  · obtain ⟨bound, hbound, hfree⟩ := exists_triedIdentifier_notMem d a taken
    obtain ⟨n, hle, hn⟩ := exists_countsTo (p := fun n => triedIdentifier d a n ∉ taken) hfree
    exact ⟨n, by omega, hn⟩
  · obtain ⟨hnodup, houtside⟩ := nodup_distinctFrom d taken arguments
    refine ⟨_, rfl, fun given => distinguishes_iff, ?_, hnodup, houtside, fun i a b x ha hb hx => ?_⟩
    · exact (forall₂_distinctFrom d taken arguments).imp fun a b ⟨n, h⟩ => ⟨_, h⟩
    · rw [hx]
      exact identifier_distinctFrom_iff ha hb hx

/-- Of two arguments with the same identifier the first keeps it and the second gets another one. -/
theorem distinctFrom_eq_loop_pair :
    let sent (location : String) : Argument := ⟨.str "id", .str "id", .str location, "str", true⟩
    ∃ b c, distinctFrom .python [] [sent "query", sent "header"] = [b, c] ∧
      b.identifier = .str "id" ∧ c.identifier ≠ .str "id" := by
  intro sent
  obtain ⟨-, -, h⟩ := distinctFrom_eq_loop .python
  obtain ⟨result, hresult, -, hrenamed, -, -, hkeeps⟩ := h [] [sent "query", sent "header"]
  obtain ⟨b, _, -, hrest, rfl⟩ := List.forall₂_cons_left_iff.1 hrenamed
  obtain ⟨c, _, -, hnil, rfl⟩ := List.forall₂_cons_left_iff.1 hrest
  obtain rfl := List.forall₂_nil_left_iff.1 hnil
  have hb : b.identifier = .str "id" := (hkeeps 0 _ b "id" rfl rfl rfl).2 (by simp)
  refine ⟨b, c, hresult.symm, hb, fun hc => ?_⟩
  exact ((hkeeps 1 _ c "id" rfl rfl rfl).1 hc).2 b (by simp) hb

/-! ## Order -/

theorem arranged_perm (d : Dialect) (arguments : List Argument) :
    (arranged d arguments).Perm (distinctFrom d [] arguments) :=
  List.filter_append_perm _ _

theorem requiredFirst_arranged (d : Dialect) (arguments : List Argument) :
    (arranged d arguments).Pairwise fun a b => b.required = true → a.required = true := by
  have hrequired : ∀ a ∈ (distinctFrom d [] arguments).filter (·.required), a.required = true :=
    fun a ha => (List.mem_filter.1 ha).2
  have hoptional : ∀ b ∈ (distinctFrom d [] arguments).filter (!·.required), b.required = false :=
    fun b hb => by simpa using (List.mem_filter.1 hb).2
  rw [arranged, List.pairwise_append]
  refine ⟨List.pairwise_of_forall_mem_list fun a ha _ _ _ => hrequired a ha,
    List.pairwise_of_forall_mem_list fun a _ b hb h => ?_, fun a ha _ _ _ => hrequired a ha⟩
  rw [hoptional b hb] at h
  cases h

/-! ## The path -/

theorem pathIdentifiers_cons (b : Argument) (rest : List Argument) : pathIdentifiers (b :: rest) =
    if b.isIn "path" = true then (b.name, b.identifier.display) :: pathIdentifiers rest
    else pathIdentifiers rest := by
  simp only [pathIdentifiers, List.filter_cons]
  split_ifs
  · rfl
  · rfl

/-- An argument in the path is found under its name if there is no other one of that name. -/
theorem find?_pathIdentifiers
    (h : arguments.Pairwise fun a b => a.isIn "path" = true → b.isIn "path" = true →
      a.name.same b.name = false)
    (ha : a ∈ arguments) (hpath : a.isIn "path" = true) :
    (pathIdentifiers arguments).find? (fun entry => entry.1.same a.name) =
      some (a.name, a.identifier.display) := by
  induction arguments with
  | nil => simp at ha
  | cons b rest ih =>
    obtain ⟨hb, hrest⟩ := List.pairwise_cons.1 h
    rw [pathIdentifiers_cons]
    split_ifs with hbpath
    · rcases List.mem_cons.1 ha with rfl | ha
      · exact List.find?_cons_of_pos (Json.same_refl _)
      · rw [List.find?_cons_of_neg (by simp [hb a ha hbpath hpath])]
        exact ih hrest ha
    · rcases List.mem_cons.1 ha with rfl | ha
      · exact absurd hpath hbpath
      · exact ih hrest ha

end ApiClient.Signature
