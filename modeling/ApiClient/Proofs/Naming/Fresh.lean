import ApiClient.Dialect.Basic
import ApiClient.Naming.Fresh
import Mathlib

/-!
# Names with numbers

The names `name`, `name2`, `name3`, … are distinct (`numbered_injective`), so a list of names holds
only as many of them as it is long, and a bounded search for one that is not held succeeds
(`firstIndex_spec`, `exists_numbered_notMem`).

`CountsTo` is the search without a bound, a loop that may as well go on for ever: it relates a number
to another only if the loop that starts at the first ends at the second. The bounded search stands for
it wherever there is something to find below the bound (`countsTo_firstIndex`).

`StartsPlain` says that a name has at most one underscore before its first other character, which the
file that a package needs for itself has not (`StartsPlain.ne_init`).
-/

namespace ApiClient.Naming

/-! ## The search -/

theorem numbered_injective (name : String) : Function.Injective (numbered name) := by
  have hne : ∀ n, numbered name 0 ≠ numbered name (n + 1) := by
    intro n h
    have hlen := congrArg String.length h
    have hpos := Nat.length_repr_pos (n := n + 2)
    simp only [numbered, String.length_append, Nat.toString_eq_repr] at hlen
    omega
  intro m n h
  match m, n with
  | 0, 0 => rfl
  | 0, n + 1 => exact absurd h (hne n)
  | m + 1, 0 => exact absurd h.symm (hne m)
  | m + 1, n + 1 =>
    have hnum : Nat.repr (m + 2) = Nat.repr (n + 2) := by
      simpa [numbered, String.append_right_inj] using h
    have := Nat.repr_injective hnum
    omega

/-- A search that has something to find finds the first. -/
theorem firstIndex_spec {p : Nat → Bool} {bound : Nat} (h : ∃ n < bound, p n = true) :
    p (firstIndex p bound) = true ∧ ∀ m < firstIndex p bound, p m = false := by
  obtain ⟨n, hn, hp⟩ := h
  cases hf : (List.range bound).find? p with
  | none => exact absurd hp (List.find?_eq_none.1 hf n (List.mem_range.2 hn))
  | some i =>
    obtain ⟨hi, -, hlt⟩ := List.find?_range_eq_some.1 hf
    rw [firstIndex, hf, Option.getD_some]
    exact ⟨hi, fun m hm => by simpa using hlt m hm⟩

/-- A loop that counts up from `m` until a number has the property ends at `n`. -/
inductive CountsTo (p : Nat → Prop) : Nat → Nat → Prop where
  | stop {n : Nat} (h : p n) : CountsTo p n n
  | step {m n : Nat} (h : ¬p m) (rest : CountsTo p (m + 1) n) : CountsTo p m n

/-- The loop ends at the first number with the property, from the one that it starts with. -/
theorem countsTo_iff {p : Nat → Prop} {m n : Nat} :
    CountsTo p m n ↔ m ≤ n ∧ p n ∧ ∀ k, m ≤ k → k < n → ¬p k := by
  constructor
  · intro h
    induction h with
    | stop h => exact ⟨le_rfl, h, fun k hm hn => absurd hn (by omega)⟩
    | @step m n h _ ih =>
      obtain ⟨hle, hp, hbelow⟩ := ih
      refine ⟨by omega, hp, fun k hm hn => ?_⟩
      rcases Nat.eq_or_lt_of_le hm with rfl | hm
      · exact h
      · exact hbelow k hm hn
  · rintro ⟨hle, hp, hbelow⟩
    induction hle using Nat.decreasingInduction with
    | self => exact .stop hp
    | of_succ m hm ih =>
      exact .step (hbelow m le_rfl hm) (ih fun k hk => hbelow k (by omega))

theorem CountsTo.unique {p : Nat → Prop} {m n n' : Nat} (h : CountsTo p m n)
    (h' : CountsTo p m n') : n = n' := by
  obtain ⟨hle, hp, hbelow⟩ := countsTo_iff.1 h
  obtain ⟨hle', hp', hbelow'⟩ := countsTo_iff.1 h'
  rcases Nat.lt_trichotomy n n' with hlt | heq | hlt
  · exact absurd hp (hbelow' n hle hlt)
  · exact heq
  · exact absurd hp' (hbelow n' hle' hlt)

theorem CountsTo.isLeast {p : Nat → Prop} {n : Nat} (h : CountsTo p 0 n) :
    IsLeast {n | p n} n := by
  obtain ⟨-, hp, hbelow⟩ := countsTo_iff.1 h
  exact ⟨hp, fun k hk => not_lt.1 fun hlt => hbelow k (Nat.zero_le k) hlt hk⟩

/-- The loop ends, and no later than at a number that is known to have the property. -/
theorem exists_countsTo {p : Nat → Prop} {bound : Nat} (h : p bound) :
    ∃ n ≤ bound, CountsTo p 0 n := by
  classical
  have hex : ∃ n, p n := ⟨bound, h⟩
  exact ⟨Nat.find hex, Nat.find_min' hex h,
    countsTo_iff.2 ⟨Nat.zero_le _, Nat.find_spec hex, fun k _ hk => Nat.find_min hex hk⟩⟩

/-- A bounded search with something to find gives the number that the loop ends at. -/
theorem countsTo_firstIndex {p : Nat → Bool} {bound : Nat} (h : ∃ n < bound, p n = true) :
    CountsTo (p · = true) 0 (firstIndex p bound) := by
  obtain ⟨hfound, hbelow⟩ := firstIndex_spec h
  exact countsTo_iff.2 ⟨Nat.zero_le _, hfound, fun k _ hk => by simp [hbelow k hk]⟩

/-- Some of the first of different names is not in a list that is shorter than there are of these. -/
theorem exists_notMem_of_injective {f : Nat → String} (hf : Function.Injective f)
    {taken : List String} {bound : Nat} (h : taken.length < bound) : ∃ n < bound, f n ∉ taken := by
  by_contra hall
  simp only [not_exists, not_and, not_not] at hall
  have hnodup : ((List.range bound).map f).Nodup := List.nodup_range.map hf
  have hsub : (List.range bound).map f ⊆ taken := by
    intro x hx
    obtain ⟨n, hn, rfl⟩ := List.mem_map.1 hx
    exact hall n (List.mem_range.1 hn)
  have hlen := (List.subperm_of_subset hnodup hsub).length_le
  simp only [List.length_map, List.length_range] at hlen
  omega

theorem exists_numbered_notMem (name : String) {taken : List String} {bound : Nat}
    (h : taken.length < bound) : ∃ n < bound, numbered name n ∉ taken :=
  exists_notMem_of_injective (numbered_injective name) h

/-! ## First uses -/

theorem mem_firstUses {α : Type} [DecidableEq α] {xs : List α} {x : α} :
    x ∈ firstUses (· = ·) xs ↔ x ∈ xs := by
  induction xs with
  | nil => simp [firstUses]
  | cons first rest ih =>
    by_cases h : x = first
    · simp [firstUses, h]
    · simp [firstUses, h, ih, eq_comm]

/-- A value at the end is a first use unless it is the same as one before. -/
theorem firstUses_append_singleton {α : Type} (same : α → α → Bool) (xs : List α) (y : α) :
    firstUses same (xs ++ [y]) = firstUses same xs ++ if xs.any (same · y) then [] else [y] := by
  induction xs with
  | nil => rfl
  | cons x rest ih =>
    rw [List.cons_append, firstUses, firstUses, ih, List.filter_append, List.cons_append,
      List.any_cons]
    cases hx : same x y <;> cases rest.any (same · y) <;> simp [hx]

/-! ## First underscores -/

/-- At most one underscore stands before another character. -/
def StartsPlain (name : String) : Prop :=
  ∃ c rest, c ≠ '_' ∧ (name.toList = c :: rest ∨ name.toList = '_' :: c :: rest)

/-- The name of the file that makes a directory a package is no name of a type. -/
theorem StartsPlain.ne_init {name : String} (h : StartsPlain name) : name ≠ "__init__" := by
  rintro rfl
  have hchars : "__init__".toList = '_' :: '_' :: "init__".toList := by decide
  obtain ⟨c, rest, hc, h | h⟩ := h
  · exact hc (List.cons.inj (hchars.symm.trans h)).1.symm
  · exact hc (List.cons.inj (List.cons.inj (hchars.symm.trans h)).2).1.symm

end ApiClient.Naming
