import ApiClient.Proofs.Dialect.UrlExpression
import ApiClient.Route
import Mathlib

/-!
# Parameters of routes and of URLs

The tree of routes binds a parameter for every segment that is its name in braces
(`Route.parameterOf_eq_some_iff`). The expression for a URL takes only names of one line, and lets a line
feed follow the braces (`Dialect.segmentParameter_eq_some_iff`). So they tell the same parameters exactly
if no line feed stands in the braces of a segment or behind them (`parameters_agree_iff`), and in a URL
of one line they always do.
-/

namespace ApiClient.Route

open Dialect

variable {segment p : String}

/-! ## Names in braces -/

/-- A name in braces. -/
def braced (p : String) : String :=
  "\x7b" ++ p ++ "\x7d"

theorem toList_braced (p : String) : (braced p).toList = '\x7b' :: (p.toList ++ ['\x7d']) := by
  have hbraces : "\x7b".toList = ['\x7b'] ∧ "\x7d".toList = ['\x7d'] := by decide
  rw [braced, String.toList_append, String.toList_append, hbraces.1, hbraces.2]
  rfl

theorem braced_injective : Function.Injective braced := by
  intro p q h
  have hlist := congrArg String.toList h
  rw [toList_braced, toList_braced, List.cons.injEq] at hlist
  exact String.toList_injective (List.append_cancel_right hlist.2)

/-- Braces end a text, so no line feed does. -/
theorem braced_ne_append (p q : String) : braced p ≠ braced q ++ "\n" := by
  have hfeed : "\n".toList = ['\n'] := by decide
  intro h
  have hlast := congrArg (fun s : String => s.toList.getLast?) h
  simp only [String.toList_append, toList_braced, hfeed, List.getLast?_append, List.getLast?_cons,
    Option.some_or, Option.some.injEq] at hlast
  exact absurd hlast (by decide)

/-- The tree binds the name between the braces of a segment, whatever it is. -/
theorem parameterOf_eq_some_iff : parameterOf segment = some p ↔ p ≠ "" ∧ segment = braced p := by
  have hempty : p ≠ "" ↔ p.toList ≠ [] := by simp
  rw [← String.toList_inj, toList_braced, hempty]
  unfold parameterOf
  split
  · rename_i rest hrest
    rw [hrest, List.cons.injEq, and_iff_right rfl]
    split
    · rename_i hlast
      obtain ⟨name, rfl⟩ := List.getLast?_eq_some_iff.1 hlast
      rw [List.dropLast_concat, List.append_cancel_right_eq]
      dsimp only
      split_ifs with hname
      · exact iff_of_false nofun fun h => h.1 (h.2 ▸ hname)
      · rw [Option.some.injEq]
        constructor
        · rintro rfl
          rw [String.toList_ofList]
          exact ⟨hname, rfl⟩
        · rintro ⟨-, rfl⟩
          exact String.ofList_toList
    · rename_i hlast
      refine iff_of_false nofun ?_
      rintro ⟨-, rfl⟩
      exact hlast (by simp)
  · rename_i hstart
    exact iff_of_false nofun fun h => hstart _ h.2

theorem isParameter_iff : IsParameter segment p ↔
    p ≠ "" ∧ '\n' ∉ p.toList ∧ (segment = braced p ∨ segment = braced p ++ "\n") := by
  have hclose : "\x7d\n" = "\x7d" ++ "\n" := by decide
  rw [IsParameter, hclose, ← String.append_assoc]
  rfl

/-! ## Line feeds -/

/-- A name in braces with a line feed in it, or with one behind the braces and none in them. -/
def HoldsFeed (segment : String) : Prop :=
  ∃ p, p ≠ "" ∧ (segment = braced p ∧ '\n' ∈ p.toList ∨
    segment = braced p ++ "\n" ∧ '\n' ∉ p.toList)

theorem HoldsFeed.feed_mem (h : HoldsFeed segment) : '\n' ∈ segment.toList := by
  obtain ⟨p, -, ⟨rfl, hp⟩ | ⟨rfl, -⟩⟩ := h
  · simp [toList_braced, hp]
  · simp [String.toList_append]

/-- A line feed in the braces is no hindrance to the tree alone, and one behind them to the expression
alone. -/
theorem parameters_of_holdsFeed (h : HoldsFeed segment) :
    (∃ p, parameterOf segment = some p ∧ segmentParameter segment = none) ∨
      ∃ p, parameterOf segment = none ∧ segmentParameter segment = some p := by
  obtain ⟨p, hne, ⟨rfl, hp⟩ | ⟨rfl, hp⟩⟩ := h
  · refine Or.inl ⟨p, parameterOf_eq_some_iff.2 ⟨hne, rfl⟩, Option.eq_none_iff_forall_ne_some.2 ?_⟩
    intro q hq
    obtain ⟨-, hfeed, hbraced | hbraced⟩ := isParameter_iff.1 (segmentParameter_eq_some_iff.1 hq)
    · exact hfeed (braced_injective hbraced ▸ hp)
    · exact braced_ne_append p q hbraced
  · refine Or.inr ⟨p, Option.eq_none_iff_forall_ne_some.2 ?_,
      segmentParameter_eq_some_iff.2 (isParameter_iff.2 ⟨hne, hp, Or.inr rfl⟩)⟩
    intro q hq
    exact braced_ne_append q p (parameterOf_eq_some_iff.1 hq).2.symm

theorem parameters_of_not_holdsFeed (h : ¬HoldsFeed segment) :
    parameterOf segment = segmentParameter segment := by
  refine Option.ext fun p => ?_
  rw [parameterOf_eq_some_iff, segmentParameter_eq_some_iff, isParameter_iff]
  constructor
  · rintro ⟨hne, rfl⟩
    exact ⟨hne, fun hp => h ⟨p, hne, Or.inl ⟨rfl, hp⟩⟩, Or.inl rfl⟩
  · rintro ⟨hne, hp, rfl | rfl⟩
    · exact ⟨hne, rfl⟩
    · exact absurd ⟨p, hne, Or.inr ⟨rfl, hp⟩⟩ h

/-- The parameters that the tree binds for the segments of a URL are those that its expression
substitutes, unless a segment is a name in braces with a line feed in it or behind it: then only one of
the two takes it for a parameter. In a URL without line feeds they agree. -/
theorem parameters_agree_iff (url : String) :
    (∀ segment ∈ Text.split '/' url,
      parameterOf segment = segmentParameter segment ↔ ¬HoldsFeed segment) ∧
    ('\n' ∉ url.toList →
      (Text.split '/' url).map parameterOf = (Text.split '/' url).map segmentParameter) := by
  refine ⟨fun segment _ => ⟨fun hagree hholds => ?_, parameters_of_not_holdsFeed⟩,
    fun hfeed => List.map_congr_left fun segment hsegment => ?_⟩
  · rcases parameters_of_holdsFeed hholds with ⟨p, htree, hurl⟩ | ⟨p, htree, hurl⟩ <;>
      exact nomatch htree.symm.trans (hagree.trans hurl)
  · refine parameters_of_not_holdsFeed fun hholds => hfeed ?_
    obtain ⟨cs, hcs, rfl⟩ := List.mem_map.1 hsegment
    have hmem := hholds.feed_mem
    rw [String.toList_ofList] at hmem
    exact (Text.sublist_of_mem_splitOnChar hcs).subset hmem

/-- Both take a segment in two pairs of braces for a parameter, and neither takes an empty pair. -/
theorem parameters_agree_iff_members :
    '\n' ∉ "/teams/\x7b\x7bid\x7d\x7d/\x7b\x7d".toList ∧
    ("\x7b\x7d" ∈ Text.split '/' "/teams/\x7b\x7bid\x7d\x7d/\x7b\x7d" ∧ ¬HoldsFeed "\x7b\x7d") ∧
    (Text.split '/' "/teams/\x7b\x7bid\x7d\x7d/\x7b\x7d").map parameterOf =
      [none, none, some "\x7bid\x7d", none] ∧
    (Text.split '/' "/teams/\x7b\x7bid\x7d\x7d/\x7b\x7d").map segmentParameter =
      [none, none, some "\x7bid\x7d", none] := by
  have hfeed : '\n' ∉ "/teams/\x7b\x7bid\x7d\x7d/\x7b\x7d".toList := by decide
  have hmem : "\x7b\x7d" ∈ Text.split '/' "/teams/\x7b\x7bid\x7d\x7d/\x7b\x7d" := by decide
  have htree : (Text.split '/' "/teams/\x7b\x7bid\x7d\x7d/\x7b\x7d").map parameterOf =
      [none, none, some "\x7bid\x7d", none] := by decide
  obtain ⟨hsegment, hall⟩ := parameters_agree_iff "/teams/\x7b\x7bid\x7d\x7d/\x7b\x7d"
  exact ⟨hfeed, ⟨hmem, (hsegment _ hmem).1 (by decide)⟩, htree, (hall hfeed).symm.trans htree⟩

/-- A name of two lines is a parameter of the tree and none of the URL, and a name with a line feed behind
its braces is one of the URL and none of the tree. -/
theorem parameters_disagree_at_feeds :
    Text.split '/' "/\x7ba\nb\x7d/\x7bid\x7d\n" = ["", "\x7ba\nb\x7d", "\x7bid\x7d\n"] ∧
    parameterOf "\x7ba\nb\x7d" = some "a\nb" ∧ segmentParameter "\x7ba\nb\x7d" = none ∧
    parameterOf "\x7bid\x7d\n" = none ∧ segmentParameter "\x7bid\x7d\n" = some "id" := by
  decide

end ApiClient.Route
