/-!
# Occurrences of one text in another

`dropFront?` takes a text off the front of another, `occursIn` looks for a text, and `replaceAll`
puts another text in place of each occurrence, read from the left.
-/

namespace ApiClient.Text

/-- What follows `front` in `cs`, if `cs` begins with it. -/
def dropFront? : List Char → List Char → Option (List Char)
  | [], cs => some cs
  | _ :: _, [] => none
  | f :: front, c :: cs => if f = c then dropFront? front cs else none

theorem dropFront?_eq_some_iff {front cs rest : List Char} :
    dropFront? front cs = some rest ↔ cs = front ++ rest := by
  induction front generalizing cs with
  | nil => simp [dropFront?, eq_comm]
  | cons f front ih =>
    cases cs with
    | nil => simp [dropFront?]
    | cons c cs =>
      rw [dropFront?, List.cons_append, List.cons.injEq]
      by_cases hf : f = c
      · rw [if_pos hf, ih, and_iff_right hf.symm]
      · rw [if_neg hf]
        exact iff_of_false (by simp) fun h => hf h.1.symm

theorem length_of_dropFront? {front cs rest : List Char} (h : dropFront? front cs = some rest) :
    cs.length = front.length + rest.length := by
  rw [dropFront?_eq_some_iff.1 h, List.length_append]

/-- Whether `part` occurs in `cs`. -/
def occursIn (part : List Char) : List Char → Bool
  | [] => part.isEmpty
  | c :: cs => (dropFront? part (c :: cs)).isSome || occursIn part cs

/-- `cs` with `new` in place of each occurrence of `old`, from the left. An empty `old` is never
replaced. -/
def replaceChars (old new : List Char) (cs : List Char) : List Char :=
  match cs with
  | [] => []
  | c :: rest =>
    match h : dropFront? old (c :: rest) with
    | some after =>
      if ho : old = [] then c :: replaceChars old new rest
      else
        have : after.length < (c :: rest).length := by
          have := length_of_dropFront? h
          have := List.length_pos_iff.2 ho
          omega
        new ++ replaceChars old new after
    | none => c :: replaceChars old new rest
  termination_by cs.length
  decreasing_by all_goals simp only [List.length_cons] at *; omega

/-- `s` with `new` in place of each occurrence of `old`. -/
def replaceAll (old new s : String) : String :=
  String.ofList (replaceChars old.toList new.toList s.toList)

/-- Whether `s` begins with `front`. -/
def startsWith (front s : String) : Bool :=
  (dropFront? front.toList s.toList).isSome

/-- What follows `front` in `s`, if `s` begins with it. -/
def after? (front s : String) : Option String :=
  (dropFront? front.toList s.toList).map String.ofList

/-- Whether `s` ends with `back`. -/
def endsWith (back s : String) : Bool :=
  (dropFront? back.toList.reverse s.toList.reverse).isSome

end ApiClient.Text
