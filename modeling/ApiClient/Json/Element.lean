import ApiClient.Json.Basic
import ApiClient.Json.Misfit

/-!
# Elements of a value

What comes out of a value that is gone through one by one: the items of an array, the characters
of a text, the keys of an object. Other values have no elements, and going through them is a misfit.
-/

namespace ApiClient.Json

/-- The elements of a value in order. -/
def elements : Json → Except Misfit (List Json)
  | arr items => .ok items
  | str s => .ok (s.toList.map fun c => str c.toString)
  | obj members => .ok (members.map fun e => str e.1)
  | _ => .error .kind

/-- Whether a value can be looked up among others: arrays and objects cannot. -/
def isKey : Json → Bool
  | arr _ | obj _ => false
  | _ => true

end ApiClient.Json
