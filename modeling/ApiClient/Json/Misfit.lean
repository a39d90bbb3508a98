/-!
# Misfits

A document may hold a value of any kind where a text is expected, and most such places are not
checked when the document is read. `Misfit` says how an operation on such a value fails.
-/

namespace ApiClient.Json

/-- A value that an operation is not made for. -/
inductive Misfit where
  /-- The operation does not take a value of this kind. -/
  | kind
  /-- The operation belongs to values of another kind. -/
  | operation
  /-- The first item was wanted of something that is empty. -/
  | empty
  /-- The object has no entry under the key. -/
  | noEntry
  /-- The value has no part of the name or number that a page asks for. -/
  | absent
  deriving DecidableEq, Repr

end ApiClient.Json
