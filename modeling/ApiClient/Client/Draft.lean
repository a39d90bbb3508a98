import ApiClient.Dialect.Rendering
import ApiClient.Types.Resolution

/-!
# Drafts

The state of a run that generates a client: the types so far with the journal, and the calls that
have been written. A failure leaves the state it was met in.
-/

namespace ApiClient

/-- An operation as it is listed on the pages of a client. -/
structure Call where
  verb : String
  url : String
  path : String
  summary : Json
  returnType : String

/-- A client in the making. -/
structure Draft where
  types : TypeState := {}
  calls : List Call := []

/-- Drafting: a result or a failure, and the draft after it in either case. -/
abbrev Drafting := ExceptT Failure (StateM Draft)

namespace Drafting

/-- Resolves types as a part of drafting. -/
def ofResolving {α : Type} (work : Resolving α) : Drafting α :=
  ExceptT.mk fun d =>
    let (result, types) := work.run d.types
    (result, { d with types })

/-- Ends with a failure. -/
def fail {α : Type} (cause : Cause) : Drafting α :=
  throw { cause }

/-- The text of a template, or its failure. -/
def ofTemplate {α : Type} : Except Template.Error α → Drafting α
  | .ok a => pure a
  | .error e => fail (.ofTemplate e)

/-- A value, or the failure to use it. -/
def ofValue {α : Type} : Except Json.Misfit α → Drafting α
  | .ok a => pure a
  | .error e => fail (.misfit e)

/-- Adds an entry to the journal. -/
def note (level : Level) (message : String) : Drafting Unit :=
  ofResolving (Resolver.note level .client message)

/-- Notes the place if `work` fails. -/
def within {α : Type} (place : String) (work : Drafting α) : Drafting α :=
  tryCatch work fun f => throw (f.within place)

/-- Adds a call. -/
def addCall (c : Call) : Drafting Unit :=
  modify fun d => { d with calls := d.calls ++ [c] }

end Drafting

end ApiClient
