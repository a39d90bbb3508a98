import ApiClient.Dialect.Basic
import ApiClient.Document.Error
import ApiClient.Document.Pointer
import ApiClient.Json.Element
import ApiClient.Settings
import ApiClient.Template.Variable
import ApiClient.Types.Error

/-!
# Failures of a run

A failure is a cause and a trail: the places in the document that were being worked on, the
innermost first. Only causes that lie in the document or in a template leave a trail.
-/

namespace ApiClient

/-- Why a run fails. -/
inductive Cause where
  | template (e : Template.Error)
  | document (e : Document.Error)
  | pointer (e : Pointer.Error)
  | typing (e : Types.Error)
  /-- A page has no template in the directory given. -/
  | pageMissing (name : String) (dir : Path)
  | settings (e : Settings.Refusal)
  /-- No dialect has this name. -/
  | unknownDialect (name : String)
  /-- A type of this name is there already. -/
  | typeTaken (name : String)
  /-- A page has a placeholder without a value. -/
  | unknownPlaceholder (name : String)
  /-- A value that is not checked and does not fit. -/
  | misfit (e : Json.Misfit)

namespace Cause

/-- The cause of an error of a template: that of the value, if a value did not fit. -/
def ofTemplate : Template.Error → Cause
  | .format e => misfit e
  | e => template e

/-- The cause of an error of a document: that of the value, if a value did not fit. -/
def ofDocument : Document.Error → Cause
  | .misfit e => misfit e
  | e => document e

/-- The cause of a refusal of settings: that of the value, if a value did not fit. -/
def ofSettings : Settings.Refusal → Cause
  | .misfit e => misfit e
  | e => settings e

/-- The text of a cause. Causes that nothing foresees have none. -/
def message : Cause → String
  | template e => e.message
  | document e => e.message
  | pointer e => e.message
  | typing e => e.message
  | pageMissing name dir => String.join ["Project template '", name, "' not found in ", dir.text]
  | settings e => e.message
  | unknownDialect name =>
    String.join [
      "Unknown dialect '", name, "', expected one of: ",
      Text.join ", " (Dialect.all.map Dialect.name)]
  | typeTaken name => String.join ["Type '", name, "' is already registered"]
  | unknownPlaceholder _ | misfit _ => ""

/-- Whether a cause lies in the document or in a template. -/
def hasPlace : Cause → Bool
  | template _ | document _ | pointer _ | typing _ | pageMissing _ _ => true
  | settings _ | unknownDialect _ | typeTaken _ | unknownPlaceholder _ | misfit _ => false

/-- Whether a run foresees the cause and reports it. -/
def isForeseen : Cause → Bool
  | unknownPlaceholder _ | misfit _ => false
  | _ => true

end Cause

/-- The dialect that a value names. Arrays and objects cannot be looked up. -/
def Dialect.find (name : Json) : Except Cause Dialect :=
  match Dialect.ofName? name.display with
  | some d => .ok d
  | none => .error (if name.isKey then .unknownDialect name.display else .misfit .kind)

/-- A failure: its cause, and the places it was met in, the innermost first. -/
structure Failure where
  cause : Cause
  trail : List String := []

namespace Failure

/-- Notes that a failure was met in a place. -/
def within (place : String) (f : Failure) : Failure :=
  if f.cause.hasPlace then { f with trail := f.trail ++ [place] } else f

/-- The text of a failure, with its trail. -/
def message (f : Failure) : String :=
  if f.trail = [] then f.cause.message
  else String.join [f.cause.message, " (while generating ", Text.join " <- " f.trail, ")"]

end Failure

end ApiClient
