/-!
# The journal of a run

What a run reports while it works: entries in order, each with a level and the part of the program
it comes from.
-/

namespace ApiClient

/-- How much an entry matters. -/
inductive Level where
  | debug | info | warning
  deriving DecidableEq, Repr

/-- The word for a level. -/
def Level.word : Level → String
  | debug => "DEBUG"
  | info => "INFO"
  | warning => "WARNING"

/-- Whether a level is written when only warnings are asked for. -/
def Level.isWarning : Level → Bool
  | warning => true
  | _ => false

/-- The parts of the program that report. -/
inductive Reporter where
  | reading | pointers | types | client
  deriving DecidableEq, Repr

/-- The name of a part in the output. -/
def Reporter.name : Reporter → String
  | reading => "oas_client_generator.parser.oas_parser"
  | pointers => "oas_client_generator.parser.references"
  | types => "oas_client_generator.generator.type_resolver"
  | client => "oas_client_generator.generator.emitter"

/-- An entry of a journal. -/
structure Entry where
  level : Level
  reporter : Reporter
  message : String
  deriving DecidableEq, Repr

/-- An entry as a line. -/
def Entry.line (e : Entry) : String :=
  e.level.word ++ " " ++ e.reporter.name ++ ": " ++ e.message ++ "\n"

/-- Entries in the order in which they were made. -/
abbrev Journal := List Entry

/-- The messages of the warnings. -/
def Journal.warnings (j : Journal) : List String :=
  (j.filter (·.level.isWarning)).map Entry.message

end ApiClient
