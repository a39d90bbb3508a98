import ApiClient.Template.Variable

/-!
# Templates

A template is made once from its source (`Template.ofSource`) and filled in any number of times
(`Template.build`). The branches of its conditionals are templates themselves, indented by the
column they stand in.

Building looks every variable up, substitutes the formatted values and the branches whose
condition holds, and takes lines away: where a whole-line conditional fails, or a value is absent
that takes its line along, `dropMarker` is written, and in the end every line that holds the
marker goes. Last, every line after the first is indented.
-/

namespace ApiClient

/-- A piece of a template, with branches of type `β`. -/
inductive Template.Part (β : Type) where
  | text (text : String)
  | slot (name : String)
  | branch (name : String) (wholeLine : Bool) (body : β)

/-- A template: its pieces, the variables of its top level in the order of their first use, and
the blanks in front of every line after the first. -/
structure Template where
  parts : List (Template.Part Template)
  inputs : List Template.Variable
  indent : Int

namespace Template

/-! ## Making a template -/

/-- The declaration of `name`: the last one given, or that of a plain text. -/
def declared (declarations : List Declaration) (name : String) : Declaration :=
  (declarations.reverse.find? (·.name = name)).getD { name }

/-- Notes a use of `name` in the form `form` after the variables `known`. -/
def register (declarations : List Declaration) (known : List Variable) (name : String)
    (form : Form) : Except Error (List Variable) :=
  match known.find? (·.name = name) with
  | some v => if v.form = form then .ok known else .error (.mixedForms name v.form form)
  | none =>
    let d := declared declarations name
    match form, d.type with
    | .plain, _ | _, none | _, some (.one .bool) => .ok (known ++ [{ d with form }])
    | _, some type => .error (.conditionType name type)

/-- The form of a conditional. -/
def conditionForm (wholeLine : Bool) : Form :=
  if wholeLine then .wholeLine else .conditional

/-- Makes the pieces of `nodes` from the left, given the way to make a branch, and notes their
variables after the variables `known`. -/
def assemble (declarations : List Declaration) (known : List Variable) :
    (nodes : List Node) →
    (branch : ∀ name body w p, Node.conditional name body w p ∈ nodes → Except Error Template) →
    Except Error (List (Part Template) × List Variable)
  | [], _ => .ok ([], known)
  | .text text :: rest, branch => do
    let (parts, known) ← assemble declarations known rest
      fun n b w p h => branch n b w p (List.mem_cons_of_mem _ h)
    return (.text text :: parts, known)
  | .placeholder name _ :: rest, branch => do
    let known ← register declarations known name .plain
    let (parts, known) ← assemble declarations known rest
      fun n b w p h => branch n b w p (List.mem_cons_of_mem _ h)
    return (.slot name :: parts, known)
  | .conditional name body wholeLine p :: rest, branch => do
    let body ← branch name body wholeLine p List.mem_cons_self
    let known ← register declarations known name (conditionForm wholeLine)
    let (parts, known) ← assemble declarations known rest
      fun n b w p h => branch n b w p (List.mem_cons_of_mem _ h)
    return (.branch name wholeLine body :: parts, known)

/-- The template of a source text. -/
def ofSource (declarations : List Declaration) (source : String) (indent : Int) :
    Except Error Template :=
  match h : scan source with
  | .error e => .error (.malformed e)
  | .ok nodes => do
    let (parts, inputs) ← assemble declarations [] nodes fun _ body _ p hm =>
      have : body.length < source.length := length_body_lt h hm
      ofSource declarations body p.column
    return { parts, inputs, indent }
  termination_by source.length

/-! ## Building -/

/-- What marks a line that is to go. -/
def dropMarker : List Char :=
  Char.ofNat 0 :: "drop-line".toList ++ [Char.ofNat 0]

/-- Puts `indent` blanks in front of every line that is not blank. -/
def indentRest (indent : Nat) (lines : List (List Char)) : List (List Char) :=
  lines.map fun line => if line.all Text.isBlank then line else List.replicate indent ' ' ++ line

/-- Puts `indent` blanks in front of every line after the first that is not blank. -/
def indentLines (indent : Nat) : List (List Char) → List (List Char)
  | [] => []
  | first :: rest => first :: indentRest indent rest

/-- The lines as one text. -/
def joinLines : List (List Char) → List Char
  | [] => []
  | [line] => line
  | line :: rest => line ++ '\n' :: joinLines rest

/-- The text without its marked lines, indented. -/
def finish (indent : Int) (text : List Char) : List Char :=
  let kept := (Text.splitOnChar '\n' text).filter fun line => !Text.occursIn dropMarker line
  joinLines (indentLines indent.toNat kept)

/-- The values of the variables, absent ones as nothing. -/
def resolve (values : Table Json) : List Variable → Except Error (List (Variable × Option Json))
  | [] => .ok []
  | v :: rest => do
    let value ← v.lookup values
    let more ← resolve values rest
    return (v, value) :: more

/-- The text of a plain placeholder. -/
def formatted (found : List (Variable × Option Json)) (name : String) :
    Except Error (List Char) :=
  match found.find? (·.1.name = name) with
  | none => .ok []
  | some (v, none) => .ok (if v.wholeLine then dropMarker else [])
  | some (v, some value) =>
    match v.format value with
    | .ok text => .ok text.toList
    | .error misfit => .error (.format misfit)

/-- Whether the condition `name` holds. -/
def holds (found : List (Variable × Option Json)) (name : String) : Bool :=
  match found.find? (·.1.name = name) with
  | some (_, some (.bool b)) => b
  | _ => false

mutual

/-- Fills a template in, with `indent` in the place of its own if it is given. -/
def fill (values : Table Json) (indent : Option Int) : Template → Except Error (List Char)
  | { parts, inputs, indent := own } => do
    let found ← resolve values inputs
    let text ← fillParts values found parts
    return finish (indent.getD own) text

/-- The text of the pieces of a template. -/
def fillParts (values : Table Json) (found : List (Variable × Option Json)) :
    List (Part Template) → Except Error (List Char)
  | [] => .ok []
  | part :: rest => do
    let text ← fillPart values found part
    let more ← fillParts values found rest
    return text ++ more

/-- The text of one piece of a template. -/
def fillPart (values : Table Json) (found : List (Variable × Option Json)) :
    Part Template → Except Error (List Char)
  | .text text => .ok text.toList
  | .slot name => formatted found name
  | .branch name wholeLine body =>
    if holds found name then fill values none body
    else .ok (if wholeLine then dropMarker else [])

end

/-- The text of a template for some values. Names it does not use are passed over. -/
def build (t : Template) (values : Table Json) (indent : Option Int := none) :
    Except Error String :=
  (t.fill values indent).map String.ofList

/-- A template in a line: the names of its variables, and its indent. -/
def outline (t : Template) : String :=
  String.join [
    "Template(variables=", (Json.arr (t.inputs.map fun v => .str v.name)).spelling, ", indent=",
    toString t.indent, ")"]

end Template

end ApiClient
