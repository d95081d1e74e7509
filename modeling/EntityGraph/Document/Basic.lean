import EntityGraph.Error
import EntityGraph.Value

/-!
Documents: operations and the fragments that they share. Type conditions and the types of
variables have no effect on what a document asks for, and are not kept.
-/

namespace EntityGraph

inductive Literal where
  | reference (variableName : String)
  | null
  | boolean (b : Bool)
  | number (n : Number)
  | string (s : String)
  | enum (name : String)
  | list (items : List Literal)
  | object (fields : List (String × Literal))

namespace Literal

mutual

def resolve (assign : String → Value) : Literal → Value
  | .reference name => assign name
  | .null => .null
  | .boolean b => .boolean b
  | .number n => .number n
  | .string s => .string s
  | .enum name => .enum name
  | .list items => .list (resolveItems assign items)
  | .object fields => .object (resolveFields assign fields)

def resolveItems (assign : String → Value) : List Literal → List Value
  | [] => []
  | item :: rest => resolve assign item :: resolveItems assign rest

def resolveFields (assign : String → Value) : List (String × Literal) → Arguments
  | [] => []
  | (key, value) :: rest => (key, resolve assign value) :: resolveFields assign rest

end

end Literal

structure Directive where
  name : String
  arguments : List (String × Literal)

/-- A selection: a field with its own selections, a fragment by name, or selections in place. -/
inductive Selection where
  | field (name : String) (label : Option String) (arguments : List (String × Literal))
      (directives : List Directive) (selections : List Selection)
  | spread (fragment : String) (directives : List Directive)
  | inline (directives : List Directive) (selections : List Selection)

structure Fragment where
  name : String
  selections : List Selection

inductive OperationType where
  | query
  | mutation
  | subscription
  deriving DecidableEq, Repr

structure Operation where
  type : OperationType
  name : Option String
  defaults : List (String × Value)
  selections : List Selection

structure Document where
  operations : List Operation
  fragments : List Fragment

namespace Document

def fragment? (d : Document) (name : String) : Option Fragment :=
  d.fragments.find? fun f => f.name == name

/-- A document is a single operation without a name, or operations with names of their own, and
its fragments have names of their own. -/
def wellFormed (d : Document) : Bool :=
  let names := d.operations.map Operation.name
  (names == [none] || (!names.isEmpty && names.all Option.isSome && names.Nodup)) &&
    (d.fragments.map Fragment.name).Nodup

/-- The operation to run: the only one, or the one of a name. An operation without a name runs
under any. -/
def select (d : Document) (name : Option String) : Except Error Operation :=
  match d.operations, name with
  | [⟨type, none, defaults, selections⟩], _ => .ok ⟨type, none, defaults, selections⟩
  | operations, some name =>
    match operations.find? fun op => op.name == some name with
    | some op => .ok op
    | none => .error (.unsupportedOperation s!"unknown operation '{name}'")
  | [op], none => .ok op
  | _, none => .error (.unsupportedOperation
      "an operation name is required when the document has several operations")

end Document

end EntityGraph
