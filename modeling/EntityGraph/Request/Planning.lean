import EntityGraph.Document.Expansion
import EntityGraph.Filter.Compile
import EntityGraph.Request.Basic
import EntityGraph.TypeString

namespace EntityGraph

def typenameField : String := "__typename"

namespace Planning

def rejectLabel (name : String) : Option String → Except Error Unit
  | none => .ok ()
  | some label => .error (.unsupportedOperation
      s!"field aliases are not supported ('{label}: {name}')")

/-- An integer argument; null stands for none. -/
def intArgument (field argument : String) (value : Value) : Except Error (Option Int) :=
  match value with
  | .null => .ok none
  | .number n => match n.int64? with
    | some i => .ok (some i)
    | none => .error (.invalidArgument field argument "expected an Int")
  | _ => .error (.invalidArgument field argument "expected an Int")

structure Scope where
  start : Option Int
  limit : Option Int
  filter : Value

/-- Take an argument into account. Window arguments of an attribute that does not repeat are of no
effect; a filter needs an attribute that repeats or refers to an entity. -/
def readArgument (a : Attribute) (s : Scope) (argument : String × Value) : Except Error Scope :=
  let (name, value) := argument
  if name = "start" ∨ name = "limit" then
    if !a.repeating then .ok s
    else (intArgument a.name name value).map fun n =>
      if name = "start" then { s with start := n } else { s with limit := n }
  else if name = "filter" ∧ (a.repeating || !a.isScalar) then .ok { s with filter := value }
  else .error (.invalidArgument a.name name "unknown argument")

def readArguments (a : Attribute) (arguments : Arguments) : Except Error Scope :=
  arguments.foldlM (readArgument a) ⟨none, none, .null⟩

def readWindow (a : Attribute) (s : Scope) : Except Error (Option Window) :=
  (Window.ofArguments s.start s.limit).mapError fun fault =>
    .invalidArgument a.name "start/limit" fault.message

def planScalar (entity : Entity) (a : Attribute) (kind : ScalarKind) (window : Option Window)
    (filter : Value) (selected : Bool) : Except Error AttributeRequest := do
  if selected then throw (.schema (.scalarSelection entity.name a.name))
  let filter ← (Filter.compileScalar kind filter).mapError .filter
  return .make a window filter none

/-- The attribute that a field asks for, where `planInner` plans what its own selections ask of the
entity that it refers to. -/
def planAttribute (c : Catalog) (entity : Entity) (f : AskedField)
    (planInner : Entity → Except Error Request) : Except Error AttributeRequest := do
  let a ← (entity.requireAttribute f.name).mapError .schema
  let scope ← readArguments a f.arguments
  let window ← readWindow a scope
  match a.scalarKind? with
  | some kind => planScalar entity a kind window scope.filter f.selected
  | none =>
    let target ← (c.require a.typeName).mapError .schema
    let filter ← Filter.compile c target scope.filter
    let nested ← if f.selected then (planInner target).map some else .ok none
    return .make a window filter nested

def planAll (c : Catalog) (request : Request) : Expansion → Except Error Request
  | .done => .ok request
  | .fault e => .error e
  | .field head inner rest => do
    rejectLabel head.name head.label
    if head.name = typenameField then planAll c (request.withTypename true) (rest ())
    else do
      let asked ← planAttribute c request.entity head fun target =>
        planAll c (Request.new target) (inner ())
      -- An attribute that is there already takes in what is asked for now.
      let request ← (request.add asked).mapError .schema
      planAll c request (rest ())

def plan (c : Catalog) (returnType : String) (asked : Expansion) : Except Error Request := do
  let type ← (TypeString.parse returnType).mapError .schema
  let entity ← (c.require type.name).mapError .schema
  planAll c (Request.new entity) asked

end Planning

end EntityGraph
