import EntityGraph.Schema.Definition

/-!
A schema that can be served: its types by name, checked for being complete and well formed. No
type has the name of a scalar, every type that is named exists, the roots and all other objects
have fields of proper kinds, and no input type requires a value of itself.
-/

namespace EntityGraph

namespace Shape

def isOutput : Shape → Bool
  | .input _ => false
  | _ => true

def isInput : Shape → Bool
  | .object _ => false
  | _ => true

def isObject : Shape → Bool
  | .object _ => true
  | _ => false

def keyedField (f : FieldDefinition) : FieldDefinition :=
  { f with parameters := Keyed.ofList InputDefinition.name f.parameters }

/-- The same shape with each field once; a later field takes the place of an earlier one. -/
def keyed : Shape → Shape
  | .object fields => .object (Keyed.ofList FieldDefinition.name (fields.map keyedField))
  | .input fields => .input (Keyed.ofList InputDefinition.name fields)
  | other => other

def references : Shape → List String
  | .object fields => fields.flatMap fun f =>
      f.type.typeName :: f.parameters.map fun p => p.type.typeName
  | .input fields => fields.map fun f => f.type.typeName
  | _ => []

def requirements : Shape → List String
  | .input fields => fields.filterMap fun f => f.type.requiredName?
  | _ => []

end Shape

structure Directory where
  definitions : List Definition
  hasMutations : Bool

namespace Directory

/-- What a scalar stands for. Ids need no description. -/
def scalarDescription : ScalarKind → String
  | .int => "The `Int` scalar type represents non-fractional whole numeric values."
  | .float => "The `Float` scalar type represents signed double-precision fractional values as " ++
      "specified by [IEEE 754](https:" ++ "//en.wikipedia.org/wiki/IEEE_floating_point)."
  | .string => "The `String` scalar type represents textual data, represented as UTF-8\n" ++
      "character sequences. The String type is most often used by GraphQL to\n" ++
      "represent free-form human-readable text."
  | .boolean => "The `Boolean` scalar type represents `true` or `false`."
  | .id => ""

def scalarDefinition (kind : ScalarKind) : Definition :=
  { name := kind.name, description := scalarDescription kind, shape := .scalar }

/-- A table of definitions; a later one takes the place of an earlier one. -/
def table (definitions : List Definition) : List Definition :=
  Keyed.ofList Definition.name
    (definitions.map fun d => { d with shape := d.shape.keyed })

def find? (d : Directory) (name : String) : Option Definition :=
  Keyed.find? Definition.name name d.definitions

def rootNames (d : Directory) : List String :=
  RootKind.query.typeName :: if d.hasMutations then [RootKind.mutation.typeName] else []

/-- Add to names, each once, the ones that follow from them, until none is new or `rounds` are
over. -/
def grow (next : String → List String) : Nat → List String → List String
  | 0, found => found
  | rounds + 1, found =>
    let more := (found ++ found.flatMap next).eraseDups
    if more.length = found.length then found else grow next rounds more

/-- The names that follow from some names in any number of steps, and these. There are no more
rounds with a new name than there are names. -/
def closure (d : Directory) (next : String → List String) (start : List String) : List String :=
  grow next (d.definitions.length + start.length) start.eraseDups

def fault (reason : String) : Except SchemaError Unit := .error (.introspection reason)

def checkNamed (d : Directory) (names : List String) : Except SchemaError Unit :=
  match names.find? fun name => (d.find? name).isNone with
  | some name => fault s!"Type \"{name}\" not found"
  | none => .ok ()

def checkReferences (d : Directory) : Except SchemaError Unit := do
  d.checkNamed d.rootNames
  d.definitions.forM fun definition => d.checkNamed definition.shape.references

def checkRoot (d : Directory) (name words : String) : Except SchemaError Unit :=
  match d.find? name with
  | some definition =>
    if definition.shape.isObject then .ok () else fault s!"The {words} root must be an object"
  | none => .ok ()

def checkRoots (d : Directory) : Except SchemaError Unit := do
  d.checkRoot RootKind.query.typeName "query"
  if d.hasMutations then d.checkRoot RootKind.mutation.typeName "mutation"

def checkName (words name : String) : Except SchemaError Unit :=
  if name.startsWith "__" then
    fault s!"{words} must not have a name which begins with the characters \"__\" (two underscores)"
  else .ok ()

def checkKind (d : Directory) (isProper : Shape → Bool) (words : String) (type : TypeRef) :
    Except SchemaError Unit :=
  match d.find? type.typeName with
  | some definition => if isProper definition.shape then .ok () else fault words
  | none => .ok ()

def checkParameter (d : Directory) (place : String) (p : InputDefinition) :
    Except SchemaError Unit := do
  let words := s!"Argument \"{place}.{p.name}\""
  checkName words p.name
  d.checkKind Shape.isInput s!"{words} must accept a input type" p.type

def checkField (d : Directory) (owner : String) (f : FieldDefinition) :
    Except SchemaError Unit := do
  let place := s!"{owner}.{f.name}"
  checkName s!"Field \"{place}\"" f.name
  d.checkKind Shape.isOutput s!"Field \"{place}\" must return a output type" f.type
  f.parameters.forM (d.checkParameter place)

def checkObject (d : Directory) (definition : Definition) : Except SchemaError Unit :=
  match definition.shape with
  | .object [] => fault s!"Object \"{definition.name}\" must define one or more fields"
  | .object fields => fields.forM (d.checkField definition.name)
  | _ => .ok ()

def checkInputField (d : Directory) (owner : String) (f : InputDefinition) :
    Except SchemaError Unit := do
  let words := s!"Field \"{owner}.{f.name}\""
  checkName words f.name
  d.checkKind Shape.isInput s!"{words} must accept a input type" f.type

def required (d : Directory) (name : String) : List String :=
  match d.find? name with
  | some definition => definition.shape.requirements.filter fun target =>
      match d.find? target with
      | some ⟨_, _, .input _⟩ => true
      | _ => false
  | none => []

def requiresItself (d : Directory) (name : String) : Bool :=
  (d.closure d.required (d.required name)).contains name

def checkInput (d : Directory) (definition : Definition) : Except SchemaError Unit :=
  match definition.shape with
  | .input fields => do
    fields.forM (d.checkInputField definition.name)
    if d.requiresItself definition.name then
      fault <| s!"\"{definition.name}\" references itself either directly or through referenced " ++
        "Input Objects, at least one of the fields in the chain of references must be either a " ++
        "nullable or a List type."
  | _ => .ok ()

def check (d : Directory) : Except SchemaError Unit := do
  d.checkReferences
  d.checkRoots
  d.definitions.forM d.checkObject
  d.definitions.forM d.checkInput

def checkScalarNames (definitions : List Definition) : Except SchemaError Unit :=
  match definitions.find? fun d => (ScalarKind.ofName? d.name).isSome with
  | some d => fault s!"Type \"{d.name}\" already exists"
  | none => .ok ()

def ofDefinitions (definitions : List Definition) (hasMutations : Bool) :
    Except SchemaError Directory := do
  checkScalarNames definitions
  let d : Directory := ⟨table (definitions ++ ScalarKind.all.map scalarDefinition), hasMutations⟩
  d.check
  return d

end Directory

def Schema.directory (c : Catalog) (roots : RootFields) (pages : PageDefaults) :
    Tracked SchemaError Directory := do
  let definitions ← Schema.definitions c roots pages
  Tracked.lift (Directory.ofDefinitions definitions (!roots.mutation.isEmpty))

end EntityGraph
