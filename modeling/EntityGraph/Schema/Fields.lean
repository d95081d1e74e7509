import EntityGraph.Schema.Tracked

namespace EntityGraph.Schema

def parameter (name : String) (type : TypeString) : Parameter := ⟨name, type, none⟩

def intParameter (name : String) (default : Option Nat) : Parameter :=
  ⟨name, .named "Int", default.map toString⟩

def objectType (c : Catalog) (name : String) : Tracked SchemaError Entity := do
  let e ← Tracked.lift (c.require name)
  Tracked.note (.object name)
  return e

def inputType (c : Catalog) (name : String) : Tracked SchemaError Entity := do
  let e ← Tracked.lift (c.require name)
  Tracked.note (.input name)
  return e

def filterType (c : Catalog) (name : String) : Tracked SchemaError Entity := do
  let e ← Tracked.lift (c.require name)
  Tracked.note (.filter name)
  return e

def outputTarget (c : Catalog) (a : Attribute) : Tracked SchemaError (OutputTarget × String) :=
  match a.scalarKind? with
  | some kind => pure (.scalar kind, kind.filterName)
  | none => do
    let e ← objectType c a.typeName
    let filter ← filterType c a.typeName
    return (.object e, filter.filterName)

/-- The arguments of an attribute's field: a window on what repeats, and a filter on what repeats
or refers to an entity. -/
def outputParameters (a : Attribute) (filterName : String) : List Parameter :=
  (if a.repeating then [intParameter "start" (some 0), intParameter "limit" none] else []) ++
    (if a.repeating || !a.isScalar then [parameter "filter" (.named filterName)] else [])

def outputField (c : Catalog) (a : Attribute) : Tracked SchemaError OutputField := do
  let (target, filterName) ← outputTarget c a
  return ⟨a, .ofAttribute a, target, outputParameters a filterName⟩

def objectFields (c : Catalog) (e : Entity) : Tracked SchemaError (List OutputField) := do
  let fields ← e.attributes.mapM (outputField c)
  Tracked.note (.objectFields e.name fields)
  return fields

def fieldNamed (e : Entity) (fields : List OutputField) (name : String) :
    Except SchemaError OutputField :=
  match fields.find? fun f => f.name == name with
  | some f => .ok f
  | none => .error (.unknownAttribute e.name name)

def objectField (c : Catalog) (e : Entity) (name : String) : Tracked SchemaError OutputField := do
  let fields ← objectFields c e
  Tracked.lift (fieldNamed e fields name)

def isSettable (a : Attribute) : Bool := !(a.scalarKind? == some .id || a.isComputed)

def inputTarget (c : Catalog) (a : Attribute) : Tracked SchemaError (InputTarget × String) :=
  match a.scalarKind? with
  | some kind => pure (.scalar kind, kind.name)
  | none => do
    let e ← inputType c a.typeName
    return (.object e, e.inputName)

/-- The type of an attribute's input field. A list may be left out. -/
def inputTypeString (a : Attribute) (name : String) : TypeString :=
  if a.repeating then .listOf name
  else if a.nullable then .named name
  else (TypeString.named name).required

def inputField (c : Catalog) (a : Attribute) : Tracked SchemaError InputField := do
  let (target, name) ← inputTarget c a
  return ⟨a, inputTypeString a name, target⟩

def inputFields (c : Catalog) (e : Entity) : Tracked SchemaError (List InputField) := do
  let fields ← (e.attributes.filter isSettable).mapM (inputField c)
  if fields.isEmpty then Tracked.fail (.noInputFields e.name)
  else
    Tracked.note (.inputFields e.name fields)
    return fields

def filterTarget (c : Catalog) (a : Attribute) : Tracked SchemaError FilterTarget :=
  match a.scalarKind? with
  | some kind => pure (.scalar kind)
  | none => do return .entity (← filterType c a.typeName)

def filterField (c : Catalog) (a : Attribute) : Tracked SchemaError FilterField := do
  return ⟨a, ← filterTarget c a⟩

def filterFields (c : Catalog) (e : Entity) : Tracked SchemaError (List FilterField) := do
  let fields ← e.attributes.mapM (filterField c)
  Tracked.note (.filterFields e.name fields)
  return fields

/-- Compile the output and filter types of every entity. Input types wait until they are asked
for, because not every entity can be set. -/
def compileAll (c : Catalog) : Tracked SchemaError Unit :=
  c.names.forM fun name => do
    let e ← objectType c name
    let _ ← objectFields c e
    let e ← filterType c name
    let _ ← filterFields c e

end EntityGraph.Schema
