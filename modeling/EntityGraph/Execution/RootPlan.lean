import EntityGraph.Input
import EntityGraph.Request.Planning
import EntityGraph.Schema.Roots

namespace EntityGraph

inductive RootStep where
  | byId (id : String)
  | byKey (field key : String)
  | ambiguous (first second : String)
  | search (filter : List FilterGroup) (page : Page)
  | create (fields : Members)

structure RootPlan where
  field : RootField
  arguments : Arguments
  step : RootStep
  request : Request

inductive PlannedItem where
  | typename
  | field (plan : RootPlan)

def PlannedItem.name : PlannedItem → String
  | .typename => typenameField
  | .field plan => plan.field.name

namespace RootPlan

/-- An argument that is given; null stands for none. -/
def given? (arguments : Arguments) (name : String) : Option Value :=
  (arguments.lookup name).filter fun value => !value.isNull

def readId (field : String) : Value → Except Error String
  | .string s => .ok s
  | .number (.integer n) => .ok (toString n)
  | _ => .error (.invalidArgument field "id" "expected an ID")

def readKey (field key : String) : Value → Except Error String
  | .string s => .ok s
  | _ => .error (.invalidArgument field key "expected a String")

def readGiven {α : Type} (read : Value → Except Error α) : Option Value → Except Error (Option α)
  | some value => (read value).map some
  | none => .ok none

def readKeyed (field : String) (arguments : Arguments) :
    Option String → Except Error (Option (String × String))
  | some key =>
    (readGiven (readKey field key) (given? arguments key)).map (Option.map (Prod.mk key))
  | none => .ok none

/-- The step of a look-up: by id or by key. Giving both is a failure that waits until the step is
taken. -/
def lookupStep (field : String) (arguments : Arguments) (key : Option String) :
    Except Error RootStep := do
  let id ← readGiven (readId field) (given? arguments "id")
  let byKey ← readKeyed field arguments key
  match id, byKey, key with
  | some _, some (key, _), _ => .ok (.ambiguous "id" key)
  | some id, none, _ => .ok (.byId id)
  | none, some (key, text), _ => .ok (.byKey key text)
  | none, none, some key => .error (.missingArgument field s!"'id' or '{key}'")
  | none, none, none => .error (.missingArgument field "'id'")

def readPage (field : String) (arguments : Arguments) (pages : PageDefaults) :
    Except Error Page := do
  let start ← Planning.intArgument field "start" ((arguments.lookup "start").getD .null)
  let limit ← Planning.intArgument field "limit" ((arguments.lookup "limit").getD .null)
  (Page.ofArguments start limit pages).mapError fun fault =>
    .invalidArgument field "start/limit" fault.message

def searchStep (c : Catalog) (f : RootField) (arguments : Arguments) (pages : PageDefaults) :
    Except Error RootStep := do
  let e ← (c.require f.entity).mapError .schema
  let filter ← Filter.compile c e ((arguments.lookup "filter").getD .null)
  return .search filter (← readPage f.name arguments pages)

def createStep (c : Catalog) (f : RootField) (arguments : Arguments) (argument : String) :
    Tracked Error RootStep := do
  match given? arguments argument with
  | none => Tracked.fail (.missingArgument f.name s!"'{argument}'")
  | some value =>
    let e ← (Schema.inputType c f.entity).mapError .schema
    return .create (← Input.validate c f.name e argument value)

def stepOf (c : Catalog) (f : RootField) (arguments : Arguments) (pages : PageDefaults) :
    Tracked Error RootStep :=
  match f.action with
  | .lookup key => Tracked.lift (lookupStep f.name arguments key)
  | .search => Tracked.lift (searchStep c f arguments pages)
  | .create argument => createStep c f arguments argument

def checkArguments (f : RootField) (arguments : Arguments) (pages : PageDefaults) :
    Except Error Unit :=
  match arguments.find? fun a => (f.parameters pages).all fun p => p.name != a.1 with
  | some (unknown, _) => .error (.invalidArgument f.name unknown "unknown argument")
  | none => .ok ()

end RootPlan

namespace PlannedItem

def ofItem (c : Catalog) (roots : RootFields) (pages : PageDefaults) (kind : RootKind) :
    Item → Tracked Error PlannedItem
  | ⟨⟨name, label, arguments, _⟩, inner⟩ => do
    Tracked.lift (Planning.rejectLabel name label)
    -- The type's own name needs no field that is registered.
    if name = typenameField then return .typename
    let f ← Tracked.lift ((roots.get kind name).mapError .schema)
    Tracked.lift (RootPlan.checkArguments f arguments pages)
    let step ← RootPlan.stepOf c f arguments pages
    let request ← Tracked.lift (Planning.plan c f.returnType.text (inner ()))
    return .field ⟨f, arguments, step, request⟩

/-- Two plans of one root field as one: the arguments must agree, and what is asked of the records
is merged. -/
def combine (kind : RootKind) : PlannedItem → PlannedItem → Except Error PlannedItem
  | .field existing, .field next =>
    if existing.arguments.same next.arguments then
      ((existing.request.merge next.request).mapError .schema).map fun request =>
        .field { existing with request }
    else .error (.schema (.conflictingArguments kind.typeName next.field.name))
  | existing, _ => .ok existing

def addTo (kind : RootKind) (next : PlannedItem) : List PlannedItem → Except Error (List PlannedItem)
  | [] => .ok [next]
  | existing :: rest =>
    if existing.name = next.name then (combine kind existing next).map (· :: rest)
    else (addTo kind next rest).map (existing :: ·)

def planAll (c : Catalog) (roots : RootFields) (pages : PageDefaults) (kind : RootKind)
    (items : List Item) : Tracked Error (List PlannedItem) :=
  items.foldlM
    (fun planned item => do
      let next ← ofItem c roots pages kind item
      Tracked.lift (next.addTo kind planned))
    []

end PlannedItem

end EntityGraph
