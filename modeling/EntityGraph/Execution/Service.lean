import EntityGraph.Document.Reader
import EntityGraph.Execution.Rendering
import EntityGraph.Execution.Response
import EntityGraph.Execution.RootPlan
import EntityGraph.Execution.Source
import EntityGraph.Schema.Introspection
import EntityGraph.Schema.Printer

/-!
Execution of operations. An operation is planned as a whole before anything is fetched, and a
failure of its plan is the whole response. Then its root fields are resolved one after another; a
failure there makes the field null, or all data where the field can not be null. An operation
that asks about the schema itself is answered from its definitions and asks for nothing else.
-/

namespace EntityGraph

structure OperationRequest where
  text : String
  operation : Option String
  values : Arguments

structure Service where
  catalog : Catalog
  roots : RootFields
  pages : PageDefaults

structure Execution (σ : Type) where
  response : Response
  state : σ
  uses : List TypeUse

namespace Service

def sdl (service : Service) : Tracked SchemaError String :=
  Schema.print service.catalog service.roots service.pages

def directory (service : Service) : Tracked SchemaError Directory :=
  Schema.directory service.catalog service.roots service.pages

def rootOf : OperationType → Except Error RootKind
  | .query => .ok .query
  | .mutation => .ok .mutation
  | .subscription => .error (.unsupportedOperation "subscriptions are not supported")

def introspectionFields : List String := ["__schema", "__type"]

/-- The items ask about the schema. They may not ask for records too. -/
def asksForSchema (items : List Item) : Except Error Bool :=
  let names := items.map fun item => item.head.name
  if !(names.any introspectionFields.contains) then .ok false
  else if names.all fun name => name == typenameField || introspectionFields.contains name then
    .ok true
  else .error (.unsupportedOperation
    "introspection fields can not be combined with entity fields")

/-- An operation as it is run: what it asks for at its root, be it of the records or of the
schema. What is wrong with questions about the schema counts once they are answered. -/
inductive Prepared where
  | records (kind : RootKind) (items : List Item)
  | schema (kind : RootKind) (asked : Except Error (List Item))

/-- An operation without a name can not be asked for by one where it asks about the schema. -/
def checkName (request : OperationRequest) (operation : Operation) : Except Error Unit :=
  match operation.name, request.operation with
  | none, some name => .error (.unnamedOperation name)
  | _, _ => .ok ()

/-- Read and select an operation, fill in variables, and expand its root. A variable that is not
given has its default. -/
def prepare (request : OperationRequest) : Except Error Prepared := do
  let document ← Document.read request.text
  let operation ← document.select request.operation
  let kind ← rootOf operation.type
  let asked := fun r : Reading => (r.expandRoot document operation.selections).items
  let items ← asked (.ofValues (request.values ++ operation.defaults))
  if ← asksForSchema items then
    return .schema kind do
      checkName request operation
      asked (.ofGiven request.values operation.defaults)
  else return .records kind items

def introspect (service : Service) (kind : RootKind) (asked : Except Error (List Item)) :
    Tracked Error Members := do
  let directory ← service.directory.mapError .schema
  Tracked.lift (do directory.answer kind (← asked))

section Resolution

variable [RegexLibrary] {σ : Type} (service : Service) (source : RecordSource σ)

def resolve (state : σ) (plan : RootPlan) : Tracked Error Json × σ :=
  let c := service.catalog
  let entity := plan.field.entity
  match plan.step with
  | .byId id => (do
      let r ← Tracked.lift ((source.fetchById state entity id).mapError .dataSource)
      Rendering.renderOptional c plan.request r, state)
  | .byKey field key => (do
      let r ← Tracked.lift ((source.fetchByKey state entity field key).mapError .dataSource)
      Rendering.renderOptional c plan.request r, state)
  | .ambiguous first second =>
    (Tracked.fail (.resolutionAmbiguity plan.field.name first second), state)
  | .search filter page => (do
      let records ← Tracked.lift
        ((source.search state entity filter page).mapError .dataSource)
      return .array (← records.mapM (Rendering.render c plan.request)), state)
  | .create fields =>
    -- The record is there from now on, whatever its rendering comes to.
    let (created, after) := source.create state entity fields
    (do
      let r ← Tracked.lift (created.mapError .dataSource)
      Rendering.render c plan.request r, after)

/-- What has been resolved so far. `refused` says that a field failed that can not be null. -/
structure Resolution (σ : Type) where
  members : Members
  errors : List ResponseError
  refused : Bool
  state : σ
  uses : List TypeUse

def Resolution.start (state : σ) : Resolution σ := ⟨[], [], false, state, []⟩

def Resolution.step (kind : RootKind) (done : Resolution σ) : PlannedItem → Resolution σ
  | .typename =>
    { done with members := done.members ++ [(typenameField, .string kind.typeName)] }
  | .field plan =>
    let (result, state) := service.resolve source done.state plan
    let name := plan.field.name
    match result.outcome with
    | .ok value =>
      { done with members := done.members ++ [(name, value)], state
                  uses := done.uses ++ result.uses }
    | .error e =>
      { members := done.members ++ [(name, .null)]
        errors := done.errors ++ [⟨e, some name⟩]
        -- A field that must not be null takes all data with it.
        refused := done.refused || plan.field.returnType.nonNull
        state, uses := done.uses ++ result.uses }

def Resolution.response (done : Resolution σ) : Response :=
  ⟨if done.refused then .null else .object done.members, done.errors⟩

def resolveAll (kind : RootKind) (state : σ) (planned : List PlannedItem) : Resolution σ :=
  planned.foldl (Resolution.step service source kind) (.start state)

def run (state : σ) : Prepared → Execution σ
  | .schema kind asked =>
    let answer := service.introspect kind asked
    match answer.outcome with
    | .ok members => ⟨.ofMembers members, state, answer.uses⟩
    | .error e => ⟨.failed e, state, answer.uses⟩
  | .records kind items =>
    let plan := PlannedItem.planAll service.catalog service.roots service.pages kind items
    match plan.outcome with
    | .ok planned =>
      let done := service.resolveAll source kind state planned
      ⟨done.response, done.state, plan.uses ++ done.uses⟩
    | .error e => ⟨.failed e, state, plan.uses⟩

def execute (state : σ) (request : OperationRequest) : Execution σ :=
  match prepare request with
  | .ok operation => service.run source state operation
  | .error e => ⟨.failed e, state, []⟩

end Resolution

end Service

end EntityGraph
