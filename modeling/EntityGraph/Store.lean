import EntityGraph.Catalog.Basic
import EntityGraph.Filter.Match
import EntityGraph.Json.Reader
import EntityGraph.Paging

/-!
Records in memory. Each entity has a collection: its records in the order of their insertion, a
table of their ids and one of the values of a key attribute, both with the positions of the
records. An insertion checks and writes step after step, in place.
-/

namespace EntityGraph

/-- A change of a state that may fail; what it wrote before it failed stays written. -/
abbrev Change (σ α : Type) : Type := ExceptT SourceError (StateM σ) α

structure Collection where
  records : List Members
  byId : List (String × Nat)
  byKey : List (String × Nat)

namespace Collection

def empty : Collection := ⟨[], [], []⟩

def fetch? (collection : Collection) (table : List (String × Nat)) (text : String) :
    Option Members :=
  (table.lookup text).bind fun index => collection.records[index]?

/-- Add a record at the end, under its id and perhaps under a key; neither may be taken. -/
def insert (entity id : String) (key : Option String) (fields : Members) :
    Change Collection Unit := do
  let collection ← get
  let index := collection.records.length
  if (collection.byId.lookup id).isSome then throw (.duplicateId entity id)
  if let some key := key then
    if (collection.byKey.lookup key).isSome then throw (.duplicateKey entity key)
    modify fun c => { c with byKey := c.byKey ++ [(key, index)] }
  modify fun c => { c with byId := c.byId ++ [(id, index)] }
  modify fun c => { c with records := c.records ++ [fields] }

end Collection

abbrev KeyAttributes := List (String × String)

structure Store where
  collections : List (String × Collection)
  issued : Nat

/-- What a store goes by: the entities, their key attributes, and the ids that it gives out. -/
structure StoreRules where
  catalog : Catalog
  keys : KeyAttributes
  ids : Nat → String

namespace StoreRules

def isId (a : Attribute) : Bool := a.scalarKind? == some .id

def heldBy? (rules : StoreRules) (a : Attribute) : Option Entity :=
  if a.isScalar then none else rules.catalog.entity? a.typeName

def appendMissing (rules : StoreRules) (e : Entity) (issued : Nat) (fields : Members) :
    Members × Nat :=
  e.attributes.foldl
    (fun (fields, issued) a =>
      if isId a && (fields.lookup a.name).isNone then
        (fields ++ [(a.name, .string (rules.ids issued))], issued + 1)
      else (fields, issued))
    (fields, issued)

mutual

def fillFields (rules : StoreRules) (e : Entity) (issued : Nat) : Members → Members × Nat
  | [] => ([], issued)
  | (key, value) :: rest =>
    let (value, issued) := match e.attribute? key with
      | some a => fillValue rules a issued value
      | none => (value, issued)
    let (rest, issued) := fillFields rules e issued rest
    ((key, value) :: rest, issued)

/-- Give ids to what an attribute holds: to a null in an id attribute, and to the objects that an
entity attribute holds or lists. -/
def fillValue (rules : StoreRules) (a : Attribute) (issued : Nat) : Json → Json × Nat
  | .null => if isId a then (.string (rules.ids issued), issued + 1) else (.null, issued)
  | .object fields => match rules.heldBy? a with
    | some e =>
      let (fields, issued) := fillFields rules e issued fields
      let (fields, issued) := rules.appendMissing e issued fields
      (.object fields, issued)
    | none => (.object fields, issued)
  | .array items => match rules.heldBy? a with
    | some e =>
      let (items, issued) := fillItems rules e issued items
      (.array items, issued)
    | none => (.array items, issued)
  | other => (other, issued)

def fillItems (rules : StoreRules) (e : Entity) (issued : Nat) : List Json → List Json × Nat
  | [] => ([], issued)
  | item :: rest =>
    let (item, issued) := match item with
      | .object fields =>
        let (fields, issued) := fillFields rules e issued fields
        let (fields, issued) := rules.appendMissing e issued fields
        (.object fields, issued)
      -- Only objects have ids.
      | other => (other, issued)
    let (rest, issued) := fillItems rules e issued rest
    (item :: rest, issued)

end

/-- Give ids to a record of an entity and to the records inside it, where they have none. -/
def assignIds (rules : StoreRules) (e : Entity) (issued : Nat) (fields : Members) :
    Members × Nat :=
  let (fields, issued) := rules.fillFields e issued fields
  rules.appendMissing e issued fields

def keyOf? (rules : StoreRules) (entity : String) (r : Record) : Option String :=
  ((rules.keys.lookup entity).bind r.raw).bind Json.label?

end StoreRules

namespace Store

def empty : Store := ⟨[], 0⟩

def collection (s : Store) (entity : String) : Collection :=
  (s.collections.lookup entity).getD .empty

def within {α : Type} (entity : String) (change : Change Collection α) : Change Store α := fun s =>
  let (result, collection) := change (s.collection entity)
  (result, { s with collections := Keyed.insert Prod.fst (entity, collection) s.collections })

def append (rules : StoreRules) (entity : String) (fields : Members) : Change Store Unit := do
  let record := Record.document fields
  let some id := record.id? | throw (.unusableId entity)
  within entity (Collection.insert entity id (rules.keyOf? entity record) fields)

def put (rules : StoreRules) (entity : String) (fields : Members) : Change Store Members := do
  let e ← liftM ((rules.catalog.require entity).mapError SourceError.schema)
  let given := rules.assignIds e (← get).issued fields
  modify fun s => { s with issued := given.2 }
  append rules entity given.1
  return given.1

def insert (rules : StoreRules) (s : Store) (entity : String) (fields : Members) :
    Except SourceError (Members × Store) :=
  match put rules entity fields s with
  | (.ok fields, s) => .ok (fields, s)
  | (.error e, _) => .error e

structure Interrupted where
  error : SourceError
  store : Store

def loadRecords (rules : StoreRules) (entity : String) (s : Store) :
    List Json → Except Interrupted Store
  | [] => .ok s
  | .object fields :: rest => match put rules entity fields s with
    | (.ok _, s) => loadRecords rules entity s rest
    | (.error e, s) => .error ⟨e, s⟩
  | _ :: _ => .error ⟨.fixtureNotRecord entity, s⟩

/-- Put lists of records by entity into the store, up to the first that fails; the number of
records counts on. -/
def loadEntities (rules : StoreRules) (s : Store) (count : Nat) :
    Members → Except Interrupted (Nat × Store)
  | [] => .ok (count, s)
  | (entity, .array records) :: rest => match loadRecords rules entity s records with
    | .ok s => loadEntities rules s (count + records.length) rest
    | .error e => .error e
  | (entity, _) :: _ => .error ⟨.fixtureNotList entity, s⟩

/-- Put records by entity into the store; how many they are. -/
def load (rules : StoreRules) (s : Store) : Json → Except Interrupted (Nat × Store)
  | .object entities => loadEntities rules s 0 entities
  | _ => .error ⟨.fixtureNotObject, s⟩

def loadText (rules : StoreRules) (s : Store) (path text : String) :
    Except Interrupted (Nat × Store) :=
  match Json.read text with
  | some fixture => s.load rules fixture
  | none => .error ⟨.invalidFile path, s⟩

def size (s : Store) (entity : String) : Nat := (s.collection entity).records.length

def isEmpty (s : Store) : Bool := s.collections.all fun entry => entry.2.records.isEmpty

def fetchById (rules : StoreRules) (s : Store) (entity id : String) :
    Except SourceError (Option Members) := do
  let _ ← (rules.catalog.require entity).mapError .schema
  let collection := s.collection entity
  return collection.fetch? collection.byId id

def fetchByKey (rules : StoreRules) (s : Store) (entity field key : String) :
    Except SourceError (Option Members) := do
  let _ ← (rules.catalog.require entity).mapError .schema
  if rules.keys.lookup entity = some field then
    let collection := s.collection entity
    return collection.fetch? collection.byKey key
  else throw (.notIndexed entity field)

def search [RegexLibrary] (rules : StoreRules) (s : Store) (entity : String)
    (filter : List FilterGroup) (page : Page) : Except SourceError (List Members) := do
  let e ← (rules.catalog.require entity).mapError .schema
  return page.slice <| (s.collection entity).records.filter fun fields =>
    Filter.admits rules.catalog e filter (.document fields)

end Store

end EntityGraph
