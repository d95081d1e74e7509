import EntityGraph.Catalog.Record
import EntityGraph.Error
import EntityGraph.Keyed

/-!
Entities and their attributes. A catalog is a table of entities, each name once, and an entity is
a table of attributes, each name once. Reading an attribute asks its own function first, then the
record's member, the extension namespace and the custom attributes.
-/

namespace EntityGraph

/-- One attribute of an entity. `read` fetches the stored value, `compute` replaces it. -/
structure Attribute where
  name : String
  description : String
  typeName : String
  repeating : Bool
  nullable : Bool
  read : Record → Option AttributeValue
  compute : Option (Record → AttributeValue)

namespace Attribute

def scalar (name description : String) (kind : ScalarKind) (nullable : Bool) : Attribute :=
  { name, description, nullable, typeName := kind.name, repeating := false
    read := fun r => r.core name, compute := none }

/-- A reference to another entity. A repeating one is never null: its absence is an empty
list. -/
def entity (name description entityName : String) (repeating nullable : Bool) : Attribute :=
  { name, description, repeating, typeName := entityName, nullable := nullable && !repeating
    read := fun r => r.core name, compute := none }

def repeated (a : Attribute) : Attribute := { a with repeating := true, nullable := false }

def computed (a : Attribute) (f : Record → AttributeValue) : Attribute :=
  { a with compute := some f }

def withAccessor (a : Attribute) (f : Record → Option AttributeValue) : Attribute :=
  { a with read := f }

def withDocumentAccessor (a : Attribute) (f : Members → Option AttributeValue) : Attribute :=
  a.withAccessor fun
    | .document fields => f fields
    | .plain _ => none

def scalarKind? (a : Attribute) : Option ScalarKind := ScalarKind.ofName? a.typeName

def isScalar (a : Attribute) : Bool := a.scalarKind?.isSome

def isComputed (a : Attribute) : Bool := a.compute.isSome

/-- The value in a record: the function's, or the first that is stored, or null. -/
def valueIn (a : Attribute) (r : Record) : AttributeValue :=
  match a.compute with
  | some f => f r
  | none =>
    match a.read r with
    | some v => v
    | none =>
      match r.extension a.name with
      | some v => v
      | none => (r.custom a.name).getD .null

def diagnostic (a : Attribute) : String :=
  "AttributeDefinition \x7b name: " ++ Text.diagnostic a.name ++ ", type_name: " ++
    Text.diagnostic a.typeName ++ s!", repeating: {a.repeating}, nullable: {a.nullable}" ++
    s!", computed: {a.isComputed} \x7d"

end Attribute

structure Entity where
  name : String
  description : String
  attributes : List Attribute
  names_nodup : (attributes.map Attribute.name).Nodup

namespace Entity

/-- An entity from attributes; a later attribute takes the place of an earlier one of its name. -/
def ofAttributes (name description : String) (attributes : List Attribute) : Entity :=
  ⟨name, description, Keyed.ofList Attribute.name attributes, Keyed.nodup_ofList _ _⟩

def attribute? (e : Entity) (name : String) : Option Attribute :=
  Keyed.find? Attribute.name name e.attributes

def requireAttribute (e : Entity) (name : String) : Except SchemaError Attribute :=
  match e.attribute? name with
  | some a => .ok a
  | none => .error (.unknownAttribute e.name name)

def read (e : Entity) (name : String) (r : Record) : Except SchemaError AttributeValue :=
  (e.requireAttribute name).map fun a => a.valueIn r

def extendMissing (e : Entity) (more : List Attribute) : Entity :=
  more.foldl
    (fun e a =>
      { e with
        -- What the entity has already stays as it is.
        attributes := if (e.attribute? a.name).isSome then e.attributes
          else Keyed.insert Attribute.name a e.attributes
        names_nodup := by
          split
          · exact e.names_nodup
          · exact Keyed.nodup_insert _ _ e.names_nodup })
    e

end Entity

structure Catalog where
  entities : List Entity
  names_nodup : (entities.map Entity.name).Nodup

namespace Catalog

def empty : Catalog := ⟨[], by simp⟩

def entity? (c : Catalog) (name : String) : Option Entity :=
  Keyed.find? Entity.name name c.entities

def require (c : Catalog) (name : String) : Except SchemaError Entity :=
  match c.entity? name with
  | some e => .ok e
  | none => .error (.unknownEntity name)

def names (c : Catalog) : List String := c.entities.map Entity.name

def add (c : Catalog) (e : Entity) : Except SchemaError Catalog :=
  if h : e.name ∈ c.entities.map Entity.name then .error (.duplicateEntity e.name)
  else
    .ok ⟨c.entities ++ [e], by
      rw [List.map_append, List.nodup_append]
      refine ⟨c.names_nodup, by simp, ?_⟩
      intro a ha b hb
      rw [List.map_singleton, List.mem_singleton] at hb
      exact fun hab => h (hb ▸ hab ▸ ha)⟩

def ofEntities (entities : List Entity) : Except SchemaError Catalog :=
  entities.foldlM Catalog.add Catalog.empty

end Catalog

end EntityGraph
