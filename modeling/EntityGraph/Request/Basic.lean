import EntityGraph.Catalog.Basic
import EntityGraph.Filter.Basic
import EntityGraph.Paging

/-!
Requests: which attributes of an entity are asked for, in the order of asking, and for attributes
that refer to an entity which of its attributes in turn. Asking twice for an attribute merges the
two when window and filter agree.
-/

namespace EntityGraph

mutual

inductive Request where
  | mk (entity : Entity) (typename : Bool) (attributes : List AttributeRequest)

inductive AttributeRequest where
  | mk (definition : Attribute) (window : Option Window) (filter : List FilterGroup)
      (nested : Option Request)

end

namespace AttributeRequest

def definition : AttributeRequest → Attribute
  | .mk definition _ _ _ => definition

def window : AttributeRequest → Option Window
  | .mk _ window _ _ => window

/-- The filter on the attribute's values; without groups it admits all. -/
def filter : AttributeRequest → List FilterGroup
  | .mk _ _ filter _ => filter

def nested : AttributeRequest → Option Request
  | .mk _ _ _ nested => nested

def name (a : AttributeRequest) : String := a.definition.name

/-- A request for an attribute; only a repeating one keeps its window. -/
def make (definition : Attribute) (window : Option Window) (filter : List FilterGroup)
    (nested : Option Request) : AttributeRequest :=
  .mk definition (if definition.repeating then window else none) filter nested

def compatible (a b : AttributeRequest) : Bool := a.window == b.window && a.filter == b.filter

def withNested (a : AttributeRequest) (nested : Option Request) : AttributeRequest :=
  .mk a.definition a.window a.filter nested

end AttributeRequest

namespace Request

def new (entity : Entity) : Request := .mk entity false []

def entity : Request → Entity
  | .mk entity _ _ => entity

def typename : Request → Bool
  | .mk _ typename _ => typename

def attributes : Request → List AttributeRequest
  | .mk _ _ attributes => attributes

def attribute? (r : Request) (name : String) : Option AttributeRequest :=
  Keyed.find? AttributeRequest.name name r.attributes

def withTypename (r : Request) (flag : Bool) : Request :=
  .mk r.entity (r.typename || flag) r.attributes

def put (r : Request) (a : AttributeRequest) : Request :=
  .mk r.entity r.typename (Keyed.insert AttributeRequest.name a r.attributes)

mutual

/-- Ask for an attribute. If it is asked for already, window and filter must agree, and what is
nested is merged. -/
def add (r : Request) : AttributeRequest → Except SchemaError Request
  | .mk definition window filter nested =>
    match r.attribute? definition.name with
    | none => .ok (r.put (.mk definition window filter nested))
    | some existing =>
      if existing.compatible (.mk definition window filter nested) then
        match existing.nested, nested with
        | some current, some other =>
          (merge current other).map fun merged => r.put (existing.withNested (some merged))
        | none, some other => .ok (r.put (existing.withNested (some other)))
        | _, none => .ok r
      else .error (.conflictingArguments r.entity.name definition.name)

def addAll (r : Request) : List AttributeRequest → Except SchemaError Request
  | [] => .ok r
  | a :: rest => do
    let r ← add r a
    addAll r rest

def merge (r : Request) : Request → Except SchemaError Request
  | .mk _ typename attributes => addAll (r.withTypename typename) attributes

end

mutual

def beq : Request → Request → Bool
  | .mk entity typename attributes, other =>
    entity.name == other.entity.name && typename == other.typename &&
      attributes.length == other.attributes.length && beqAttributes attributes other

def beqAttributes : List AttributeRequest → Request → Bool
  | [], _ => true
  | a :: rest, other =>
    (match other.attribute? a.name with
      | some b => beqAttribute a b
      | none => false) && beqAttributes rest other

def beqAttribute : AttributeRequest → AttributeRequest → Bool
  | .mk definition window filter nested, other =>
    definition.name == other.name && window == other.window && filter == other.filter &&
      match nested, other.nested with
      | some r, some s => beq r s
      | none, none => true
      | _, _ => false

end

instance : BEq Request := ⟨beq⟩

mutual

/-- The text of a request: the entity, and in brackets the attributes, with the windows of
repeating ones and what is nested. -/
def text : Request → String
  | .mk entity _ attributes =>
    entity.name ++ "[" ++ " ".intercalate (textAttributes attributes) ++ "]"

def textAttributes : List AttributeRequest → List String
  | [] => []
  | a :: rest => textAttribute a :: textAttributes rest

def textAttribute : AttributeRequest → String
  | .mk definition window _ nested =>
    let windowText :=
      if definition.repeating then match window with
        | some window => window.text
        | none => "(,)"
      else ""
    definition.name ++ windowText ++
      match nested with
      | some r => ":" ++ text r
      | none => ""

end

end Request

end EntityGraph
