import EntityGraph.Decimal.Whole
import EntityGraph.Filter.Match
import EntityGraph.Request.Planning
import EntityGraph.Schema.Fields

/-!
Records as response data. A request says which attributes of a record are shown; each value is
brought to the form of its type, or the rendering fails.
-/

namespace EntityGraph.Rendering

def finite? (x : Float) : Option Json := if x.isFinite then some (.number (.float x)) else none

def scalar? : ScalarKind → AttributeValue → Option Json
  | .string, .string s | .id, .string s => some (.string s)
  | .string, .int n | .id, .int n => some (.string (toString n.toInt))
  | .string, .float x => some (.string (Decimal.write .plain x))
  | .string, .boolean b => some (.string (toString b))
  | .int, .int n => some (.int n.toInt)
  | .int, .float x => (Decimal.exactInt64? x).map .int
  | .int, .string s => (Text.readInt64 (Text.trimText s)).toOption.map .int
  | .float, .int n => finite? (Float.ofInt n.toInt)
  | .float, .float x => finite? x
  | .float, .string s => (Decimal.read (Text.trimText s)).bind finite?
  | .boolean, .boolean b => some (.bool b)
  | .boolean, .int n => some (.bool (n != 0))
  | _, _ => none

variable [RegexLibrary]

def keeps (c : Catalog) (f : OutputField) (filter : List FilterGroup) (value : AttributeValue) :
    Bool :=
  filter.isEmpty || match f.target with
    | .scalar _ => Filter.admitsValue filter value
    | .object e => match value.record? with
      | some r => Filter.admits c e filter r
      | none => false

abbrev RecordRendering := Record → Tracked Error Json

def renderElement (entity : Entity) (f : OutputField) (renderNested : RecordRendering)
    (value : AttributeValue) : Tracked Error Json :=
  match f.target with
  | .scalar kind => match scalar? kind value with
    | some j => pure j
    | none => Tracked.fail
        (.dataSource (.invalidScalar entity.name f.name value.diagnostic kind))
  | .object _ => match value.record? with
    | some r => renderNested r
    | none => Tracked.fail (.dataSource (.recordExpected entity.name f.name value.diagnostic))

def renderNull (entity : Entity) (f : OutputField) (nonNull : Bool) : Tracked Error Json :=
  if nonNull then Tracked.fail (.nullViolation entity.name f.name) else pure .null

/-- The items of a repeating attribute's value; a single value is a list of one. -/
def itemsOf : AttributeValue → List AttributeValue
  | .null => []
  | .list items => items
  | single => [single]

def windowed (window : Option Window) (items : List AttributeValue) : List AttributeValue :=
  match window with
  | some window => window.slice items
  | none => items

/-- A value of a field. What the filter does not admit counts as null, and in a list as not
there. -/
def renderValue (c : Catalog) (entity : Entity) (f : OutputField) (window : Option Window)
    (filter : List FilterGroup) (renderNested : RecordRendering) (value : AttributeValue) :
    Tracked Error Json :=
  if f.type.list then do
    let items := windowed window ((itemsOf value).filter (keeps c f filter))
    return .array (← items.mapM fun item =>
      if item.isNull then renderNull entity f f.type.elementNonNull
      else renderElement entity f renderNested item)
  else if value.isNull || !keeps c f filter value then renderNull entity f f.type.nonNull
  else renderElement entity f renderNested value

def fieldsFor (c : Catalog) (e : Entity) (attributes : List AttributeRequest) :
    Tracked Error (List OutputField) :=
  if attributes.isEmpty then pure []
  else (Schema.objectFields c e).mapError .schema

mutual

/-- A record as a request asks for it: the name of its type first, if that is asked for. -/
def render (c : Catalog) : Request → RecordRendering
  | .mk entity typename attributes, r => do
    let e ← (Schema.objectType c entity.name).mapError .schema
    let fields ← fieldsFor c e attributes
    let members ← renderAttributes c entity fields attributes r
    return .object (if typename then (typenameField, .string e.name) :: members else members)

def renderAttributes (c : Catalog) (entity : Entity) (fields : List OutputField) :
    List AttributeRequest → Record → Tracked Error Members
  | [], _ => pure []
  | .mk definition window filter nested :: rest, r => do
    let f ← (Tracked.lift (Schema.fieldNamed entity fields definition.name)).mapError .schema
    let value ← (Tracked.lift (entity.read f.name r)).mapError .schema
    let renderNested : RecordRendering := match nested with
      | some request => render c request
      -- An entity that is asked for with nothing below it is an empty object.
      | none => fun _ => pure (.object [])
    let shown ← renderValue c entity f window filter renderNested value
    return (definition.name, shown) :: (← renderAttributes c entity fields rest r)

end

/-- A record that may be missing; then it is null. -/
def renderOptional (c : Catalog) (request : Request) : Option Record → Tracked Error Json
  | some r => render c request r
  | none => pure .null

end EntityGraph.Rendering
