import EntityGraph.Schema.Fields
import EntityGraph.Value

/-!
Values for new records. A value is checked against the input type of an entity and comes out as
data in one form: exactly the fields that are given, in the order of the definition, with lists
where the type has lists. Faults name the path at which they stand.
-/

namespace EntityGraph.Input

def scalar? : ScalarKind → Value → Option Json
  | .string, .string s => some (.string s)
  | .id, .string s => some (.string s)
  | .id, .number (.integer n) => some (.string (toString n))
  | .int, .number n => n.int64?.map Json.int
  | .float, .number n => some (.number (.float n.toFloat))
  | .boolean, .boolean b => some (.bool b)
  | _, _ => none

abbrev FieldReader (α : Type) := InputField → String → Tracked Error α

def fail {α : Type} (rootField path reason : String) : Tracked Error α :=
  Tracked.fail (.invalidArgument rootField path reason)

def readGiven (rootField path : String) (readers : List (String × FieldReader Json))
    (f : InputField) : Tracked Error (Option (String × Json)) :=
  let fieldPath := s!"{path}.{f.name}"
  match readers.lookup f.name with
  | some read => do return some (f.name, ← read f fieldPath)
  | none =>
    if f.type.nonNull then
      fail rootField fieldPath s!"missing required field of type {f.type.text}"
    else pure none

/-- The fields of an object: names that the type does not have are refused first, then the fields
are read in the order of the type. -/
def readFields (c : Catalog) (rootField : String) (entries : Arguments)
    (readers : List (String × FieldReader Json)) (e : Entity) (path : String) :
    Tracked Error Members := do
  let fields ← (Schema.inputFields c e).mapError .schema
  match entries.find? fun entry => fields.all fun f => f.name != entry.1 with
  | some (unknown, _) => fail rootField path s!"unknown field '{unknown}' on {e.inputName}"
  | none => do
    let given ← fields.mapM (readGiven rootField path readers)
    return given.filterMap id

mutual

def readElement (c : Catalog) (rootField : String) : Value → FieldReader Json
  | value, ⟨_, _, .scalar kind⟩, path => match scalar? kind value with
    | some j => pure j
    | none => fail rootField path s!"expected {kind.name}"
  -- A reader is made of each value, and the fields find theirs by name.
  | .object entries, ⟨_, _, .object e⟩, path => do
    return .object
      (← readFields c rootField entries (fieldReaders c rootField entries) e path)
  | _, ⟨_, _, .object e⟩, path =>
    fail rootField path s!"expected an object of type {e.inputName}"

def readElements (c : Catalog) (rootField : String) :
    List Value → InputField → String → Nat → Tracked Error (List Json)
  | [], _, _, _ => pure []
  | item :: rest, f, path, i => do
    let itemPath := s!"{path}[{i}]"
    let j ← if item.isNull then
        if f.type.elementNonNull then fail rootField itemPath "list elements can not be null"
        else pure .null
      else readElement c rootField item f itemPath
    return j :: (← readElements c rootField rest f path (i + 1))

/-- How the entries of an object that are not null are read; a single value counts as a list of
one where the type has a list. -/
def fieldReaders (c : Catalog) (rootField : String) :
    Arguments → List (String × FieldReader Json)
  | [] => []
  | (_, .null) :: rest => fieldReaders c rootField rest
  | (key, .list items) :: rest =>
    (key, fun f path =>
      if f.type.list then do return .array (← readElements c rootField items f path 0)
      else readElement c rootField (.list items) f path) :: fieldReaders c rootField rest
  | (key, value) :: rest =>
    (key, fun f path =>
      if f.type.list then do return .array [← readElement c rootField value f s!"{path}[0]"]
      else readElement c rootField value f path) :: fieldReaders c rootField rest

end

def validate (c : Catalog) (rootField : String) (e : Entity) (path : String) :
    Value → Tracked Error Members
  | .object entries => readFields c rootField entries (fieldReaders c rootField entries) e path
  | _ => fail rootField path s!"expected an object of type {e.inputName}"

end EntityGraph.Input
