import EntityGraph.Catalog.Basic
import EntityGraph.Filter.Tree
import EntityGraph.Value

/-!
Filter objects as filter groups. The constraints on attributes and the child filters of an object
stand side by side under its join; a filter on an entity attribute prefixes the paths of its
constraints. Faults are reported in the order of the keys.
-/

namespace EntityGraph

namespace Filter

/-- The join that a value names; null stands for the default. -/
def readJoin (value : Value) : Except FilterError Join :=
  let named : Option Join := match value with
    | .null => some .all
    | .enum name => Join.ofName? name
    | .string name => Join.ofName? name
    | _ => none
  match named with
  | some join => .ok join
  | none => .error (.invalidJoin value.text)

def operand? : ScalarKind → Value → Option Operand
  | .string, .string s => some (.string s)
  | .id, .string s => some (.string s)
  | .id, .number (.integer n) => some (.string (toString n))
  | .int, .number n => n.int64?.map .int
  | .float, .number n => some (.float n.toFloat)
  | .boolean, .boolean b => some (.boolean b)
  | _, _ => none

def readOperand (kind : ScalarKind) (field : String) (op : Operator) (value : Value) :
    Except FilterError Operand :=
  match operand? kind value with
  | some operand => .ok operand
  | none => .error (.invalidOperand field op.key kind)

/-- The operands of an operator that takes a list; a single value is a list of one. -/
def readOperands (kind : ScalarKind) (field : String) (op : Operator) (value : Value) :
    Except FilterError (List Operand) :=
  match value with
  | .list items => items.mapM (readOperand kind field op)
  | single => (readOperand kind field op single).map ([·])

def readText (field : String) (op : Operator) : Value → Except FilterError String
  | .string s => .ok s
  | _ => .error (.invalidOperand field op.key .string)

def readFlag (field : String) (op : Operator) : Value → Except FilterError Bool
  | .boolean b => .ok b
  | _ => .error (.invalidOperand field op.key .boolean)

/-- The condition of a single operator. The ends of a range do not stand alone. -/
def readCondition (kind : ScalarKind) (field : String) (op : Operator) (value : Value) :
    Except FilterError Condition :=
  match op with
  | .eq => (readOperand kind field op value).map .eq
  | .neq => (readOperand kind field op value).map .neq
  | .lt => (readOperand kind field op value).map .lt
  | .lteq => (readOperand kind field op value).map .lteq
  | .gt => (readOperand kind field op value).map .gt
  | .gteq => (readOperand kind field op value).map .gteq
  | .like => (readText field op value).map .like
  | .findInSet => (readText field op value).map .findInSet
  | .isIn => (readOperands kind field op value).map .isIn
  | .notIn => (readOperands kind field op value).map .notIn
  | .null => (readFlag field op value).map fun b => if b then .null else .notNull
  | .notNull => (readFlag field op value).map fun b => if b then .notNull else .null
  | .lower | .upper => .error (.incompleteRange field)

def readOperators (kind : ScalarKind) (field : String) (entries : Arguments) :
    Except FilterError (List (Operator × Value)) :=
  (entries.filter fun entry => !entry.2.isNull).mapM fun (key, value) =>
    match Operator.ofKey? kind key with
    | some op => .ok (op, value)
    | none => .error (.unknownOperator field key)

def readRange (kind : ScalarKind) (field : String) (lower upper : Value) :
    Except FilterError Condition := do
  let lower ← readOperand kind field .lower lower
  let upper ← readOperand kind field .upper upper
  return .range lower upper

/-- The condition of the operators that a constraint names: one alone, or both ends of a range. -/
def readCombination (kind : ScalarKind) (field : String) :
    List (Operator × Value) → Except FilterError Condition
  | [(.lower, lower), (.upper, upper)] => readRange kind field lower upper
  | [(.upper, upper), (.lower, lower)] => readRange kind field lower upper
  | [(op, value)] => readCondition kind field op value
  | operators => .error (.operatorCount field operators.length)

def readConstraint (kind : ScalarKind) (field : String) (value : Value) :
    Except FilterError Constraint := do
  let .object entries := value | throw (.notAnObject field)
  let operators ← readOperators kind field entries
  let condition ← readCombination kind field operators
  return ⟨field, condition⟩

def filterable (entity : Entity) (path name : String) : Except FilterError Attribute :=
  match entity.attribute? name with
  | some a => .ok a
  | none => .error (.unknownAttribute entity.name (path ++ name))

def belowAttribute (a : Attribute) (t : FilterTree Constraint) :
    Except FilterError (List (FilterTree Constraint)) :=
  if a.repeating then
    match t.perElement? with
    | some term => .ok term.toList
    | none => .error .unsupportedShape
  else .ok [t]

def readLeaf (kind : ScalarKind) (field : String) (value : Value) :
    Except Error (List (FilterTree Constraint)) := do
  let constraint ← (readConstraint kind field value).mapError .filter
  return [.leaf constraint]

mutual

def readObject (c : Catalog) (entity : Entity) (path : String) :
    Value → Except Error (FilterTree Constraint)
  | .object fields => (readFields c entity path .all fields).map fun (join, children) =>
      .node join children
  | _ => .error (.filter (.notAnObject entity.name))

def readFields (c : Catalog) (entity : Entity) (path : String) (join : Join) :
    List (String × Value) → Except Error (Join × List (FilterTree Constraint))
  | [] => .ok (join, [])
  | (key, value) :: rest =>
    -- The join that is named last wins, wherever it stands among the keys.
    if key = joinKey then do
      let join ← (readJoin value).mapError .filter
      readFields c entity path join rest
    else if key = childrenKey then do
      let children ← match value with
        | .null => .ok []
        | .list items => readChildren c entity path items
        | .object fields => (readFields c entity path .all fields).map fun (join, children) =>
            [.node join children]
        | _ => .error (.filter .invalidChildren)
      (readFields c entity path join rest).map fun (join, more) => (join, children ++ more)
    else do
      -- The name is looked up before the value is read, so an unknown name fails also with null.
      let a ← (filterable entity path key).mapError .filter
      let children ← if value.isNull then .ok [] else match a.scalarKind? with
        | some kind => readLeaf kind (path ++ key) value
        | none => do
          let target ← (c.require a.typeName).mapError .schema
          let below ← readObject c target (path ++ key ++ ".") value
          (belowAttribute a below).mapError .filter
      (readFields c entity path join rest).map fun (join, more) => (join, children ++ more)

def readChildren (c : Catalog) (entity : Entity) (path : String) :
    List Value → Except Error (List (FilterTree Constraint))
  | [] => .ok []
  | item :: rest => do
    if !item.isObject then throw (.filter .invalidChildren)
    let child ← readObject c entity path item
    let more ← readChildren c entity path rest
    return child :: more

end

/-- The groups of a filter on the records of an entity. Null imposes nothing. -/
def compile (c : Catalog) (entity : Entity) (filter : Value) :
    Except Error (List FilterGroup) := do
  if filter.isNull then return []
  let tree ← readObject c entity "" filter
  match tree.groups? with
  | some groups => return groups
  | none => throw (.filter .unsupportedShape)

/-- The groups of a filter on bare scalars. Null imposes nothing. -/
def compileScalar (kind : ScalarKind) (filter : Value) :
    Except FilterError (List FilterGroup) := do
  if filter.isNull then return []
  let constraint ← readConstraint kind "" filter
  return [[constraint]]

end Filter

end EntityGraph
