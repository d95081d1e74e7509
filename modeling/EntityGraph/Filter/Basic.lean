import EntityGraph.Catalog.ScalarKind
import EntityGraph.Decimal.Layout
import EntityGraph.Text.Quoted

/-!
Compiled filters. A filter is a list of groups that must all hold, and a group is a list of
constraints of which one must hold.
-/

namespace EntityGraph

def joinKey : String := "_join"

def childrenKey : String := "_children"

inductive Join where
  | all
  | any
  deriving DecidableEq, Repr

namespace Join

def typeName : String := "AnyAll"

def name : Join → String
  | .all => "ALL"
  | .any => "ANY"

def ofName? : String → Option Join
  | "ANY" => some .any
  | "ALL" => some .all
  | _ => none

end Join

inductive Operator where
  | eq
  | neq
  | lt
  | lteq
  | gt
  | gteq
  | like
  | isIn
  | notIn
  | null
  | notNull
  | findInSet
  | lower
  | upper
  deriving DecidableEq, Repr

namespace Operator

def key : Operator → String
  | .eq => "eq"
  | .neq => "neq"
  | .lt => "lt"
  | .lteq => "lteq"
  | .gt => "gt"
  | .gteq => "gteq"
  | .like => "like"
  | .isIn => "in"
  | .notIn => "nin"
  | .null => "null"
  | .notNull => "notnull"
  | .findInSet => "finset"
  | .lower => "from"
  | .upper => "to"

def vocabulary : ScalarKind → List Operator
  | .string =>
    [.eq, .neq, .lt, .lteq, .gt, .gteq, .like, .isIn, .notIn, .null, .notNull, .findInSet, .lower,
      .upper]
  | .int | .float =>
    [.eq, .neq, .lt, .lteq, .gt, .gteq, .isIn, .notIn, .null, .notNull, .lower, .upper]
  | .id => [.eq, .neq, .isIn, .notIn, .null, .notNull]
  | .boolean => [.eq, .neq, .null, .notNull]

def ofKey? (kind : ScalarKind) (key : String) : Option Operator :=
  (vocabulary kind).find? fun op => op.key == key

def operandType (op : Operator) (kind : ScalarKind) : String :=
  match op with
  | .isIn | .notIn => "[" ++ kind.name ++ "!]"
  | .null | .notNull => "Boolean"
  | .like | .findInSet => "String"
  | _ => kind.name

end Operator

def ScalarKind.filterName (kind : ScalarKind) : String := kind.name ++ "Filter"

inductive Operand where
  | boolean (b : Bool)
  | int (n : Int)
  | float (x : Float)
  | string (s : String)
  deriving BEq

def Operand.text : Operand → String
  | .boolean b => toString b
  | .int n => toString n
  | .float x => Decimal.write .plain x
  | .string s => Text.diagnostic s

inductive Condition where
  | eq (v : Operand)
  | neq (v : Operand)
  | lt (v : Operand)
  | lteq (v : Operand)
  | gt (v : Operand)
  | gteq (v : Operand)
  | like (pattern : String)
  | isIn (vs : List Operand)
  | notIn (vs : List Operand)
  | null
  | notNull
  | findInSet (member : String)
  | range (lower upper : Operand)
  deriving BEq

namespace Condition

def listText (vs : List Operand) : String := ", ".intercalate (vs.map Operand.text)

def text : Condition → String
  | .eq v => s!"= {v.text}"
  | .neq v => s!"!= {v.text}"
  | .lt v => s!"< {v.text}"
  | .lteq v => s!"<= {v.text}"
  | .gt v => s!"> {v.text}"
  | .gteq v => s!">= {v.text}"
  | .like pattern => "like " ++ Text.diagnostic pattern
  | .isIn vs => "in (" ++ listText vs ++ ")"
  | .notIn vs => "not in (" ++ listText vs ++ ")"
  | .null => "is null"
  | .notNull => "is not null"
  | .findInSet member => "finset " ++ Text.diagnostic member
  | .range lower upper => s!"between {lower.text} and {upper.text}"

end Condition

/-- A check of the value at a dotted path of attributes; the empty path is the value itself. -/
structure Constraint where
  field : String
  condition : Condition
  deriving BEq

def Constraint.text (c : Constraint) : String :=
  if c.field.isEmpty then s!"value {c.condition.text}" else s!"{c.field} {c.condition.text}"

abbrev FilterGroup := List Constraint

def FilterGroup.text (g : FilterGroup) : String :=
  "(" ++ " OR ".intercalate (g.map Constraint.text) ++ ")"

def describeGroups (groups : List FilterGroup) : String :=
  " AND ".intercalate (groups.map FilterGroup.text)

end EntityGraph
