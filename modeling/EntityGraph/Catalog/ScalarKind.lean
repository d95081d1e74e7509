namespace EntityGraph

inductive ScalarKind where
  | string
  | int
  | float
  | id
  | boolean
  deriving DecidableEq, Repr

namespace ScalarKind

def all : List ScalarKind := [.string, .int, .float, .id, .boolean]

def name : ScalarKind → String
  | .string => "String"
  | .int => "Int"
  | .float => "Float"
  | .id => "ID"
  | .boolean => "Boolean"

/-- The scalar type of a name; every other name is an entity's. -/
def ofName? (name : String) : Option ScalarKind :=
  all.find? fun kind => kind.name == name

def described : ScalarKind → String
  | .string => "a String"
  | .int => "an Int"
  | .float => "a Float"
  | .id => "an ID"
  | .boolean => "a Boolean"

theorem ofName?_name (kind : ScalarKind) : ofName? kind.name = some kind := by
  cases kind <;> decide

end ScalarKind

end EntityGraph
