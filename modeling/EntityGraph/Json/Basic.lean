import EntityGraph.Keyed
import EntityGraph.Number

namespace EntityGraph

inductive Json where
  | null
  | bool (b : Bool)
  | number (n : Number)
  | string (s : String)
  | array (items : List Json)
  | object (members : List (String × Json))
  deriving Inhabited

abbrev Members := List (String × Json)

namespace Json

def int (n : Int) : Json := .number (.integer n)

def member? (j : Json) (key : String) : Option Json :=
  match j with
  | .object members => members.lookup key
  | _ => none

def string? : Json → Option String
  | .string s => some s
  | _ => none

def label? : Json → Option String
  | .string s => some s
  | .number n => some n.text
  | _ => none

def isNull : Json → Bool
  | .null => true
  | _ => false

/-- An object from members; a later member takes the place of an earlier one of the same key. -/
def ofMembers (members : Members) : Json := .object (Keyed.ofList Prod.fst members)

end Json

end EntityGraph
