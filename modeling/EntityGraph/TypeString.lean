import EntityGraph.Catalog.Basic
import EntityGraph.Text.Blank

/-!
Type strings: a type's name with marks for a list and for what can not be null. The six forms are
`T`, `T!`, `[T]`, `[T]!`, `[T!]` and `[T!]!`.
-/

namespace EntityGraph

structure TypeString where
  name : String
  list : Bool
  elementNonNull : Bool
  nonNull : Bool
  deriving DecidableEq, Repr

namespace TypeString

def named (name : String) : TypeString := ⟨name, false, false, false⟩

def nonNullListOf (name : String) : TypeString := ⟨name, true, true, true⟩

def listOf (name : String) : TypeString := ⟨name, true, true, false⟩

def required (t : TypeString) : TypeString := { t with nonNull := true }

def ofAttribute (a : Attribute) : TypeString :=
  if a.repeating then nonNullListOf a.typeName
  else if a.nullable then named a.typeName
  else (named a.typeName).required

def beforeLast? (c : Char) (cs : List Char) : Option (List Char) :=
  if cs.getLast? = some c then some cs.dropLast else none

def isNameChar (c : Char) : Bool := c.isAlphanum || c = '_'

def takeMark (cs : List Char) : List Char × Bool :=
  match beforeLast? '!' cs with
  | some inner => (inner, true)
  | none => (cs, false)

/-- The type of a text without blanks around it: the outer mark goes first, then the brackets,
then the mark inside them. -/
def ofChars? (cs : List Char) : Option TypeString :=
  let (unmarked, nonNull) := takeMark cs
  let parts : Option (List Char × Bool × Bool) := match unmarked with
    | '[' :: rest =>
      (beforeLast? ']' rest).map fun inner =>
        let (name, elementNonNull) := takeMark inner
        (name, true, elementNonNull)
    | _ => some (unmarked, false, false)
  match parts with
  | some (name, list, elementNonNull) =>
    if !name.isEmpty && name.all isNameChar then
      some ⟨String.ofList name, list, elementNonNull, nonNull⟩
    else none
  | none => none

/-- The type of a text; blanks around it do not count. -/
def parse (text : String) : Except SchemaError TypeString :=
  match ofChars? (Text.trim text.toList) with
  | some t => .ok t
  | none => .error (.invalidTypeString text)

def mark (nonNull : Bool) : String := if nonNull then "!" else ""

def text (t : TypeString) : String :=
  if t.list then "[" ++ t.name ++ mark t.elementNonNull ++ "]" ++ mark t.nonNull
  else t.name ++ mark t.nonNull

end TypeString

end EntityGraph
