import EntityGraph.Catalog.Basic
import EntityGraph.Filter.Basic
import EntityGraph.Filter.Like
import EntityGraph.Text.Blank
import EntityGraph.Text.Integer

/-!
Records that a filter admits. A constraint on a dotted path descends through entity attributes
and holds when it holds for any record on the way; a path that ends early meets null.
-/

namespace EntityGraph.Filter

/-- The order of floating-point numbers; none when one of them is not a number. -/
def compareFloats (x y : Float) : Option Ordering :=
  if x < y then some .lt else if x == y then some .eq else if y < x then some .gt else none

/-- The order of a stored value and an operand, if they can be compared. A text that stands for a
number compares as one, and an integer compares with a text by its digits. -/
def compare? : AttributeValue → Operand → Option Ordering
  | .int a, .int b => some (compare a.toInt b)
  | .int a, .float b => compareFloats (Float.ofInt a.toInt) b
  | .float a, .int b => compareFloats a (Float.ofInt b)
  | .float a, .float b => compareFloats a b
  | .string a, .string b => some (compare a b)
  | .boolean a, .boolean b => some (compare a b)
  | .int a, .string b => some (compare (toString a.toInt) b)
  | .string a, .int b => (Text.readInt64 a).toOption.map fun a => compare a b
  | .string a, .float b => (Decimal.read a).bind fun a => compareFloats a b
  | _, _ => none

def textOf? : AttributeValue → Option String
  | .string s => some s
  | .int n => some (toString n.toInt)
  | .float x => some (Decimal.write .plain x)
  | _ => none

def isMember (member text : String) : Bool :=
  (Text.splitAt ',' text.toList).any fun piece => Text.trim piece == member.toList

variable [RegexLibrary]

def holdsSingle (value : AttributeValue) : Condition → Bool
  | .null => value.isNull
  | .notNull => !value.isNull
  | .eq v => compare? value v == some .eq
  -- Neither equal nor unequal is what cannot be compared.
  | .neq v => match compare? value v with
    | some order => order != .eq
    | none => false
  | .lt v => compare? value v == some .lt
  | .lteq v => compare? value v == some .lt || compare? value v == some .eq
  | .gt v => compare? value v == some .gt
  | .gteq v => compare? value v == some .gt || compare? value v == some .eq
  | .isIn vs => vs.any fun v => compare? value v == some .eq
  -- Here what cannot be compared counts as different, and only null is left out.
  | .notIn vs => !value.isNull && vs.all fun v => compare? value v != some .eq
  | .like pattern => match textOf? value, likeRegex? pattern with
    | some text, some regex => RegexLibrary.isMatch regex text
    | _, _ => false
  | .findInSet member => match textOf? value with
    | some text => isMember member text
    | none => false
  | .range lower upper =>
    (compare? value lower == some .gt || compare? value lower == some .eq) &&
      (compare? value upper == some .lt || compare? value upper == some .eq)

mutual

/-- A condition holds of a value. A list is null when it is empty, differs when every item
differs, and meets any other condition when an item does. -/
def holds (condition : Condition) : AttributeValue → Bool
  | .list items => match condition with
    | .null => items.isEmpty
    | .notNull => !items.isEmpty
    | .neq _ | .notIn _ => holdsAll condition items
    | _ => holdsAny condition items
  | value => holdsSingle value condition

def holdsAll (condition : Condition) : List AttributeValue → Bool
  | [] => true
  | item :: rest => holds condition item && holdsAll condition rest

def holdsAny (condition : Condition) : List AttributeValue → Bool
  | [] => false
  | item :: rest => holds condition item || holdsAny condition rest

end

def targetOf? (c : Catalog) (entity : Entity) (name : String) : Option Entity :=
  (entity.attribute? name).bind fun a => c.entity? a.typeName

def pathHolds (c : Catalog) (condition : Condition) :
    List String → Entity → Record → Bool
  | [], _, _ => false
  | [name], entity, r => match entity.read name r with
    | .ok value => holds condition value
    | .error _ => false
  | name :: path, entity, r => match entity.read name r, targetOf? c entity name with
    | .ok value, some target => match value.records with
      -- Without a record the condition is asked of null.
      | [] => holds condition .null
      | records => records.any fun r => pathHolds c condition path target r
    | _, _ => false

def Constraint.path (constraint : Constraint) : List String :=
  Text.splitText '.' constraint.field

def constraintHolds (c : Catalog) (entity : Entity) (r : Record) (constraint : Constraint) :
    Bool :=
  pathHolds c constraint.condition (Constraint.path constraint) entity r

def admits (c : Catalog) (entity : Entity) (groups : List FilterGroup) (r : Record) : Bool :=
  groups.all fun group => group.any (constraintHolds c entity r)

def admitsValue (groups : List FilterGroup) (value : AttributeValue) : Bool :=
  groups.all fun group => group.any fun constraint => holds constraint.condition value

end EntityGraph.Filter
