import EntityGraph.Json.Basic

namespace EntityGraph

inductive Value where
  | null
  | boolean (b : Bool)
  | number (n : Number)
  | string (s : String)
  | enum (name : String)
  | list (items : List Value)
  | object (fields : List (String × Value))
  deriving Inhabited

abbrev Arguments := List (String × Value)

namespace Value

def isNull : Value → Bool
  | .null => true
  | _ => false

def isObject : Value → Bool
  | .object _ => true
  | _ => false

mutual

def ofJson : Json → Value
  | .null => .null
  | .bool b => .boolean b
  | .number n => .number n
  | .string s => .string s
  | .array items => .list (ofItems items)
  | .object members => .object (ofMembers members)

def ofItems : List Json → List Value
  | [] => []
  | item :: rest => ofJson item :: ofItems rest

def ofMembers : Members → Arguments
  | [] => []
  | (key, value) :: rest => (key, ofJson value) :: ofMembers rest

end

mutual

/-- Equality of values. The order of an object's fields does not matter, and a name equals the
text of the same characters. -/
def beq : Value → Value → Bool
  | .null, .null => true
  | .boolean a, .boolean b => a == b
  | .number m, .number n => m == n
  | .string s, .string t => s == t
  | .string s, .enum t => s == t
  | .enum s, .string t => s == t
  | .enum s, .enum t => s == t
  | .list xs, .list ys => beqItems xs ys
  | .object xs, .object ys => xs.length == ys.length && beqFields xs ys
  | _, _ => false

def beqItems : List Value → List Value → Bool
  | [], [] => true
  | x :: xs, y :: ys => beq x y && beqItems xs ys
  | _, _ => false

def beqFields : Arguments → Arguments → Bool
  | [], _ => true
  | (key, x) :: rest, ys =>
    (match ys.lookup key with
      | some y => beq x y
      | none => false) && beqFields rest ys

end

instance : BEq Value := ⟨beq⟩

def fourDigits (n : Nat) : List Char :=
  let digits := Nat.toDigits 10 n
  List.replicate (4 - digits.length) '0' ++ digits

def quotedChar (c : Char) : List Char :=
  if c = '"' then ['\\', '"']
  else if c = '\\' then ['\\', '\\']
  else if c = '\n' then ['\\', 'n']
  else if c = '\r' then ['\\', 'r']
  else if c = '\t' then ['\\', 't']
  else if c.toNat < 0x20 ∨ (0x7f ≤ c.toNat ∧ c.toNat < 0xa0) then ['\\', 'u'] ++ fourDigits c.toNat
  else [c]

mutual

def text : Value → String
  | .null => "null"
  | .boolean b => toString b
  | .number n => n.text
  | .string s => String.ofList (['"'] ++ s.toList.flatMap quotedChar ++ ['"'])
  | .enum name => name
  | .list items => "[" ++ ", ".intercalate (textItems items) ++ "]"
  | .object fields => "\x7b" ++ ", ".intercalate (textFields fields) ++ "\x7d"

def textItems : List Value → List String
  | [] => []
  | item :: rest => text item :: textItems rest

def textFields : Arguments → List String
  | [] => []
  | (key, value) :: rest => (key ++ ": " ++ text value) :: textFields rest

end

end Value

def Arguments.same (xs ys : Arguments) : Bool :=
  xs.length == ys.length && Value.beqFields xs ys

end EntityGraph
