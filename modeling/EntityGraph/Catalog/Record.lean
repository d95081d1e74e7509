import EntityGraph.Json.Basic
import EntityGraph.Text.Quoted

/-!
Records and the values read from them. A record is data with members. A document also holds
an extension namespace and a list of custom attributes beside its own members; a plain record has
its own members only.
-/

namespace EntityGraph

def extensionKey : String := "extension_attributes"

def customKey : String := "custom_attributes"

instance int64Coe : Coe Int64 Int := ⟨Int64.toInt⟩

inductive Record where
  | document (fields : Members)
  | plain (fields : Members)

inductive AttributeValue where
  | null
  | boolean (b : Bool)
  | int (n : Int64)
  | float (x : Float)
  | string (s : String)
  | list (items : List AttributeValue)
  | record (r : Record)

namespace AttributeValue

/-- An integer that fits 64 bits with a sign, every other number as a floating-point number. -/
def ofNumber (n : Number) : AttributeValue :=
  match n.int64? with
  | some i => .int (.ofInt i)
  | none => .float n.toFloat

mutual

/-- Stored data as a value; an object is a document. -/
def ofJson : Json → AttributeValue
  | .null => .null
  | .bool b => .boolean b
  | .number n => ofNumber n
  | .string s => .string s
  | .array items => .list (ofItems items)
  | .object members => .record (.document members)

def ofItems : List Json → List AttributeValue
  | [] => []
  | item :: rest => ofJson item :: ofItems rest

end

def isNull : AttributeValue → Bool
  | .null => true
  | _ => false

def record? : AttributeValue → Option Record
  | .record r => some r
  | _ => none

def records : AttributeValue → List Record
  | .record r => [r]
  | .list items => items.filterMap record?
  | _ => []

mutual

def diagnostic : AttributeValue → String
  | .null => "Null"
  | .boolean b => s!"Boolean({b})"
  | .int n => s!"Int({n.toInt})"
  | .float x => "Float(" ++ Decimal.write .plain x ++ ")"
  | .string s => "String(" ++ Text.diagnostic s ++ ")"
  | .list items => "[" ++ ", ".intercalate (diagnostics items) ++ "]"
  | .record _ => "Record(..)"

def diagnostics : List AttributeValue → List String
  | [] => []
  | item :: rest => diagnostic item :: diagnostics rest

end

end AttributeValue

namespace Record

def fields : Record → Members
  | .document fields => fields
  | .plain fields => fields

def raw (r : Record) (code : String) : Option Json :=
  if code = extensionKey ∨ code = customKey then none else r.fields.lookup code

def core (r : Record) (code : String) : Option AttributeValue :=
  (r.raw code).map AttributeValue.ofJson

def extension (r : Record) (code : String) : Option AttributeValue :=
  match r with
  | .document fields =>
    ((fields.lookup extensionKey).bind fun j => j.member? code).map AttributeValue.ofJson
  | .plain _ => none

def hasCustom : Record → Bool
  | .document fields => (fields.lookup customKey).isSome
  | .plain _ => false

def isCustomEntry (code : String) (entry : Json) : Bool :=
  (entry.member? "attribute_code").bind Json.string? == some code

def custom (r : Record) (code : String) : Option AttributeValue :=
  match r with
  | .document fields =>
    match fields.lookup customKey with
    | some (.array entries) =>
      -- The first entry with the code counts.
      ((entries.find? (isCustomEntry code)).bind fun entry => entry.member? "value").map
        AttributeValue.ofJson
    | _ => none
  | .plain _ => none

def id? (r : Record) : Option String := (r.raw "id").bind Json.label?

def ofJson? : Json → Option Record
  | .object members => some (.document members)
  | _ => none

end Record

end EntityGraph
