/-!
Reading whole numbers within a bound. The first fault from the left decides: a character that is
no digit, or the digit that passes the bound.
-/

namespace EntityGraph.Text

inductive IntegerFault where
  | empty
  | invalidDigit
  | tooLarge
  | tooSmall
  deriving DecidableEq, Repr

def IntegerFault.message : IntegerFault → String
  | .empty => "cannot parse integer from empty string"
  | .invalidDigit => "invalid digit found in string"
  | .tooLarge => "number too large to fit in target type"
  | .tooSmall => "number too small to fit in target type"

def digitValue (c : Char) : Nat := c.toNat - '0'.toNat

/-- The digits after a number already read, up to `limit`; `fault` is what passing it means. -/
def readDigits (limit : Nat) (fault : IntegerFault) (value : Nat) :
    List Char → Except IntegerFault Nat
  | [] => .ok value
  | c :: rest =>
    if c.isDigit then
      let next := value * 10 + digitValue c
      if next ≤ limit then readDigits limit fault next rest else .error fault
    else .error .invalidDigit

def readUnsignedDigits (limit : Nat) (fault : IntegerFault) :
    List Char → Except IntegerFault Nat
  | [] => .error .invalidDigit
  | digits => readDigits limit fault 0 digits

def readNat (limit : Nat) (s : String) : Except IntegerFault Nat :=
  match s.toList with
  | [] => .error .empty
  | '+' :: digits => readUnsignedDigits limit .tooLarge digits
  | digits => readDigits limit .tooLarge 0 digits

def readInt64 (s : String) : Except IntegerFault Int :=
  match s.toList with
  | [] => .error .empty
  | '-' :: digits =>
    (readUnsignedDigits 0x8000000000000000 .tooSmall digits).map fun n => -(n : Int)
  | '+' :: digits => (readUnsignedDigits 0x7fffffffffffffff .tooLarge digits).map Int.ofNat
  | digits => (readDigits 0x7fffffffffffffff .tooLarge 0 digits).map Int.ofNat

end EntityGraph.Text
