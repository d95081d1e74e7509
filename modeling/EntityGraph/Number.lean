import EntityGraph.Decimal.Layout
import EntityGraph.Decimal.Reading
import EntityGraph.Decimal.Whole

/-!
Numbers in data and in documents: integers that fit 64 bits, with a sign or without, and
floating-point numbers. An integer differs from the floating-point number of the same value.
-/

namespace EntityGraph

inductive Number where
  | integer (n : Int)
  | float (x : Float)

namespace Number

protected def beq : Number → Number → Bool
  | .integer m, .integer n => m == n
  | .float x, .float y => x == y
  | _, _ => false

instance : BEq Number := ⟨Number.beq⟩

def text : Number → String
  | .integer n => toString n
  | .float x => Decimal.write .data x

def int64? : Number → Option Int
  | .integer n => if Decimal.fitsInt64 n then some n else none
  | .float _ => none

def toFloat : Number → Float
  | .integer n => Float.ofInt n
  | .float x => x

structure Numeral where
  negative : Bool
  whole : List Char
  fraction : Option (List Char)
  exponent : Option Int

/-- The digits before the point: a zero alone, or digits that begin with another. -/
def scanWhole : List Char → Option (List Char × List Char)
  | '0' :: rest => some (['0'], rest)
  | cs =>
    match Decimal.takeDigits cs with
    | ([], _) => none
    | found => some found

def scanFraction : List Char → Option (List Char) × List Char
  | '.' :: rest =>
    match Decimal.takeDigits rest with
    | ([], _) => (none, '.' :: rest)
    | (digits, after) => (some digits, after)
  | cs => (none, cs)

def scan (cs : List Char) : Option (Numeral × List Char) :=
  let (negative, afterSign) := match cs with
    | '-' :: rest => (true, rest)
    | _ => (false, cs)
  (scanWhole afterSign).map fun (whole, afterWhole) =>
    let (fraction, afterFraction) := scanFraction afterWhole
    -- Without digits after it the letter is no part of the number.
    match Decimal.takeExponent afterFraction with
    | some (exponent, after) => (⟨negative, whole, fraction, some exponent⟩, after)
    | none => (⟨negative, whole, fraction, none⟩, afterFraction)

structure Scaled where
  significand : Nat
  exponent : Int

/-- Digits enter the significand while it fits 64 bits; the first that would not fit ends this,
and the digits from there on are the second part. -/
def takeSignificand (significand : Nat) : List Char → Nat × List Char
  | [] => (significand, [])
  | c :: rest =>
    let next := significand * 10 + (c.toNat - '0'.toNat)
    if next < 0x10000000000000000 then takeSignificand next rest else (significand, c :: rest)

/-- The significand and power of ten of a numeral: what does not fit the significand is dropped,
before the point at the price of a power of ten for each digit. -/
def Numeral.scaled (n : Numeral) : Scaled :=
  let (whole, dropped) := takeSignificand 0 n.whole
  let fraction := n.fraction.getD []
  let (significand, beyond) := takeSignificand whole fraction
  ⟨significand, dropped.length - (fraction.length - beyond.length : Nat) + n.exponent.getD 0⟩

def powerOfTen (n : Nat) : Float := Float.ofScientific 1 false n

/-- The significand rounded, and then multiplied or divided by a power of ten rounded. Too
large a number is none; one that is too small for a single division takes two. -/
def Scaled.toFloat? (s : Scaled) : Option Float :=
  let size := Float.ofInt s.significand
  if s.significand = 0 then some size
  else if 308 < s.exponent then none
  else if 0 ≤ s.exponent then
    let product := size * powerOfTen s.exponent.toNat
    if product.isInf then none else some product
  else if -308 ≤ s.exponent then some (size / powerOfTen (-s.exponent).toNat)
  else if -616 ≤ s.exponent then
    some (size / powerOfTen 308 / powerOfTen (-s.exponent - 308).toNat)
  else some 0

/-- A numeral is an integer when it has neither fraction nor exponent and fits 64 bits; a minus
sign takes a bit, and minus zero is a floating-point number. -/
def Numeral.integer? (n : Numeral) : Option Int :=
  if n.fraction.isSome || n.exponent.isSome then none
  else
    let size := Decimal.digitsValue n.whole
    if n.negative then
      if size = 0 ∨ 0x8000000000000000 < size then none else some (-(size : Int))
    else if size < 0x10000000000000000 then some size
    else none

def Numeral.number? (n : Numeral) : Option Number :=
  match n.integer? with
  | some i => some (.integer i)
  | none => n.scaled.toFloat?.map fun x => .float (if n.negative then -x else x)

end Number

end EntityGraph
