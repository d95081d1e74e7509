import EntityGraph.Decimal.Shortest

namespace EntityGraph.Decimal

def takeDigits (cs : List Char) : List Char × List Char :=
  (cs.takeWhile Char.isDigit, cs.dropWhile Char.isDigit)

def digitsValue (digits : List Char) : Nat :=
  digits.foldl (fun n c => n * 10 + (c.toNat - '0'.toNat)) 0

def takeSign : List Char → Bool × List Char
  | '-' :: rest => (true, rest)
  | '+' :: rest => (false, rest)
  | rest => (false, rest)

def takeExponent : List Char → Option (Int × List Char)
  | c :: rest =>
    if c = 'e' ∨ c = 'E' then
      let (negative, afterSign) := takeSign rest
      match takeDigits afterSign with
      -- An exponent has a digit at least.
      | ([], _) => none
      | (digits, after) =>
        some (if negative then -(digitsValue digits : Int) else digitsValue digits, after)
    else none
  | [] => none

/-- The floating-point number nearest to `value * 10 ^ exponent`. Exponents so far out that
they decide alone are not computed. -/
def nearest (value : Nat) (exponent : Int) : Float :=
  let weight := exponent + (Nat.toDigits 10 value).length
  if value = 0 ∨ weight < -400 then 0
  else if 400 < weight then Float.ofScientific 1 false 400
  else Float.ofScientific value (exponent < 0) exponent.natAbs

/-- The whole text is a number without its sign: digits on at least one side of a point, an
exponent, or the words for infinity and for no number, in capitals or not. -/
def readSize (cs : List Char) : Option Float :=
  let word := String.ofList (cs.map Char.toLower)
  if word = "inf" ∨ word = "infinity" then some (Float.ofScientific 1 false 400)
  else if word = "nan" then some (0 / 0)
  else
    let (whole, afterWhole) := takeDigits cs
    let (fraction, afterFraction) := match afterWhole with
      | '.' :: rest => takeDigits rest
      | rest => ([], rest)
    if whole.isEmpty && fraction.isEmpty then none
    else
      let value := digitsValue (whole ++ fraction)
      match afterFraction with
      | [] => some (nearest value (-fraction.length))
      | rest =>
        match takeExponent rest with
        | some (exponent, []) => some (nearest value (exponent - fraction.length))
        | _ => none

def read (s : String) : Option Float :=
  match takeSign s.toList with
  | (negative, size) => (readSize size).map fun x => if negative then -x else x

end EntityGraph.Decimal
