import EntityGraph.Decimal.Shortest

namespace EntityGraph.Decimal

def Binary.whole? (b : Binary) : Option Int :=
  let size :=
    if 0 ≤ b.exponent then some (b.significand * Nat.pow 2 b.exponent.toNat)
    else if b.significand % Nat.pow 2 (-b.exponent).toNat = 0 then
      some (b.significand / Nat.pow 2 (-b.exponent).toNat)
    else none
  size.map fun n => if b.negative then -(n : Int) else n

def fitsInt64 (n : Int) : Bool := -0x8000000000000000 ≤ n && n < 0x8000000000000000

def exactInt64? (x : Float) : Option Int :=
  ((Binary.ofFloat? x).bind Binary.whole?).filter fitsInt64

end EntityGraph.Decimal
