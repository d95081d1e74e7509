/-!
The shortest decimal of a floating-point number: of the decimals that round back to the number
those with the fewest digits, and of these the nearest. All arithmetic is on natural numbers.
-/

namespace EntityGraph.Decimal

structure Binary where
  negative : Bool
  significand : Nat
  exponent : Int
  deriving DecidableEq, Repr

def Binary.ofFloat? (x : Float) : Option Binary :=
  let bits := x.toBits.toNat
  let fraction : Nat := bits % Nat.pow 2 52
  let biased : Nat := bits / Nat.pow 2 52 % Nat.pow 2 11
  let negative := bits / Nat.pow 2 63 == 1
  if biased = 2047 then none
  else if biased = 0 then some ⟨negative, fraction, -1074⟩
  else some ⟨negative, fraction + Nat.pow 2 52, (biased : Int) - 1075⟩

structure Digits where
  value : Nat
  exponent : Int
  deriving DecidableEq, Repr

/-- Positive fractions over one denominator: a number and the ends of the interval around it. -/
structure Interval where
  lower : Nat
  value : Nat
  upper : Nat
  denominator : Nat
  closed : Bool

/-- The reals that round to a number lie half way to its neighbours, ends included when the
significand is even. Below a power of two the lower neighbour is at half the distance. -/
def Binary.interval (b : Binary) : Interval :=
  let unit := Nat.pow 2 (b.exponent - 2).toNat
  let below := if b.significand = Nat.pow 2 52 ∧ b.exponent ≠ -1074 then 1 else 2
  { lower := (4 * b.significand - below) * unit
    value := 4 * b.significand * unit
    upper := (4 * b.significand + 2) * unit
    denominator := Nat.pow 2 (2 - b.exponent).toNat
    closed := b.significand % 2 == 0 }

def Interval.inUnits (i : Interval) (exponent : Int) : Interval :=
  let factor := Nat.pow 10 (-exponent).toNat
  { i with
    lower := i.lower * factor
    value := i.value * factor
    upper := i.upper * factor
    denominator := i.denominator * Nat.pow 10 exponent.toNat }

def Interval.holds (i : Interval) (n : Nat) : Bool :=
  let scaled := n * i.denominator
  if i.closed then i.lower ≤ scaled && scaled ≤ i.upper
  else i.lower < scaled && scaled < i.upper

def Interval.nearest? (i : Interval) : Option Nat :=
  let below := i.value / i.denominator
  let twice := 2 * (i.value % i.denominator)
  match i.holds below, i.holds (below + 1) with
  | true, false => some below
  | false, true => some (below + 1)
  | false, false => none
  -- Of two that do the nearer one, and halfway the even one.
  | true, true =>
    some (if twice < i.denominator ∨ (twice = i.denominator ∧ below % 2 = 0) then below
      else below + 1)

def Interval.leading (i : Interval) : Int :=
  ((Nat.toDigits 10 (i.value * Nat.pow 10 400 / i.denominator)).length : Int) - 401

/-- The first grid with a point in the interval, of those in units of `10 ^ exponent` and of the
`more` next finer ones. -/
def Interval.search (i : Interval) (exponent : Int) : (more : Nat) → Digits
  | 0 =>
    let scaled := i.inUnits exponent
    ⟨scaled.value / scaled.denominator, exponent⟩
  | more + 1 =>
    match (i.inUnits exponent).nearest? with
    | some value => ⟨value, exponent⟩
    | none => i.search (exponent - 1) more

/-- Trailing zeros go into the exponent; the bound is on their number. -/
def Digits.strip (d : Digits) : Nat → Digits
  | 0 => d
  | more + 1 =>
    if d.value ≠ 0 ∧ d.value % 10 = 0 then Digits.strip ⟨d.value / 10, d.exponent + 1⟩ more
    else d

/-- The shortest decimal of a number that is not zero. Seventeen digits always suffice. -/
def Binary.shortest (b : Binary) : Digits :=
  let i := b.interval
  (i.search i.leading 17).strip 17

end EntityGraph.Decimal
