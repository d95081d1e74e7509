import EntityGraph.Decimal.Shortest

namespace EntityGraph.Decimal

structure Layout where
  /-- A leading digit of this weight calls for the form with an exponent. -/
  scientific : Int → Bool
  /-- A whole number ends in `.0`. -/
  wholeFraction : Bool

/-- Numbers in data: an exponent from a millionth down and from ten million billions up. -/
def Layout.data : Layout := ⟨fun weight => weight < -5 || 15 < weight, true⟩

def Layout.plain : Layout := ⟨fun _ => false, false⟩

def zeros (n : Nat) : List Char := List.replicate n '0'

def Digits.positional (layout : Layout) (digits : List Char) (exponent : Int) : List Char :=
  let weight := exponent + digits.length - 1
  if 0 ≤ exponent then
    digits ++ zeros exponent.toNat ++ (if layout.wholeFraction then ['.', '0'] else [])
  else if 0 ≤ weight then
    digits.take (weight + 1).toNat ++ ['.'] ++ digits.drop (weight + 1).toNat
  else ['0', '.'] ++ zeros (-weight - 1).toNat ++ digits

def Digits.scientific (digits : List Char) (weight : Int) : List Char :=
  let fraction := match digits.drop 1 with
    | [] => []
    | rest => '.' :: rest
  digits.take 1 ++ fraction ++ ['e', if weight < 0 then '-' else '+'] ++
    Nat.toDigits 10 weight.natAbs

def Digits.write (layout : Layout) (d : Digits) : List Char :=
  let digits := Nat.toDigits 10 d.value
  let weight := d.exponent + digits.length - 1
  if layout.scientific weight then Digits.scientific digits weight
  else Digits.positional layout digits d.exponent

def write (layout : Layout) (x : Float) : String :=
  match Binary.ofFloat? x with
  | none => if x.isNaN then "NaN" else if x < 0 then "-inf" else "inf"
  | some b =>
    let size :=
      if b.significand = 0 then Digits.positional layout ['0'] 0 else b.shortest.write layout
    String.ofList (if b.negative then '-' :: size else size)

end EntityGraph.Decimal
