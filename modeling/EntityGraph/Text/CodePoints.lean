namespace EntityGraph.Text

def inRanges (n : Nat) : List (Nat × Nat) → Bool
  | [] => false
  | (first, last) :: rest => if n < first then false else n ≤ last || inRanges n rest

/-- A run of characters whose images advance with them: every `step`-th code point from `first`
to `last` goes to the code point as far from `image` as it is from `first`. -/
structure Run where
  first : Nat
  last : Nat
  step : Nat
  image : Nat

def imageIn (n : Nat) : List Run → Nat
  | [] => n
  | r :: rest =>
    if n < r.first then n
    else if n ≤ r.last && (n - r.first) % r.step == 0 then r.image + (n - r.first)
    else imageIn n rest

def mapChar (table : List Run) (c : Char) : Char :=
  let n := imageIn c.toNat table
  if n.isValidChar then Char.ofNat n else c

end EntityGraph.Text
