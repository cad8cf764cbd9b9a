namespace ChatRelay

/-- The number `± significand · 10 ^ exponent`. -/
structure Decimal where
  negative : Bool
  significand : Nat
  exponent : Int
deriving DecidableEq, Repr

namespace Decimal

/-- A positive binary number `significand · 2 ^ exponent`. Where the significand is the least of its
binade, the neighbor below is only half as far away as the one above. -/
structure Binary where
  significand : Nat
  exponent : Int
  leastOfBinade : Bool

namespace Binary

/-- Quarters of the spacing, counted on the grid of step `10 ^ k`: `x` quarters are
`x * numerator / denominator` steps. -/
def numerator (b : Binary) (k : Int) : Nat :=
  Nat.pow 2 (b.exponent - 2).toNat * Nat.pow 10 (-k).toNat

def denominator (b : Binary) (k : Int) : Nat :=
  Nat.pow 2 (2 - b.exponent).toNat * Nat.pow 10 k.toNat

/-- Whether `n · 10 ^ k` rounds to the number: it lies between the halfway points to the two
neighbors, which themselves round to it when the significand is even. -/
def roundsFrom (b : Binary) (n : Nat) (k : Int) : Bool :=
  let low := (4 * b.significand - if b.leastOfBinade then 1 else 2) * b.numerator k
  let high := (4 * b.significand + 2) * b.numerator k
  let point := n * b.denominator k
  if b.significand % 2 = 0 then low ≤ point && point ≤ high else low < point && point < high

/-- The point of the grid of step `10 ^ k` that is nearest to the number among those that round to
it, an even one if two are equally near. -/
def nearest? (b : Binary) (k : Int) : Option Nat :=
  let value := 4 * b.significand * b.numerator k
  let unit := b.denominator k
  let below := value / unit
  match b.roundsFrom below k, b.roundsFrom (below + 1) k with
  | false, false => none
  | true, false => some below
  | false, true => some (below + 1)
  | true, true =>
    let down := value - below * unit
    let up := (below + 1) * unit - value
    if down < up || (down = up && below % 2 = 0) then some below else some (below + 1)

/-- The grids of step `10 ^ k` from coarse to fine; the first with a point that rounds to the number
gives the fewest digits. -/
def shortest (b : Binary) : Option (Nat × Int) :=
  (List.range 660).findSome? fun i =>
    let k : Int := 310 - (i : Nat)
    (b.nearest? k).map (·, k)

end Binary

def fractions : Nat := 0x10000000000000

def binaryOfFloat (f : Float) : Bool × Option Binary :=
  let bits : Nat := f.toBits.toNat
  let fraction : Nat := bits % fractions
  let biased : Nat := bits / fractions % 0x800
  let magnitude : Option Binary :=
    if biased = 0 then
      if fraction = 0 then none else some ⟨fraction, -1074, false⟩
    else some ⟨fractions + fraction, (biased : Int) - 1075, fraction = 0 && 1 < biased⟩
  (decide (0x8000000000000000 ≤ bits), magnitude)

/-- The shortest decimal of a finite double. -/
def ofFloat (f : Float) : Decimal :=
  let (negative, magnitude) := binaryOfFloat f
  match magnitude.bind Binary.shortest with
  | none => ⟨negative, 0, 0⟩
  | some (significand, exponent) => ⟨negative, significand, exponent⟩

/-- How decimals are written: the powers of ten of the first digit that are written out in full. -/
structure Style where
  leastFull : Int
  greatestFull : Int

/-- Writes a decimal with at least one digit on either side of the point, or with a signed power of
ten after the digits. -/
def text (style : Style) (d : Decimal) : String :=
  let sign := if d.negative then "-" else ""
  let digits := (toString d.significand).toList
  let zeros (n : Nat) : List Char := List.replicate n '0'
  let leading : Int := d.exponent + digits.length - 1
  if d.significand = 0 then sign ++ "0.0"
  else if style.leastFull ≤ leading && leading ≤ style.greatestFull then
    if 0 ≤ d.exponent then
      sign ++ String.ofList (digits ++ zeros d.exponent.toNat) ++ ".0"
    else if 0 ≤ leading then
      let whole := leading.toNat + 1
      sign ++ String.ofList (digits.take whole) ++ "." ++ String.ofList (digits.drop whole)
    else
      sign ++ "0." ++ String.ofList (zeros (-leading - 1).toNat ++ digits)
  else
    let mantissa := match digits with
      | [] => ""
      | [c] => String.ofList [c]
      | c :: cs => String.ofList (c :: '.' :: cs)
    let mark := if leading < 0 then "e-" else "e+"
    sign ++ mantissa ++ mark ++ toString leading.natAbs

end Decimal

end ChatRelay
