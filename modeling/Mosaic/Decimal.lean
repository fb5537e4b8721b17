/-! Decimal numbers, and doubles, which are the numbers of 64 bits with a binary exponent. Of a
decimal number one asks for the nearest double, and of a double for the decimal number of the
fewest digits that is nearest to it. Both are worked out without rounding on the way. -/
namespace Mosaic

/-- The number `digits` times ten to the `exponent`. -/
structure Decimal where
  digits : Nat
  exponent : Int
deriving DecidableEq

/-- A double from zero on, by its place among all of them in ascending order. -/
structure Double where
  place : Nat
deriving DecidableEq

/-- A quotient rounded to the nearest number, and to the even one where two are as near. -/
def roundDiv (n d : Nat) : Nat :=
  let twice := 2 * (n % d)
  if twice < d ∨ twice = d ∧ n / d % 2 = 0 then n / d else n / d + 1

def Decimal.figures (d : Decimal) : List Char := Nat.toDigits 10 d.digits

/-- The number of places before the point; it is negative where zeros follow the point. -/
def Decimal.size (d : Decimal) : Int := d.figures.length + d.exponent

namespace Double

/-- How many doubles have the same binary exponent. -/
def perExponent : Nat := 1 <<< 52

/-- Whether the place is one of a finite double: there are 2047 binary exponents. -/
def isFinite (x : Double) : Bool := x.place < 2047 * perExponent

/-- The least double above zero, the unit of all others, is two to minus this. -/
def unitExponent : Nat := 1074

/-- The value in units. Neighbours of the first two binary exponents are one unit apart, and each
further exponent doubles that. -/
def units (x : Double) : Nat :=
  let scale := x.place / perExponent
  if scale = 0 then x.place else (perExponent + x.place % perExponent) <<< (scale - 1)

/-- The double nearest to `n / d` units, where neighbours are two to the `scale` units apart. -/
def ofUnits (n d : Nat) : Double :=
  let scale := (n / d).log2 - 52
  ⟨scale * perExponent + roundDiv n (d <<< scale)⟩

/-- The value as a quotient, in units of ten to the `exponent`. -/
def ratio (x : Double) (exponent : Int) : Nat × Nat :=
  if 0 ≤ exponent then (x.units, Nat.pow 10 exponent.natAbs <<< unitExponent)
  else (x.units * Nat.pow 10 exponent.natAbs, 1 <<< unitExponent)

/-- The value itself: each half in a unit is five tenths. -/
def exact (x : Double) : Decimal := ⟨x.units * Nat.pow 5 unitExponent, -unitExponent⟩

end Double

namespace Decimal

/-- The nearest double. A number of more than 400 places before the point is beyond every double,
and one with as many zeros behind it is as good as zero. -/
def nearest (d : Decimal) : Double :=
  if d.digits = 0 ∨ d.size < -400 then ⟨0⟩
  else if 400 < d.size then ⟨2047 * Double.perExponent⟩
  else if 0 ≤ d.exponent then
    .ofUnits ((d.digits * Nat.pow 10 d.exponent.natAbs) <<< Double.unitExponent) 1
  else .ofUnits (d.digits <<< Double.unitExponent) (Nat.pow 10 d.exponent.natAbs)

/-- The number with a point in its place, and without zeros that could be left out. -/
def text (d : Decimal) : String :=
  let scale := d.exponent.natAbs
  let (whole, part) :=
    if 0 ≤ d.exponent then (d.figures ++ List.replicate scale '0', [])
    else
      let padded := List.replicate (scale + 1 - d.figures.length) '0' ++ d.figures
      (padded.take (padded.length - scale), padded.drop (padded.length - scale))
  let trimmed := whole.dropWhile (· == '0')
  let whole := if trimmed.isEmpty then ['0'] else trimmed
  let part := (part.reverse.dropWhile (· == '0')).reverse
  String.ofList (whole ++ if part.isEmpty then [] else '.' :: part)

end Decimal

namespace Double

/-- The multiple of ten to the `exponent` to which a double is nearest. Of the two beside it the
closer one is tried first, and the greater one where both are as close. -/
def onGrid? (x : Double) (exponent : Int) : Option Decimal :=
  let (n, d) := x.ratio exponent
  let below : Decimal := ⟨n / d, exponent⟩
  let above : Decimal := ⟨n / d + 1, exponent⟩
  let candidates := if 2 * (n % d) < d then [below, above] else [above, below]
  candidates.find? fun candidate => candidate.nearest == x

/-- The decimal number of the fewest digits to which a double is nearest: the first that is found
where the grids go from coarse to fine. -/
def shortest (x : Double) : Decimal :=
  ((List.range 640).findSome? fun (i : Nat) => x.onGrid? (310 - i)).getD x.exact

end Double

end Mosaic
