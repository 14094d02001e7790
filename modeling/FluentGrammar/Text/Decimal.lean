/-
  Decimal text of binary fractions: the fewest digits that read back as the same number. Numbers
  of a common size are written without an exponent and always with a fractional part, all others
  with an exponent. All arithmetic is exact.
-/

namespace FluentGrammar.Text

/-- A decimal number `digits * 10 ^ exponent`. -/
structure Decimal where
  digits : Nat
  exponent : Int
  deriving Repr, DecidableEq

/-- The ratio `n * base ^ e` as a numerator and a denominator. -/
def scaleBy (base n : Nat) (e : Int) : Nat × Nat :=
  if 0 ≤ e then (n * Nat.pow base e.toNat, 1) else (n, Nat.pow base (-e).toNat)

/-- The decimal of `count` digits nearest to `value / den` that lies between `low / den` and
    `high / den`, if there is one. `exponent` places the last digit; with `closed` the ends
    belong to the interval. -/
def decimalWithin? (low value high den : Nat) (closed : Bool) (exponent : Int) : Option Decimal :=
  let (unitNum, unitDen) := scaleBy 10 1 exponent
  let scaled := value * unitDen
  let step := den * unitNum
  let inside (n : Nat) : Bool :=
    if closed then low * unitDen ≤ n * step && n * step ≤ high * unitDen
    else low * unitDen < n * step && n * step < high * unitDen
  let below := scaled / step
  let above := below + 1
  let nearerAbove := scaled - below * step > above * step - scaled
  if inside below && !(inside above && nearerAbove) then some ⟨below, exponent⟩
  else if inside above then some ⟨above, exponent⟩
  else none

/-- The shortest decimal that rounds to `mantissa * 2 ^ exponent`. The gap to the next number
    below is halved when `narrow` holds. -/
def shortestDecimal (mantissa : Nat) (exponent : Int) (narrow : Bool) : Decimal :=
  let low := 4 * mantissa - (if narrow then 1 else 2)
  let high := 4 * mantissa + 2
  let (factor, den) := scaleBy 2 1 (exponent - 2)
  let value := 4 * mantissa * factor
  let magnitude : Int := (Nat.toDigits 10 (value * Nat.pow 10 400 / den)).length - 400
  let found := (List.range 17).findSome? fun i =>
    decimalWithin? (low * factor) value (high * factor) den (mantissa % 2 == 0)
      (magnitude - ((i + 1 : Nat) : Int))
  found.getD ⟨0, 0⟩

/-- The decimal without an exponent, with at least one digit on both sides of the point. -/
def Decimal.positional (d : Decimal) : String :=
  let digits := Nat.toDigits 10 d.digits
  if 0 ≤ d.exponent then
    String.ofList (digits ++ List.replicate d.exponent.toNat '0') ++ ".0"
  else
    let places := (-d.exponent).toNat
    let padded := List.replicate (places + 1 - digits.length) '0' ++ digits
    let cut := padded.length - places
    let fraction := ((padded.drop cut).reverse.dropWhile (· == '0')).reverse
    String.ofList (padded.take cut) ++ "." ++
      (if fraction.isEmpty then "0" else String.ofList fraction)

/-- The decimal with one digit before the point and a signed exponent. A lone digit has no
    point. -/
def Decimal.scientific (d : Decimal) : String :=
  let digits := Nat.toDigits 10 d.digits
  let power : Int := d.exponent + digits.length - 1
  let fraction := (digits.tail.reverse.dropWhile (· == '0')).reverse
  String.ofList (digits.take 1) ++
    (if fraction.isEmpty then "" else "." ++ String.ofList fraction) ++
    "e" ++ (if 0 ≤ power then "+" else "-") ++ toString power.natAbs

/-- The decimal as it is written: with an exponent from `10 ^ 16` on and below `10 ^ (-5)`. -/
def Decimal.text (d : Decimal) : String :=
  let size : Int := d.exponent + (Nat.toDigits 10 d.digits).length
  if -5 < size ∧ size ≤ 16 then d.positional else d.scientific

/-- The decimal text of a floating point number, which must be finite. -/
def floatText (x : Float) : String :=
  let bits := x.toBits.toNat
  let sign := if bits / Nat.pow 2 63 == 1 then "-" else ""
  let biased : Nat := bits / Nat.pow 2 52 % Nat.pow 2 11
  let fraction := bits % Nat.pow 2 52
  if biased == 0 && fraction == 0 then sign ++ "0.0"
  else if biased == 0 then sign ++ (shortestDecimal fraction (-1074) false).text
  else
    let narrow := fraction == 0 && biased > 1
    sign ++ (shortestDecimal (Nat.pow 2 52 + fraction) ((biased : Int) - 1075) narrow).text

end FluentGrammar.Text
