/-
  `Text.Decimal`: floating-point numbers in the fewest decimal digits.

  A floating-point number stands for all reals that are rounded to it.  It is
  written as the decimal among these reals that has the fewest digits; of several
  such decimals the nearest to the number is taken, and of two that are equally
  near the even one.  All of this is exact arithmetic on the bits of the number.
-/
import RelCalc.Text.Words

set_option autoImplicit false

namespace RelCalc.Text

/-- A positive floating-point number, `mantissa * 2 ^ exponent`. -/
structure Binary where
  mantissa : Nat
  exponent : Int
  /-- The number below is half as far away as the number above. -/
  narrowBelow : Bool
  deriving DecidableEq, Repr, Inhabited

/-- A decimal, `digits * 10 ^ exponent`. -/
structure Decimal where
  digits : Nat
  exponent : Int
  deriving DecidableEq, Repr, Inhabited

/-- A power of two. -/
def twoTo (n : Nat) : Nat := Nat.pow 2 n

/-- A power of ten. -/
def tenTo (n : Nat) : Nat := Nat.pow 10 n

/-- The number that the lower 63 bits of a finite floating-point number stand for. -/
def Binary.ofBits (bits : Nat) : Binary :=
  let fraction := bits % twoTo 52
  let biased : Nat := bits / twoTo 52 % twoTo 11
  if biased = 0 then ⟨fraction, -1074, false⟩
  else ⟨twoTo 52 + fraction, Int.ofNat biased - 1075, decide (fraction = 0 ∧ 1 < biased)⟩

/-- `a * 10 ^ i ≤ b * 2 ^ j`, without fractions. -/
def atMost (a : Nat) (i : Int) (b : Nat) (j : Int) : Bool :=
  a * tenTo i.toNat * twoTo (-j).toNat ≤ b * twoTo j.toNat * tenTo (-i).toNat

/-- `a * 10 ^ i ≥ b * 2 ^ j`, without fractions. -/
def atLeast (a : Nat) (i : Int) (b : Nat) (j : Int) : Bool :=
  b * twoTo j.toNat * tenTo (-i).toNat ≤ a * tenTo i.toNat * twoTo (-j).toNat

namespace Binary

/-- A decimal is among the reals that are rounded to a number.  These reach half way to
the numbers below and above; both ends belong to them when the mantissa is even. -/
def covers (x : Binary) (d : Decimal) : Bool :=
  let low := 4 * x.mantissa - (if x.narrowBelow then 1 else 2)
  let high := 4 * x.mantissa + 2
  let unit := x.exponent - 2
  if x.mantissa % 2 = 0 then
    atLeast d.digits d.exponent low unit && atMost d.digits d.exponent high unit
  else
    !atMost d.digits d.exponent low unit && !atLeast d.digits d.exponent high unit

/-- The number in units of a power of ten, rounded down. -/
def floorAt (x : Binary) (exponent : Int) : Nat :=
  x.mantissa * twoTo x.exponent.toNat * tenTo (-exponent).toNat /
    (tenTo exponent.toNat * twoTo (-x.exponent).toNat)

/-- The decimals next to the number in units of a power of ten, the nearer one first and
of two that are equally near the even one. -/
def neighbours (x : Binary) (exponent : Int) : List Decimal :=
  let below := x.floorAt exponent
  let lower : Decimal := ⟨below, exponent⟩
  let upper : Decimal := ⟨below + 1, exponent⟩
  let middle := 2 * below + 1
  let unit := x.exponent + 1
  let lowerFirst :=
    if atMost middle exponent x.mantissa unit then
      atLeast middle exponent x.mantissa unit && decide (below % 2 = 0)
    else true
  if lowerFirst then [lower, upper] else [upper, lower]

/-- The exponents of the powers of ten that can be the unit, from the coarsest on. -/
def unitExponents : List Int := (List.range 633).map fun n => 308 - Int.ofNat n

/-- The decimal with the fewest digits that is rounded to the number: the coarsest unit
in which a neighbour is rounded to it. -/
def shortest (x : Binary) : Decimal :=
  (unitExponents.findSome? fun exponent => (x.neighbours exponent).find? x.covers).getD
    ⟨x.mantissa * twoTo x.exponent.toNat, 0⟩

end Binary

/-- So many zeros. -/
def zeros (count : Nat) : List Char := List.replicate count '0'

/-- The digits of a number in base ten. -/
def digitChars (n : Nat) : List Char := Nat.toDigits 10 n

/-- An exponent has a sign and at least two digits. -/
def exponentChars (exponent : Int) : List Char :=
  let digits := digitChars exponent.natAbs
  'e' :: (if exponent < 0 then '-' else '+') :: zeros (2 - digits.length) ++ digits

/-- Digits with a point before the place where the units end, and a digit on both sides of it. -/
def pointed (digits : List Char) (place : Int) : List Char :=
  if place ≤ 0 then '0' :: '.' :: zeros (-place).toNat ++ digits
  else
    let fraction := digits.drop place.toNat
    digits.take place.toNat ++ zeros (place.toNat - digits.length) ++
      '.' :: (if fraction.isEmpty then ['0'] else fraction)

/-- Digits with a point after the first one, if there are more. -/
def scientific (digits : List Char) : List Char :=
  match digits with
  | first :: second :: rest => first :: '.' :: second :: rest
  | _ => digits

/-- Decimals from `10 ^ -4` up to `10 ^ 16` are written with a point; the others have an
exponent. -/
def Decimal.chars (d : Decimal) : List Char :=
  let digits := digitChars d.digits
  let place := (digits.length : Int) + d.exponent
  if -4 < place ∧ place ≤ 16 then pointed digits place
  else scientific digits ++ exponentChars (place - 1)

/-- A floating-point number without its sign, by the lower 63 bits. -/
def magnitudeText (bits : Nat) : String :=
  if 0x7ff * twoTo 52 < bits then "nan"
  else if bits = 0x7ff * twoTo 52 then "inf"
  else if bits = 0 then "0.0"
  else String.ofList (Binary.ofBits bits).shortest.chars

/-- A floating-point number in the fewest decimal digits. -/
def decimalText (x : Float) : String :=
  let bits := x.toBits.toNat
  let magnitude := magnitudeText (bits % twoTo 63)
  if twoTo 63 ≤ bits && magnitude != "nan" then "-" ++ magnitude else magnitude

end RelCalc.Text
