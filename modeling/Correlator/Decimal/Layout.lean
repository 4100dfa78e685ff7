import Correlator.Decimal.Shortest

/-!
# Writing doubles

* `Layout`: the choices that a format leaves open.
* `Double.write`: the text of a double in a layout.
-/

namespace Correlator

/-- The choices in writing a decimal: from which exponent on and below which it is written with
an exponent, and what marks the exponent. -/
structure Layout where
  /-- The least exponent of the first digit that is written without an exponent. -/
  leastPlain : Int
  /-- The least exponent of the first digit, above zero, that is written with an exponent. -/
  leastLarge : Int
  /-- Written before an exponent that is not negative. -/
  plus : List Char

namespace Decimal

/-- The characters of digits. -/
def digitChars (ds : List Nat) : List Char := ds.map fun d => Char.ofNat (48 + d)

/-- The characters of an integer. -/
def intChars (n : Int) : List Char :=
  if n < 0 then '-' :: Nat.toDigits 10 n.natAbs else Nat.toDigits 10 n.natAbs

/-- Digits with the point at its place and at least one digit on both sides of it. -/
def plain (ds : List Nat) (exponent : Int) : List Char :=
  if exponent < 0 then
    '0' :: '.' :: List.replicate ((-exponent).toNat - 1) '0' ++ digitChars ds
  else
    let whole := exponent.toNat + 1
    let before := ds.take whole
    let after := ds.drop whole
    digitChars before ++ List.replicate (whole - before.length) '0' ++
      '.' :: (if after.isEmpty then ['0'] else digitChars after)

/-- Digits with the point after the first one, and the exponent. -/
def withExponent (layout : Layout) (ds : List Nat) (exponent : Int) : List Char :=
  let fraction := match ds.drop 1 with
    | [] => []
    | rest => '.' :: digitChars rest
  digitChars (ds.take 1) ++ fraction ++
    'e' :: (if exponent < 0 then [] else layout.plus) ++ intChars exponent

end Decimal

namespace Double

/-- The text of a finite double: its shortest decimal, with a point and a digit after it unless
it has an exponent. -/
def write (layout : Layout) (x : Double) : List Char :=
  let d := x.shortest
  let sign := if x.isNegative then ['-'] else []
  if d.digits.isEmpty then sign ++ ['0', '.', '0']
  else if layout.leastPlain ≤ d.exponent ∧ d.exponent < layout.leastLarge then
    sign ++ Decimal.plain d.digits d.exponent
  else sign ++ Decimal.withExponent layout d.digits d.exponent

end Double

end Correlator
