/-!
# The shortest decimal of a double

Every finite double is read back from infinitely many decimals. The one written here has the
fewest digits, and of those with equally few it is the one nearest to the double.

* `Double`: a double-precision number, given by its bits.
* `Double.parts`: a finite double as `m * 2 ^ q`.
* `Decimal`: digits and the place of the first one.
* `Double.shortest`: the shortest decimal.

All arithmetic is on natural numbers: on the grid of decimals with a given last place, the only
candidates are the two neighbours of the double, and a candidate reads back if it lies between
the midpoints to the next doubles.
-/

namespace Correlator

/-- A double-precision number, given by its sixty-four bits. -/
structure Double where
  bits : UInt64
  deriving DecidableEq, Repr

namespace Double

/-- The double that a machine number is. -/
def ofFloat (x : Float) : Double := ⟨x.toBits⟩

/-- The machine number of a double. -/
def toFloat (x : Double) : Float := Float.ofBits x.bits

/-- Equality as numbers: the two zeros are equal. -/
def sameNumber (x y : Double) : Bool := x.toFloat == y.toFloat

/-- The sign bit. -/
def isNegative (x : Double) : Bool := x.bits >>> 63 == 1

/-- The eleven bits of the exponent. -/
def exponentField (x : Double) : Nat := (x.bits.toNat / Nat.pow 2 52) % 2048

/-- The fifty-two bits of the fraction. -/
def fractionField (x : Double) : Nat := x.bits.toNat % Nat.pow 2 52

/-- Significand and binary exponent: the absolute value is `m * 2 ^ q`. -/
def parts (x : Double) : Nat × Int :=
  if x.exponentField = 0 then (x.fractionField, -1074)
  else (Nat.pow 2 52 + x.fractionField, (x.exponentField : Int) - 1075)

end Double

/-- A decimal `d₁.d₂d₃… * 10 ^ exponent`, by its digits and the exponent of the first one. -/
structure Decimal where
  digits : List Nat
  exponent : Int
  deriving DecidableEq, Repr

namespace Decimal

/-- The point of the grid `10 ^ k` at or below `num / den`. -/
def gridFloor (num den : Nat) (k : Int) : Nat :=
  if k ≤ 0 then num * Nat.pow 10 (-k).toNat / den
  else num / (den * Nat.pow 10 k.toNat)

/-- Whether `d * 10 ^ k` lies between `lowNum / den` and `highNum / den`; the ends count if
`closed`. -/
def within (d : Nat) (k : Int) (lowNum highNum den : Nat) (closed : Bool) : Bool :=
  let x := if k ≤ 0 then d else d * Nat.pow 10 k.toNat
  let scale := if k ≤ 0 then Nat.pow 10 (-k).toNat else 1
  if closed then lowNum * scale ≤ x * den && x * den ≤ highNum * scale
  else lowNum * scale < x * den && x * den < highNum * scale

/-- How `num / den` lies to the midpoint of `d` and `d + 1` on the grid `10 ^ k`. -/
def compareMidpoint (num den d : Nat) (k : Int) : Ordering :=
  if k ≤ 0 then compare (2 * num * Nat.pow 10 (-k).toNat) ((2 * d + 1) * den)
  else compare (2 * num) ((2 * d + 1) * den * Nat.pow 10 k.toNat)

/-- The candidate of the grid `10 ^ k` that reads back, if there is one: the nearer of the two
neighbours, and of two that are equally near the even one. -/
def candidate? (num den lowNum highNum : Nat) (closed : Bool) (k : Int) : Option Nat :=
  let d := gridFloor num den k
  let down := 0 < d && within d k lowNum highNum den closed
  let up := within (d + 1) k lowNum highNum den closed
  match down, up with
  | false, false => none
  | true, false => some d
  | false, true => some (d + 1)
  | true, true =>
    match compareMidpoint num den d k with
    | .lt => some d
    | .gt => some (d + 1)
    | .eq => some (if d % 2 = 0 then d else d + 1)

/-- The first grid with a candidate, from the one of the last place `k` on to finer ones. -/
def search (num den lowNum highNum : Nat) (closed : Bool) (k : Int) : Nat → Nat × Int
  | 0 => (gridFloor num den k, k)
  | n + 1 =>
    match candidate? num den lowNum highNum closed k with
    | some d => (d, k)
    | none => search num den lowNum highNum closed (k - 1) n

/-- The decimal digits of a number, first digit first. -/
def digitsOf (n : Nat) : List Nat := (Nat.toDigits 10 n).map fun c => c.toNat - 48

/-- A number `d * 10 ^ k` in digits, without the zeros at its end. -/
def ofGrid (d : Nat) (k : Int) : Decimal :=
  let ds := digitsOf d
  let kept := (ds.reverse.dropWhile (· == 0)).reverse
  ⟨kept, k + (ds.length : Int) - 1⟩

/-- An exponent of ten above `num / den`, at most ten times too large. -/
def magnitude (num den : Nat) : Int :=
  if den ≤ num then (digitsOf (num / den)).length
  else 2 - ((digitsOf (den / num)).length : Int)

end Decimal

namespace Double

/-- The fewest digits that read back as the double; of equally few, the nearest. Zero has no
digits. -/
def shortest (x : Double) : Decimal :=
  let (m, q) := x.parts
  if m = 0 then ⟨[], 0⟩
  else
    -- in quarters of the last binary place, so that the midpoints are whole
    let low := 4 * m - (if m = Nat.pow 2 52 ∧ 1 < x.exponentField then 1 else 2)
    let high := 4 * m + 2
    let up := if 2 ≤ q then Nat.pow 2 (q - 2).toNat else 1
    let den := if 2 ≤ q then 1 else Nat.pow 2 (2 - q).toNat
    let num := 4 * m * up
    let (d, k) := Decimal.search num den (low * up) (high * up) (m % 2 == 0)
      (Decimal.magnitude num den) 19
    Decimal.ofGrid d k

end Double

end Correlator
