/-!
# The shortest decimal of a binary number

A finite double is `mantissa · 2^exponent`. The reals that round to it form an interval around it,
which contains its ends when the mantissa is even. Of the decimals in that interval the ones with
the fewest digits are taken, and of those the nearest.
-/
namespace BucketTransfer

/-- A decimal `digits · 10^exponent`. -/
structure Decimal where
  digits : Nat
  exponent : Int
  deriving Repr

namespace Decimal

/-- A positive number `mantissa · 2^exponent`; `atEdge` says that the gap below it is half the gap
above. -/
structure Binary where
  mantissa : Nat
  exponent : Int
  atEdge : Bool
  deriving Repr

/-- The magnitude of a finite double, from its bits. -/
def Binary.ofBits (bits : UInt64) : Binary :=
  let n := bits.toNat
  let fraction : Nat := n % 0x10000000000000
  let biased : Nat := n / 0x10000000000000 % 0x800
  if biased = 0 then ⟨fraction, -1074, false⟩
  else ⟨0x10000000000000 + fraction, (biased : Int) - 1075, fraction == 0 && biased != 1⟩

/-- A fraction of natural numbers. -/
structure Fraction where
  num : Nat
  den : Nat

/-- `n · 2^e` as a fraction. -/
def Fraction.binary (n : Nat) (e : Int) : Fraction :=
  if 0 ≤ e then ⟨n <<< e.toNat, 1⟩ else ⟨n, 1 <<< (-e).toNat⟩

/-- `q / 10^e`. -/
def Fraction.perPowerOfTen (q : Fraction) (e : Int) : Fraction :=
  if 0 ≤ e then ⟨q.num, q.den * Nat.pow 10 e.toNat⟩
  else ⟨q.num * Nat.pow 10 (-e).toNat, q.den⟩

def Fraction.floor (q : Fraction) : Nat := q.num / q.den

/-- The greatest `e` with `10^e ≤ q`, sought downward from a power of ten above `q`. -/
def leadingExponent (q : Fraction) : Nat → Int → Int
  | 0, e => e
  | steps + 1, e => if 1 ≤ (q.perPowerOfTen e).floor then e else leadingExponent q steps (e - 1)

/-- The nearer of the two neighbours of `x` on the grid of step `10^step` that round to `x`, if any
does. -/
def onGrid (x : Binary) (step : Int) : Option Decimal :=
  let unit := x.exponent - 2
  let value := (Fraction.binary (4 * x.mantissa) unit).perPowerOfTen step
  let high := (Fraction.binary (4 * x.mantissa + 2) unit).perPowerOfTen step
  let low := (Fraction.binary (4 * x.mantissa - if x.atEdge then 1 else 2) unit).perPowerOfTen step
  let closed := x.mantissa % 2 == 0
  let inside (n : Nat) : Bool :=
    if closed then decide (low.num ≤ n * low.den) && decide (n * high.den ≤ high.num)
    else decide (low.num < n * low.den) && decide (n * high.den < high.num)
  let below := value.floor
  let above := below + 1
  let nearerBelow : Bool :=
    let twice := 2 * value.num
    let middle := (below + above) * value.den
    decide (twice < middle) || (decide (twice = middle) && below % 2 == 0)
  match inside below && decide (0 < below), inside above with
  | true, true => some ⟨if nearerBelow then below else above, step⟩
  | true, false => some ⟨below, step⟩
  | false, true => some ⟨above, step⟩
  | false, false => none

/-- Tries grids of one digit, two digits and so on, `count` of them. -/
def firstOnGrid (x : Binary) : Nat → Int → Decimal
  | 0, _ => ⟨x.mantissa, 0⟩
  | count + 1, step =>
    match onGrid x step with
    | some d => d
    | none => firstOnGrid x count (step - 1)

/-- The same decimal without zeros at the end of its digits, up to `count` of them. -/
def withoutZeros (d : Decimal) : Nat → Decimal
  | 0 => d
  | count + 1 =>
    if d.digits % 10 = 0 then (⟨d.digits / 10, d.exponent + 1⟩ : Decimal).withoutZeros count else d

/-- The shortest decimal that rounds to a positive binary number. The upper neighbour can be a power
of ten, hence the zeros to remove. -/
def shortest (x : Binary) : Decimal :=
  let leading := leadingExponent (Fraction.binary x.mantissa x.exponent) 640 309
  (firstOnGrid x 17 leading).withoutZeros 17

end Decimal

end BucketTransfer
