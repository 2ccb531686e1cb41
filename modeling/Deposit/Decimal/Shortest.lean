set_option autoImplicit false
set_option relaxedAutoImplicit false

/-!
The shortest decimal of a binary floating-point number. A finite positive number is `m * 2 ^ q`; the
reals that round to it form an interval around it. Of the decimals with one digit, then two, and so
on, the first inside that interval is taken, the nearer one where a grid offers two. All arithmetic
is on natural numbers, scaled so that nothing is rounded.
-/

namespace Deposit.Decimal

def leadingBit : Nat := 0x10000000000000

/-- The significand and the binary exponent of the bits of a finite number other than zero. -/
def decode (bits : UInt64) : Nat × Int :=
  let exponent := ((bits >>> 52) &&& 0x7ff).toNat
  let fraction := (bits &&& 0xfffffffffffff).toNat
  if exponent = 0 then (fraction, -1074) else (fraction + leadingBit, (exponent : Int) - 1075)

/-- An interval of positive reals over one denominator, and the value inside it. -/
structure Interval where
  low : Nat
  value : Nat
  high : Nat
  denominator : Nat
  closed : Bool

/-- The reals that round to `m * 2 ^ q`, the ends included when `m` is even. -/
def Interval.around (m : Nat) (q : Int) : Interval :=
  let below := if m = leadingBit ∧ -1074 < q then 1 else 2
  let scale := Nat.pow 2 (q - 2).toNat
  { low := (4 * m - below) * scale
    value := 4 * m * scale
    high := (4 * m + 2) * scale
    denominator := Nat.pow 2 (2 - q).toNat
    closed := m % 2 = 0 }

/-- Whether `n / d` lies in the interval. -/
def Interval.holds (i : Interval) (n d : Nat) : Bool :=
  let a := n * i.denominator
  if i.closed then i.low * d ≤ a && a ≤ i.high * d else i.low * d < a && a < i.high * d

/-- The power of ten of the leading digit of a positive fraction. -/
def leading (n d : Nat) : Int :=
  if d ≤ n then (Nat.toDigits 10 (n / d)).length - 1
  else
    let k := (Nat.toDigits 10 (d / n)).length - 1
    if d ≤ n * Nat.pow 10 k then -(k : Int) else -((k : Int) + 1)

/-- The decimal with the given number of digits that lies in the interval and is nearest to its
value, if there is one, as digits and a power of ten. -/
def Interval.onGrid? (i : Interval) (digits : Nat) : Option (Nat × Int) :=
  let e := leading i.value i.denominator - digits + 1
  let up := Nat.pow 10 e.toNat
  let down := Nat.pow 10 (-e).toNat
  let n := i.value * down / (i.denominator * up)
  let inLow := i.holds (n * up) down
  let inHigh := i.holds ((n + 1) * up) down
  let twice := 2 * i.value * down
  let middle := (2 * n + 1) * (i.denominator * up)
  if inLow && inHigh then
    if twice < middle || (twice = middle && n % 2 = 0) then some (n, e) else some (n + 1, e)
  else if inLow then some (n, e)
  else if inHigh then some (n + 1, e)
  else none

/-- The digits and the power of ten of the shortest decimal in the interval. -/
def Interval.shortest (i : Interval) : Nat × Int :=
  ((List.range 17).findSome? fun k => i.onGrid? (k + 1)).getD (0, 0)

end Deposit.Decimal
