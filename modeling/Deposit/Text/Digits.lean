set_option autoImplicit false
set_option relaxedAutoImplicit false

/-!
Numbers written in a positional system, with or without a fixed width.
-/

namespace Deposit.Text

/-- The number in a base from 2 to 16, at least `width` digits wide, filled up with zeros. -/
def digits (base width n : Nat) : List Char :=
  let ds := Nat.toDigits base n
  List.replicate (width - ds.length) '0' ++ ds

def decimal (n : Nat) : String :=
  String.ofList (Nat.toDigits 10 n)

/-- The decimal digits of an integer, after a minus sign if it is negative. -/
def decimalInt (n : Int) : String :=
  if n < 0 then "-" ++ decimal n.natAbs else decimal n.natAbs

/-- The hexadecimal digits of a number, at least `width` of them. -/
def hexDigits (width n : Nat) : String :=
  String.ofList (digits 16 width n)

def hexValue? (c : Char) : Option Nat :=
  if '0' ≤ c ∧ c ≤ '9' then some (c.toNat - 48)
  else if 'a' ≤ c ∧ c ≤ 'f' then some (c.toNat - 87)
  else if 'A' ≤ c ∧ c ≤ 'F' then some (c.toNat - 55)
  else none

/-- The number that a run of decimal digits stands for, the first digit weighing most. -/
def ofDecimalDigits (cs : List Char) : Nat :=
  cs.foldl (fun n c => n * 10 + (c.toNat - 48)) 0

end Deposit.Text
