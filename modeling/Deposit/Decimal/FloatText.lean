import Deposit.Decimal.Shortest
import Deposit.Text.Digits
import Deposit.Text.Blank

set_option autoImplicit false
set_option relaxedAutoImplicit false

/-!
Floating-point numbers and integers as text. A number is written with its shortest digits,
positionally when its leading digit weighs at least `10 ^ -4` and less than `10 ^ 16`, otherwise
with an exponent of at least two digits. A number is read from decimal text exactly, with single
underscores between digits, a sign, and blanks around it.
-/

namespace Deposit.Decimal

/-- The written form of digits whose decimal point stands after `point` of them. -/
def layout (ds : List Char) (point : Int) : List Char :=
  if -4 < point ∧ point ≤ 16 then
    if point ≤ 0 then '0' :: '.' :: (List.replicate (-point).toNat '0' ++ ds)
    else
      let whole := ds.take point.toNat
      let rest := ds.drop point.toNat
      whole ++ List.replicate (point.toNat - whole.length) '0' ++
        '.' :: (if rest.isEmpty then ['0'] else rest)
  else
    let e := point - 1
    let tail := if ds.length = 1 then [] else '.' :: ds.drop 1
    ds.take 1 ++ tail ++ 'e' :: (if e < 0 then '-' else '+') :: Text.digits 10 2 e.natAbs

def ofFloat (x : Float) : String :=
  if x.isNaN then "nan"
  else
    let sign := if x.toBits >>> 63 = 1 then "-" else ""
    if x.isInf then sign ++ "inf"
    else if x == 0.0 then sign ++ "0.0"
    else
      let (m, q) := decode x.toBits
      let (n, e) := (Interval.around m q).shortest
      let written := Nat.toDigits 10 n
      let ds := Text.dropTail (· = '0') written
      sign ++ String.ofList (layout ds (written.length + e))

/-- The floating-point number nearest to `digits * 10 ^ exponent`. -/
def toFloat (digits : Nat) (exponent : Int) : Float :=
  if digits = 0 then 0.0
  else
    let size := (Nat.toDigits 10 digits).length
    if (size : Int) + exponent > 320 then 1.0 / 0.0
    else if (size : Int) + exponent < -340 then 0.0
    else if exponent < 0 then Float.ofScientific digits true exponent.natAbs
    else Float.ofScientific digits false exponent.natAbs

def startsWithDigit : List Char → Bool
  | c :: _ => c.isDigit
  | [] => false

/-- Reads digits with single underscores between them, `inside` once a digit has been read; the rest
follows the last digit. -/
def takeDigits (inside : Bool) : List Char → List Char × List Char
  | [] => ([], [])
  | c :: cs =>
    if c.isDigit then
      let (more, rest) := takeDigits true cs
      (c :: more, rest)
    else if c = '_' && inside && startsWithDigit cs then takeDigits false cs
    else ([], c :: cs)

def takeSign : List Char → Bool × List Char
  | '-' :: cs => (true, cs)
  | '+' :: cs => (false, cs)
  | cs => (false, cs)

def exponent? : List Char → Option Int
  | [] => some 0
  | c :: cs =>
    if c = 'e' ∨ c = 'E' then
      let (negative, cs) := takeSign cs
      match takeDigits false cs with
      | (d :: ds, []) =>
        let n : Int := Text.ofDecimalDigits (d :: ds)
        some (if negative then -n else n)
      | _ => none
    else none

/-- Reads an unsigned decimal number with an optional fraction and exponent. -/
def unsigned? (cs : List Char) : Option Float :=
  let (whole, rest) := takeDigits false cs
  let (fraction, rest) :=
    match rest with
    | '.' :: rest => takeDigits false rest
    | _ => ([], rest)
  if whole.isEmpty && fraction.isEmpty then none
  else do
    let e ← exponent? rest
    pure (toFloat (Text.ofDecimalDigits (whole ++ fraction)) (e - fraction.length))

/-- Reads the text of a floating-point number: blanks around it, a sign, decimal digits, or one of
the words for infinity and for an undefined value. -/
def toFloat? (s : String) : Option Float :=
  let (negative, cs) := takeSign (Text.stripWhere Text.isBlankAroundDigits s.toList)
  let word := String.ofList (cs.map Char.toLower)
  let magnitude :=
    if word = "inf" ∨ word = "infinity" then some (1.0 / 0.0)
    else if word = "nan" then some (0.0 / 0.0)
    else unsigned? cs
  magnitude.map fun x => if negative then -x else x

def toInt? (cs : List Char) : Option Int :=
  let (negative, cs) := takeSign (Text.stripWhere Text.isBlankAroundDigits cs)
  match takeDigits false cs with
  | (d :: ds, []) =>
    let n : Int := Text.ofDecimalDigits (d :: ds)
    some (if negative then -n else n)
  | _ => none

end Deposit.Decimal
