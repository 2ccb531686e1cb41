import Deposit.Schema.Checked
import Deposit.Decimal.FloatText

set_option autoImplicit false
set_option relaxedAutoImplicit false

/-!
Checks of single values: texts, members of a vocabulary, booleans and integers, the last two also in
the spellings that stand for them.
-/

namespace Deposit.Schema

def text : Json → Checked String
  | .text s => .ok s
  | _ => .fail .string

def optional {α : Type} (check : Json → Checked α) : Json → Checked (Option α)
  | .null => .ok none
  | j => some <$> check j

def member (α : Type) [Vocabulary α] (j : Json) : Checked α :=
  let refused : Checked α := .fail (.member ((Vocabulary.members (α := α)).map Vocabulary.value))
  match j with
  | .text s => ((Vocabulary.ofValue? s).map Checked.ok).getD refused
  | _ => refused

def trueWords : List String :=
  ["true", "t", "yes", "y", "on", "1"]

def falseWords : List String :=
  ["false", "f", "no", "n", "off", "0"]

/-- A boolean, or a word or number for one. -/
def boolean : Json → Checked Bool
  | .bool b => .ok b
  | .int n =>
    if n = 0 then .ok false else if n = 1 then .ok true else .fail .boolParsing
  | .float x =>
    if x == 0.0 then .ok false else if x == 1.0 then .ok true else .fail .bool
  | .text s =>
    let word := String.ofList (s.toList.map Char.toLower)
    if trueWords.contains word then .ok true
    else if falseWords.contains word then .ok false
    else .fail .boolParsing
  | _ => .fail .bool

def splitSign : List Char → Bool × List Char
  | '+' :: cs => (false, cs)
  | '-' :: cs => (true, cs)
  | cs => (false, cs)

/-- The digits of an integer without a tail of zeros after a point. -/
def dropZeroTail (cs : List Char) : List Char :=
  let tail := cs.dropWhile (· ≠ '.')
  if (tail.drop 1).all (· = '0') then cs.takeWhile (· ≠ '.') else cs

def digitLimit : Nat := 4300

/-- An integer in decimal digits, with blanks around it, a sign, underscores between digits and
zeros after a point. -/
def integerText (s : String) : Checked Int :=
  let (negative, unsigned) := splitSign (Text.stripWhere Text.isBlankAroundDigits s.toList)
  let body := dropZeroTail unsigned
  match Decimal.takeDigits false body with
  | (d :: ds, []) =>
    if digitLimit < body.length then .fail .intSize
    else
      let n : Int := Text.ofDecimalDigits (d :: ds)
      .ok (if negative then -n else n)
  | _ => .fail .intParsing

/-- The integer that a floating-point number without a fraction equals. -/
def integerFloat (x : Float) : Checked Int :=
  if x.isNaN || x.isInf then .fail .finite
  else if x.floor != x then .fail .intFromFloat
  else if 9223372036854775808.0 ≤ x.abs then .fail .intSize
  else .ok x.toInt64.toInt

/-- An integer, or a number or text for one. -/
def integer : Json → Checked Int
  | .int n => .ok n
  | .bool b => .ok (if b then 1 else 0)
  | .float x => integerFloat x
  | .text s => integerText s
  | _ => .fail .int

end Deposit.Schema
