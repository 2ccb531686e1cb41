import Deposit.Json.Value
import Deposit.Decimal.FloatText

set_option autoImplicit false
set_option relaxedAutoImplicit false

/-!
Writing JSON text in ASCII, on one line or with an indentation of two blanks for each level.
-/

namespace Deposit.Json

/-- The escape for a 16-bit unit. -/
def unitEscape (n : Nat) : List Char :=
  '\\' :: 'u' :: Text.digits 16 4 n

def charText (c : Char) : List Char :=
  if c = '"' ∨ c = '\\' then ['\\', c]
  else if c = '\n' then ['\\', 'n']
  else if c = '\r' then ['\\', 'r']
  else if c = '\t' then ['\\', 't']
  else if c = '\x08' then ['\\', 'b']
  else if c = '\x0c' then ['\\', 'f']
  else if 0x20 ≤ c.toNat ∧ c.toNat < 0x7f then [c]
  else if c.toNat < 0x10000 then unitEscape c.toNat
  else
    let n := c.toNat - 0x10000
    unitEscape (0xd800 + n / 0x400) ++ unitEscape (0xdc00 + n % 0x400)

def stringText (s : String) : List Char :=
  '"' :: (s.toList.flatMap charText ++ ['"'])

def floatText (x : Float) : List Char :=
  if x.isNaN then "NaN".toList
  else if x.isInf then (if x < 0.0 then "-Infinity" else "Infinity").toList
  else (Decimal.ofFloat x).toList

/-- What separates the parts of a list or an object: on one line, or on lines of a level. -/
inductive Layout where
  | line
  | indented (level : Nat)

def Layout.inner : Layout → Layout
  | .line => .line
  | .indented n => .indented (n + 1)

def Layout.start : Layout → List Char
  | .line => []
  | .indented n => '\n' :: List.replicate (2 * n) ' '

def Layout.separator : Layout → List Char
  | .line => [',', ' ']
  | l => ',' :: l.start

mutual

def render (l : Layout) : Json → List Char
  | .null => ['n', 'u', 'l', 'l']
  | .bool true => ['t', 'r', 'u', 'e']
  | .bool false => ['f', 'a', 'l', 's', 'e']
  | .int n => (Text.decimalInt n).toList
  | .float x => floatText x
  | .text s => stringText s
  | .list [] => ['[', ']']
  | .list (x :: xs) =>
    '[' :: (l.inner.start ++ render l.inner x ++ renderItems l.inner xs ++ l.start ++ [']'])
  | .object [] => ['\x7b', '\x7d']
  | .object ((name, x) :: ms) =>
    '\x7b' :: (l.inner.start ++ stringText name ++ ':' :: ' ' :: render l.inner x ++
      renderMembers l.inner ms ++ l.start ++ ['\x7d'])

def renderItems (l : Layout) : List Json → List Char
  | [] => []
  | x :: xs => l.separator ++ render l x ++ renderItems l xs

def renderMembers (l : Layout) : List (String × Json) → List Char
  | [] => []
  | (name, x) :: ms =>
    l.separator ++ stringText name ++ ':' :: ' ' :: render l x ++ renderMembers l ms

end

def compact (j : Json) : String :=
  String.ofList (render .line j)

def pretty (j : Json) : String :=
  String.ofList (render (.indented 0) j)

end Deposit.Json
