import Deposit.Text.Digits
import Deposit.Text.Printable.Table

set_option autoImplicit false
set_option relaxedAutoImplicit false

/-!
Texts shown between quotation marks, as messages show the values they refuse. Apostrophes enclose
the text unless it holds an apostrophe and no double quote; the enclosing mark, the backslash and
every character that is not printable are escaped.
-/

namespace Deposit.Text

/-- Whether a quoted text may show a character as itself. -/
def isPrintable (c : Char) : Bool :=
  if c.toNat < 0x7f then 0x20 ≤ c.toNat
  else !(Printable.hidden.any fun r => r.1 ≤ c.toNat && c.toNat ≤ r.2)

def quoteMark (cs : List Char) : Char :=
  if cs.contains '\'' && !cs.contains '"' then '"' else '\''

def quoteChar (mark c : Char) : List Char :=
  if c = mark ∨ c = '\\' then ['\\', c]
  else if c = '\n' then ['\\', 'n']
  else if c = '\r' then ['\\', 'r']
  else if c = '\t' then ['\\', 't']
  else if isPrintable c then [c]
  else if c.toNat < 0x100 then '\\' :: 'x' :: digits 16 2 c.toNat
  else if c.toNat < 0x10000 then '\\' :: 'u' :: digits 16 4 c.toNat
  else '\\' :: 'U' :: digits 16 8 c.toNat

def quoted (s : String) : String :=
  let mark := quoteMark s.toList
  String.ofList (mark :: (s.toList.flatMap (quoteChar mark) ++ [mark]))

end Deposit.Text
