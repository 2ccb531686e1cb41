import Deposit.Json.Value
import Deposit.Text.Quoted
import Deposit.Decimal.FloatText

set_option autoImplicit false
set_option relaxedAutoImplicit false

/-!
Values as messages show them: texts as they are, everything else, and all that is inside lists and
objects, in quoted form.
-/

namespace Deposit.Json

mutual

def quoted : Json → String
  | .null => "None"
  | .bool true => "True"
  | .bool false => "False"
  | .int n => Text.decimalInt n
  | .float x => Decimal.ofFloat x
  | .text s => Text.quoted s
  | .list xs => "[" ++ ", ".intercalate (quotedItems xs) ++ "]"
  | .object ms => "\x7b" ++ ", ".intercalate (quotedMembers ms) ++ "\x7d"

def quotedItems : List Json → List String
  | [] => []
  | x :: xs => quoted x :: quotedItems xs

def quotedMembers : List (String × Json) → List String
  | [] => []
  | (name, x) :: ms => (Text.quoted name ++ ": " ++ quoted x) :: quotedMembers ms

end

def shown : Json → String
  | .text s => s
  | j => quoted j

/-- Whether a value counts as given: null, falsehood, zero and everything empty do not. -/
def isGiven : Json → Bool
  | .null => false
  | .bool b => b
  | .int n => n != 0
  | .float x => !(x == 0.0)
  | .text s => s != ""
  | .list xs => !xs.isEmpty
  | .object ms => !ms.isEmpty

/-- What kind of value it is, in the words of messages. -/
def typeName : Json → String
  | .null => "NoneType"
  | .bool _ => "bool"
  | .int _ => "int"
  | .float _ => "float"
  | .text _ => "str"
  | .list _ => "list"
  | .object _ => "dict"

end Deposit.Json
