import Deposit.Bytes
import Deposit.Text.Utf8

set_option autoImplicit false
set_option relaxedAutoImplicit false

/-!
Percent-encoding: a percent sign and two hexadecimal digits stand for a byte, and the bytes for
characters. Everything that a part of a reference may hold as it is stays as it is.
-/

namespace Deposit.Uri

/-- The bytes that a text stands for: those after percent signs, and those of all other
characters. -/
def percentBytes : List Char → Bytes
  | '%' :: a :: b :: cs =>
    match Text.hexValue? a, Text.hexValue? b with
    | some x, some y => UInt8.ofNat (x * 16 + y) :: percentBytes cs
    | _, _ => 37 :: percentBytes (a :: b :: cs)
  | c :: cs => String.utf8EncodeChar c ++ percentBytes cs
  | [] => []

def percentDecode (s : String) : String :=
  String.ofList (Text.Utf8.decodeLossy (percentBytes s.toList))

def percentByte (b : UInt8) : List Char :=
  '%' :: (Text.digits 16 2 b.toNat).map Char.toUpper

/-- Encodes all characters but those of a class; what is percent-encoded already stays so. -/
def percentEncode (p : Char → Bool) : List Char → List Char
  | '%' :: a :: b :: cs =>
    if (Text.hexValue? a).isSome && (Text.hexValue? b).isSome then
      '%' :: a :: b :: percentEncode p cs
    else encodeChar p '%' ++ percentEncode p (a :: b :: cs)
  | c :: cs => encodeChar p c ++ percentEncode p cs
  | [] => []
where
  /-- One character, encoded unless it is of the class. -/
  encodeChar (p : Char → Bool) (c : Char) : List Char :=
    if p c then [c] else (String.utf8EncodeChar c).flatMap percentByte

end Deposit.Uri
