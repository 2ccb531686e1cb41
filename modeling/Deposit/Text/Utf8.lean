import Deposit.Bytes

set_option autoImplicit false
set_option relaxedAutoImplicit false

/-!
Decoding of UTF-8. Only the shortest form of a scalar value is accepted, and a malformed sequence is
reported with the stretch of bytes that makes it malformed, or gives way to a mark in its place.
-/

namespace Deposit.Text.Utf8

/-- What is wrong with a malformed sequence. -/
inductive Reason where
  | startByte
  | continuationByte
  | ended
deriving DecidableEq, Repr

/-- A malformed sequence: where it begins, its first byte and how many bytes it covers. -/
structure Malformed where
  position : Nat
  byte : UInt8
  count : Nat
  reason : Reason
deriving DecidableEq, Repr

def Reason.text : Reason → String
  | .startByte => "invalid start byte"
  | .continuationByte => "invalid continuation byte"
  | .ended => "unexpected end of data"

def Malformed.message (m : Malformed) : String :=
  let place :=
    if m.count = 1 then
      "byte 0x" ++ hexDigits 2 m.byte.toNat ++ " in position " ++ decimal m.position
    else
      "bytes in position " ++ decimal m.position ++ "-" ++ decimal (m.position + m.count - 1)
  "'utf-8' codec can't decode " ++ place ++ ": " ++ m.reason.text

/-- What a leading byte announces: how many bytes follow, the bits it carries itself, and the range
of the first byte that follows. -/
def lead? (b : UInt8) : Option (Nat × Nat × UInt8 × UInt8) :=
  if b < 0xc2 then none
  else if b < 0xe0 then some (1, b.toNat - 0xc0, 0x80, 0xbf)
  else if b < 0xf0 then
    some (2, b.toNat - 0xe0, if b = 0xe0 then 0xa0 else 0x80, if b = 0xed then 0x9f else 0xbf)
  else if b < 0xf5 then
    some (3, b.toNat - 0xf0, if b = 0xf0 then 0x90 else 0x80, if b = 0xf4 then 0x8f else 0xbf)
  else none

/-- Reads the bytes that follow a leading byte, the first of them in a given range; a failure says
how many bytes of the sequence were sound. -/
def follow : Nat → UInt8 → UInt8 → Nat → Nat → Bytes → Except (Reason × Nat) Nat
  | 0, _, _, value, _, _ => .ok value
  | _ + 1, _, _, _, seen, [] => .error (.ended, seen)
  | k + 1, lo, hi, value, seen, b :: bs =>
    if lo ≤ b ∧ b ≤ hi then follow k 0x80 0xbf (value * 64 + (b.toNat - 0x80)) (seen + 1) bs
    else .error (.continuationByte, seen)

/-- Decodes from a position on, after the characters already read in reverse. -/
def decodeFrom (read : List Char) (position : Nat) : Bytes → Except Malformed (List Char)
  | [] => .ok read.reverse
  | b :: bs =>
    if b < 0x80 then decodeFrom (Char.ofNat b.toNat :: read) (position + 1) bs
    else match lead? b with
      | none => .error ⟨position, b, 1, .startByte⟩
      | some (k, bits, lo, hi) =>
        match follow k lo hi bits 1 bs with
        | .error (reason, seen) => .error ⟨position, b, seen, reason⟩
        | .ok value => decodeFrom (Char.ofNat value :: read) (position + 1 + k) (bs.drop k)
termination_by bs => bs.length
decreasing_by all_goals (simp only [List.length_cons, List.length_drop]; omega)

/-- The text that bytes encode, or the first malformed sequence among them. -/
def decode (bs : Bytes) : Except Malformed String :=
  (decodeFrom [] 0 bs).map String.ofList

def replacement : Char := '\ufffd'

def decodeLossy : Bytes → List Char
  | [] => []
  | b :: bs =>
    if b < 0x80 then Char.ofNat b.toNat :: decodeLossy bs
    else match lead? b with
      | none => replacement :: decodeLossy bs
      | some (k, bits, lo, hi) =>
        match follow k lo hi bits 1 bs with
        | .error (_, seen) => replacement :: decodeLossy (bs.drop (seen - 1))
        | .ok value => Char.ofNat value :: decodeLossy (bs.drop k)
termination_by bs => bs.length
decreasing_by all_goals (simp only [List.length_cons, List.length_drop]; omega)

end Deposit.Text.Utf8
