import Deposit.Bytes

set_option autoImplicit false
set_option relaxedAutoImplicit false

/-!
Digests computed block by block. A block hash turns a state and a block into the next state, and a
state with the bytes of an incomplete block into a digest. Bytes may arrive in pieces of any length:
what is left after the last complete block waits for the next piece.
-/

namespace Deposit.Digest

/-- A hash function by its step over one block. With `holdsLast`, a complete block is not absorbed
before a further byte shows that it is not the last one. -/
structure BlockHash where
  State : Type
  width : Nat
  width_pos : 0 < width
  holdsLast : Bool
  start : State
  absorb : State → Bytes → State
  finish : State → Bytes → Nat → Bytes

theorem zero_lt_usualWidth : 0 < 64 := by decide

theorem zero_lt_wideWidth : 0 < 128 := by decide

namespace BlockHash

variable (h : BlockHash)

def waiting : Nat :=
  if h.holdsLast then h.width else h.width - 1

/-- Absorbs the complete blocks at the front of some bytes. -/
def consume (s : h.State) (bs : Bytes) : h.State × Bytes :=
  if (bs.drop h.waiting).isEmpty then (s, bs)
  else consume (h.absorb s (bs.take h.width)) (bs.drop h.width)
termination_by bs.length
decreasing_by
  have hw := h.width_pos
  rename_i hne
  have hb : bs ≠ [] := by
    intro hb
    simp [hb] at hne
  have : 0 < bs.length := List.length_pos_iff.2 hb
  simp only [List.length_drop]
  omega

def digest (bs : Bytes) : Bytes :=
  let (s, rest) := h.consume h.start bs
  h.finish s rest bs.length

/-- The hash that is known by what it makes of all bytes together. -/
def whole (digest : Bytes → Bytes) : BlockHash where
  State := Bytes
  width := 1
  width_pos := Nat.one_pos
  holdsLast := false
  start := []
  absorb s block := s ++ block
  finish s rest _ := digest (s ++ rest)

end BlockHash

/-- A hash that has taken in some bytes: its state, the bytes that wait, and the count of all. -/
structure Hasher (h : BlockHash) where
  state : h.State
  pending : Bytes
  count : Nat

namespace Hasher

variable {h : BlockHash}

def start (h : BlockHash) : Hasher h :=
  ⟨h.start, [], 0⟩

def update (s : Hasher h) (bs : Bytes) : Hasher h :=
  let (state, pending) := h.consume s.state (s.pending ++ bs)
  ⟨state, pending, s.count + bs.length⟩

def digest (s : Hasher h) : Bytes :=
  h.finish s.state s.pending s.count

end Hasher

/-- The padding of a message in blocks of 64 or 128 bytes: a one bit, zeros, and the number of bits
in a field of the given width. -/
def paddedTail (block field : Nat) (encode : Nat → Nat → Bytes) (rest : Bytes) (count : Nat) :
    Bytes :=
  let used := rest.length + 1 + field
  let zeros := (block - used % block) % block
  rest ++ 0x80 :: (Bytes.zeros zeros ++ encode field (8 * count))

end Deposit.Digest
