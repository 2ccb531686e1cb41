import Deposit.Digest.Blockwise

set_option autoImplicit false
set_option relaxedAutoImplicit false

/-!
The SHA-3 family: a sponge over 25 lanes of 64 bits, permuted by 24 rounds after every block. The
bits behind a message tell its hashes from those of any length, of which nothing is asked for here.
-/

namespace Deposit.Digest.Sha3

/-- The 24 round constants. -/
def roundConstants : Array UInt64 := #[
   0x0000000000000001, 0x0000000000008082, 0x800000000000808a, 0x8000000080008000,
   0x000000000000808b, 0x0000000080000001, 0x8000000080008081, 0x8000000000008009,
   0x000000000000008a, 0x0000000000000088, 0x0000000080008009, 0x000000008000000a,
   0x000000008000808b, 0x800000000000008b, 0x8000000000008089, 0x8000000000008003,
   0x8000000000008002, 0x8000000000000080, 0x000000000000800a, 0x800000008000000a,
   0x8000000080008081, 0x8000000000008080, 0x0000000080000001, 0x8000000080008008]

def rotations : Array UInt64 := #[
   0, 1, 62, 28, 27, 36, 44, 6, 55, 20, 3, 10, 43, 25, 39, 41, 45, 15, 21, 8, 18, 2, 61, 56, 14]

def rotate (x n : UInt64) : UInt64 :=
  if n = 0 then x else (x <<< n) ||| (x >>> (64 - n))

def round (lanes : Array UInt64) (constant : UInt64) : Array UInt64 :=
  let get (a : Array UInt64) (i : Nat) : UInt64 := a.getD i 0
  let columns := (Array.range 5).map fun x =>
    get lanes x ^^^ get lanes (x + 5) ^^^ get lanes (x + 10) ^^^ get lanes (x + 15) ^^^
      get lanes (x + 20)
  let parity := (Array.range 5).map fun x =>
    get columns ((x + 4) % 5) ^^^ rotate (get columns ((x + 1) % 5)) 1
  let turned := (Array.range 25).map fun i =>
    rotate (get lanes i ^^^ get parity (i % 5)) (get rotations i)
  -- The lane that comes to stand at column x and row y was at column x + 3 y and row x.
  let moved := (Array.range 25).map fun i =>
    get turned ((i % 5 + 3 * (i / 5)) % 5 + 5 * (i % 5))
  let mixed := (Array.range 25).map fun i =>
    let row := 5 * (i / 5)
    get moved i ^^^ ((~~~get moved (row + (i + 1) % 5)) &&& get moved (row + (i + 2) % 5))
  mixed.modify 0 (· ^^^ constant)

def permute (lanes : Array UInt64) : Array UInt64 :=
  roundConstants.foldl round lanes

/-- Adds the lanes of a block to the first lanes of the state. -/
def addBlock : Nat → Nat → Bytes → Array UInt64 → Array UInt64
  | 0, _, _, lanes => lanes
  | n + 1, i, bs, lanes =>
    let lane := UInt64.ofNat (Bytes.readLE (bs.take 8))
    addBlock n (i + 1) (bs.drop 8) (lanes.modify i (· ^^^ lane))

/-- The hash with blocks of `8 * (lanes + 1)` bytes, some bits behind the message, and a digest of a
given length. -/
def sponge (mark : UInt8) (lanes kept : Nat) : BlockHash where
  State := Array UInt64
  width := 8 * (lanes + 1)
  width_pos := by omega
  holdsLast := false
  start := Array.replicate 25 0
  absorb s block := permute (addBlock (lanes + 1) 0 block s)
  finish s rest _ :=
    let width := 8 * (lanes + 1)
    let padding : Bytes :=
      if rest.length + 1 = width then [mark ||| 0x80]
      else mark :: (Bytes.zeros (width - rest.length - 2) ++ [0x80])
    let s := permute (addBlock (lanes + 1) 0 (rest ++ padding) s)
    (s.toList.flatMap fun lane => Bytes.le 8 lane.toNat).take kept

def sha3_224 : BlockHash := sponge 0x06 17 28

def sha3_256 : BlockHash := sponge 0x06 16 32

def sha3_384 : BlockHash := sponge 0x06 12 48

def sha3_512 : BlockHash := sponge 0x06 8 64

def shake_128 : BlockHash := sponge 0x1f 20 0

def shake_256 : BlockHash := sponge 0x1f 16 0

end Deposit.Digest.Sha3
