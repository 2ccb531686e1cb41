import Deposit.Bytes
import Deposit.Codec.Crc32
import Deposit.Codec.Bzip2.Block

set_option autoImplicit false
set_option relaxedAutoImplicit false

/-!
Writing the bzip2 format. Content is cut into blocks; a block is written as the bits of its symbols
under two code tables in which all symbols have codes of the same length. Bits are sequences, the
most significant one first.
-/

namespace Deposit.Codec

namespace Bits

def ofNat : Nat → Nat → List Bool
  | 0, _ => []
  | width + 1, n => n.testBit width :: ofNat width n

def toNat (bs : List Bool) : Nat :=
  bs.foldl (fun n b => 2 * n + b.toNat) 0

def ofBytes (bs : Bytes) : List Bool :=
  bs.flatMap fun b => ofNat 8 b.toNat

/-- Bits packed into bytes, after the bytes packed so far in reverse; the last byte is filled up. -/
def packFrom (done : Bytes) : List Bool → Bytes
  | a :: b :: c :: d :: e :: f :: g :: h :: rest =>
    packFrom (UInt8.ofNat (toNat [a, b, c, d, e, f, g, h]) :: done) rest
  | [] => done.reverse
  | rest =>
    (UInt8.ofNat (toNat (rest ++ List.replicate (8 - rest.length) false)) :: done).reverse

def pack (bs : List Bool) : Bytes :=
  packFrom [] bs

def read? (width : Nat) (bs : List Bool) : Option (Nat × List Bool) :=
  let field := bs.take width
  if field.length = width then some (toNat field, bs.drop width) else none

end Bits

namespace Bzip2

def blockLimit : Nat := 16384

def blockMark : Nat := 0x314159265359

def endMark : Nat := 0x177245385090

def groupSize : Nat := 50

/-- The length of a code when a number of symbols have codes of the same length. -/
def codeLength (count : Nat) : Nat :=
  Nat.log2 (count - 1) + 1

/-- Which bytes are in use: sixteen bits for ranges of sixteen, then the ranges in use. -/
def usedBits (letters : Bytes) : List Bool :=
  let isUsed (n : Nat) : Bool := letters.contains (UInt8.ofNat n)
  let ranges := (List.range 16).map fun r => (List.range 16).map fun n => isUsed (16 * r + n)
  ranges.map (·.any id) ++ (ranges.filter (·.any id)).flatten

def blockBits (content : Bytes) : List Bool :=
  let (last, place) := rotate (shorten content)
  let letters := alphabet last
  let ss := symbols letters last
  let count := letters.length + 2
  let width := codeLength count
  let groups := (ss.length + groupSize - 1) / groupSize
  let table := Bits.ofNat 5 width ++ List.replicate count false
  Bits.ofNat 48 blockMark ++ Bits.ofNat 32 (crc32High content).toNat ++ [false] ++
    Bits.ofNat 24 place ++ usedBits letters ++ Bits.ofNat 3 2 ++ Bits.ofNat 15 groups ++
    List.replicate groups false ++ table ++ table ++ ss.flatMap (Bits.ofNat width)

/-- The check over all blocks, after one more block. -/
def combine (check block : UInt32) : UInt32 :=
  ((check <<< 1) ||| (check >>> 31)) ^^^ block

def streamBits (check : UInt32) (bs : Bytes) : List (List Bool) :=
  if _ : bs = [] then [Bits.ofNat 48 endMark ++ Bits.ofNat 32 check.toNat]
  else
    let content := bs.take blockLimit
    blockBits content :: streamBits (combine check (crc32High content)) (bs.drop blockLimit)
termination_by bs.length
decreasing_by
  have := List.length_pos_iff.2 (show bs ≠ [] by assumption)
  simp only [List.length_drop, blockLimit]
  omega

/-- What the format begins with: its name and the size of its largest blocks. -/
def header : Bytes :=
  [0x42, 0x5a, 0x68, 0x39]

/-- Bytes in the bzip2 format. -/
def encode (bs : Bytes) : Bytes :=
  header ++ Bits.pack (streamBits 0 bs).flatten

end Bzip2

end Deposit.Codec
