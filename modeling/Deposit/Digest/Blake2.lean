import Deposit.Digest.Blockwise
import Deposit.Digest.Sha2

set_option autoImplicit false
set_option relaxedAutoImplicit false

/-!
BLAKE2 without a key: 64-bit words in blocks of 128 bytes and twelve rounds, or 32-bit words in
blocks of 64 bytes and ten rounds. The last block is marked, so a complete block waits until it is
known not to be the last.
-/

namespace Deposit.Digest.Blake2

/-- The orders in which the words of a block enter the rounds. -/
def schedule : Array (Array Nat) := #[
  #[0, 1, 2, 3, 4, 5, 6, 7, 8, 9, 10, 11, 12, 13, 14, 15],
  #[14, 10, 4, 8, 9, 15, 13, 6, 1, 12, 0, 2, 11, 7, 5, 3],
  #[11, 8, 12, 0, 5, 2, 15, 13, 10, 14, 3, 6, 7, 1, 9, 4],
  #[7, 9, 3, 1, 13, 12, 11, 14, 2, 6, 5, 10, 4, 0, 15, 8],
  #[9, 0, 5, 7, 2, 4, 10, 15, 14, 1, 11, 12, 6, 8, 3, 13],
  #[2, 12, 6, 10, 0, 11, 8, 3, 4, 13, 7, 5, 15, 14, 1, 9],
  #[12, 5, 1, 15, 14, 13, 4, 10, 0, 7, 6, 3, 9, 2, 8, 11],
  #[13, 11, 7, 14, 12, 1, 3, 9, 5, 0, 15, 4, 8, 6, 2, 10],
  #[6, 15, 14, 9, 11, 3, 0, 8, 12, 2, 13, 7, 1, 4, 10, 5],
  #[10, 2, 8, 4, 7, 6, 1, 5, 15, 11, 9, 14, 3, 12, 13, 0]]

/-- What distinguishes the two word sizes: words as numbers, their bytes, the rounds, the
rotations, and the starting words. -/
structure Kind (W : Type) where
  ofNat : Nat → W
  toNat : W → Nat
  bytes : Nat
  rounds : Nat
  rotate : W → Nat → W
  turns : Array Nat
  initial : Array W

/-- The chained words and the count of the bytes absorbed. -/
structure Chain (W : Type) where
  words : Array W
  count : Nat

variable {W : Type} [Add W] [XorOp W] [Complement W] [Inhabited W]

/-- Mixes two words of the block into four words of the state. -/
def quarter (k : Kind W) (v : Array W) (a b c d : Nat) (x y : W) : Array W :=
  let get (v : Array W) (i : Nat) : W := v.getD i default
  let turn (n : Nat) : Nat := k.turns.getD n 0
  let v := v.setIfInBounds a (get v a + get v b + x)
  let v := v.setIfInBounds d (k.rotate (get v d ^^^ get v a) (turn 0))
  let v := v.setIfInBounds c (get v c + get v d)
  let v := v.setIfInBounds b (k.rotate (get v b ^^^ get v c) (turn 1))
  let v := v.setIfInBounds a (get v a + get v b + y)
  let v := v.setIfInBounds d (k.rotate (get v d ^^^ get v a) (turn 2))
  let v := v.setIfInBounds c (get v c + get v d)
  v.setIfInBounds b (k.rotate (get v b ^^^ get v c) (turn 3))

/-- The positions that one round mixes, columns first. -/
def positions : List (Nat × Nat × Nat × Nat) :=
  [(0, 4, 8, 12), (1, 5, 9, 13), (2, 6, 10, 14), (3, 7, 11, 15),
   (0, 5, 10, 15), (1, 6, 11, 12), (2, 7, 8, 13), (3, 4, 9, 14)]

def round (k : Kind W) (m v : Array W) (r : Nat) : Array W :=
  let order := schedule.getD (r % 10) #[]
  let word (i : Nat) : W := m.getD (order.getD i 0) default
  (positions.zipIdx).foldl (fun v p =>
    let ((a, b, c, d), i) := p
    quarter k v a b c d (word (2 * i)) (word (2 * i + 1))) v

/-- Absorbs a block filled up with zeros, of which `added` bytes count. -/
def compress (k : Kind W) (s : Chain W) (block : Bytes) (added : Nat) (isLast : Bool) : Chain W :=
  let count := s.count + added
  let m := wordsOf k 16 block
  let base := Nat.pow 2 (8 * k.bytes)
  let v := s.words ++ k.initial
  let v := v.modify 12 (· ^^^ k.ofNat (count % base))
  let v := v.modify 13 (· ^^^ k.ofNat (count / base))
  let v := if isLast then v.modify 14 (~~~ ·) else v
  let v := (List.range k.rounds).foldl (round k m) v
  let words := s.words.mapIdx fun i w => w ^^^ v.getD i default ^^^ v.getD (i + 8) default
  ⟨words, count⟩
where
  /-- Cuts bytes into words, least significant byte first. -/
  wordsOf (k : Kind W) : Nat → Bytes → Array W
    | 0, _ => #[]
    | n + 1, bs => #[k.ofNat (Bytes.readLE (bs.take k.bytes))] ++ wordsOf k n (bs.drop k.bytes)

def start (k : Kind W) (kept : Nat) : Chain W :=
  ⟨k.initial.modify 0 (· ^^^ k.ofNat (0x01010000 + kept)), 0⟩

def finish (k : Kind W) (kept : Nat) (s : Chain W) (rest : Bytes) : Bytes :=
  let s := compress k s (Bytes.fit (16 * k.bytes) rest) rest.length true
  (s.words.toList.flatMap fun w => Bytes.le k.bytes (k.toNat w)).take kept

/-- The 64-bit words. -/
def wide : Kind UInt64 where
  ofNat := UInt64.ofNat
  toNat := UInt64.toNat
  bytes := 8
  rounds := 12
  rotate x n := Sha2.Wide.rotate x (UInt64.ofNat n)
  turns := #[32, 24, 16, 63]
  initial := Sha2.sha512Start.toList.toArray

/-- The 32-bit words. -/
def narrow : Kind UInt32 where
  ofNat := UInt32.ofNat
  toNat := UInt32.toNat
  bytes := 4
  rounds := 10
  rotate x n := Sha2.Narrow.rotate x (UInt32.ofNat n)
  turns := #[16, 12, 8, 7]
  initial := Sha2.sha256Start.toList.toArray

/-- BLAKE2b. -/
def blake2b : BlockHash where
  State := Chain UInt64
  width := 128
  width_pos := zero_lt_wideWidth
  holdsLast := true
  start := start wide 64
  absorb s block := compress wide s block 128 false
  finish s rest _ := finish wide 64 s rest

/-- BLAKE2s. -/
def blake2s : BlockHash where
  State := Chain UInt32
  width := 64
  width_pos := zero_lt_usualWidth
  holdsLast := true
  start := start narrow 32
  absorb s block := compress narrow s block 64 false
  finish s rest _ := finish narrow 32 s rest

end Deposit.Digest.Blake2
