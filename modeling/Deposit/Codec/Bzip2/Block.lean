import Deposit.Bytes

set_option autoImplicit false
set_option relaxedAutoImplicit false

/-!
What bzip2 does with the bytes of a block, and how it is undone. First, after four equal bytes
stands the number of further ones, at most 251.

Then the rotations of a block are put in order; the result is the last byte of each and the place of
the block itself. Rotations are ordered by ranks over prefixes that double in length with every
step.

At last, each byte is replaced by its place in a list of the bytes in use, and then moves to the
front of that list. Runs of place zero are written as numbers in two digits of the weights one and
two; any other place is written one higher; a last symbol ends the block.
-/

namespace Deposit.Codec.Bzip2

def writeRun (b : UInt8) (n : Nat) : Bytes :=
  if n < 4 then List.replicate n b else [b, b, b, b, UInt8.ofNat (n - 4)]

/-- Shortens runs; a run of a byte has been counted, the bytes before it are done in reverse. -/
def shortenFrom (done : Bytes) (b : UInt8) (n : Nat) : Bytes → Bytes
  | [] => ((writeRun b n).reverse ++ done).reverse
  | c :: cs =>
    if c = b ∧ n < 255 then shortenFrom done b (n + 1) cs
    else shortenFrom ((writeRun b n).reverse ++ done) c 1 cs

def shorten : Bytes → Bytes
  | [] => []
  | b :: bs => shortenFrom [] b 1 bs

/-- Restores runs; the last byte has been seen a number of times in a row. -/
def restoreFrom (done : Bytes) (last : UInt8) (seen : Nat) : Bytes → Bytes
  | [] => done.reverse
  | b :: bs =>
    if seen = 4 then restoreFrom (List.replicate b.toNat last ++ done) last 0 bs
    else if b = last ∧ 0 < seen then restoreFrom (b :: done) b (seen + 1) bs
    else restoreFrom (b :: done) b 1 bs

def restore (bs : Bytes) : Bytes :=
  restoreFrom [] 0 0 bs

/-- The rank of a rotation by twice as many bytes: the rank at its start and the rank behind it. -/
def rankPair (ranks : Array Nat) (shift i : Nat) : Nat × Nat :=
  (ranks.getD i 0, ranks.getD ((i + shift) % ranks.size) 0)

def pairLE (x y : Nat × Nat) : Bool :=
  x.1 < y.1 || (x.1 == y.1 && x.2 ≤ y.2)

/-- Numbers sorted rotations, equal ones alike. -/
def rerank (pair : Nat → Nat × Nat) (size : Nat) (order : List Nat) : Array Nat :=
  (order.foldl (fun (s : Array Nat × Nat × Option (Nat × Nat)) i =>
    let p := pair i
    let rank := match s.2.2 with
      | none => 0
      | some q => if q = p then s.2.1 else s.2.1 + 1
    (s.1.setIfInBounds i rank, rank, some p)) (Array.replicate size 0, 0, none)).1

/-- Sorts rotations by ever longer prefixes until they are as long as the block. -/
def sortFrom : Nat → Nat → Array Nat → List Nat → List Nat
  | 0, _, _, order => order
  | fuel + 1, shift, ranks, order =>
    if ranks.size ≤ shift then order
    else
      let pair := rankPair ranks shift
      let order := order.mergeSort fun i j => pairLE (pair i) (pair j)
      sortFrom fuel (2 * shift) (rerank pair ranks.size order) order

def sortedRotations (block : Array UInt8) : List Nat :=
  let ranks := block.map UInt8.toNat
  let order := (List.range block.size).mergeSort fun i j => ranks.getD i 0 ≤ ranks.getD j 0
  sortFrom block.size 1 ranks order

/-- The last bytes of the sorted rotations, and the place of the block among them. -/
def rotate (bs : Bytes) : Bytes × Nat :=
  let block := bs.toArray
  let order := sortedRotations block
  (order.map fun i => block.getD ((i + block.size - 1) % block.size) 0, order.idxOf 0)

/-- How many bytes of a block are smaller than each byte value. -/
def smaller (bs : Bytes) : Array Nat :=
  let counts := bs.foldl (fun (a : Array Nat) b => a.modify b.toNat (· + 1)) (Array.replicate 256 0)
  (counts.foldl (fun (s : Array Nat × Nat) n => (s.1.push s.2, s.2 + n)) (#[], 0)).1

/-- For every place in the sorted first bytes, the place of the next rotation. -/
def successors (bs : Bytes) : Array Nat :=
  (bs.foldl (fun (s : Array Nat × Array Nat × Nat) b =>
    let place := s.2.1.getD b.toNat 0
    (s.1.setIfInBounds place s.2.2, s.2.1.modify b.toNat (· + 1), s.2.2 + 1))
    (Array.replicate bs.length 0, smaller bs, 0)).1

/-- Walks through a number of bytes from a place, the bytes so far in reverse. -/
def walk (last : Array UInt8) (next : Array Nat) : Nat → Nat → Bytes → Bytes
  | 0, _, done => done.reverse
  | n + 1, place, done =>
    let place := next.getD place 0
    walk last next n place (last.getD place 0 :: done)

/-- The block with the given last bytes and place among its rotations. -/
def unrotate (bs : Bytes) (place : Nat) : Bytes :=
  walk bs.toArray (successors bs) bs.length place []

/-- The bytes in use, in increasing order. -/
def alphabet (bs : Bytes) : Bytes :=
  let used := bs.foldl (fun (a : Array Bool) b => a.setIfInBounds b.toNat true)
    (Array.replicate 256 false)
  ((List.range 256).filter fun n => used.getD n false).map UInt8.ofNat

/-- The digits, one or two, of the length of a run, the lowest first. -/
def runDigits (n : Nat) : List Nat :=
  if n = 0 then []
  else if n % 2 = 1 then 0 :: runDigits ((n - 1) / 2)
  else 1 :: runDigits ((n - 2) / 2)
termination_by n
decreasing_by all_goals omega

/-- The symbols of some bytes after a run of front places; those before are done in reverse. -/
def symbolsFrom (done : List Nat) (front : Bytes) (run : Nat) : Bytes → List Nat
  | [] => ((runDigits run).reverse ++ done).reverse
  | b :: bs =>
    let place := front.idxOf b
    if place = 0 then symbolsFrom done front (run + 1) bs
    else
      symbolsFrom ((place + 1) :: ((runDigits run).reverse ++ done)) (b :: front.erase b) 0 bs

/-- The symbols of a block over its alphabet, the last one included. -/
def symbols (letters bs : Bytes) : List Nat :=
  symbolsFrom [] letters 0 bs ++ [letters.length + 1]

/-- The bytes of some symbols: a run of a weight has been counted, the bytes are done in reverse. -/
def bytesFrom (done : Bytes) (front : Bytes) (run weight : Nat) : List Nat → Bytes
  | [] => (List.replicate run (front.headD 0) ++ done).reverse
  | s :: ss =>
    if s < 2 then bytesFrom done front (run + (s + 1) * weight) (2 * weight) ss
    else
      let done := List.replicate run (front.headD 0) ++ done
      let b := front.getD (s - 1) 0
      bytesFrom (b :: done) (b :: front.erase b) 0 1 ss

/-- The bytes of the symbols of a block without the last one. -/
def bytesOf (letters : Bytes) (ss : List Nat) : Bytes :=
  bytesFrom [] letters 0 1 ss

end Deposit.Codec.Bzip2
