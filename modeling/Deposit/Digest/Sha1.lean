import Deposit.Digest.Blockwise

set_option autoImplicit false
set_option relaxedAutoImplicit false

/-!
SHA-1: five 32-bit words, most significant byte first, in blocks of 64 bytes and 80 rounds.
-/

namespace Deposit.Digest.Sha1

/-- Five chained words. -/
structure Chain where
  a : UInt32
  b : UInt32
  c : UInt32
  d : UInt32
  e : UInt32

def rotate (x n : UInt32) : UInt32 :=
  (x <<< n) ||| (x >>> (32 - n))

/-- Cuts bytes into words, most significant byte first. -/
def wordsOf : Nat → Bytes → Array UInt32
  | 0, _ => #[]
  | n + 1, bs => #[UInt32.ofNat (Bytes.readBE (bs.take 4))] ++ wordsOf n (bs.drop 4)

/-- The message schedule, one word longer with every step. -/
def extend : Nat → Array UInt32 → Array UInt32
  | 0, w => w
  | n + 1, w =>
    let i := w.size
    let x := w.getD (i - 3) 0 ^^^ w.getD (i - 8) 0 ^^^ w.getD (i - 14) 0 ^^^ w.getD (i - 16) 0
    extend n (w.push (rotate x 1))

/-- The mixing function and the constant of a group of twenty rounds. -/
def mix (s : Chain) (i : Nat) : UInt32 × UInt32 :=
  match i / 20 with
  | 0 => ((s.b &&& s.c) ||| ((~~~s.b) &&& s.d), 0x5a827999)
  | 1 => (s.b ^^^ s.c ^^^ s.d, 0x6ed9eba1)
  | 2 => ((s.b &&& s.c) ||| (s.b &&& s.d) ||| (s.c &&& s.d), 0x8f1bbcdc)
  | _ => (s.b ^^^ s.c ^^^ s.d, 0xca62c1d6)

def round (words : Array UInt32) (s : Chain) (i : Nat) : Chain :=
  let (f, k) := mix s i
  ⟨rotate s.a 5 + f + s.e + k + words.getD i 0, s.a, rotate s.b 30, s.c, s.d⟩

/-- Absorbs one block of 64 bytes. -/
def absorb (s : Chain) (block : Bytes) : Chain :=
  let words := extend 64 (wordsOf 16 block)
  let t := (Array.range 80).foldl (round words) s
  ⟨s.a + t.a, s.b + t.b, s.c + t.c, s.d + t.d, s.e + t.e⟩

def output (s : Chain) : Bytes :=
  [s.a, s.b, s.c, s.d, s.e].flatMap fun w => Bytes.be 4 w.toNat

/-- SHA-1. -/
def sha1 : BlockHash where
  State := Chain
  width := 64
  width_pos := zero_lt_usualWidth
  holdsLast := false
  start := ⟨0x67452301, 0xefcdab89, 0x98badcfe, 0x10325476, 0xc3d2e1f0⟩
  absorb := absorb
  finish s rest count :=
    let tail := paddedTail 64 8 Bytes.be rest count
    let s := absorb s (tail.take 64)
    output (if 64 < tail.length then absorb s (tail.drop 64) else s)

end Deposit.Digest.Sha1
