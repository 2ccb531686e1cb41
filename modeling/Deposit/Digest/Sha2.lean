import Deposit.Digest.Blockwise

set_option autoImplicit false
set_option relaxedAutoImplicit false

/-!
The SHA-2 family: 32-bit words in blocks of 64 bytes, and 64-bit words in blocks of 128 bytes. The
shorter digests start from other values and drop the end of the result.
-/

namespace Deposit.Digest.Sha2

/-- Eight chained words. -/
structure Chain (W : Type) where
  a : W
  b : W
  c : W
  d : W
  e : W
  f : W
  g : W
  h : W

def Chain.toList {W : Type} (s : Chain W) : List W :=
  [s.a, s.b, s.c, s.d, s.e, s.f, s.g, s.h]

def Chain.add {W : Type} [Add W] (s t : Chain W) : Chain W :=
  ⟨s.a + t.a, s.b + t.b, s.c + t.c, s.d + t.d, s.e + t.e, s.f + t.f, s.g + t.g, s.h + t.h⟩

/-- Cuts bytes into words, most significant byte first. -/
def wordsOf {W : Type} (width : Nat) (word : Nat → W) : Nat → Bytes → Array W
  | 0, _ => #[]
  | n + 1, bs => #[word (Bytes.readBE (bs.take width))] ++ wordsOf width word n (bs.drop width)

namespace Narrow

/-- The 64 round constants. -/
def roundConstants : Array UInt32 := #[
   0x428a2f98, 0x71374491, 0xb5c0fbcf, 0xe9b5dba5, 0x3956c25b, 0x59f111f1, 0x923f82a4, 0xab1c5ed5,
   0xd807aa98, 0x12835b01, 0x243185be, 0x550c7dc3, 0x72be5d74, 0x80deb1fe, 0x9bdc06a7, 0xc19bf174,
   0xe49b69c1, 0xefbe4786, 0x0fc19dc6, 0x240ca1cc, 0x2de92c6f, 0x4a7484aa, 0x5cb0a9dc, 0x76f988da,
   0x983e5152, 0xa831c66d, 0xb00327c8, 0xbf597fc7, 0xc6e00bf3, 0xd5a79147, 0x06ca6351, 0x14292967,
   0x27b70a85, 0x2e1b2138, 0x4d2c6dfc, 0x53380d13, 0x650a7354, 0x766a0abb, 0x81c2c92e, 0x92722c85,
   0xa2bfe8a1, 0xa81a664b, 0xc24b8b70, 0xc76c51a3, 0xd192e819, 0xd6990624, 0xf40e3585, 0x106aa070,
   0x19a4c116, 0x1e376c08, 0x2748774c, 0x34b0bcb5, 0x391c0cb3, 0x4ed8aa4a, 0x5b9cca4f, 0x682e6ff3,
   0x748f82ee, 0x78a5636f, 0x84c87814, 0x8cc70208, 0x90befffa, 0xa4506ceb, 0xbef9a3f7, 0xc67178f2]

def rotate (x : UInt32) (n : UInt32) : UInt32 :=
  (x >>> n) ||| (x <<< (32 - n))

/-- The message schedule, one word longer with every step. -/
def extend : Nat → Array UInt32 → Array UInt32
  | 0, w => w
  | n + 1, w =>
    let i := w.size
    let x := w.getD (i - 15) 0
    let y := w.getD (i - 2) 0
    let s := rotate x 7 ^^^ rotate x 18 ^^^ (x >>> 3)
    let t := rotate y 17 ^^^ rotate y 19 ^^^ (y >>> 10)
    extend n (w.push (w.getD (i - 16) 0 + s + w.getD (i - 7) 0 + t))

def round (s : Chain UInt32) (w k : UInt32) : Chain UInt32 :=
  let x := rotate s.e 6 ^^^ rotate s.e 11 ^^^ rotate s.e 25
  let choice := (s.e &&& s.f) ^^^ ((~~~s.e) &&& s.g)
  let t := s.h + x + choice + k + w
  let y := rotate s.a 2 ^^^ rotate s.a 13 ^^^ rotate s.a 22
  let majority := (s.a &&& s.b) ^^^ (s.a &&& s.c) ^^^ (s.b &&& s.c)
  ⟨t + y + majority, s.a, s.b, s.c, s.d + t, s.e, s.f, s.g⟩

/-- Absorbs one block of 64 bytes. -/
def absorb (s : Chain UInt32) (block : Bytes) : Chain UInt32 :=
  let w := extend 48 (wordsOf 4 (fun n => UInt32.ofNat n) 16 block)
  s.add ((Array.range 64).foldl (fun t i => round t (w.getD i 0) (roundConstants.getD i 0)) s)

def output (s : Chain UInt32) : Bytes :=
  s.toList.flatMap fun w => Bytes.be 4 w.toNat

/-- The hash with given starting words that keeps the first bytes of the result. -/
def hash (start : Chain UInt32) (kept : Nat) : BlockHash where
  State := Chain UInt32
  width := 64
  width_pos := zero_lt_usualWidth
  holdsLast := false
  start := start
  absorb := absorb
  finish s rest count :=
    let tail := paddedTail 64 8 Bytes.be rest count
    let s := absorb s (tail.take 64)
    (output (if 64 < tail.length then absorb s (tail.drop 64) else s)).take kept

end Narrow

namespace Wide

/-- The 80 round constants. -/
def roundConstants : Array UInt64 := #[
   0x428a2f98d728ae22, 0x7137449123ef65cd, 0xb5c0fbcfec4d3b2f, 0xe9b5dba58189dbbc,
   0x3956c25bf348b538, 0x59f111f1b605d019, 0x923f82a4af194f9b, 0xab1c5ed5da6d8118,
   0xd807aa98a3030242, 0x12835b0145706fbe, 0x243185be4ee4b28c, 0x550c7dc3d5ffb4e2,
   0x72be5d74f27b896f, 0x80deb1fe3b1696b1, 0x9bdc06a725c71235, 0xc19bf174cf692694,
   0xe49b69c19ef14ad2, 0xefbe4786384f25e3, 0x0fc19dc68b8cd5b5, 0x240ca1cc77ac9c65,
   0x2de92c6f592b0275, 0x4a7484aa6ea6e483, 0x5cb0a9dcbd41fbd4, 0x76f988da831153b5,
   0x983e5152ee66dfab, 0xa831c66d2db43210, 0xb00327c898fb213f, 0xbf597fc7beef0ee4,
   0xc6e00bf33da88fc2, 0xd5a79147930aa725, 0x06ca6351e003826f, 0x142929670a0e6e70,
   0x27b70a8546d22ffc, 0x2e1b21385c26c926, 0x4d2c6dfc5ac42aed, 0x53380d139d95b3df,
   0x650a73548baf63de, 0x766a0abb3c77b2a8, 0x81c2c92e47edaee6, 0x92722c851482353b,
   0xa2bfe8a14cf10364, 0xa81a664bbc423001, 0xc24b8b70d0f89791, 0xc76c51a30654be30,
   0xd192e819d6ef5218, 0xd69906245565a910, 0xf40e35855771202a, 0x106aa07032bbd1b8,
   0x19a4c116b8d2d0c8, 0x1e376c085141ab53, 0x2748774cdf8eeb99, 0x34b0bcb5e19b48a8,
   0x391c0cb3c5c95a63, 0x4ed8aa4ae3418acb, 0x5b9cca4f7763e373, 0x682e6ff3d6b2b8a3,
   0x748f82ee5defb2fc, 0x78a5636f43172f60, 0x84c87814a1f0ab72, 0x8cc702081a6439ec,
   0x90befffa23631e28, 0xa4506cebde82bde9, 0xbef9a3f7b2c67915, 0xc67178f2e372532b,
   0xca273eceea26619c, 0xd186b8c721c0c207, 0xeada7dd6cde0eb1e, 0xf57d4f7fee6ed178,
   0x06f067aa72176fba, 0x0a637dc5a2c898a6, 0x113f9804bef90dae, 0x1b710b35131c471b,
   0x28db77f523047d84, 0x32caab7b40c72493, 0x3c9ebe0a15c9bebc, 0x431d67c49c100d4c,
   0x4cc5d4becb3e42b6, 0x597f299cfc657e2a, 0x5fcb6fab3ad6faec, 0x6c44198c4a475817]

def rotate (x : UInt64) (n : UInt64) : UInt64 :=
  (x >>> n) ||| (x <<< (64 - n))

/-- The message schedule, one word longer with every step. -/
def extend : Nat → Array UInt64 → Array UInt64
  | 0, w => w
  | n + 1, w =>
    let i := w.size
    let x := w.getD (i - 15) 0
    let y := w.getD (i - 2) 0
    let s := rotate x 1 ^^^ rotate x 8 ^^^ (x >>> 7)
    let t := rotate y 19 ^^^ rotate y 61 ^^^ (y >>> 6)
    extend n (w.push (w.getD (i - 16) 0 + s + w.getD (i - 7) 0 + t))

def round (s : Chain UInt64) (w k : UInt64) : Chain UInt64 :=
  let x := rotate s.e 14 ^^^ rotate s.e 18 ^^^ rotate s.e 41
  let choice := (s.e &&& s.f) ^^^ ((~~~s.e) &&& s.g)
  let t := s.h + x + choice + k + w
  let y := rotate s.a 28 ^^^ rotate s.a 34 ^^^ rotate s.a 39
  let majority := (s.a &&& s.b) ^^^ (s.a &&& s.c) ^^^ (s.b &&& s.c)
  ⟨t + y + majority, s.a, s.b, s.c, s.d + t, s.e, s.f, s.g⟩

/-- Absorbs one block of 128 bytes. -/
def absorb (s : Chain UInt64) (block : Bytes) : Chain UInt64 :=
  let w := extend 64 (wordsOf 8 (fun n => UInt64.ofNat n) 16 block)
  s.add ((Array.range 80).foldl (fun t i => round t (w.getD i 0) (roundConstants.getD i 0)) s)

def output (s : Chain UInt64) : Bytes :=
  s.toList.flatMap fun w => Bytes.be 8 w.toNat

/-- The hash with given starting words that keeps the first bytes of the result. -/
def hash (start : Chain UInt64) (kept : Nat) : BlockHash where
  State := Chain UInt64
  width := 128
  width_pos := zero_lt_wideWidth
  holdsLast := false
  start := start
  absorb := absorb
  finish s rest count :=
    let tail := paddedTail 128 16 Bytes.be rest count
    let s := absorb s (tail.take 128)
    (output (if 128 < tail.length then absorb s (tail.drop 128) else s)).take kept

end Wide

/-- The starting words of SHA-256. -/
def sha256Start : Chain UInt32 :=
  ⟨0x6a09e667, 0xbb67ae85, 0x3c6ef372, 0xa54ff53a,
   0x510e527f, 0x9b05688c, 0x1f83d9ab, 0x5be0cd19⟩

/-- SHA-256. -/
def sha256 : BlockHash := Narrow.hash sha256Start 32

/-- The starting words of SHA-224. -/
def sha224Start : Chain UInt32 :=
  ⟨0xc1059ed8, 0x367cd507, 0x3070dd17, 0xf70e5939,
   0xffc00b31, 0x68581511, 0x64f98fa7, 0xbefa4fa4⟩

/-- SHA-224. -/
def sha224 : BlockHash := Narrow.hash sha224Start 28

/-- The starting words of SHA-512. -/
def sha512Start : Chain UInt64 :=
  ⟨0x6a09e667f3bcc908, 0xbb67ae8584caa73b, 0x3c6ef372fe94f82b,
   0xa54ff53a5f1d36f1, 0x510e527fade682d1, 0x9b05688c2b3e6c1f,
   0x1f83d9abfb41bd6b, 0x5be0cd19137e2179⟩

/-- SHA-512. -/
def sha512 : BlockHash := Wide.hash sha512Start 64

/-- The starting words of SHA-384. -/
def sha384Start : Chain UInt64 :=
  ⟨0xcbbb9d5dc1059ed8, 0x629a292a367cd507, 0x9159015a3070dd17,
   0x152fecd8f70e5939, 0x67332667ffc00b31, 0x8eb44a8768581511,
   0xdb0c2e0d64f98fa7, 0x47b5481dbefa4fa4⟩

/-- SHA-384. -/
def sha384 : BlockHash := Wide.hash sha384Start 48

end Deposit.Digest.Sha2
