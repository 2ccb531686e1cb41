import Deposit.Text.Digits

set_option autoImplicit false
set_option relaxedAutoImplicit false

/-!
Byte strings as lists of bytes: numbers of a fixed width in either byte order, hexadecimal text, and
the UTF-8 form of a text.
-/

namespace Deposit

abbrev Bytes := List UInt8

namespace Bytes

/-- The low `width` bytes of a number, the least significant first. -/
def le : Nat → Nat → Bytes
  | 0, _ => []
  | width + 1, n => UInt8.ofNat (n % 256) :: le width (n / 256)

/-- The low `width` bytes of a number, the most significant first. -/
def be (width n : Nat) : Bytes :=
  (le width n).reverse

def readLE : Bytes → Nat
  | [] => 0
  | b :: bs => b.toNat + 256 * readLE bs

def readBE (bs : Bytes) : Nat :=
  bs.foldl (fun n b => n * 256 + b.toNat) 0

/-- The UTF-8 form of a text. -/
def ofText (s : String) : Bytes :=
  s.toList.flatMap String.utf8EncodeChar

/-- The bytes of a text written in ASCII, one for each character. -/
def ofChars (cs : List Char) : Bytes :=
  cs.map fun c => UInt8.ofNat c.toNat

/-- The characters of a text in ASCII, one for each byte. -/
def toChars (bs : Bytes) : List Char :=
  bs.map fun b => Char.ofNat b.toNat

def zeros (n : Nat) : Bytes :=
  List.replicate n 0

/-- The bytes cut or filled up with zeros to a given width. -/
def fit (width : Nat) (bs : Bytes) : Bytes :=
  let kept := bs.take width
  kept ++ zeros (width - kept.length)

/-- Bytes cut into fields of given widths; what follows the last field is left out. -/
def fields : List Nat → Bytes → List Bytes
  | [], _ => []
  | width :: widths, bs => bs.take width :: fields widths (bs.drop width)

def toHex (bs : Bytes) : String :=
  String.ofList (bs.flatMap fun b => Text.digits 16 2 b.toNat)

def ofHex? : List Char → Option Bytes
  | [] => some []
  | [_] => none
  | a :: b :: rest => do
    let hi ← Text.hexValue? a
    let lo ← Text.hexValue? b
    let bs ← ofHex? rest
    pure (UInt8.ofNat (hi * 16 + lo) :: bs)

@[simp] theorem length_le (width n : Nat) : (le width n).length = width := by
  induction width generalizing n with
  | zero => rfl
  | succ w ih => simp [le, ih]

theorem readLE_le (width n : Nat) : readLE (le width n) = n % Nat.pow 256 width := by
  induction width generalizing n with
  | zero => simp [le, readLE, Nat.mod_one]
  | succ w ih =>
    have hb : (UInt8.ofNat (n % 256)).toNat = n % 256 := by simp
    have hp : Nat.pow 256 (w + 1) = 256 * Nat.pow 256 w := Nat.mul_comm _ _
    rw [le, readLE, ih, hb, hp, Nat.mod_mul]

@[simp] theorem length_fit (width : Nat) (bs : Bytes) : (fit width bs).length = width := by
  simp only [fit, zeros, List.length_append, List.length_take, List.length_replicate]
  omega

@[simp] theorem ofText_append (s t : String) : ofText (s ++ t) = ofText s ++ ofText t := by
  simp [ofText]

end Bytes

end Deposit
