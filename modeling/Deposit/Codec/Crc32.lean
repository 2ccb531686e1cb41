import Deposit.Bytes

set_option autoImplicit false
set_option relaxedAutoImplicit false

/-!
Cyclic redundancy checks of 32 bits over the polynomial 0x04c11db7, in the two bit orders in use:
the least significant bit first, and the most significant bit first.
-/

namespace Deposit.Codec

namespace Crc32

/-- Eight steps of the division, the least significant bit first. -/
def shiftRight8 : Nat → UInt32 → UInt32
  | 0, x => x
  | n + 1, x => shiftRight8 n (if x &&& 1 = 1 then (x >>> 1) ^^^ 0xedb88320 else x >>> 1)

/-- Eight steps of the division, the most significant bit first. -/
def shiftLeft8 : Nat → UInt32 → UInt32
  | 0, x => x
  | n + 1, x => shiftLeft8 n (if x >>> 31 = 1 then (x <<< 1) ^^^ 0x04c11db7 else x <<< 1)

/-- The remainders of all bytes, the least significant bit first. -/
def tableLow : Array UInt32 :=
  (Array.range 256).map fun n => shiftRight8 8 (UInt32.ofNat n)

/-- The remainders of all bytes, the most significant bit first. -/
def tableHigh : Array UInt32 :=
  (Array.range 256).map fun n => shiftLeft8 8 (UInt32.ofNat n <<< 24)

/-- One byte, the least significant bit first. -/
def stepLow (x : UInt32) (b : UInt8) : UInt32 :=
  (x >>> 8) ^^^ tableLow.getD ((x &&& 0xff) ^^^ b.toUInt32).toNat 0

/-- One byte, the most significant bit first. -/
def stepHigh (x : UInt32) (b : UInt8) : UInt32 :=
  (x <<< 8) ^^^ tableHigh.getD ((x >>> 24) ^^^ b.toUInt32).toNat 0

end Crc32

def crc32 (bs : Bytes) : UInt32 :=
  ~~~(bs.foldl Crc32.stepLow 0xffffffff)

/-- The check that bzip2 uses. -/
def crc32High (bs : Bytes) : UInt32 :=
  ~~~(bs.foldl Crc32.stepHigh 0xffffffff)

end Deposit.Codec
