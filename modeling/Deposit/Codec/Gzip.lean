import Deposit.Codec.Crc32
import Deposit.Codec.Deflate

set_option autoImplicit false
set_option relaxedAutoImplicit false

/-!
The gzip format: a header without name or time, deflated content, and the check and the length of
the content.
-/

namespace Deposit.Codec.Gzip

/-- The header: deflate, no flags, no time, the best compression, an unknown system. -/
def header : Bytes :=
  [0x1f, 0x8b, 8, 0, 0, 0, 0, 0, 2, 255]

def trailer (bs : Bytes) : Bytes :=
  Bytes.le 4 (crc32 bs).toNat ++ Bytes.le 4 bs.length

def encode (bs : Bytes) : Bytes :=
  header ++ Deflate.encode bs ++ trailer bs

def decode (bs : Bytes) : Option Bytes :=
  if bs.take 10 = header then
    match Deflate.decode (bs.drop 10) with
    | some (content, rest) => if rest = trailer content then some content else none
    | none => none
  else none

end Deposit.Codec.Gzip
