import Deposit.Package.Format
import Deposit.Codec.Gzip
import Deposit.Codec.Bzip2.Decoder

set_option autoImplicit false
set_option relaxedAutoImplicit false

/-!
The compression over the joined bytes of a package: on whole byte strings, and on its way, when
bytes come in piece by piece and the end is written last.
-/

namespace Deposit

namespace Compression

def encode : Compression → Bytes → Bytes
  | .none, bs => bs
  | .gzip, bs => Codec.Gzip.encode bs
  | .bzip2, bs => Codec.Bzip2.encode bs

def decode : Compression → Bytes → Option Bytes
  | .none, bs => some bs
  | .gzip, bs => Codec.Gzip.decode bs
  | .bzip2, bs => Codec.Bzip2.decode bs

end Compression

/-- A compression on its way, with what it has taken in and keeps back until its end. -/
structure Compressor where
  compression : Compression
  pending : Bytes

namespace Compressor

def start (compression : Compression) : Compressor :=
  ⟨compression, []⟩

/-- Takes in some bytes and hands on what needs not wait for more. -/
def write (c : Compressor) (bytes : Bytes) : Compressor × Bytes :=
  match c.compression with
  | .none => (c, bytes)
  | _ => ({ c with pending := c.pending ++ bytes }, [])

def close (c : Compressor) : Bytes :=
  c.compression.encode c.pending

end Compressor

end Deposit
