import Deposit.Archive.Formats
import Deposit.Package.Compressed

set_option autoImplicit false
set_option relaxedAutoImplicit false

/-!
The layers that the bytes of a package pass on their way out: what leaves the archive is taken in by
the compression, and what that hands on is counted, digested and kept. Each layer may hold bytes
back until it is closed, the archive before the compression.
-/

namespace Deposit

/-- The stream that a compression is, over another one. -/
def Compression.sink : Compression → Archive.Sink → Archive.Sink
  | .none => .uncompressed
  | .gzip => .gzip
  | .bzip2 => .bzip2

/-- The layers of a package. The compression has taken in the first `taken` bytes that left the
archive. -/
structure Pipeline where
  writer : Archive.Writer
  taken : Nat
  compressor : Compressor
  sink : Recorder

namespace Pipeline

def start (archive : ArchiveFormat) (compression : Compression)
    (algorithms : List Digest.Algorithm) : Pipeline :=
  ⟨.above archive (compression.sink .recorder), 0, .start compression, .start algorithms⟩

/-- Passes on what has left the archive since the last time. -/
def pass (p : Pipeline) : Pipeline :=
  let piece := p.writer.written.drop p.taken
  let (compressor, settled) := p.compressor.write piece
  { p with taken := p.taken + piece.length, compressor, sink := p.sink.write settled }

/-- Adds an entry to the archive and passes on what leaves it. -/
def add (p : Pipeline) (path : String) (reader : Reader) (size : Option Int) :
    Archive.Added Pipeline :=
  (p.writer.add path reader size).map fun writer => pass { p with writer }

/-- Closes the archive and then the compression; what they end with is passed on. -/
def close (p : Pipeline) : Pipeline :=
  let p := pass { p with writer := p.writer.close }
  { p with sink := p.sink.write p.compressor.close }

end Pipeline

end Deposit
