import Deposit.Content.Reader

set_option autoImplicit false
set_option relaxedAutoImplicit false

/-!
Adding one entry to an archive: the writer and the reader as they are left, and the fault that ended
it, if one did. Entries whose size is of no concern are copied piece by piece until a read returns
nothing. A package without an archive is the bytes of a single entry and nothing else.
-/

namespace Deposit.Archive

/-- How adding an entry ended. -/
structure Added (W : Type) where
  writer : W
  reader : Reader
  fault : Option Fault

def Added.map {V W : Type} (f : V → W) (a : Added V) : Added W :=
  ⟨f a.writer, a.reader, a.fault⟩

/-- How many bytes are asked for at a time while an entry is copied. -/
def chunkSize : Nat := 65536

/-- Copies everything a reader delivers to the end of some bytes. -/
def copyAll (output : Array UInt8) (reader : Reader) : Added (Array UInt8) :=
  match _ : reader.read chunkSize with
  | .error fault => ⟨output, reader, some fault⟩
  | .ok (piece, next) =>
    if _ : piece = [] then ⟨output, next, none⟩
    else copyAll (output ++ piece) next
termination_by reader.stream.rest.length
decreasing_by exact Reader.length_rest_of_read (by assumption) (by assumption)

/-- The fault when as many bytes were read as were not declared. -/
def sizeFault? (path : String) (reader : Reader) (size : Option Int) : Option Fault :=
  match size with
  | some n =>
    if (reader.count : Int) = n then none
    else some (.archive (.sizeDiffers path reader.count n))
  | none => none

namespace Raw

/-- What has been written, and the entry that it belongs to. -/
structure Writer where
  output : Array UInt8
  path : Option String

namespace Writer

def empty : Writer := ⟨#[], none⟩

/-- Writes the only entry. A second entry is refused before anything is read. -/
def add (w : Writer) (path : String) (reader : Reader) (size : Option Int) : Added Writer :=
  match w.path with
  | some first => ⟨w, reader, some (.archive (.singleFile path first))⟩
  | none =>
    let copied := copyAll w.output reader
    let fault := copied.fault.or (sizeFault? path copied.reader size)
    ⟨⟨copied.writer, some path⟩, copied.reader, fault⟩

end Writer

end Raw

end Deposit.Archive
