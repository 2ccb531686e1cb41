import Deposit.Archive.Entry
import Deposit.Archive.Sink
import Deposit.Archive.Zip.Record
import Deposit.Codec.Crc32
import Deposit.Codec.Deflate

set_option autoImplicit false
set_option relaxedAutoImplicit false

/-!
Writing a zip archive from front to back. Where the stream below stays where it is, nothing written
is revisited: what is only known after the data of a member stands behind it. Where the stream says
that it can be moved, the header before the data is to be written again instead. The directory of
all members stands at the end.
-/

namespace Deposit.Archive.Zip

/-- What has been written, the members written completely, the place behind the last of them,
whether the directory has been written, and the stream below if it can be moved. -/
structure Writer where
  output : Array UInt8
  members : List Member
  directory : Nat
  closed : Bool
  movable : Option Sink

/-- Whether the size of a member is unknown or so large that it may not fit 32 bits. -/
def isWide : Option Int → Bool
  | none => true
  | some n => (sizeLimit : Int) * 20 < n * 21

/-- The fault for a declared size that is no floating-point number. -/
def hugeSize? : Option Int → Option Fault
  | none => none
  | some n =>
    if Nat.pow 2 1024 - Nat.pow 2 970 ≤ n.natAbs then some (.archive .sizeTooLarge) else none

/-- The fault for a declared size that no field of a header holds. -/
def rangeFault? : Option Int → Option Fault
  | none => none
  | some n => if n < 0 ∨ (wideLimit : Int) ≤ n then some (.archive .outOfRange) else none

namespace Writer

/-- A writer over a stream that stays where it is. -/
def empty : Writer := ⟨#[], [], 0, false, none⟩

/-- A writer over a stream, which is asked where it is and then sent there. -/
def start (sink : Sink) : Writer :=
  { empty with movable := if sink.isSeekable then some sink else none }

/-- The fault of moving to a place, which nothing tries where the stream stays where it is. -/
def seekFault? (w : Writer) (place : Nat) : Option Fault :=
  w.movable.bind fun sink => sink.seekFault? w.output.size place

/-- The fault of writing the header of a member behind the last one. -/
def headerFault? (w : Writer) (name : String) (size : Option Int) : Option Fault :=
  let longName :=
    if 65535 < (Bytes.ofText name).length then some (.archive .longName) else none
  match w.movable with
  | none => longName
  | some _ => (w.seekFault? w.directory).or ((rangeFault? size).or longName)

def header (w : Writer) (name : String) (size : Option Int) : Bytes :=
  match w.movable with
  | none => localHeader name (isWide size)
  | some _ => provisionalHeader name (isWide size) (size.getD 0).toNat

/-- Writes the data of a member that was begun at an offset, and what stands behind it. Where the
stream can be moved, it is sent back to the header instead, and no stream goes there. -/
def finish (w : Writer) (name : String) (isWide : Bool) (offset : Nat) (content : Bytes) :
    Writer × Option Fault :=
  let packed := Codec.Deflate.encode content
  let m : Member :=
    { name, isWide, crc := (Codec.crc32 content).toNat, packedSize := packed.length,
      size := content.length, offset }
  let output := w.output ++ packed
  if !isWide && sizeLimit < m.size then ({ w with output }, some (.archive .entryTooLarge))
  else if !isWide && sizeLimit < m.packedSize then
    ({ w with output }, some (.archive .compressedTooLarge))
  else if wideLimit ≤ m.size || wideLimit ≤ m.packedSize then
    ({ w with output }, some (.archive .numberTooLarge))
  else
    match seekFault? { w with output } offset with
    | some fault => ({ w with output, directory := output.size }, some fault)
    | none =>
      let output := output ++ descriptor m
      ({ w with output, members := w.members ++ [m], directory := output.size }, none)

/-- Adds a member. It enters the directory also when its content ends in a fault. -/
def add (w : Writer) (path : String) (reader : Reader) (size : Option Int) : Added Writer :=
  if w.closed then ⟨w, reader, some (.archive .zipClosed)⟩
  else
    match hugeSize? size with
    | some fault => ⟨w, reader, some fault⟩
    | none =>
      let name := cutName path
      match w.headerFault? name size with
      | some fault => ⟨w, reader, some fault⟩
      | none =>
        let offset := w.output.size
        let started := { w with output := w.output ++ w.header name size }
        let copied := copyAll #[] reader
        let (finished, late) := started.finish name (isWide size) offset copied.writer.toList
        let early := copied.fault.or (sizeFault? path copied.reader size)
        ⟨finished, copied.reader, late.or early⟩

def central (w : Writer) : Bytes :=
  w.members.flatMap centralRecord

/-- The fault of writing a directory that ends where no field can say, or of moving to where it is
to stand. -/
def closeFault? (w : Writer) : Option Fault :=
  if w.closed then none
  else
    (w.seekFault? w.directory).or <|
      if wideLimit ≤ w.output.size + w.central.length then some (.archive .numberTooLarge)
      else none

/-- Writes the directory, once. -/
def close (w : Writer) : Writer :=
  if w.closed then w
  else if (w.seekFault? w.directory).isSome then { w with closed := true }
  else
    let size := w.output.size + w.central.length - w.directory
    { w with
      output := w.output ++ w.central ++ endRecords w.members.length size w.directory
      closed := true }

end Writer

end Deposit.Archive.Zip
