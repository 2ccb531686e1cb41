import Deposit.Archive.Entry
import Deposit.Archive.Tar.Header

set_option autoImplicit false
set_option relaxedAutoImplicit false

/-!
Writing a tar archive. A header announces the size of the content, so a content of unknown size is
read to its end first. Content is copied in reads of a fixed length, each of which must be served in
full.
-/

namespace Deposit.Archive.Tar

def recordSize : Nat := 10240

def copySize : Nat := 16384

/-- What has been written, the offset by which the end of the archive is filled up, and whether the
end has been written. -/
structure Writer where
  output : Array UInt8
  offset : Int
  closed : Bool

/-- Copies a number of bytes in one read that must be served in full. -/
def copyExactly (output : Array UInt8) (reader : Reader) (size : Nat) : Added (Array UInt8) :=
  match reader.read size with
  | .error fault => ⟨output, reader, some fault⟩
  | .ok (piece, next) =>
    if piece.length < size then ⟨output, next, some (.archive .endedEarly)⟩
    else ⟨output ++ piece, next, none⟩

/-- Copies a number of full pieces, then a remainder. -/
def copyPieces : Nat → Nat → Array UInt8 → Reader → Added (Array UInt8)
  | 0, 0, output, reader => ⟨output, reader, none⟩
  | 0, remainder + 1, output, reader => copyExactly output reader (remainder + 1)
  | n + 1, remainder, output, reader =>
    let step := copyExactly output reader copySize
    match step.fault with
    | some _ => step
    | none => copyPieces n remainder step.writer step.reader

namespace Writer

def empty : Writer := ⟨#[], 0, false⟩

/-- Adds a member of a given size. An extended header that is too long for its own size field is
refused before anything is written. -/
def addSized (w : Writer) (name : String) (reader : Reader) (size : Int) : Added Writer :=
  if w.closed then ⟨w, reader, some (.archive .tarClosed)⟩
  else if sizeLimit ≤ (records name size).length then
    ⟨w, reader, some (.archive .fieldOverflow)⟩
  else
    let head := header name size
    let started : Writer :=
      { w with output := w.output ++ head, offset := w.offset + head.length }
    let copied :=
      if size = 0 then ⟨started.output, reader, none⟩
      else copyPieces (size / copySize).toNat (size % copySize).toNat started.output reader
    match copied.fault with
    | some fault => ⟨{ started with output := copied.writer }, copied.reader, some fault⟩
    | none =>
      let remainder := (size % blockSize).toNat
      let fill := if remainder = 0 then 0 else blockSize - remainder
      let blocks := size / blockSize + (if remainder = 0 then 0 else 1)
      let finished : Writer :=
        { started with
          output := copied.writer ++ Bytes.zeros fill
          offset := started.offset + blocks * blockSize }
      ⟨finished, copied.reader, none⟩

/-- Adds a member of a given size and checks that nothing follows. -/
def addDeclared (w : Writer) (name : String) (reader : Reader) (size : Int) : Added Writer :=
  let added := w.addSized name reader size
  match added.fault with
  | some _ => added
  | none =>
    match added.reader.read 1 with
    | .error fault => { added with fault := some fault }
    | .ok (piece, next) =>
      if piece = [] then { added with reader := next }
      else { added with reader := next, fault := some (.archive (.longerThanDeclared name size)) }

/-- Adds a member of unknown size: its content is read to the end first. -/
def addSpooled (w : Writer) (name : String) (reader : Reader) : Added Writer :=
  let spooled := copyAll #[] reader
  match spooled.fault with
  | some fault => ⟨w, spooled.reader, some fault⟩
  | none =>
    let content := spooled.writer.toList
    let replay : Reader := .start [] (Source.ofBytes content).open
    { w.addSized name replay content.length with reader := spooled.reader }

def add (w : Writer) (name : String) (reader : Reader) (size : Option Int) : Added Writer :=
  match size with
  | some n => w.addDeclared name reader n
  | none => w.addSpooled name reader

/-- Writes the end of the archive, once. -/
def close (w : Writer) : Writer :=
  if w.closed then w
  else
    let offset := w.offset + 2 * blockSize
    let remainder := (offset % recordSize).toNat
    let fill := if remainder = 0 then 0 else recordSize - remainder
    { output := w.output ++ Bytes.zeros (2 * blockSize + fill), offset := offset, closed := true }

/-- The bytes that have left the writer: before the end is written, only whole records have. -/
def written (w : Writer) : Bytes :=
  if w.closed then w.output.toList
  else w.output.toList.take ((w.output.size - 1) / recordSize * recordSize)

end Writer

end Deposit.Archive.Tar
