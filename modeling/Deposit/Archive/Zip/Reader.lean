import Deposit.Archive.Zip.Record
import Deposit.Codec.Crc32
import Deposit.Codec.Deflate
import Deposit.Text.Utf8

set_option autoImplicit false
set_option relaxedAutoImplicit false

/-!
Reading a zip archive by its directory: the end record gives the place of the directory, and each
entry of the directory the place of a local header, behind which the data stands.
-/

namespace Deposit.Archive.Zip

/-- A member as the directory and its local header describe it, with its content. -/
structure Found where
  name : String
  header : Bytes
  method : Nat
  flags : Nat
  system : Nat
  createVersion : Nat
  extractVersion : Nat
  time : Nat
  date : Nat
  attributes : Nat
  extra : Bytes
  crc : Nat
  size : Nat
  content : Bytes

/-- The widths of the numbers in a local header, from its mark to the length of its extra field. -/
def localWidths : List Nat := [4, 2, 2, 2, 2, 2, 4, 4, 4, 2, 2]

/-- The widths of the numbers in a directory entry, from its mark to the place of the header. -/
def centralWidths : List Nat := [4, 1, 1, 1, 1, 2, 2, 2, 2, 4, 4, 4, 2, 2, 2, 2, 2, 4, 4]

def endWidths : List Nat := [4, 2, 2, 2, 2, 4, 4, 2]

/-- The widths of the numbers in the end record with numbers of 64 bits. -/
def wideEndWidths : List Nat := [4, 8, 2, 2, 4, 4, 8, 8, 8, 8]

def numbers (widths : List Nat) (bs : Bytes) : List Nat :=
  (Bytes.fields widths bs).map Bytes.readLE

def nameText? (flags : Nat) (bs : Bytes) : Option String :=
  if flags / 0x800 % 2 = 1 then (Text.Utf8.decode bs).toOption
  else some (String.ofList (Bytes.toChars bs))

/-- The 64-bit numbers of an extra field. -/
def wideNumbersOf (extra : Bytes) : List Nat :=
  match numbers [2, 2] extra with
  | [1, length] => numbers (List.replicate (length / 8) 8) (extra.drop 4)
  | _ => []

/-- Reads the header at the front of some bytes that belongs to a name, and its data. -/
def data? (inflate : Bytes → Option (Bytes × Bytes)) (name place : Bytes) :
    Option (Bytes × Bytes) :=
  match numbers localWidths place with
  | [mark, _, _, _, _, _, _, _, _, nameLength, extraLength] =>
    let header := place.take (30 + nameLength + extraLength)
    if mark = 0x04034b50 ∧ (header.drop 30).take nameLength = name then
      (inflate (place.drop (30 + nameLength + extraLength))).map fun d => (header, d.1)
    else none
  | _ => none

/-- Reads the member that a directory entry describes, and the rest of the directory. -/
def member? (inflate : Bytes → Option (Bytes × Bytes)) (archive entry : Bytes) :
    Option (Found × Bytes) :=
  match numbers centralWidths entry with
  | [mark, createVersion, system, extractVersion, _, flags, method, time, date, crc, _, shownSize,
      nameLength, extraLength, commentLength, _, _, attributes, shownOffset] => do
    let encoded := (entry.drop 46).take nameLength
    let extra := (entry.drop (46 + nameLength)).take extraLength
    let wide := wideNumbersOf extra
    let size := if shownSize = allOnes then wide.headD 0 else shownSize
    let behind := if shownSize = allOnes then wide.drop 2 else wide
    let offset := if shownOffset = allOnes then behind.headD 0 else shownOffset
    let name ← nameText? flags encoded
    let (header, content) ← data? inflate encoded (archive.drop offset)
    if mark = 0x02014b50 ∧ content.length = size ∧ (Codec.crc32 content).toNat = crc then
      some
        ({ name, header, method, flags, system, createVersion, extractVersion, time, date,
           attributes, extra, crc, size, content },
          entry.drop (46 + nameLength + extraLength + commentLength))
    else none
  | _ => none

def members? (inflate : Bytes → Option (Bytes × Bytes)) (archive : Bytes) :
    Nat → Bytes → Option (List Found)
  | 0, _ => some []
  | n + 1, entry => do
    let (m, rest) ← member? inflate archive entry
    let more ← members? inflate archive n rest
    pure (m :: more)

/-- Reads an archive without a comment: its members in the order of the directory. When the end
record does not stand right behind the directory it gives, the record before it has the numbers.
What was deflated is inflated in a given way, which is told where it begins and finds out where it
ends. -/
def readWith? (inflate : Bytes → Option (Bytes × Bytes)) (archive : Bytes) :
    Option (List Found) :=
  match numbers endWidths (archive.drop (archive.length - 22)) with
  | [mark, _, _, _, count, size, offset, _] =>
    if mark ≠ 0x06054b50 then none
    else if offset + size + 22 = archive.length then
      members? inflate archive count (archive.drop offset)
    else
      match numbers wideEndWidths (archive.drop (archive.length - 22 - 20 - 56)) with
      | [mark, _, _, _, _, _, _, count, _, offset] =>
        if mark ≠ 0x06064b50 then none else members? inflate archive count (archive.drop offset)
      | _ => none
  | _ => none

/-- Reads an archive whose data are stored blocks. -/
def read? (archive : Bytes) : Option (List Found) :=
  readWith? Codec.Deflate.decode archive

end Deposit.Archive.Zip
