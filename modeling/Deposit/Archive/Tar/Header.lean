import Deposit.Bytes

set_option autoImplicit false
set_option relaxedAutoImplicit false

/-!
The header blocks of a tar archive. A member is described by one block of fixed fields; a name or a
size that does not fit is first given in full in an extended header, which is itself a member whose
content is a list of records.
-/

namespace Deposit.Archive.Tar

def blockSize : Nat := 512

/-- A number in octal digits that fill a field up to its closing zero byte. -/
def octalField (width n : Nat) : Bytes :=
  Bytes.ofChars (Text.digits 8 (width - 1) n) ++ [0]

/-- A name as the fixed field holds it: other than ASCII characters become question marks. -/
def nameField (name : List Char) : Bytes :=
  Bytes.fit 100 (Bytes.ofChars (name.map fun c => if c.toNat < 128 then c else '?'))

def sum (bs : Bytes) : Nat :=
  bs.foldl (fun n b => n + b.toNat) 0

def fieldsBefore (name : List Char) (mode size : Nat) : Bytes :=
  nameField name ++ octalField 8 mode ++ octalField 8 0 ++ octalField 8 0 ++ octalField 12 size ++
    octalField 12 0

def formatMark : Bytes :=
  Bytes.ofChars ['u', 's', 't', 'a', 'r', '\x00', '0', '0']

/-- The fixed fields after the checksum: the type, no link, the format, and no owner or device. -/
def fieldsAfter (kind : Char) : Bytes :=
  Bytes.ofChars [kind] ++ Bytes.zeros 100 ++ formatMark ++ Bytes.zeros 247

/-- The sum of a header block in which the checksum counts as eight blanks. -/
def checksum (before after : Bytes) : Nat :=
  sum before + 8 * 32 + sum after

def block (name : List Char) (mode size : Nat) (kind : Char) : Bytes :=
  let before := fieldsBefore name mode size
  let after := fieldsAfter kind
  before ++ Bytes.ofChars (Text.digits 8 6 (checksum before after)) ++ [0, 32] ++ after

/-- The number of zero bytes that complete the last block of a content. -/
def padding (size : Nat) : Nat :=
  (blockSize - size % blockSize) % blockSize

/-- The length of a record that counts its own digits, from the length without them. -/
def recordLength (rest : Nat) : Nat :=
  let width := (Nat.toDigits 10 rest).length
  if (Nat.toDigits 10 (rest + width)).length = width then rest + width else rest + width + 1

/-- A record of an extended header: its length, a key and a value. -/
def record (key value : String) : Bytes :=
  let body := Bytes.ofText (" " ++ key ++ "=" ++ value ++ "\n")
  Bytes.ofText (Text.decimal (recordLength body.length)) ++ body

def needsPathRecord (name : String) : Bool :=
  name.toList.any (fun c => 128 ≤ c.toNat) || 100 < name.length

/-- The first size that does not fit the eleven octal digits of the fixed field. -/
def sizeLimit : Nat := 0x200000000

def needsSizeRecord (size : Int) : Bool :=
  size < 0 || (sizeLimit : Int) ≤ size

def records (name : String) (size : Int) : Bytes :=
  (if needsPathRecord name then record "path" name else []) ++
    (if needsSizeRecord size then record "size" (Text.decimalInt size) else [])

def extended (records : Bytes) : Bytes :=
  block "././@PaxHeader".toList 0 records.length 'x' ++ records ++
    Bytes.zeros (padding records.length)

def fileMode : Nat := 0o644

def header (name : String) (size : Int) : Bytes :=
  let rs := records name size
  (if rs = [] then [] else extended rs) ++
    block name.toList fileMode (if needsSizeRecord size then 0 else size.toNat) '0'

end Deposit.Archive.Tar
