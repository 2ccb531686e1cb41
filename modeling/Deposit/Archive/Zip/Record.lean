import Deposit.Bytes

set_option autoImplicit false
set_option relaxedAutoImplicit false

/-!
The records of a zip archive. Each member has a local header before its data, a descriptor with
check and sizes after it, and an entry in the directory at the end. Numbers are least significant
byte first; sizes and offsets that may not fit 32 bits are given in 64.
-/

namespace Deposit.Archive.Zip

/-- The largest size and offset that are given in 32 bits. -/
def sizeLimit : Nat := 2147483647

/-- The first number that does not fit the 64 bits of the widest fields. -/
def wideLimit : Nat := 0x10000000000000000

/-- The largest number of members whose count is given in 16 bits. -/
def countLimit : Nat := 65535

/-- A member in the directory. -/
structure Member where
  name : String
  isWide : Bool
  crc : Nat
  packedSize : Nat
  size : Nat
  offset : Nat
deriving DecidableEq, Repr

def cutName (name : String) : String :=
  String.ofList (name.toList.takeWhile (· ≠ '\x00'))

def isExtended (name : String) : Bool :=
  name.toList.any fun c => 128 ≤ c.toNat

/-- The flags of a member: sizes follow the data, and whether its name is UTF-8. -/
def flags (name : String) : Nat :=
  if isExtended name then 8 + 0x800 else 8

/-- The version of the format that a member needs whose numbers fit 32 bits. -/
def version : Nat := 20

/-- The version of the format that has numbers of 64 bits. -/
def wideVersion : Nat := 45

def deflated : Nat := 8

/-- The time of every member, midnight. -/
def dosTime : Nat := 0

/-- The date of every member, the first day of the year 1980. -/
def dosDate : Nat := 0x21

def system : Nat := 3

/-- The attributes of every member: reading for all, writing for the owner. -/
def attributes : Nat := 0o644 * 65536

/-- The largest number of 32 bits. -/
def allOnes : Nat := 0xffffffff

/-- The extra field with sizes in 64 bits. -/
def wideField (numbers : List Nat) : Bytes :=
  Bytes.le 2 1 ++ Bytes.le 2 (8 * numbers.length) ++ numbers.flatMap (Bytes.le 8)

/-- The header before the data of a member, whose check and sizes are not known yet: they are given
as zero, in 64 bits also where the member is wide. -/
def localHeader (name : String) (isWide : Bool) : Bytes :=
  let encoded := Bytes.ofText name
  let extra := if isWide then wideField [0, 0] else []
  [0x50, 0x4b, 3, 4] ++ Bytes.le 2 version ++ Bytes.le 2 (flags name) ++
    Bytes.le 2 deflated ++ Bytes.le 2 dosTime ++ Bytes.le 2 dosDate ++ Bytes.le 4 0 ++
    Bytes.le 4 0 ++ Bytes.le 4 0 ++ Bytes.le 2 encoded.length ++ Bytes.le 2 extra.length ++
    encoded ++ extra

/-- The header before the data of a member that is to be written once more when check and sizes are
known. Nothing is announced behind the data, and the size is the one that is expected. -/
def provisionalHeader (name : String) (isWide : Bool) (size : Nat) : Bytes :=
  let encoded := Bytes.ofText name
  let extra := if isWide then wideField [size, 0] else []
  let hidesSizes := sizeLimit < size
  [0x50, 0x4b, 3, 4] ++ Bytes.le 2 (if hidesSizes then wideVersion else version) ++
    Bytes.le 2 (if isExtended name then 0x800 else 0) ++ Bytes.le 2 deflated ++
    Bytes.le 2 dosTime ++
    Bytes.le 2 dosDate ++ Bytes.le 4 0 ++ Bytes.le 4 (if hidesSizes then allOnes else 0) ++
    Bytes.le 4 (if hidesSizes then allOnes else size) ++ Bytes.le 2 encoded.length ++
    Bytes.le 2 extra.length ++ encoded ++ extra

def descriptor (m : Member) : Bytes :=
  let width := if m.isWide then 8 else 4
  [0x50, 0x4b, 7, 8] ++ Bytes.le 4 m.crc ++ Bytes.le width m.packedSize ++ Bytes.le width m.size

/-- The numbers of a member that do not fit 32 bits. -/
def wideNumbers (m : Member) : List Nat :=
  (if sizeLimit < m.size ∨ sizeLimit < m.packedSize then [m.size, m.packedSize] else []) ++
    (if sizeLimit < m.offset then [m.offset] else [])

def centralRecord (m : Member) : Bytes :=
  let encoded := Bytes.ofText m.name
  let wide := wideNumbers m
  let extra := if wide = [] then [] else wideField wide
  let needed := if wide = [] then version else wideVersion
  let hidesSizes := sizeLimit < m.size ∨ sizeLimit < m.packedSize
  [0x50, 0x4b, 1, 2] ++ [UInt8.ofNat needed, UInt8.ofNat system, UInt8.ofNat needed, 0] ++
    Bytes.le 2 (flags m.name) ++ Bytes.le 2 deflated ++ Bytes.le 2 dosTime ++
    Bytes.le 2 dosDate ++ Bytes.le 4 m.crc ++
    Bytes.le 4 (if hidesSizes then allOnes else m.packedSize) ++
    Bytes.le 4 (if hidesSizes then allOnes else m.size) ++
    Bytes.le 2 encoded.length ++ Bytes.le 2 extra.length ++ Bytes.le 2 0 ++ Bytes.le 2 0 ++
    Bytes.le 2 0 ++ Bytes.le 4 attributes ++
    Bytes.le 4 (if sizeLimit < m.offset then allOnes else m.offset) ++ encoded ++ extra

/-- The records that end an archive with a directory of a given place, size and count. -/
def endRecords (count size offset : Nat) : Bytes :=
  let needsWide := countLimit < count ∨ sizeLimit < offset ∨ sizeLimit < size
  let wide :=
    if needsWide then
      [0x50, 0x4b, 6, 6] ++ Bytes.le 8 44 ++ Bytes.le 2 wideVersion ++
        Bytes.le 2 wideVersion ++ Bytes.le 4 0 ++
        Bytes.le 4 0 ++ Bytes.le 8 count ++ Bytes.le 8 count ++ Bytes.le 8 size ++
        Bytes.le 8 offset ++
        [0x50, 0x4b, 6, 7] ++ Bytes.le 4 0 ++ Bytes.le 8 (offset + size) ++ Bytes.le 4 1
    else []
  let shown (limit n : Nat) : Nat := if needsWide then min limit n else n
  wide ++ [0x50, 0x4b, 5, 6] ++ Bytes.le 2 0 ++ Bytes.le 2 0 ++ Bytes.le 2 (shown 0xffff count) ++
    Bytes.le 2 (shown 0xffff count) ++ Bytes.le 4 (shown allOnes size) ++
    Bytes.le 4 (shown allOnes offset) ++ Bytes.le 2 0

end Deposit.Archive.Zip
