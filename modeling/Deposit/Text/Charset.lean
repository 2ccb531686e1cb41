import Deposit.Text.Charset.Table
import Deposit.Text.Utf8

set_option autoImplicit false
set_option relaxedAutoImplicit false

/-!
Decoding bytes by a named character set. Bytes that stand for no character make the decoding fail.
-/

namespace Deposit.Text

/-- Ways to decode bytes. -/
inductive Charset where
  | ascii
  | latin
  | table (stretches : List Charset.Stretch)
  | utf8
  | utf16 (bigEndian : Bool)
  | utf32 (bigEndian : Bool)

namespace Charset

def ofTable? (stretches : List Stretch) (b : UInt8) : Option Char :=
  if b < 0x80 then some (Char.ofNat b.toNat)
  else
    (stretches.find? fun s => s.1 ≤ b.toNat && b.toNat < s.1 + s.2.2).map fun s =>
      Char.ofNat (s.2.1 + (b.toNat - s.1))

def number (bigEndian : Bool) (bs : Bytes) : Nat :=
  (if bigEndian then bs else bs.reverse).foldl (fun n b => n * 256 + b.toNat) 0

def utf16? (bigEndian : Bool) : Bytes → Option (List Char)
  | [] => some []
  | a :: b :: rest =>
    let n := number bigEndian [a, b]
    if n < 0xd800 ∨ 0xe000 ≤ n then (utf16? bigEndian rest).map (Char.ofNat n :: ·)
    else
      match rest with
      | c :: d :: rest =>
        let m := number bigEndian [c, d]
        if n < 0xdc00 ∧ 0xdc00 ≤ m ∧ m < 0xe000 then
          (utf16? bigEndian rest).map
            (Char.ofNat (0x10000 + (n - 0xd800) * 0x400 + (m - 0xdc00)) :: ·)
        else none
      | _ => none
  | _ => none

def utf32? (bigEndian : Bool) : Bytes → Option (List Char)
  | [] => some []
  | a :: b :: c :: d :: rest =>
    let n := number bigEndian [a, b, c, d]
    if n.isValidChar then (utf32? bigEndian rest).map (Char.ofNat n :: ·) else none
  | _ => none

def decode? (charset : Charset) (bs : Bytes) : Option (List Char) :=
  match charset with
  | ascii => bs.mapM (ofTable? [])
  | latin => some (bs.map fun b => Char.ofNat b.toNat)
  | table stretches => bs.mapM (ofTable? stretches)
  | utf8 =>
    match Utf8.decode bs with
    | .ok s => some s.toList
    | .error _ => none
  | utf16 bigEndian => utf16? bigEndian bs
  | utf32 bigEndian => utf32? bigEndian bs

/-- Character sets of one byte a character and the names they go by, in upper case. -/
def named : List (Charset × List String) :=
  [(.utf8, ["UTF-8", "UTF8"]),
   (.ascii, ["US-ASCII", "ASCII", "ANSI_X3.4-1968", "ISO646-US", "CP367"]),
   (.latin, ["ISO-8859-1", "ISO_8859-1", "ISO8859-1", "ISO-LATIN-1", "LATIN1", "L1", "CP819"]),
   (.table iso88592, ["ISO-8859-2", "ISO_8859-2", "ISO8859-2", "LATIN2", "L2"]),
   (.table iso88595, ["ISO-8859-5", "ISO_8859-5", "ISO8859-5", "CYRILLIC"]),
   (.table iso88597, ["ISO-8859-7", "ISO_8859-7", "ISO8859-7", "GREEK"]),
   (.table iso88599, ["ISO-8859-9", "ISO_8859-9", "ISO8859-9", "LATIN5", "L5"]),
   (.table iso885915, ["ISO-8859-15", "ISO_8859-15", "ISO8859-15", "LATIN-9"]),
   (.table windows1250, ["WINDOWS-1250", "CP1250"]),
   (.table windows1251, ["WINDOWS-1251", "CP1251"]),
   (.table windows1252, ["WINDOWS-1252", "CP1252"]),
   (.table windows1253, ["WINDOWS-1253", "CP1253"]),
   (.table windows1254, ["WINDOWS-1254", "CP1254"]),
   (.table koi8R, ["KOI8-R"])]

/-- The character set of a name, in whichever case. -/
def ofName? (name : String) : Option Charset :=
  let wanted := String.ofList (name.toList.map Char.toUpper)
  (named.find? fun entry => entry.2.contains wanted).map Prod.fst

end Charset

end Deposit.Text
