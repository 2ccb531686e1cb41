import Deposit.Archive.Tar.Header
import Deposit.Text.Utf8

set_option autoImplicit false
set_option relaxedAutoImplicit false

/-!
Reading a tar archive from front to back. A header block gives the size of the content behind it; an
extended header before it may give the name and the size in full. Two blocks of zeros end the
archive.
-/

namespace Deposit.Archive.Tar

/-- What a header block says. -/
structure Header where
  name : String
  mode : Nat
  user : Nat
  group : Nat
  size : Nat
  time : Nat
  kind : Bytes
  userName : String
  groupName : String

/-- A member as its headers describe it, with its content. -/
structure Found where
  name : String
  header : Header
  content : Bytes

/-- The widths of the fields of a header block: name, mode, user, group, size, time, checksum, kind,
link, format, user name, group name, two of devices, and what stands before the name. -/
def fieldWidths : List Nat := [100, 8, 8, 8, 12, 12, 8, 1, 100, 8, 32, 32, 8, 8, 155]

/-- What a field of text holds, up to the first zero byte. -/
def textOf? (field : Bytes) : Option String :=
  (Text.Utf8.decode (field.takeWhile (· ≠ 0))).toOption

/-- The number that some digits stand for, if they are digits of the base. -/
def numberOf? (base : Nat) (digits : Bytes) : Option Nat :=
  if digits.all fun b => 48 ≤ b.toNat && b.toNat < 48 + base then
    some (Nat.ofDigitChars base (Bytes.toChars digits) 0)
  else none

/-- What a field of octal digits holds, up to the first zero byte or blank. -/
def octalOf? (field : Bytes) : Option Nat :=
  numberOf? 8 (field.takeWhile fun b => b ≠ 0 && b ≠ 32)

def header? (block : Bytes) : Option Header :=
  match Bytes.fields fieldWidths block with
  | [name, mode, user, group, size, time, shown, kind, _, format, userName, groupName, _, _,
      directory] => do
    let sum ← octalOf? shown
    let name ← textOf? name
    let directory ← textOf? directory
    let mode ← octalOf? mode
    let user ← octalOf? user
    let group ← octalOf? group
    let size ← octalOf? size
    let time ← octalOf? time
    let userName ← textOf? userName
    let groupName ← textOf? groupName
    if format = formatMark ∧ sum = checksum (block.take 148) (block.drop 156) then
      some
        { name := if directory = "" then name else directory ++ "/" ++ name
          mode, user, group, size, time, kind, userName, groupName }
    else none
  | _ => none

/-- Reads the records of an extended header, each by the length that it gives first. -/
def records? (bs : Bytes) : Option (List (String × String)) :=
  if bs = [] then some []
  else
    let digits := bs.takeWhile (· ≠ 32)
    match numberOf? 10 digits with
    | none => none
    | some length =>
      if digits.length + 1 < length ∧ length ≤ bs.length then
        let line := (bs.take length).drop (digits.length + 1)
        let key := line.takeWhile (· ≠ 61)
        let value := (line.drop (key.length + 1)).dropLast
        match Text.Utf8.decode key, Text.Utf8.decode value, line.getLast?,
            records? (bs.drop length) with
        | .ok key, .ok value, some 10, some more => some ((key, value) :: more)
        | _, _, _, _ => none
      else none
termination_by bs.length
decreasing_by
  rename_i h
  rw [List.length_drop]
  omega

/-- The value of a key in some records; a later one counts. -/
def valueOf? (key : String) (rs : List (String × String)) : Option String :=
  rs.reverse.lookup key

/-- The size that records give, or else the header. -/
def sizeOf? (rs : List (String × String)) (h : Header) : Option Nat :=
  match valueOf? "size" rs with
  | some value => numberOf? 10 (Bytes.ofText value)
  | none => some h.size

/-- Reads members up to the end, the first of them under the records of an extended header. -/
def members? (rs : List (String × String)) (bs : Bytes) : Option (List Found) :=
  if bs.take (2 * blockSize) = Bytes.zeros (2 * blockSize) then some []
  else if bs.length < blockSize then none
  else
    let rest := bs.drop blockSize
    match header? (bs.take blockSize) with
    | none => none
    | some h =>
      if h.kind = Bytes.ofChars ['x'] ∧ h.size ≤ rest.length then
        match records? (rest.take h.size) with
        | none => none
        | some rs => members? rs (rest.drop (h.size + padding h.size))
      else if h.kind = Bytes.ofChars ['0'] then
        match sizeOf? rs h with
        | none => none
        | some size =>
          if size ≤ rest.length then
            (members? [] (rest.drop (size + padding size))).map
              (⟨(valueOf? "path" rs).getD h.name, h, rest.take size⟩ :: ·)
          else none
      else none
termination_by bs.length
decreasing_by
  all_goals
    simp only [List.length_drop, blockSize] at *
    omega

/-- Reads an archive: its members in their order. -/
def read? (archive : Bytes) : Option (List Found) :=
  members? [] archive

end Deposit.Archive.Tar
