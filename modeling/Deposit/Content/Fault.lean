import Deposit.Disk.Fault
import Deposit.Text.Digits

set_option autoImplicit false
set_option relaxedAutoImplicit false

/-!
What can go wrong while content is read and written. A fault belongs to one of three families, by
which callers decide what to make of it: trouble with the system, values that cannot be used, and
everything else.
-/

namespace Deposit

/-- The kinds of fault that are reported by what the program uses: a source of content, or a
library. -/
inductive FaultKind where
  | system
  | missing
  | permission
  | value
  | runtime
  | key
  | mistyped
deriving DecidableEq, Repr

/-- How callers treat a fault. -/
inductive FaultFamily where
  | system
  | value
  | other
deriving DecidableEq, Repr

/-- The faults of writing an archive. Sizes are in bytes. -/
inductive ArchiveFault where
  | zipClosed
  | tarClosed
  | endedEarly
  | longerThanDeclared (path : String) (declared : Int)
  | sizeDiffers (path : String) (actual : Nat) (declared : Int)
  | singleFile (path first : String)
  | longName
  | sizeTooLarge
  | entryTooLarge
  | compressedTooLarge
  | numberTooLarge
  | outOfRange
  | negativeSeek
  | unseekable
  | fieldOverflow
deriving DecidableEq, Repr

/-- A fault while content is read, generated or written. -/
inductive Fault where
  | reported (kind : FaultKind) (message : String)
  | file (fault : FileFault)
  | archive (fault : ArchiveFault)
  | unsuitableText
  | missingKey (key : String)
deriving DecidableEq, Repr

namespace ArchiveFault

def message : ArchiveFault → String
  | zipClosed => "Attempt to use ZIP archive that was already closed"
  | tarClosed => "TarFile is closed"
  | endedEarly => "unexpected end of data"
  | longerThanDeclared path declared =>
    path ++ " is larger than its declared size of " ++ Text.decimalInt declared ++ " bytes"
  | sizeDiffers path actual declared =>
    path ++ " has " ++ Text.decimal actual ++ " bytes but a declared size of " ++
      Text.decimalInt declared ++ " bytes"
  | singleFile path first =>
    "cannot add " ++ path ++ ": an unarchived package holds a single file and already contains " ++
      first
  | longName => "ushort format requires 0 <= number <= 65535"
  | sizeTooLarge => "int too large to convert to float"
  | entryTooLarge => "File size too large, try using force_zip64"
  | compressedTooLarge => "Compressed size too large, try using force_zip64"
  | numberTooLarge => "int too large to convert"
  | outOfRange => "argument out of range"
  | negativeSeek => "Negative seek in write mode"
  | unseekable => "Seeking is only supported on files open for reading"
  | fieldOverflow => "overflow in number field"

def family : ArchiveFault → FaultFamily
  | tarClosed | endedEarly | negativeSeek | unseekable => .system
  | zipClosed | longerThanDeclared _ _ | sizeDiffers _ _ _ | singleFile _ _ | fieldOverflow =>
    .value
  | longName | sizeTooLarge | entryTooLarge | compressedTooLarge | numberTooLarge | outOfRange =>
    .other

end ArchiveFault

def FaultKind.family : FaultKind → FaultFamily
  | system | missing | permission => .system
  | value => .value
  | runtime | key | mistyped => .other

namespace Fault

/-- The message for a fault; a missing key is shown in quotation marks. -/
def message : Fault → String
  | reported .key message => Text.quoted message
  | reported _ message => message
  | file fault => fault.message
  | archive fault => fault.message
  | unsuitableText =>
    "All strings must be XML compatible: Unicode or ASCII, no NULL bytes or control characters"
  | missingKey key => Text.quoted key

def family : Fault → FaultFamily
  | reported kind _ => kind.family
  | file fault => if fault.isSystem then .system else .value
  | archive fault => fault.family
  | unsuitableText => .value
  | missingKey _ => .other

end Fault

end Deposit
