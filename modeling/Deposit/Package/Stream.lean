import Deposit.Content.Source
import Deposit.Host.Basic
import Deposit.Package.Resource

set_option autoImplicit false
set_option relaxedAutoImplicit false

/-!
A finished package. Its bytes are in a file that the package owns until it is closed; every reader
that is opened before starts at the first byte, and stays usable afterwards.
-/

namespace Deposit

/-- A package with the place of its bytes. -/
structure PackageStream where
  place : Location
  metadata : PackageMetadata
  resources : List Resource
  closed : Bool

/-- Why an operation on a package fails. -/
inductive StreamFault where
  | closed (name : String)
  | file (fault : FileFault)
  | unknownResource (name : String)
  | closedReader
  | negativeLength
deriving DecidableEq, Repr

def StreamFault.message : StreamFault → String
  | closed name => "package stream " ++ name ++ " is closed"
  | file fault => fault.message
  | unknownResource name => Text.quoted name
  | closedReader => "read of closed file"
  | negativeLength => "read length must be non-negative or -1"

/-- A reader over the bytes of a package. -/
structure PackageReader where
  stream : Stream
  closed : Bool

namespace PackageReader

def start (bytes : Bytes) : PackageReader :=
  ⟨(Source.ofBytes bytes).open, false⟩

/-- Reads at most a number of bytes, or all that are left when the number is minus one. -/
def read (r : PackageReader) (asked : Int) : Except StreamFault (Bytes × PackageReader) :=
  if r.closed then .error .closedReader
  else if asked < -1 then .error .negativeLength
  else
    let wanted := if asked = -1 then r.stream.rest.length else asked.toNat
    match r.stream.read wanted with
    | .ok (piece, stream) => .ok (piece, { r with stream })
    | .error _ => .error .closedReader

def close (r : PackageReader) : PackageReader :=
  { r with closed := true }

end PackageReader

namespace PackageStream

variable {m : Type → Type} [Host m]

def shown (p : PackageStream) : String :=
  "PackageStream(" ++ p.metadata.name ++ ")"

def resource (p : PackageStream) (name : String) : Except StreamFault Resource :=
  match p.resources.find? fun r => r.originalName == name with
  | some r => .ok r
  | none => .error (.unknownResource name)

def «open» (p : PackageStream) : m (Except StreamFault PackageReader) := do
  if p.closed then return .error (.closed p.metadata.name)
  match ← Host.read p.place with
  | .ok bytes => return .ok (.start bytes)
  | .error fault => return .error (.file fault)

/-- Copies the bytes to a file, which is replaced if it is there. -/
def writeTo (p : PackageStream) (destination : Location) : m (Except StreamFault Location) := do
  match ← p.open with
  | .error fault => return .error fault
  | .ok reader =>
    match ← Host.write destination reader.stream.rest with
    | .error fault => return .error (.file fault)
    | .ok () => return .ok destination

/-- Removes the file of the bytes, once. -/
def close (p : PackageStream) : m PackageStream := do
  if p.closed then return p
  let _ ← Host.remove p.place
  Host.notice .debug ("Removed package file " ++ p.place.text)
  return { p with closed := true }

end PackageStream

end Deposit
