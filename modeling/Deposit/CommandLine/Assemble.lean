import Deposit.Assembly.Assembler
import Deposit.CommandLine.Invocation
import Deposit.CommandLine.Option
import Deposit.Host.Basic
import Deposit.Json.Printer
import Deposit.Submission.Manifest

set_option autoImplicit false
set_option relaxedAutoImplicit false

/-!
The command that assembles: it packages the submission in a directory and writes a description of
the package beside it.
-/

namespace Deposit.CommandLine

def manifestName : String := "submission.json"

/-- The description of a package with the submission it is made from. -/
def packageRecord (submission : String) (p : PackageStream) : Json :=
  .object
    [("submission", .text submission),
     ("metadata", p.metadata.toJson),
     ("resources", .list (p.resources.map Resource.toJson))]

/-- The notices about a package that has been written to a place. -/
def packageNotices (p : PackageStream) (place : Location) : List String :=
  ["Created package: " ++ p.metadata.name,
   "  Files: " ++ Text.decimal p.resources.length,
   "  Size: " ++ Text.decimalInt p.metadata.sizeBytes ++ " bytes"] ++
    p.metadata.checksums.map (fun c => "  " ++ c.1 ++ ": " ++ c.2) ++
    ["  Output: " ++ place.text]

/-- The notices about content files that are not placed at their names. -/
def renamingNotices (p : PackageStream) : List String :=
  (p.resources.filter fun r => r.role.isSome && r.isRemediated).map fun r =>
    "  Renamed: " ++ r.originalName ++ " -> " ++ r.packagePath

variable {m : Type → Type} [Host m]

/-- Reads the submission that is described in a directory; a failure is given by its message. -/
def readSubmission (directory : Location) : m (Except String Submission) := do
  match ← Host.readText (directory.child manifestName) with
  | .error fault => pure (.error fault.message)
  | .ok text =>
    match Manifest.ofText text with
    | .issues is => pure (.error (Schema.summary "SubmissionManifest" is))
    | .ok manifest =>
      match ← manifest.submission directory with
      | .error fault => pure (.error fault.message)
      | .ok s => pure (.ok s)

def writePackage (submission : String) (p : PackageStream) (output : Location) :
    m (Except String Location) := do
  match ← p.writeTo (output.child p.metadata.name) with
  | .error fault => pure (.error fault.message)
  | .ok place =>
    let record := (packageRecord submission p).pretty
    let beside := output.child (p.metadata.name ++ ".metadata.json")
    match ← Host.write beside (Bytes.ofText record) with
    | .error fault => pure (.error fault.message)
    | .ok () => pure (.ok place)

/-- Writes a package that has been assembled, and lets go of it. -/
def deliver (submission : String) (p : PackageStream) (output : Location) :
    m (Except String Unit) := do
  let written ← writePackage submission p output
  match written with
  | .error message => do
    let _ ← p.close
    pure (.error message)
  | .ok place => do
    Host.notices .info (packageNotices p place)
    Host.notices .warning (renamingNotices p)
    let _ ← p.close
    pure (.ok ())

def AssembleArguments.assembler (a : AssembleArguments) : Except ConfigurationError Assembler :=
  match Specification.ofIdentifier? a.specification with
  | none => .error (.unknownSpecification a.specification)
  | some s => Assembler.create s { archive := a.archive, compression := a.compression }

def assembleFrom (a : AssembleArguments) (directory : Location) : m (Except String Unit) := do
  match ← readSubmission directory with
  | .error message => pure (.error message)
  | .ok s =>
    match a.assembler with
    | .error e => pure (.error e.message)
    | .ok assembler =>
      match ← assembler.assemble s with
      | .error failure => pure (.error failure.message)
      | .ok p => deliver s.id p a.output

/-- The outcome of a command that may fail, after a notice if it does. -/
def outcomeOf (failure : String) : Except String String → m Outcome
  | .ok output => pure (.done output)
  | .error message => do
    Host.notice .error (failure ++ ": " ++ message)
    pure .failed

def AssembleArguments.run (a : AssembleArguments) : m Outcome := do
  match ← Host.resolve a.submission with
  | .error fault => pure (.fault fault)
  | .ok directory =>
    let manifest := directory.child manifestName
    match ← Host.holds manifest with
    | .error fault => pure (.fault fault)
    | .ok false => do
      Host.notice .error ("Submission manifest not found: " ++ manifest.text)
      pure .failed
    | .ok true => do
      match ← Host.makeDirectories a.output with
      | .error fault => pure (.fault fault)
      | .ok () => do
        let result ← assembleFrom a directory
        outcomeOf "Failed to assemble package" (result.map fun _ => "")

end Deposit.CommandLine
