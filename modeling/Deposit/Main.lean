import Deposit.CommandLine.Run
import Deposit.Xml.Reader

set_option autoImplicit false
set_option relaxedAutoImplicit false

/-!
The program on a machine: files are those of the machine, notices go to the error output, and no
server is within reach.
-/

namespace Deposit

/-- What the program runs in; it carries whether notices about details are wanted. -/
abbrev Machine := ReaderT Bool IO

namespace Machine

/-- The cause of a refusal. -/
def causeOf : IO.Error → FileCause
  | .noFileOrDirectory _ _ _ => .notFound
  | .alreadyExists _ _ _ => .exists
  | .permissionDenied _ _ _ => .denied
  | .inappropriateType _ code _ => if code = 20 then .notDirectory else .isDirectory
  | e => .other 5 e.toString

/-- An action on the file at a location. -/
def onFile {α : Type} (l : Location) (action : String → IO α) : Machine (Except FileFault α) := do
  if l.text.contains '\x00' then return .error .embeddedNul
  try return .ok (← action l.text)
  catch e => return .error (.refused (causeOf e) l.text)

/-- The directory of temporary files. -/
def temporaryDirectory : IO String := do
  return (← IO.getEnv "TMPDIR").getD "/tmp"

/-- Creates an empty file with a new name in a directory. -/
def createIn (directory : Location) : Machine (Except FileFault Location) := do
  let place := directory.child ("package-" ++ Text.decimal (← IO.monoNanosNow) ++ ".tmp")
  let created ← onFile place fun path => IO.FS.writeBinFile path ByteArray.empty
  return created.map fun _ => place

instance : Host Machine where
  notice level text := do
    if CommandLine.isWanted (← read) level then
      IO.eprintln (CommandLine.noticeLine level text)
  openContent file := return file.opened
  read l := onFile l fun path => do return (← IO.FS.readBinFile path).toList
  size l := onFile l fun path => do
    return (← (← IO.FS.realPath path).metadata).byteSize.toNat
  holds l := do
    match ← onFile l fun path => IO.FS.realPath path with
    | .ok _ => return .ok true
    | .error (.refused .denied path) => return .error (.refused .denied path)
    | .error _ => return .ok false
  resolve l := do
    match ← onFile l fun path => IO.FS.realPath path with
    | .ok path => return .ok (.ofText path.toString)
    | .error .embeddedNul => return .error .embeddedNul
    | .error _ => return .ok (l.resolve (Location.ofText (← IO.currentDir).toString).parts)
  write l bytes := onFile l fun path => IO.FS.writeBinFile path (ByteArray.mk bytes.toArray)
  makeDirectories l := onFile l fun path => IO.FS.createDirAll path
  createTemporary directory := do
    match directory with
    | some directory => createIn directory
    | none => createIn (.ofText (← temporaryDirectory))
  remove l := onFile l fun path => IO.FS.removeFile path

instance : Http.Network Machine where
  send _ := return .error (.interrupted .connection "no server is within reach")
  wait seconds := do
    if let some fault := Http.WaitFault.ofSeconds? seconds then return .error fault
    IO.sleep (seconds * 1000.0).toUInt32
    return .ok ()

end Machine

end Deposit

/-- Runs the program. -/
def main (arguments : List String) : IO UInt32 := do
  let invocation := Deposit.CommandLine.Invocation.ofArguments arguments
  let command : Deposit.Machine Deposit.CommandLine.Outcome := invocation.run Deposit.Xml.decoder
  let outcome ← command.run invocation.isVerbose
  IO.print outcome.output
  if let some complaint := outcome.complaint? then IO.eprintln complaint
  return UInt32.ofNat outcome.exitStatus
