import Deposit.Bytes
import Deposit.Disk.Location
import Deposit.Disk.Fault

set_option autoImplicit false
set_option relaxedAutoImplicit false

/-!
A file system as a value: files and directories under their full paths, a working directory, and
what may not be done in directories. Every operation finds its place by walking from directory to
directory, so a step through something that is missing, is no directory or may not be entered fails,
also where a later step leads upwards again. There are no links.
-/

namespace Deposit

/-- What a path holds. -/
inductive DiskItem where
  | file (bytes : Bytes)
  | directory
deriving DecidableEq, Repr

/-- What is done in a directory: going through it, and adding or taking away items of it. -/
inductive DirectoryUse where
  | enter
  | change
deriving DecidableEq, Repr

/-- The files and directories below the root, the working directory, and which uses of which
directories are denied. -/
structure Disk where
  items : List (List String × DiskItem)
  workingDirectory : List String
  forbids : DirectoryUse → List String → Bool := fun _ _ => false

namespace Disk

/-- What stands at a full path; the root is a directory. -/
def item? (d : Disk) (key : List String) : Option DiskItem :=
  if key = [] then some .directory else d.items.lookup key

def set (d : Disk) (key : List String) (item : DiskItem) : Disk :=
  { d with items := (key, item) :: d.items.filter (·.1 ≠ key) }

def erase (d : Disk) (key : List String) : Disk :=
  { d with items := d.items.filter (·.1 ≠ key) }

/-- A location counted from the root, unless its text is none that a path can have. -/
def resolve (d : Disk) (l : Location) : Except FileFault Location :=
  if '\x00' ∈ l.text.toList then .error .embeddedNul else .ok (l.resolve d.workingDirectory)

def isLongName (s : String) : Bool :=
  255 < s.utf8ByteSize

/-- One step of the way to a location, from where it has led so far. -/
def step (d : Disk) (key : List String) (p : String) : Except FileCause (List String) :=
  match d.item? key with
  | none => .error .notFound
  | some (.file _) => .error .notDirectory
  | some .directory =>
    if d.forbids .enter key then .error .denied
    else if isLongName p then .error .nameTooLong
    else .ok (if p = ".." then key.dropLast else key ++ [p])

def walk (d : Disk) (key : List String) (ps : List String) : Except FileCause (List String) :=
  ps.foldlM d.step key

/-- The full path of a location, of which only the last item may be missing. -/
def locate (d : Disk) (l : Location) : Except FileFault (List String) :=
  if '\x00' ∈ l.text.toList then .error .embeddedNul
  else if 4096 ≤ l.text.utf8ByteSize then .error (.refused .nameTooLong l.text)
  else
    match d.walk (if l.isAbsolute then [] else d.workingDirectory) l.parts with
    | .ok key => .ok key
    | .error cause => .error (.refused cause l.text)

def find (d : Disk) (l : Location) : Except FileFault (List String × DiskItem) := do
  let key ← d.locate l
  match d.item? key with
  | some item => pure (key, item)
  | none => throw (.refused .notFound l.text)

def read (d : Disk) (l : Location) : Except FileFault Bytes := do
  match (← d.find l).2 with
  | .file bytes => pure bytes
  | .directory => throw (.refused .isDirectory l.text)

/-- The number of bytes at a location; a directory has one block. -/
def size (d : Disk) (l : Location) : Except FileFault Nat := do
  match (← d.find l).2 with
  | .file bytes => pure bytes.length
  | .directory => pure 4096

/-- Whether anything stands at a location. It is an error if a name is too long or a directory may
not be entered. -/
def holds (d : Disk) (l : Location) : Except FileFault Bool :=
  match d.find l with
  | .ok _ => .ok true
  | .error (.refused .nameTooLong path) => .error (.refused .nameTooLong path)
  | .error (.refused .denied path) => .error (.refused .denied path)
  | .error _ => .ok false

def write (d : Disk) (l : Location) (bytes : Bytes) : Except FileFault Disk := do
  let key ← d.locate l
  match d.item? key with
  | some .directory => throw (.refused .isDirectory l.text)
  | some (.file _) => pure (d.set key (.file bytes))
  | none =>
    if d.forbids .change key.dropLast then throw (.refused .denied l.text)
    else pure (d.set key (.file bytes))

/-- The file system with a new item at a place where nothing stands yet. -/
def create (d : Disk) (l : Location) (item : DiskItem) : Except FileFault Disk := do
  let key ← d.locate l
  match d.item? key with
  | some _ => throw (.refused .exists l.text)
  | none =>
    if d.forbids .change key.dropLast then throw (.refused .denied l.text)
    else pure (d.set key item)

def makeDirectory (d : Disk) (l : Location) : Except FileFault Disk :=
  d.create l .directory

def isDirectory (d : Disk) (l : Location) : Bool :=
  match d.find l with
  | .ok (_, .directory) => true
  | _ => false

/-- The file system with a directory, which may be there already. -/
def ensureDirectory (d : Disk) (l : Location) : Except FileFault Disk :=
  match d.makeDirectory l with
  | .ok made => .ok made
  | .error fault => if d.isDirectory l then .ok d else .error fault

/-- What a change comes to, which leaves the file system as it is if it fails. -/
def changed (d : Disk) : Except FileFault Disk → Except FileFault Unit × Disk
  | .ok made => (.ok (), made)
  | .error fault => (.error fault, d)

/-- Makes a directory and, where they are missing, those above it, which stay if a later one cannot
be made. The number bounds how far up directories are made. -/
def makeDirectoriesFrom : Nat → Disk → Location → Except FileFault Unit × Disk
  | 0, d, l => d.changed (d.ensureDirectory l)
  | n + 1, d, l =>
    match d.ensureDirectory l with
    | .ok made => (.ok (), made)
    | .error (.refused .notFound path) =>
      if l.parts = [] then (.error (.refused .notFound path), d)
      else
        match makeDirectoriesFrom n d l.parent with
        | (.error fault, above) => (.error fault, above)
        | (.ok (), above) => above.changed (above.ensureDirectory l)
    | .error fault => (.error fault, d)

def makeDirectories (d : Disk) (l : Location) : Except FileFault Unit × Disk :=
  makeDirectoriesFrom (l.parts.length + 1) d l

/-- The file system without the file at a location; a missing file is accepted. -/
def remove (d : Disk) (l : Location) : Except FileFault Disk :=
  match d.find l with
  | .ok (key, .file _) =>
    if d.forbids .change key.dropLast then .error (.refused .denied l.text) else .ok (d.erase key)
  | .ok (_, .directory) => .error (.refused .isDirectory l.text)
  | .error (.refused .notFound _) => .ok d
  | .error fault => .error fault

def temporaryName (n : Nat) : String :=
  "package-" ++ String.ofList (Text.digits 10 8 n) ++ ".tmp"

/-- The first temporary name that no item of a directory has, among the first few. -/
def freshName (d : Disk) (directory : List String) : Nat → Nat → String
  | 0, n => temporaryName n
  | fuel + 1, n =>
    if (d.item? (directory ++ [temporaryName n])).isNone then temporaryName n
    else freshName d directory fuel (n + 1)

/-- The file system with a new, empty package file in a directory, and the full place of that
file. -/
def createTemporary (d : Disk) (directory : Location) : Except FileFault (Location × Disk) :=
  let place := Location.resolve d.workingDirectory directory
  let wanted := (place.child "package-*.tmp").text
  match d.find place with
  | .error fault => .error (fault.told wanted)
  | .ok (_, .file _) => .error (.refused .notDirectory wanted)
  | .ok (key, .directory) =>
    let file := place.child (d.freshName key d.items.length 0)
    match d.create file (.file []) with
    | .error fault => .error (fault.told wanted)
    | .ok d => .ok (file, d)

def entries (d : Disk) (directory : List String) : List String :=
  d.items.filterMap fun i =>
    match i.1.getLast? with
    | some name => if i.1.dropLast = directory then some name else none
    | none => none

end Disk

end Deposit
