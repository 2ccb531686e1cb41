import Deposit.Package.Path
import Deposit.Submission.Role
import Deposit.Text.Digits

set_option autoImplicit false
set_option relaxedAutoImplicit false

/-!
Placing content files inside a package. Files are placed one after the other, in the order of the
submission. A file gets the path that the policy proposes for it; if that path clashes with one
already taken or reserved, the file moves under a directory named after its role, and if it clashes
there too, its last segment is numbered. What is taken is kept as two sets of folded paths, the
files and the directories that they need.
-/

namespace Deposit

/-- What a packaging specification lays down for placement. -/
structure PlacementPolicy where
  reserved : List String
  place : String → Role → String

/-- Why content files cannot be placed. -/
inductive PlacementError where
  | unusable (path : String)
  | duplicate (name : String)
deriving DecidableEq, Repr

/-- The message for files that cannot be placed. -/
def PlacementError.message : PlacementError → String
  | unusable path => "'" ++ path ++ "' is not a usable package path"
  | duplicate name => "duplicate content file name '" ++ name ++ "'"

/-- A placed file: its name, the normal form of the proposed path, and the path it got. -/
structure Placed where
  name : String
  proposed : String
  path : String
deriving DecidableEq, Repr

/-- Whether a file did not get the proposed path. -/
def Placed.isRemediated (p : Placed) : Bool :=
  p.path != p.proposed

/-- The notice about a file that did not get the proposed path. -/
def Placed.notice (p : Placed) : String :=
  "Placed " ++ p.name ++ " at " ++ p.path ++ ": " ++ p.proposed ++ " is already taken"

namespace Placement

/-- The folded paths taken by files, and the folded directories that they need. -/
structure Index where
  files : List (List Char)
  directories : List (List Char)

namespace Index

/-- Nothing is taken. -/
def empty : Index := ⟨[], []⟩

/-- Whether a file sits at a path. -/
def isFile (i : Index) (path : List Char) : Bool :=
  i.files.contains (Text.caseFold path)

/-- Whether a file sits where a path needs a directory. -/
def isBlocked (i : Index) (path : List Char) : Bool :=
  (PackagePath.parents path).any i.isFile

/-- Whether a path is taken as a file or as a directory, or is blocked. -/
def collides (i : Index) (path : List Char) : Bool :=
  i.isFile path || i.directories.contains (Text.caseFold path) || i.isBlocked path

/-- The index with one more path. -/
def add (i : Index) (path : List Char) : Index where
  files := Text.caseFold path :: i.files
  directories := (PackagePath.parents path).map Text.caseFold ++ i.directories

end Index

/-- The index of the reserved paths. -/
def reserve : Index → List String → Except PlacementError Index
  | i, [] => .ok i
  | i, r :: rs =>
    match PackagePath.normalize? r with
    | none => .error (.unusable r)
    | some path => reserve (i.add path.toList) rs

/-- The path with a number before the extension of its last segment. -/
def numbered (path : List Char) (n : Nat) : List Char :=
  let (stem, extension) := PackagePath.splitExtension path
  stem ++ '-' :: Nat.toDigits 10 n ++ extension

/-- The n-th name for the directory of a role: the role itself, then numbered. -/
def roleDirectory (role : Role) : Nat → List Char
  | 0 => role.value.toList
  | n + 1 => role.value.toList ++ '-' :: Nat.toDigits 10 (n + 1)

/-- The first number from a start on that passes a test, looked for within a bound. -/
def search (test : Nat → Bool) : Nat → Nat → Nat
  | 0, n => n
  | bound + 1, n => if test n then n else search test bound (n + 1)

/-- The first directory of a role at which no file sits. -/
def freeDirectory (i : Index) (role : Role) : List Char :=
  roleDirectory role (search (fun n => !i.isFile (roleDirectory role n)) i.files.length 0)

/-- The path numbered with the least number that makes it free. -/
def freeNumbered (i : Index) (path : List Char) : List Char :=
  numbered path
    (search (fun n => !i.collides (numbered path n)) (i.files.length + i.directories.length) 1)

/-- The path of a file whose proposed path is taken. -/
def remediate (i : Index) (role : Role) (proposed : List Char) : List Char :=
  let directory := freeDirectory i role
  let nested := directory ++ '/' :: proposed
  if !i.collides nested then nested
  else if i.isBlocked nested then
    let flat := directory ++ '/' :: PackagePath.baseChars proposed
    if !i.collides flat then flat else freeNumbered i flat
  else freeNumbered i nested

/-- The path of a file that is proposed at a path in normal form. -/
def assign (i : Index) (role : Role) (proposed : List Char) : List Char :=
  if i.collides proposed then remediate i role proposed else proposed

/-- What placing some files came to: those that were placed, and why the next one was not. -/
structure Outcome where
  placed : List Placed
  error : Option PlacementError

/-- Places files after the given names were used and the index was filled. -/
def placeFrom (policy : PlacementPolicy) :
    Index → List String → List (String × Role) → Outcome
  | _, _, [] => ⟨[], none⟩
  | i, used, (name, role) :: rest =>
    if used.contains name then ⟨[], some (.duplicate name)⟩
    else
      match PackagePath.normalize? (policy.place name role) with
      | none => ⟨[], some (.unusable (policy.place name role))⟩
      | some proposed =>
        let path := assign i role proposed.toList
        let outcome := placeFrom policy (i.add path) (name :: used) rest
        { outcome with placed := ⟨name, proposed, String.ofList path⟩ :: outcome.placed }

/-- Places files one after the other, as far as they can be placed. -/
def run (policy : PlacementPolicy) (files : List (String × Role)) : Outcome :=
  match reserve .empty policy.reserved with
  | .error e => ⟨[], some e⟩
  | .ok i => placeFrom policy i [] files

/-- The notices about the files that did not get their proposed paths. -/
def Outcome.notices (o : Outcome) : List String :=
  (o.placed.filter Placed.isRemediated).map Placed.notice

/-- The placed files, if all were. -/
def Outcome.table (o : Outcome) : Except PlacementError (List Placed) :=
  match o.error with
  | some e => .error e
  | none => .ok o.placed

/-- Assigns a package path to every file. -/
def resolve (policy : PlacementPolicy) (files : List (String × Role)) :
    Except PlacementError (List Placed) :=
  (run policy files).table

end Placement

end Deposit
