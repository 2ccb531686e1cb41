import Deposit.Host.Basic
import Deposit.Json.Reader
import Deposit.Schema.Record
import Deposit.Submission.Basic

set_option autoImplicit false
set_option relaxedAutoImplicit false

/-!
Manifests of submissions on disk: an identifier, metadata, and the content files with their places
relative to the directory of the submission.
-/

namespace Deposit

/-- A content file of a manifest. Without a path of its own it lies at its name. -/
structure ManifestEntry where
  name : String
  role : Role
  path : Option String

/-- A manifest. -/
structure Manifest where
  id : String
  metadata : List (String × String)
  files : List ManifestEntry
  extras : List (String × Json)

namespace ManifestEntry

def check : Json → Schema.Checked ManifestEntry :=
  Schema.record "SubmissionFileEntry" fun m =>
    ManifestEntry.mk <$> Schema.required "name" Schema.text m
      <*> Schema.defaulted "role" (Schema.member Role) .manuscript m
      <*> Schema.defaulted "path" (Schema.optional Schema.text) none m

def toJson (e : ManifestEntry) : Json :=
  .object [("name", .text e.name), ("role", .text e.role.value), ("path", .ofText? e.path)]

/-- Where a content file lies in a directory. An empty path does not count. -/
def place (e : ManifestEntry) (directory : Location) : Location :=
  match e.path with
  | some path => directory.child (if path = "" then e.name else path)
  | none => directory.child e.name

/-- The name of a content file: its own, or that of the file on disk. -/
def contentName (e : ManifestEntry) (directory : Location) : String :=
  if e.name = "" then (e.place directory).name else e.name

end ManifestEntry

def openedFile : Except FileFault Bytes → Except Fault Source
  | .ok bytes => .ok (.ofBytes bytes)
  | .error fault => .error (.file fault)

namespace Manifest

def check : Json → Schema.Checked Manifest :=
  Schema.record "SubmissionManifest" fun m =>
    Manifest.mk <$> Schema.required "id" Schema.text m
      <*> Schema.defaulted "metadata" (Schema.dictionary Schema.text) [] m
      <*> Schema.defaulted "files" (Schema.list ManifestEntry.check) [] m
      <*> .ok (Schema.extras [("id", "id"), ("metadata", "metadata"), ("files", "files")] m)

def ofText (text : List Char) : Schema.Checked Manifest :=
  match Json.readStrict? text with
  | some j => check j
  | none => .fail .syntaxFault

def toJson (m : Manifest) : Json :=
  .object
    ([("id", .text m.id),
      ("metadata", .object (m.metadata.map fun e => (e.1, .text e.2))),
      ("files", .list (m.files.map ManifestEntry.toJson))] ++ m.extras)

/-- The content files of entries in a directory. Each file is there when it is listed; what it holds
is found out as well, and reported when it is opened. -/
def contentFiles {m : Type → Type} [Host m] (directory : Location) :
    List ManifestEntry → m (Except FileFault (List ContentFile))
  | [] => pure (.ok [])
  | e :: es => do
    let place := e.place directory
    match ← Host.size place with
    | .error fault => pure (.error fault)
    | .ok size =>
      let opened := openedFile (← Host.read place)
      match ← contentFiles directory es with
      | .error fault => pure (.error fault)
      | .ok files =>
        let file : ContentFile :=
          { name := e.contentName directory, role := e.role, opened, size := some size }
        pure (.ok (file :: files))

/-- The submission that a manifest describes in a directory. -/
def submission {m : Type → Type} [Host m] (manifest : Manifest) (directory : Location) :
    m (Except FileFault Submission) := do
  match ← contentFiles directory manifest.files with
  | .error fault => pure (.error fault)
  | .ok files => pure (.ok { id := manifest.id, files, metadata := manifest.metadata })

end Manifest

end Deposit
