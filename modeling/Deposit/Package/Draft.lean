import Deposit.Package.Resource
import Deposit.Json.Shown

set_option autoImplicit false
set_option relaxedAutoImplicit false

/-!
Descriptions on their way. Facts about a file or a package are gathered in any order and in any
form; only when the description is built are they checked. A fact given twice counts as given last.
-/

namespace Deposit

/-- Why a description cannot be built. -/
inductive DraftError where
  | noPath
  | noResourceSize (path : Json)
  | noName
  | noPackageSize (name : Json)
  | pathType (path : Json)
  | issues (is : List Schema.Issue)

/-- The message for a description that cannot be built, unless its facts have issues. -/
def DraftError.message : DraftError → String
  | noPath => "resource has no package path"
  | noResourceSize path => "resource " ++ path.shown ++ " has no size"
  | noName => "package metadata requires a name and a specification"
  | noPackageSize name => "package " ++ name.shown ++ " has no size"
  | pathType path => "expected str, bytes or os.PathLike object, not " ++ path.typeName
  | issues _ => ""

/-- The facts gathered about a file; a null fact is not given. -/
structure ResourceDraft where
  originalName : Json := .null
  packagePath : Json := .null
  role : Option Role := none
  sizeBytes : Json := .null
  checksums : List (String × Json) := []
  mediaType : Json := .null

/-- The facts gathered about a package; a null fact is not given. -/
structure MetadataDraft where
  name : Json := .null
  specification : Json := .null
  archive : ArchiveFormat := .none
  compression : Compression := .none
  sizeBytes : Json := .null
  checksums : List (String × Json) := []
  mediaType : Json := .null

/-- A checked value, or the issues with it. -/
def ofChecked {α : Type} : Schema.Checked α → Except DraftError α
  | .ok a => .ok a
  | .issues is => .error (.issues is)

namespace ResourceDraft

def checksum (d : ResourceDraft) (algorithm : String) (digest : Json) : ResourceDraft :=
  { d with checksums := Json.insert algorithm digest d.checksums }

/-- The media type: the one given, or the one guessed from the path. -/
def chosenType (d : ResourceDraft) : Except DraftError Json :=
  if d.mediaType.isNull then
    match d.packagePath with
    | .text path => .ok (.text (MediaType.ofPath path))
    | path => .error (.pathType path)
  else .ok d.mediaType

/-- Builds the description. A file without a name of its own goes by its path. -/
def build (d : ResourceDraft) : Except DraftError Resource := do
  if d.packagePath.isNull then throw .noPath
  if d.sizeBytes.isNull then throw (.noResourceSize d.packagePath)
  let mediaType ← d.chosenType
  ofChecked (Resource.check (.object
    [("original_name", if d.originalName.isGiven then d.originalName else d.packagePath),
     ("package_path", d.packagePath),
     ("role", .ofText? (d.role.map Role.value)),
     ("size_bytes", d.sizeBytes),
     ("checksums", .object d.checksums),
     ("mime_type", mediaType)]))

end ResourceDraft

namespace MetadataDraft

def checksum (d : MetadataDraft) (algorithm : String) (digest : Json) : MetadataDraft :=
  { d with checksums := Json.insert algorithm digest d.checksums }

/-- Builds the description. Without a media type of its own a package has that of its format. -/
def build (d : MetadataDraft) : Except DraftError PackageMetadata := do
  if d.name.isNull || d.specification.isNull then throw .noName
  if d.sizeBytes.isNull then throw (.noPackageSize d.name)
  ofChecked (PackageMetadata.check (.object
    [("name", d.name),
     ("specification", d.specification),
     ("archive", .text d.archive.value),
     ("compression", .text d.compression.value),
     ("size_bytes", d.sizeBytes),
     ("checksums", .object d.checksums),
     ("mime_type",
      if d.mediaType.isGiven then d.mediaType
      else .text (packageMediaType d.archive d.compression))]))

end MetadataDraft

end Deposit
