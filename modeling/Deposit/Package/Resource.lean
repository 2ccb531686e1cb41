import Deposit.Package.MediaType
import Deposit.Submission.Role
import Deposit.Schema.Record

set_option autoImplicit false
set_option relaxedAutoImplicit false

/-!
The description of a package: every file placed inside it, and the package as a whole.
-/

namespace Deposit

/-- A file inside a package. Files that a specification generates have no role. -/
structure Resource where
  originalName : String
  packagePath : String
  role : Option Role
  sizeBytes : Int
  checksums : List (String × String)
  mediaType : String
deriving DecidableEq, Repr

/-- A finished package. -/
structure PackageMetadata where
  name : String
  specification : String
  archive : ArchiveFormat
  compression : Compression
  sizeBytes : Int
  checksums : List (String × String)
  mediaType : String
deriving DecidableEq, Repr

def checksumsJson (checksums : List (String × String)) : Json :=
  .object (checksums.map fun c => (c.1, .text c.2))

namespace Resource

/-- Whether a file is not placed at its name in the submission. -/
def isRemediated (r : Resource) : Bool :=
  r.originalName != r.packagePath

def check : Json → Schema.Checked Resource :=
  Schema.record "PackageResource" fun m =>
    Resource.mk <$> Schema.required "original_name" Schema.text m
      <*> Schema.required "package_path" Schema.text m
      <*> Schema.defaulted "role" (Schema.optional (Schema.member Role)) none m
      <*> Schema.required "size_bytes" Schema.integer m
      <*> Schema.defaulted "checksums" (Schema.dictionary Schema.text) [] m
      <*> Schema.defaulted "mime_type" Schema.text unknownMediaType m

def toJson (r : Resource) : Json :=
  .object
    [("original_name", .text r.originalName),
     ("package_path", .text r.packagePath),
     ("role", .ofText? (r.role.map Role.value)),
     ("size_bytes", .int r.sizeBytes),
     ("checksums", checksumsJson r.checksums),
     ("mime_type", .text r.mediaType)]

end Resource

namespace PackageMetadata

/-- Whether the files of the package are joined in an archive. -/
def isArchived (p : PackageMetadata) : Bool :=
  p.archive != .none

def isCompressed (p : PackageMetadata) : Bool :=
  p.compression != .none

def check : Json → Schema.Checked PackageMetadata :=
  Schema.record "PackageMetadata" fun m =>
    PackageMetadata.mk <$> Schema.required "name" Schema.text m
      <*> Schema.required "specification" Schema.text m
      <*> Schema.required "archive" (Schema.member ArchiveFormat) m
      <*> Schema.required "compression" (Schema.member Compression) m
      <*> Schema.required "size_bytes" Schema.integer m
      <*> Schema.defaulted "checksums" (Schema.dictionary Schema.text) [] m
      <*> Schema.required "mime_type" Schema.text m

def toJson (p : PackageMetadata) : Json :=
  .object
    [("name", .text p.name),
     ("specification", .text p.specification),
     ("archive", .text p.archive.value),
     ("compression", .text p.compression.value),
     ("size_bytes", .int p.sizeBytes),
     ("checksums", checksumsJson p.checksums),
     ("mime_type", .text p.mediaType)]

end PackageMetadata

end Deposit
