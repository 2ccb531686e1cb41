import Deposit.Vocabulary

set_option autoImplicit false
set_option relaxedAutoImplicit false

/-!
How a package is put together: the archive that joins its files and the compression over it.
-/

namespace Deposit

/-- How the files of a package are joined. -/
inductive ArchiveFormat where
  | none
  | tar
  | zip
deriving DecidableEq, Repr, Inhabited

/-- How the joined bytes are compressed. -/
inductive Compression where
  | none
  | gzip
  | bzip2
deriving DecidableEq, Repr, Inhabited

namespace ArchiveFormat

def value : ArchiveFormat → String
  | none => "none"
  | tar => "tar"
  | zip => "zip"

def extension : ArchiveFormat → String
  | none => ""
  | tar => ".tar"
  | zip => ".zip"

instance : Vocabulary ArchiveFormat where
  title := "ArchiveFormat"
  members := [none, tar, zip]
  label
    | none => "NONE"
    | tar => "TAR"
    | zip => "ZIP"
  value := value

end ArchiveFormat

namespace Compression

def value : Compression → String
  | none => "none"
  | gzip => "gzip"
  | bzip2 => "bzip2"

def extension : Compression → String
  | none => ""
  | gzip => ".gz"
  | bzip2 => ".bz2"

instance : Vocabulary Compression where
  title := "Compression"
  members := [none, gzip, bzip2]
  label
    | none => "NONE"
    | gzip => "GZIP"
    | bzip2 => "BZIP2"
  value := value

end Compression

/-- The media type of bytes that nothing more is known about. -/
def unknownMediaType : String := "application/octet-stream"

/-- The media type of a package; the outermost layer decides. -/
def packageMediaType : ArchiveFormat → Compression → String
  | _, .gzip => "application/gzip"
  | _, .bzip2 => "application/x-bzip2"
  | .zip, .none => "application/zip"
  | .tar, .none => "application/x-tar"
  | .none, .none => unknownMediaType

/-- The file name of a package, for instance `sub-1.tar.gz`. -/
def packageFileName (base : String) (archive : ArchiveFormat) (compression : Compression) :
    String :=
  base ++ archive.extension ++ compression.extension

end Deposit
