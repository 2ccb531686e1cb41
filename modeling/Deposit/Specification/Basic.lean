import Deposit.Placement
import Deposit.Package.Resource
import Deposit.Submission.Basic

set_option autoImplicit false
set_option relaxedAutoImplicit false

/-!
Packaging specifications: where content files go, what metadata must be there, how the package is
put together unless asked otherwise, and which files the specification adds on its own.
-/

namespace Deposit

/-- The files a specification adds, in the order of writing, and notices about them. -/
structure Generated where
  files : List (String × Bytes)
  notices : List String := []

/-- A packaging specification. The added files may depend on the submission and on the content files
as they were packaged. -/
structure Specification where
  title : String
  identifier : String
  policy : PlacementPolicy
  required : List String
  archive : ArchiveFormat
  compression : Compression
  generate : Submission → List Resource → Except Fault Generated

namespace Specification

def shown (s : Specification) : String :=
  s.title ++ "(" ++ Text.quoted s.identifier ++ ")"

end Specification

end Deposit
