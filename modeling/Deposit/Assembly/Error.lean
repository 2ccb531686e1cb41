import Deposit.Content.Fault
import Deposit.Placement

set_option autoImplicit false
set_option relaxedAutoImplicit false

/-!
Why a submission cannot be assembled.
-/

namespace Deposit

/-- Why a submission cannot be assembled. Every case names the submission. -/
inductive AssemblyError where
  | noFiles (submission : String)
  | missingMetadata (submission : String) (keys : List String)
  | unplaceable (submission : String) (cause : PlacementError)
  | content (submission file : String) (cause : Fault)
  | generated (submission path : String) (cause : Fault)
  | collision (submission path : String)
  | package (submission : String) (cause : Fault)
deriving DecidableEq, Repr

/-- How assembling a submission fails: for a reason of its own, or by a fault that is passed on. -/
inductive AssemblyFailure where
  | error (e : AssemblyError)
  | fault (f : Fault)
deriving DecidableEq, Repr

namespace AssemblyError

def message : AssemblyError → String
  | noFiles s => "Refusing to assemble submission " ++ s ++ ": it has no files"
  | missingMetadata s keys =>
    "Submission " ++ s ++ " is missing required metadata: " ++ ", ".intercalate keys
  | unplaceable s cause => "Cannot place files of submission " ++ s ++ ": " ++ cause.message
  | content s file cause =>
    "Failed to package " ++ file ++ " of submission " ++ s ++ ": " ++ cause.message
  | generated s path cause =>
    "Failed to add " ++ path ++ " to the package of submission " ++ s ++ ": " ++ cause.message
  | collision s path =>
    "Generated file " ++ path ++ " collides with a content file of submission " ++ s
  | package s cause => "Failed to write package for submission " ++ s ++ ": " ++ cause.message

def submission : AssemblyError → String
  | noFiles s => s
  | missingMetadata s _ => s
  | unplaceable s _ => s
  | content s _ _ => s
  | generated s _ _ => s
  | collision s _ => s
  | package s _ => s

/-- The file in question, where there is one. -/
def file? : AssemblyError → Option String
  | content _ file _ => some file
  | generated _ path _ => some path
  | collision _ path => some path
  | _ => none

end AssemblyError

def AssemblyFailure.message : AssemblyFailure → String
  | error e => e.message
  | fault f => f.message

end Deposit
