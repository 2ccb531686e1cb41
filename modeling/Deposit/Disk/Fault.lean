import Deposit.Text.Quoted

set_option autoImplicit false
set_option relaxedAutoImplicit false

/-!
What a file system refuses, and the messages for it.
-/

namespace Deposit

/-- Why a file system refuses an operation. -/
inductive FileCause where
  | notFound
  | exists
  | notDirectory
  | isDirectory
  | nameTooLong
  | denied
  | other (code : Nat) (text : String)
deriving DecidableEq, Repr

/-- A refused operation: a cause at a path, or a path that no file can have. -/
inductive FileFault where
  | refused (cause : FileCause) (path : String)
  | embeddedNul
deriving DecidableEq, Repr

namespace FileCause

def code : FileCause → Nat
  | notFound => 2
  | denied => 13
  | .exists => 17
  | notDirectory => 20
  | isDirectory => 21
  | nameTooLong => 36
  | other code _ => code

def text : FileCause → String
  | notFound => "No such file or directory"
  | denied => "Permission denied"
  | .exists => "File exists"
  | notDirectory => "Not a directory"
  | isDirectory => "Is a directory"
  | nameTooLong => "File name too long"
  | other _ text => text

end FileCause

def FileFault.message : FileFault → String
  | .refused cause path =>
    "[Errno " ++ Text.decimal cause.code ++ "] " ++ cause.text ++ ": " ++ Text.quoted path
  | .embeddedNul => "embedded null byte"

/-- The same refusal, told of another path. -/
def FileFault.told (path : String) : FileFault → FileFault
  | .refused cause _ => .refused cause path
  | .embeddedNul => .embeddedNul

/-- Whether the fault is one of the system, and not of the path's text. -/
def FileFault.isSystem : FileFault → Bool
  | .refused _ _ => true
  | .embeddedNul => false

end Deposit
