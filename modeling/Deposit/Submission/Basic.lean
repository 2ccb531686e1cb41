import Deposit.Submission.Role
import Deposit.Content.Source

set_option autoImplicit false
set_option relaxedAutoImplicit false

/-!
What is handed over for deposit: content files in order, and descriptive metadata.
-/

namespace Deposit

/-- A content file: its name, its role, what opening it yields, and its size if it is known. -/
structure ContentFile where
  name : String
  role : Role
  opened : Except Fault Source
  size : Option Int

/-- A submission. -/
structure Submission where
  id : String
  files : List ContentFile
  metadata : List (String × String)

namespace Submission

/-- The value of a metadata key, if there is one that is not empty. -/
def value? (s : Submission) (key : String) : Option String :=
  match s.metadata.lookup key with
  | some v => if v = "" then none else some v
  | none => none

def placements (s : Submission) : List (String × Role) :=
  s.files.map fun f => (f.name, f.role)

end Submission

end Deposit
