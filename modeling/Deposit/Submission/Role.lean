import Deposit.Vocabulary

set_option autoImplicit false
set_option relaxedAutoImplicit false

/-!
The part that a content file plays in a submission.
-/

namespace Deposit

/-- The part that a content file plays in a submission. -/
inductive Role where
  | manuscript
  | supplement
  | figure
  | table
deriving DecidableEq, Repr, Inhabited

namespace Role

/-- The text a role is written as, which also names the directory of displaced files. -/
def value : Role → String
  | manuscript => "manuscript"
  | supplement => "supplement"
  | figure => "figure"
  | table => "table"

instance : Vocabulary Role where
  title := "FileRole"
  members := [manuscript, supplement, figure, table]
  label
    | manuscript => "MANUSCRIPT"
    | supplement => "SUPPLEMENT"
    | figure => "FIGURE"
    | table => "TABLE"
  value := value

end Role

end Deposit
