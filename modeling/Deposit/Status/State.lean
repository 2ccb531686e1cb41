import Deposit.Vocabulary

set_option autoImplicit false
set_option relaxedAutoImplicit false

/-!
The two vocabularies of deposit status: the states that a repository reports in a statement, ordered
by how final they are, and the outcomes that deposits are given.
-/

namespace Deposit

/-- A state that a repository reports for a deposit. -/
inductive SwordState where
  | archived
  | withdrawn
  | inReview
  | inProgress
deriving DecidableEq, Repr, Inhabited

/-- What has become of a deposit, whichever repository it went to. -/
inductive DepositStatus where
  | submitted
  | accepted
  | rejected
deriving DecidableEq, Repr, Inhabited

namespace SwordState

def scheme : String := "http://purl.org/net/sword/terms/state"

def token : SwordState → String
  | archived => "http://dspace.org/state/archived"
  | withdrawn => "http://dspace.org/state/withdrawn"
  | inReview => "http://dspace.org/state/inreview"
  | inProgress => "http://dspace.org/state/inprogress"

def label : SwordState → String
  | archived => "ARCHIVED"
  | withdrawn => "WITHDRAWN"
  | inReview => "IN_REVIEW"
  | inProgress => "IN_PROGRESS"

/-- The states, the most final one first. -/
def precedence : List SwordState :=
  [archived, withdrawn, inReview, inProgress]

instance : Vocabulary SwordState where
  title := "SwordState"
  members := [archived, withdrawn, inReview, inProgress]
  label := label
  value := token

end SwordState

namespace DepositStatus

def value : DepositStatus → String
  | submitted => "submitted"
  | accepted => "accepted"
  | rejected => "rejected"

def isTerminal (s : DepositStatus) : Bool :=
  s != submitted

instance : Vocabulary DepositStatus where
  title := "DepositStatus"
  members := [submitted, accepted, rejected]
  label
    | submitted => "SUBMITTED"
    | accepted => "ACCEPTED"
    | rejected => "REJECTED"
  value := value

end DepositStatus

end Deposit
