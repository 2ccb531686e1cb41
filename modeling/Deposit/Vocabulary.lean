import Deposit.Text.Quoted

set_option autoImplicit false
set_option relaxedAutoImplicit false

/-!
Closed vocabularies: finite lists of members, each written as a fixed text. A text that no member is
written as is refused with a message that quotes it.
-/

namespace Deposit

/-- A finite list of members, what each is called and what each is written as. -/
class Vocabulary (α : Type) where
  title : String
  members : List α
  label : α → String
  value : α → String

namespace Vocabulary

variable {α : Type} [Vocabulary α]

def ofValue? (s : String) : Option α :=
  (members (α := α)).find? fun a => value a == s

def ofLabel? (s : String) : Option α :=
  (members (α := α)).find? fun a => label a == s

/-- The message for a shown value that no member is written as. -/
def refusal (α : Type) [Vocabulary α] (shown : String) : String :=
  shown ++ " is not a valid " ++ title α

theorem value_of_ofValue? {s : String} {a : α} (h : ofValue? s = some a) : value a = s := by
  simpa using List.find?_some h

end Vocabulary

end Deposit
