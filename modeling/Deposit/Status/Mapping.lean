import Deposit.Schema.Record
import Deposit.Status.State

set_option autoImplicit false
set_option relaxedAutoImplicit false

/-!
How a repository's states become statuses: a finite table from state tokens to statuses, with one
entry that stands for every token without an entry of its own and for deposits in no known state.
-/

namespace Deposit

def StatusMapping.fallbackKey : String := "default-mapping"

/-- The table of a repository. The entry for everything else is always there. -/
structure StatusMapping where
  entries : List (String × DepositStatus)
  fallback : DepositStatus
  lookup_fallbackKey : entries.lookup StatusMapping.fallbackKey = some fallback

namespace StatusMapping

/-- The table of some entries, if one of them is for everything else. -/
def ofEntries? (entries : List (String × DepositStatus)) : Option StatusMapping :=
  match h : entries.lookup fallbackKey with
  | some fallback => some ⟨entries, fallback, h⟩
  | none => none

/-- The status of a deposit whose state has a given token, if it has a known state. -/
def status (m : StatusMapping) : Option String → DepositStatus
  | some token => (m.entries.lookup token).getD m.fallback
  | none => m.fallback

def check (j : Json) : Schema.Checked StatusMapping :=
  (Schema.dictionary (Schema.member DepositStatus) j).andThen fun entries =>
    match ofEntries? entries with
    | some m => .ok m
    | none => .fail (.rule ("mapping must include '" ++ fallbackKey ++ "'"))

def toJson (m : StatusMapping) : Json :=
  .object (m.entries.map fun e => (e.1, .text e.2.value))

theorem status_none (m : StatusMapping) : m.status none = m.fallback := rfl

theorem status_of_lookup {m : StatusMapping} {token : String} {s : DepositStatus}
    (h : m.entries.lookup token = some s) : m.status (some token) = s := by
  simp [status, h]

theorem status_of_lookup_eq_none {m : StatusMapping} {token : String}
    (h : m.entries.lookup token = none) : m.status (some token) = m.fallback := by
  simp [status, h]

end StatusMapping

end Deposit
