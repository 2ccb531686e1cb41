import Deposit.Configuration
import Deposit.Host.Basic
import Deposit.Repository.Basic

set_option autoImplicit false
set_option relaxedAutoImplicit false

/-!
Loading the configurations of repositories from a file: an object with one member for each
repository.
-/

namespace Deposit

/-- How loading fails: for a reason in the configuration, because the file holds no text, because
it is nested too deeply or holds a number or a string that cannot be read, or because no file can
have its name. -/
inductive LoadFailure where
  | configuration (e : ConfigurationError)
  | malformed (m : Text.Utf8.Malformed)
  | oversized (p : Json.Problem)
  | unusable (fault : FileFault)

namespace LoadFailure

def message : LoadFailure → String
  | configuration e => e.message
  | malformed m => m.message
  | oversized p => p.text
  | unusable fault => fault.message

end LoadFailure

namespace Repositories

def ofJson (path : String) : Json → Except LoadFailure Repositories
  | .object members =>
    match check members with
    | .ok rs => .ok rs
    | .issues is => .error (.configuration (.invalid path is))
  | _ => .error (.configuration (.notObject path))

def ofText (limit : Nat) (path : String) (text : List Char) : Except LoadFailure Repositories :=
  match Json.readWithin limit text with
  | .ok j => ofJson path j
  | .error fault =>
    if fault.problem.isGrammatical then .error (.configuration (.malformed path fault text))
    else .error (.oversized fault.problem)

/-- What the file of a given path configures, from what reading it yields. -/
def ofRead (limit : Nat) (path : String) :
    Except TextFault (List Char) → Except LoadFailure Repositories
  | .ok text => ofText limit path text
  | .error (.malformed m) => .error (.malformed m)
  | .error (.file fault) =>
    if fault.isSystem then .error (.configuration (.unreadable path fault))
    else .error (.unusable fault)

/-- Loads a file whose values are nested up to a depth. -/
def loadWithin {m : Type → Type} [Host m] (limit : Nat) (l : Location) :
    m (Except LoadFailure Repositories) := do
  let loaded := ofRead limit l.text (← Host.readText l)
  match loaded with
  | .ok rs =>
    Host.notice .debug
      ("Loaded configuration for " ++ Text.decimal rs.length ++ " repositories from " ++ l.text)
    pure (.ok rs)
  | .error failure => pure (.error failure)

def load {m : Type → Type} [Host m] (l : Location) : m (Except LoadFailure Repositories) :=
  loadWithin Json.depthLimit l

end Repositories

end Deposit
