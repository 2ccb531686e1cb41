import Deposit.Configuration
import Deposit.Repository.Basic
import Deposit.Status.Document

set_option autoImplicit false
set_option relaxedAutoImplicit false

/-!
Processors find out what has become of a deposit: they read the state that its status document
reports and look the state up in the table of a repository. The configuration of a repository names
its processor.
-/

namespace Deposit

/-- A way to find out what has become of a deposit. -/
inductive StatusProcessor where
  | swordStatement
deriving DecidableEq, Repr

/-- Why it cannot be found out what has become of a deposit. -/
inductive StatusFailure where
  | configuration (e : ConfigurationError)
  | document (e : StatusError)

def StatusFailure.message : StatusFailure → String
  | configuration e => e.message
  | document e => e.message

namespace Repositories

/-- The status of a deposit to a repository, given its state as a token, if it has a known state. -/
def status (rs : Repositories) (name : String) (state : Option String) :
    Except ConfigurationError DepositStatus :=
  match rs.find? name with
  | some r => .ok (r.status.mapping.status state)
  | none => .error (.noMapping name)

def processor (rs : Repositories) (name : String) : Except ConfigurationError StatusProcessor :=
  match rs.find? name with
  | none => .error (.noRepository name)
  | some r =>
    if r.status.processor = "sword-dspace" then .ok .swordStatement
    else .error (.unknownProcessor r.status.processor name)

end Repositories

namespace StatusProcessor

variable {m : Type → Type} [Host m]

def resolutionNotice (document repository : String) (state : Option SwordState)
    (status : DepositStatus) : String :=
  "Deposit at " ++ document ++ " in " ++ repository ++ ": state " ++
    (state.map SwordState.token).getD "None" ++ " -> " ++ status.value

/-- Finds out what has become of a deposit to a repository from its status document. -/
def run (p : StatusProcessor) (decoder : Xml.Decoder) (fetch : Fetcher m) (rs : Repositories)
    (document repository : String) : m (Except StatusFailure DepositStatus) :=
  match p with
  | .swordStatement => do
    match ← StatusDocument.read decoder fetch document with
    | .error e => pure (.error (.document e))
    | .ok state =>
      match rs.status repository (state.map SwordState.token) with
      | .error e => pure (.error (.configuration e))
      | .ok status => do
        Host.notice .info (resolutionNotice document repository state status)
        pure (.ok status)

end StatusProcessor

/-- Finds out what has become of a deposit, by the processor of its repository. -/
def resolveStatus {m : Type → Type} [Host m] (decoder : Xml.Decoder) (fetch : Fetcher m)
    (rs : Repositories) (document repository : String) : m (Except StatusFailure DepositStatus) :=
  match rs.processor repository with
  | .error e => pure (.error (.configuration e))
  | .ok p => p.run decoder fetch rs document repository

end Deposit
