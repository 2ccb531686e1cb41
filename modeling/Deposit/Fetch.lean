import Deposit.Content.Fault
import Deposit.ErrorKind
import Deposit.Host.Basic
import Deposit.Http.Message
import Deposit.Http.Settings
import Deposit.Uri.Percent
import Deposit.Uri.Split

set_option autoImplicit false
set_option relaxedAutoImplicit false

/-!
Fetching documents: what can go wrong, and documents from the file system, which are given by the
path of a file or by a reference with the scheme of files.
-/

namespace Deposit

/-- Why a document cannot be fetched. -/
inductive FetchFault where
  | content (fault : Fault)
  | split (fault : Uri.SplitFault)
  | setting (fault : Http.SettingFault)
  | address (fault : Http.AddressFault)
  | network (fault : Http.NetworkFault)
  | unreachable (attempts : Int) (last : Option Http.NetworkFault)
  | refused (status : Nat) (address : String)
deriving DecidableEq, Repr

/-- The meanings of replies that do not deliver a document. -/
inductive Refusal where
  | unauthorized
  | missing
  | throttled
  | failed
deriving DecidableEq, Repr

def Refusal.ofStatus (status : Nat) : Refusal :=
  if status = 401 ∨ status = 403 then .unauthorized
  else if status = 404 then .missing
  else if status = 429 then .throttled
  else .failed

def Refusal.kind : Refusal → ErrorKind
  | unauthorized => .authentication
  | missing => .notFound
  | throttled => .rateLimit
  | failed => .api

/-- The message for a reply of a given status from an address. -/
def Refusal.message (status : Nat) (address : String) : Refusal → String
  | unauthorized => "Not authorized to read " ++ address
  | missing => "Resource not found: " ++ address
  | throttled => "Rate limit exceeded: " ++ address
  | failed => "API error " ++ Text.decimal status ++ ": " ++ address

def FetchFault.message : FetchFault → String
  | content fault => fault.message
  | split fault => fault.message
  | setting fault => fault.message
  | address fault => fault.message
  | network fault => fault.message
  | unreachable attempts _ => "Connection failed after " ++ Text.decimalInt attempts ++ " attempts"
  | refused status place => (Refusal.ofStatus status).message status place

def fileScheme : String := "file"

def documentFile (document : String) : Except Uri.SplitFault Location :=
  (Uri.split document).map fun parts =>
    .ofText (if parts.scheme = fileScheme then Uri.percentDecode parts.path else document)

def fetchLocal {m : Type → Type} [Host m] (document : String) : m (Except FetchFault Bytes) :=
  match documentFile document with
  | .error fault => pure (.error (.split fault))
  | .ok location => do
    match ← Host.read location with
    | .ok bytes => pure (.ok bytes)
    | .error fault => pure (.error (.content (.file fault)))

end Deposit
