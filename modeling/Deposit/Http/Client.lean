import Deposit.Host.Basic
import Deposit.Http.Session

set_option autoImplicit false
set_option relaxedAutoImplicit false

/-!
Clients of one server. A client opens its session with the first request. While the server is not
reached, the request is made again after some time, as often as the settings say; a reply that
refuses is an answer, and nothing is tried again.
-/

namespace Deposit.Http

/-- A client: its settings, and its session while one is open. -/
structure Client where
  settings : Settings
  session : Option Session

/-- The kinds of documents that are welcome where a document is fetched. -/
def documentKinds : String :=
  "application/atom+xml, application/xml;q=0.9, */*;q=0.1"

/-- What an answer delivers, if it delivers anything. -/
def Answer.delivered (a : Answer) : Except FetchFault Answer :=
  if a.reply.isSuccess then .ok a else .error (.refused a.reply.status a.address.text)

/-- The notice of an attempt that did not reach the server. -/
def interruptionNotice (base : String) (attempt total : Int) (way : Interruption)
    (message : String) : String :=
  way.name ++ " reaching " ++ base ++ " (attempt " ++ Text.decimalInt attempt ++ "/" ++
    Text.decimalInt total ++ "): " ++ message

namespace Client

variable {m : Type → Type} [Host m] [Network m]

def ofSettings (settings : Settings) : Client :=
  ⟨settings, none⟩

def isOpen (c : Client) : Bool :=
  c.session.isSome

def close (c : Client) : Client :=
  { c with session := none }

def opened (c : Client) : Except FetchFault (Session × Client) :=
  match c.session with
  | some s => .ok (s, c)
  | none => (Session.ofSettings c.settings).map fun s => (s, { c with session := some s })

/-- Lets the time pass that the settings put between two attempts, if it can be waited for. -/
def pause (c : Client) : m (Except SettingFault Unit) :=
  match c.settings.delay with
  | .error fault => pure (.error fault)
  | .ok seconds => do
    let waited ← Network.wait seconds
    pure (waited.mapError .wait)

/-- Makes the attempts that remain of a number of them, the last interruption being given. -/
def attempt (s : Session) (c : Client) (place : String) (accept : Option String) (total : Int) :
    Nat → Option NetworkFault → m (Except FetchFault Answer)
  | 0, last => pure (.error (.unreachable total last))
  | remaining + 1, _ => do
    match ← s.ask place accept with
    | .ok answer => pure answer.delivered
    | .error (.network (.interrupted way message)) =>
      Host.notice .warning
        (interruptionNotice c.settings.baseText (total - remaining) total way message)
      if remaining = 0 then pure (.error (.unreachable total (some (.interrupted way message))))
      else
        match ← c.pause with
        | .error fault => pure (.error (.setting fault))
        | .ok () => attempt s c place accept total remaining (some (.interrupted way message))
    | .error fault => pure (.error fault)

def get (c : Client) (place : String) (accept : Option String) :
    m (Except FetchFault Answer × Client) := do
  match c.settings.attempts with
  | .error fault => pure (.error (.setting fault), c)
  | .ok total =>
    if total ≤ 0 then pure (.error (.unreachable total none), c)
    else
      match c.opened with
      | .error fault => pure (.error fault, c)
      | .ok (s, c) => do
        let result ← attempt s c place accept total total.toNat none
        pure (result, c)

def fetch (c : Client) (place : String) : m (Except FetchFault Bytes × Client) := do
  Host.notice .debug ("Fetching status document " ++ place)
  let (result, c) ← c.get place (some documentKinds)
  pure (result.map fun answer => answer.reply.body, c)

end Client

end Deposit.Http
