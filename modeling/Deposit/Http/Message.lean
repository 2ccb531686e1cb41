import Deposit.Bytes
import Deposit.Http.Address
import Deposit.Http.Headers

set_option autoImplicit false
set_option relaxedAutoImplicit false

/-!
What goes to a server and what comes back: requests for a resource, replies, and the faults of the
way between, some of which pass when the request is made again. The network is asked to send a
request, and to let some time pass.
-/

namespace Deposit.Http

/-- A request for the resource at an address. -/
structure Request where
  address : Address
  headers : Headers
deriving DecidableEq, Repr

/-- A reply. -/
structure Reply where
  status : Nat
  headers : Headers
  body : Bytes
deriving DecidableEq, Repr

/-- The ways in which a server is not reached for the time being. -/
inductive Interruption where
  | connection
  | connecting
  | reading
  | writing
  | waiting
  | time
deriving DecidableEq, Repr

/-- Why a request has no reply. -/
inductive NetworkFault where
  | interrupted (way : Interruption) (message : String)
  | broken (name message : String)
  | badRedirect (fault : AddressFault)
  | tooManyRedirects
  | redirectAddress (fault : AddressFault)
deriving DecidableEq, Repr

namespace Interruption

def all : List Interruption :=
  [connection, connecting, reading, writing, waiting, time]

def name : Interruption → String
  | connection => "ConnectError"
  | connecting => "ConnectTimeout"
  | reading => "ReadTimeout"
  | writing => "WriteTimeout"
  | waiting => "PoolTimeout"
  | time => "TimeoutException"

def ofName? (s : String) : Option Interruption :=
  all.find? fun way => way.name == s

end Interruption

namespace NetworkFault

def message : NetworkFault → String
  | interrupted _ message => message
  | broken _ message => message
  | badRedirect fault => "Invalid URL in location header: " ++ fault.message ++ "."
  | tooManyRedirects => "Exceeded maximum allowed redirects."
  | redirectAddress fault => fault.message

def ofName (name message : String) : NetworkFault :=
  match Interruption.ofName? name with
  | some way => .interrupted way message
  | none => .broken name message

end NetworkFault

def Reply.isSuccess (r : Reply) : Bool :=
  200 ≤ r.status && r.status < 300

/-- Why a time cannot be waited for. -/
inductive WaitFault where
  | undefined
  | negative
  | tooLong
deriving DecidableEq, Repr

namespace WaitFault

def message : WaitFault → String
  | undefined => "Invalid value NaN (not a number)"
  | negative => "sleep length must be non-negative"
  | tooLong => "timestamp out of range for platform time_t"

/-- What a clock that counts nanoseconds in 64 bits has against a number of seconds. -/
def ofSeconds? (seconds : Float) : Option WaitFault :=
  let nanoseconds := seconds * 1000000000.0
  if seconds.isNaN then some .undefined
  else if nanoseconds < -9223372036854775808.0 || 9223372036854775808.0 ≤ nanoseconds then
    some .tooLong
  else if seconds < 0.0 then some .negative
  else none

end WaitFault

/-- Sending requests and waiting in a monad. Times are in seconds; not every time can be waited
for. -/
class Network (m : Type → Type) where
  send : Request → m (Except NetworkFault Reply)
  wait : Float → m (Except WaitFault Unit)

end Deposit.Http
