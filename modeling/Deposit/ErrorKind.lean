set_option autoImplicit false
set_option relaxedAutoImplicit false

/-!
The kinds of errors that callers tell apart, from the most general to the most special: who handles
a kind handles all kinds below it.
-/

namespace Deposit

/-- A kind of error. -/
inductive ErrorKind where
  | deposit
  | assembly
  | statusParse
  | configuration
  | client
  | connection
  | api
  | authentication
  | notFound
  | rateLimit
deriving DecidableEq, Repr

namespace ErrorKind

def all : List ErrorKind :=
  [deposit, assembly, statusParse, configuration, client, connection, api, authentication, notFound,
   rateLimit]

def name : ErrorKind → String
  | deposit => "DepositServicesError"
  | assembly => "AssemblyError"
  | statusParse => "StatusParseError"
  | configuration => "ConfigurationError"
  | client => "ClientError"
  | connection => "ConnectionError"
  | api => "APIError"
  | authentication => "AuthenticationError"
  | notFound => "NotFoundError"
  | rateLimit => "RateLimitError"

def ofName? (s : String) : Option ErrorKind :=
  all.find? fun k => k.name == s

/-- The kinds that a kind is a special case of, the nearest first. -/
def ancestors : ErrorKind → List ErrorKind
  | deposit => []
  | assembly | statusParse | configuration | client => [deposit]
  | connection | api => [client, deposit]
  | authentication | notFound | rateLimit => [api, client, deposit]

def isKindOf (k other : ErrorKind) : Bool :=
  (k :: k.ancestors).contains other

def facts : ErrorKind → List String
  | deposit | client | connection => []
  | assembly => ["submission_id", "file_name"]
  | statusParse => ["document_id"]
  | configuration => ["repository"]
  | api | authentication | notFound | rateLimit => ["status_code"]

/-- What is said of an error of this kind when nothing else is. -/
def ordinaryMessage? : ErrorKind → Option String
  | authentication => some "Authentication failed"
  | notFound => some "Resource not found"
  | rateLimit => some "Rate limit exceeded"
  | _ => none

/-- The status of the reply behind an error of this kind, if it is known beforehand. -/
def ordinaryStatus? : ErrorKind → Option Nat
  | authentication => some 401
  | notFound => some 404
  | rateLimit => some 429
  | _ => none

end ErrorKind

end Deposit
