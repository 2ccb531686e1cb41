import Deposit.Bytes
import Deposit.Fetch
import Deposit.Http.Message
import Deposit.Http.Redirect

set_option autoImplicit false
set_option relaxedAutoImplicit false

/-!
Sessions with a server: what all requests of a client have in common. A request follows redirects,
up to a limit, until a reply delivers something or refuses to. The name and password of a session
are sent as text in sixty-four characters, four of them for every three bytes.
-/

namespace Deposit.Http

/-- The character of a value below 64. -/
def sextetChar (n : Nat) : Char :=
  if n < 26 then Char.ofNat (65 + n)
  else if n < 52 then Char.ofNat (71 + n)
  else if n < 62 then Char.ofNat (n - 4)
  else if n = 62 then '+' else '/'

/-- The characters of a number of up to three bytes, the first `count` of four. -/
def sextets (count n : Nat) : List Char :=
  ([n / 262144 % 64, n / 4096 % 64, n / 64 % 64, n % 64].take count).map sextetChar ++
    List.replicate (4 - count) '='

def base64 : Bytes → List Char
  | a :: b :: c :: bs => sextets 4 (a.toNat * 65536 + b.toNat * 256 + c.toNat) ++ base64 bs
  | [a, b] => sextets 3 (a.toNat * 65536 + b.toNat * 256)
  | [a] => sextets 2 (a.toNat * 65536)
  | [] => []

/-- What the requests of a client have in common: the folder that addresses are counted from, header
fields, and the name and password to log in with. -/
structure Session where
  base : Address
  headers : Headers
  credentials : Option (String × String)
deriving DecidableEq, Repr

/-- A reply and the address it came from. -/
structure Answer where
  address : Address
  reply : Reply
deriving DecidableEq, Repr

/-- The header fields that are sent unless others are given. -/
def ordinaryHeaders : Headers :=
  [("Accept", "*/*"), ("Connection", "keep-alive")]

/-- The value of the header field for a name and a password. -/
def authorization (credentials : String × String) : String :=
  "Basic " ++ String.ofList (base64 (Bytes.ofText (credentials.1 ++ ":" ++ credentials.2)))

/-- How many requests may be made for one, the first one and those that redirects lead to. -/
def requestLimit : Nat := 21

namespace Session

def ofSettings (s : Settings) : Except FetchFault Session := do
  let _ ← s.timeout.mapError .setting
  let fields ← s.fields.mapError .setting
  let credentials ← s.credentials.mapError .setting
  let base ← ((Address.read s.baseText).bind Address.asFolder).mapError .address
  let fields ← (fields.mapM headerField).mapError .setting
  pure { base, headers := Headers.update ordinaryHeaders fields, credentials }

/-- The request for a place, with a header field for the kinds of documents that are welcome. -/
def request (s : Session) (place : String) (accept : Option String) : Except AddressFault Request :=
  ((Address.read place).bind s.base.below).map fun address =>
    let headers := match accept with
      | some kinds => s.headers.set "Accept" kinds
      | none => s.headers
    match s.credentials <|> address.credentials? with
    | some credentials =>
      { address, headers := headers.set "Authorization" (authorization credentials) }
    | none => { address, headers }

end Session

/-- Makes a request and those that redirects lead to, as many as are allowed. -/
def follow {m : Type → Type} [Monad m] [Network m] :
    Nat → Request → m (Except NetworkFault Answer)
  | 0, _ => pure (.error .tooManyRedirects)
  | n + 1, request => do
    match ← Network.send request with
    | .error fault => pure (.error fault)
    | .ok reply =>
      match reply.redirect? with
      | none => pure (.ok ⟨request.address, reply⟩)
      | some place =>
        match request.redirected place with
        | .ok next => follow n next
        | .error fault => pure (.error fault)

def Session.ask {m : Type → Type} [Monad m] [Network m] (s : Session) (place : String)
    (accept : Option String) : m (Except FetchFault Answer) :=
  match s.request place accept with
  | .error fault => pure (.error (.address fault))
  | .ok request => do
    match ← follow requestLimit request with
    | .ok answer => pure (.ok answer)
    | .error fault => pure (.error (.network fault))

end Deposit.Http
