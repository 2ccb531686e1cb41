import Deposit.Decimal.FloatText
import Deposit.Text.Quoted
import Deposit.Uri.InternationalHost
import Deposit.Uri.Syntax
import Deposit.Uri.Percent

set_option autoImplicit false
set_option relaxedAutoImplicit false

/-!
Addresses of resources on servers. An address is read once and kept in a normal form: scheme and
host in lower case, the usual port of a scheme left out, no segments that lead upwards, and every
character that has no place in its part percent-encoded.
-/

namespace Deposit.Http

/-- An address in normal form. The host is empty in addresses that count from another one. -/
structure Address where
  scheme : String
  user : String
  host : String
  port : Option Int
  path : String
  query : Option String
  fragment : Option String
deriving DecidableEq, Repr

/-- Why a text is no address. -/
inductive AddressFault where
  | tooLong
  | control (c : Char) (position : Nat)
  | port (text : String)
  | octets (host : String)
  | groups (host : String)
  | name (host : String)
  | pathAfterHost
  | doubleSlash
  | colon
deriving DecidableEq, Repr

def AddressFault.message : AddressFault → String
  | tooLong => "URL too long"
  | control c position =>
    "Invalid non-printable ASCII character in URL, " ++ Text.quoted (String.singleton c) ++
      " at position " ++ Text.decimal position ++ "."
  | port text => "Invalid port: " ++ Text.quoted text
  | octets host => "Invalid IPv4 address: " ++ Text.quoted host
  | groups host => "Invalid IPv6 address: " ++ Text.quoted host
  | name host => "Invalid IDNA hostname: " ++ Text.quoted host
  | pathAfterHost => "For absolute URLs, path must be empty or begin with '/'"
  | doubleSlash => "Relative URLs cannot have a path starting with '//'"
  | colon => "Relative URLs cannot have a path starting with ':'"

/-- The parts of an address before they are brought into normal form. -/
structure RawAddress where
  scheme : List Char
  authority : List Char
  path : List Char
  query : Option (List Char)
  fragment : Option (List Char)

def addressLimit : Nat := 65536

def isControl (c : Char) : Bool :=
  c.toNat < 0x20 || c.toNat = 0x7f

/-- Whether a character is a visible one of ASCII outside a list. -/
def isVisibleBut (excluded : List Char) (c : Char) : Bool :=
  0x20 < c.toNat && c.toNat < 0x7f && !excluded.contains c

def isFragmentChar : Char → Bool := isVisibleBut ['"', '<', '>', '\x60']

def isQueryChar : Char → Bool := isVisibleBut ['"', '#', '<', '>']

def notInPath : List Char := ['"', '#', '<', '>', '?', '\x60', '\x7b', '\x7d']

def isPathChar : Char → Bool := isVisibleBut notInPath

/-- The characters that stay as they are in the name and password of a user. -/
def isUserChar : Char → Bool :=
  isVisibleBut (notInPath ++ ['/', ';', '=', '@', '[', '\\', ']', '^', '|'])

def isHostChar (c : Char) : Bool :=
  Uri.isUnreserved c || Uri.isInnerMark c ||
    ['"', '\x60', '\x7b', '\x7d', '%', '|', '\\'].contains c

/-- Splits off the scheme with its colon; a colon at the very beginning ends an empty scheme. -/
def takeScheme (cs : List Char) : List Char × List Char :=
  match cs with
  | ':' :: rest => ([], rest)
  | _ => Uri.splitScheme cs

def takeBefore (marks : List Char) (cs : List Char) : List Char × List Char :=
  (cs.takeWhile fun c => !marks.contains c, cs.dropWhile fun c => !marks.contains c)

def behind? (mark : Char) : List Char → Option (List Char)
  | c :: cs => if c = mark then some cs else none
  | [] => none

def RawAddress.ofChars (cs : List Char) : RawAddress :=
  let (scheme, rest) := takeScheme cs
  let (authority, rest) :=
    match rest with
    | '/' :: '/' :: rest => takeBefore ['/', '?', '#'] rest
    | _ => ([], rest)
  let (path, rest) := takeBefore ['?', '#'] rest
  let (queryPart, rest) := takeBefore ['#'] rest
  { scheme, authority, path, query := behind? '?' queryPart, fragment := behind? '#' rest }

/-- Splits an authority into user, host and port. -/
def splitAuthority (cs : List Char) : List Char × List Char × List Char :=
  let server := (cs.reverse.takeWhile (· ≠ '@')).reverse
  let user := if cs.contains '@' then cs.take (cs.length - server.length - 1) else []
  let bracketed :=
    if server.head? = some '[' && server.contains ']' then
      (server.reverse.dropWhile (· ≠ ']')).reverse
    else []
  let host := if bracketed.isEmpty then server.takeWhile (· ≠ ':') else bracketed
  let rest := server.drop host.length
  (user, host, (behind? ':' rest).getD rest)

/-- Whether a host looks like four numbers with one character between each two. -/
def looksLikeOctets (cs : List Char) : Bool :=
  runs 4 cs
where
  /-- Whether a text is made of so many runs of digits with one character between each two. -/
  runs : Nat → List Char → Bool
    | 0, _ => false
    | 1, cs => !cs.isEmpty && cs.all Char.isDigit
    | n + 1, cs => tails n cs
  /-- Whether, after some digits and one character, the remaining runs follow. -/
  tails (n : Nat) : List Char → Bool
    | c :: d :: cs => c.isDigit && (runs n cs || tails n (d :: cs))
    | _ => false

def normalHost (cs : List Char) : Except AddressFault (List Char) :=
  let written := String.ofList cs
  if cs.isEmpty then .ok []
  else if looksLikeOctets cs then
    if Uri.isOctetAddress cs then .ok cs else .error (.octets written)
  else if cs.head? = some '[' && cs.getLast? = some ']' then
    let inner := (cs.drop 1).dropLast
    if Uri.isGroupAddress inner then .ok inner else .error (.groups written)
  else if cs.all Uri.isAscii then .ok (Uri.percentEncode isHostChar (cs.map Char.toLower))
  else
    match Uri.hostToAscii? cs with
    | some cs => .ok cs
    | none => .error (.name written)

def usualPorts : List (String × Int) :=
  [("ftp", 21), ("http", 80), ("https", 443), ("ws", 80), ("wss", 443)]

def normalPort (scheme : String) (cs : List Char) : Except AddressFault (Option Int) :=
  if cs.isEmpty then .ok none
  else
    match Decimal.toInt? cs with
    | none => .error (.port (String.ofList cs))
    | some n => .ok (if usualPorts.lookup scheme = some n then none else some n)

/-- The segments of a path without those that stay in place or lead upwards, in reverse. -/
def climb (done : List (List Char)) : List (List Char) → List (List Char)
  | [] => done
  | p :: ps =>
    if p = ['.'] then climb done ps
    else if p = ['.', '.'] then
      climb (if done.isEmpty || done = [[]] then done else done.drop 1) ps
    else climb (p :: done) ps

/-- A path without segments that stay in place or lead upwards. -/
def straighten (cs : List Char) : List Char :=
  ['/'].intercalate (climb [] (cs.splitOn '/')).reverse

def checkPath (hasScheme hasAuthority : Bool) (path : List Char) : Except AddressFault Unit :=
  if hasAuthority then
    if path.isEmpty || path.head? = some '/' then .ok () else .error .pathAfterHost
  else if hasScheme then .ok ()
  else
    match path with
    | '/' :: '/' :: _ => .error .doubleSlash
    | ':' :: _ => .error .colon
    | _ => .ok ()

def encodePart (p : Char → Bool) (cs : List Char) : String :=
  String.ofList (Uri.percentEncode p cs)

/-- The normal form of an address of which the parts are given. -/
def RawAddress.normal (r : RawAddress) : Except AddressFault Address := do
  let (user, host, port) := splitAuthority r.authority
  let host ← normalHost host
  let port ← normalPort (String.ofList r.scheme) port
  let hasScheme := !r.scheme.isEmpty
  let hasAuthority := !user.isEmpty || !host.isEmpty || port.isSome
  checkPath hasScheme hasAuthority r.path
  let path := if hasScheme || hasAuthority then straighten r.path else r.path
  pure
    { scheme := String.ofList (r.scheme.map Char.toLower)
      user := encodePart isUserChar user
      host := String.ofList host
      port
      path := encodePart isPathChar path
      query := r.query.map (encodePart isQueryChar)
      fragment := r.fragment.map (encodePart isFragmentChar) }

namespace Address

def read (s : String) : Except AddressFault Address :=
  let cs := s.toList
  if addressLimit < cs.length then .error .tooLong
  else
    match cs.findIdx? isControl with
    | some i => .error (.control (cs.getD i ' ') i)
    | none => (RawAddress.ofChars cs).normal

def shownHost (a : Address) : String :=
  if a.host.toList.contains ':' then "[" ++ a.host ++ "]" else a.host

def authority (a : Address) : String :=
  (if a.user = "" then "" else a.user ++ "@") ++ a.shownHost ++
    (match a.port with
     | some n => ":" ++ Text.decimalInt n
     | none => "")

/-- A part behind its mark, if there is one. -/
def marked (mark : String) : Option String → String
  | some s => mark ++ s
  | none => ""

def text (a : Address) : String :=
  (if a.scheme = "" then "" else a.scheme ++ ":") ++
    (if a.authority = "" then "" else "//" ++ a.authority) ++
    a.path ++ marked "?" a.query ++ marked "#" a.fragment

def isAbsolute (a : Address) : Bool :=
  a.scheme != "" && a.host != ""

/-- What is asked of the server: the path, which is never empty, and the query. -/
def target (a : Address) : String :=
  (if a.path = "" then "/" else a.path) ++ marked "?" a.query

def withTarget (a : Address) (target : List Char) : Except AddressFault Address :=
  let (path, rest) := takeBefore ['?'] target
  RawAddress.normal
    { scheme := a.scheme.toList
      authority := a.authority.toList
      path
      query := behind? '?' rest
      fragment := a.fragment.map String.toList }

def asFolder (a : Address) : Except AddressFault Address :=
  if a.target.toList.getLast? = some '/' then .ok a else a.withTarget (a.target.toList ++ ['/'])

/-- The address that another one leads to when it is counted from a folder. -/
def below (folder a : Address) : Except AddressFault Address :=
  if a.isAbsolute then .ok a
  else folder.withTarget (folder.target.toList ++ a.target.toList.dropWhile (· = '/'))

/-- The port of the server, if the scheme or the address says which. -/
def effectivePort (a : Address) : Option Int :=
  match a.port with
  | some n => some n
  | none => if a.scheme = "http" then some 80 else if a.scheme = "https" then some 443 else none

def isSameOrigin (a b : Address) : Bool :=
  a.scheme = b.scheme && a.host = b.host && a.effectivePort = b.effectivePort

/-- Whether an address is the secured form of another one on the same host, both at the usual
ports. -/
def secures (secured plain : Address) : Bool :=
  secured.host = plain.host && plain.scheme = "http" && plain.effectivePort = some 80 &&
    secured.scheme = "https" && secured.effectivePort = some 443

/-- The name and the password of the user that an address names. -/
def credentials? (a : Address) : Option (String × String) :=
  let (name, rest) := takeBefore [':'] a.user.toList
  let decoded (cs : List Char) : String := Uri.percentDecode (String.ofList cs)
  let pair := (decoded name, decoded (rest.drop 1))
  if pair = ("", "") then none else some pair

end Address

end Deposit.Http
