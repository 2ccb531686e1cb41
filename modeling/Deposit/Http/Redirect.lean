import Deposit.Http.Message

set_option autoImplicit false
set_option relaxedAutoImplicit false

/-!
Redirects. A reply may say that the resource is elsewhere: the place is counted from the address
that was asked for, and credentials go along only to the same origin and to its secured form.
-/

namespace Deposit.Http

/-- The schemes in which addresses are counted from one another. -/
def hierarchicalSchemes : List String :=
  ["", "ftp", "http", "gopher", "nntp", "imap", "wais", "file", "https", "shttp", "mms", "prospero",
   "rtsp", "rtspu", "sftp", "svn", "svn+ssh", "ws", "wss"]

def splitParameters (path : List Char) : List Char × List Char :=
  let last := (path.reverse.takeWhile (· ≠ '/')).reverse
  let folders := path.take (path.length - last.length)
  (folders ++ last.takeWhile (· ≠ ';'), (last.dropWhile (· ≠ ';')).drop 1)

def segmentsFrom (base path : List Char) : List (List Char) :=
  let own := path.splitOn '/'
  if path.head? = some '/' then own
  else
    let folders := base.splitOn '/'
    let folders := if folders.getLast? = some [] then folders else folders.dropLast
    match folders ++ own with
    | first :: rest => first :: rest.dropLast.filter (!·.isEmpty) ++ rest.drop (rest.length - 1)
    | [] => []

/-- The segments after those that lead upwards have been followed, in reverse. -/
def followSegments (segments : List (List Char)) : List (List Char) :=
  segments.foldl
    (fun done p => if p = ['.', '.'] then done.drop 1 else if p = ['.'] then done else p :: done) []

/-- A path counted from another path, without segments that lead upwards. -/
def pathFrom (base path : List Char) : List Char :=
  let segments := segmentsFrom base path
  let last := segments.getLast?.getD []
  let ending := if last = ['.'] || last = ['.', '.'] then [[]] else []
  let joined := ['/'].intercalate ((followSegments segments).reverse ++ ending)
  if joined.isEmpty then ['/'] else joined

def rooted (hasAuthority : Bool) (path : List Char) : List Char :=
  if hasAuthority && !path.isEmpty && path.head? ≠ some '/' then '/' :: path else path

/-- The part of an address, if it is not empty. -/
def proper? (part : Option String) : Option (List Char) :=
  part.bind fun s => if s = "" then none else some s.toList

def withParameters (path parameters : List Char) : List Char :=
  if parameters.isEmpty then path else path ++ ';' :: parameters

/-- The parts of an address counted from another one of the same scheme. -/
def partsFrom (base a : Address) : RawAddress :=
  let (path, parameters) := splitParameters a.path.toList
  let (basePath, baseParameters) := splitParameters base.path.toList
  let raw (authority path : List Char) (query : Option (List Char)) : RawAddress :=
    { scheme := base.scheme.toList, authority, path := rooted (!authority.isEmpty) path, query
      fragment := proper? a.fragment }
  if a.authority ≠ "" then
    raw a.authority.toList (withParameters path parameters) (proper? a.query)
  else if path.isEmpty && parameters.isEmpty then
    raw base.authority.toList (withParameters basePath baseParameters)
      (proper? a.query <|> proper? base.query)
  else
    raw base.authority.toList (withParameters (pathFrom basePath path) parameters) (proper? a.query)

/-- The address that another one leads to when it is counted from this one. -/
def Address.join (base a : Address) : Except AddressFault Address :=
  let isRelated := a.scheme = "" || a.scheme = base.scheme
  if isRelated && hierarchicalSchemes.contains base.scheme then (partsFrom base a).normal else .ok a

def Address.withHostOf (a other : Address) : Except AddressFault Address :=
  let user := if a.user = "" then "" else a.user ++ "@"
  let port := match a.port with
    | some n => ":" ++ Text.decimalInt n
    | none => ""
  RawAddress.normal
    { scheme := a.scheme.toList
      authority := (user ++ other.shownHost ++ port).toList
      path := a.path.toList
      query := a.query.map String.toList
      fragment := a.fragment.map String.toList }

/-- The statuses of replies that say where the resource is. -/
def redirectStatuses : List Nat := [301, 302, 303, 307, 308]

/-- The place a reply says the resource is at, if it says so. -/
def Reply.redirect? (r : Reply) : Option String :=
  if redirectStatuses.contains r.status then r.headers.find? "Location" else none

/-- A fragment with no more characters percent-encoded than need to be. -/
def recoded (fragment : List Char) : String :=
  encodePart isFragmentChar (Uri.percentDecode (String.ofList fragment)).toList

/-- The address of a place that the reply to a request names. -/
def redirectAddress (asked : Address) (place : String) : Except NetworkFault Address := do
  let a ← (Address.read place).mapError .badRedirect
  let whole : Except AddressFault Address := do
    let a ← if a.scheme ≠ "" && a.host = "" then a.withHostOf asked else pure a
    let a ← if a.isAbsolute then pure a else asked.join a
    match proper? a.fragment, proper? asked.fragment with
    | none, some kept => pure { a with fragment := some (recoded kept) }
    | _, _ => pure a
  whole.mapError .redirectAddress

def Request.redirected (r : Request) (place : String) : Except NetworkFault Request :=
  (redirectAddress r.address place).map fun address =>
    let keepsCredentials := address.isSameOrigin r.address || address.secures r.address
    { address, headers := if keepsCredentials then r.headers else r.headers.erase "Authorization" }

end Deposit.Http
