import Deposit.Text.Digits

set_option autoImplicit false
set_option relaxedAutoImplicit false

/-!
The grammar of references to resources: a scheme, an authority, a path, a query and a fragment, each
of which may be missing, over a small set of characters; and of hosts that are numbers: addresses of
four octets, and addresses of eight groups of hexadecimal digits of which one run of zero groups may
be left out and the last two may be written as octets.
-/

namespace Deposit.Uri

def isUnreserved (c : Char) : Bool :=
  c.isAlphanum || c = '-' || c = '.' || c = '_' || c = '~'

def isInnerMark (c : Char) : Bool :=
  "!$&'()*+,;=".toList.contains c

def isSegmentChar (c : Char) : Bool :=
  isUnreserved c || isInnerMark c || c = ':' || c = '@'

def isSchemeChar (c : Char) : Bool :=
  c.isAlphanum || c = '+' || c = '-' || c = '.'

def isHexDigit (c : Char) : Bool :=
  (Text.hexValue? c).isSome

/-- Whether all characters are of a class or stand for a byte. -/
def isMadeOf (p : Char → Bool) : List Char → Bool
  | '%' :: a :: b :: cs => isHexDigit a && isHexDigit b && isMadeOf p cs
  | c :: cs => p c && isMadeOf p cs
  | [] => true

/-- Splits off the scheme, which is empty if there is none. -/
def splitScheme (cs : List Char) : List Char × List Char :=
  match cs with
  | c :: _ =>
    match cs.dropWhile isSchemeChar with
    | ':' :: rest => if c.isAlpha then (cs.takeWhile isSchemeChar, rest) else ([], cs)
    | _ => ([], cs)
  | [] => ([], [])

def isHost (cs : List Char) : Bool :=
  match cs with
  | '[' :: rest => rest.getLast? = some ']' && !(rest.dropLast.contains ']')
  | _ => isMadeOf (fun c => isUnreserved c || isInnerMark c) cs

/-- Whether a text is an authority: a host after a user and before a port. -/
def isAuthority (cs : List Char) : Bool :=
  let user := cs.takeWhile (· ≠ '@')
  let isUser := cs.contains '@' &&
    isMadeOf (fun c => isUnreserved c || isInnerMark c || c = ':') user
  let server := if isUser then cs.drop (user.length + 1) else cs
  let isServer (host port : List Char) : Bool := isHost host && port.all Char.isDigit
  isServer server [] ||
    (let port := (server.reverse.takeWhile (· ≠ ':')).reverse
     server.contains ':' && isServer (server.take (server.length - port.length - 1)) port)

def isPath (cs : List Char) : Bool :=
  isMadeOf (fun c => isSegmentChar c || c = '/') cs

/-- Whether a text, after its scheme, is an authority with a path or a path alone. -/
def isHierarchy (hasScheme : Bool) (cs : List Char) : Bool :=
  match cs with
  | '/' :: '/' :: rest =>
    isAuthority (rest.takeWhile (· ≠ '/')) && isPath (rest.dropWhile (· ≠ '/'))
  | _ => isPath cs && (hasScheme || !(cs.takeWhile (· ≠ '/')).contains ':')

def isReference (cs : List Char) : Bool :=
  let beforeFragment := cs.takeWhile (· ≠ '#')
  let fragment := cs.drop (beforeFragment.length + 1)
  let beforeQuery := beforeFragment.takeWhile (· ≠ '?')
  let query := beforeFragment.drop (beforeQuery.length + 1)
  let isTailChar (c : Char) : Bool := isSegmentChar c || c = '/' || c = '?'
  let (scheme, rest) := splitScheme beforeQuery
  isHierarchy (!scheme.isEmpty) rest && isMadeOf isTailChar query &&
    isMadeOf (fun c => isTailChar c || c = '[' || c = ']') fragment

/-- Whether a text is an octet: a number below 256 without zeros in front of it. -/
def isOctet (cs : List Char) : Bool :=
  !cs.isEmpty && cs.all Char.isDigit && cs.length ≤ 3 && (cs = ['0'] || cs.head? ≠ some '0') &&
    Text.ofDecimalDigits cs ≤ 255

def isOctetAddress (cs : List Char) : Bool :=
  let octets := cs.splitOn '.'
  octets.length = 4 && octets.all isOctet

/-- Whether a text is a group of an address: at most four hexadecimal digits. -/
def isGroup (cs : List Char) : Bool :=
  cs.all isHexDigit && cs.length ≤ 4

/-- The groups of an address in which octets at the end stand for two groups; nothing if what looks
like octets is none. -/
def groups? (cs : List Char) : Option (List (List Char)) :=
  let parts := cs.splitOn ':'
  let last := parts.getLast?.getD []
  if parts.length < 3 then none
  else if last.contains '.' then
    if isOctetAddress last then some (parts.dropLast ++ [['0'], ['0']]) else none
  else some parts

/-- Whether groups on both sides of a run that is left out are sound, and not too many. -/
def isAround (before after : List (List Char)) : Bool :=
  let before := if before = [[]] then [] else before
  let after := if after = [[]] then [] else after
  (before ++ after).all (fun g => !g.isEmpty && isGroup g) && (before ++ after).length < 8

def areGroups (parts : List (List Char)) : Bool :=
  let inner := (parts.drop 1).dropLast
  match inner.findIdx? List.isEmpty with
  | some i => isAround (parts.take (i + 1)) (parts.drop (i + 2))
  | none => parts.length = 8 && parts.all fun g => !g.isEmpty && isGroup g

/-- Whether a text is an address of eight groups, with or without a zone after a percent sign. -/
def isGroupAddress (cs : List Char) : Bool :=
  let address := cs.takeWhile (· ≠ '%')
  let zone := cs.drop (address.length + 1)
  !cs.contains '/' && (!cs.contains '%' || (!zone.isEmpty && !zone.contains '%')) &&
    ((groups? address).map areGroups).getD false

end Deposit.Uri
