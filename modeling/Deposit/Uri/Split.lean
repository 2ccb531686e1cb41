import Deposit.Text.Quoted
import Deposit.Uri.Syntax

set_option autoImplicit false
set_option relaxedAutoImplicit false

/-!
The parts of a reference as far as they are needed to tell files from everything else. References
come from people, so blanks and control characters in front do not count, nor do tabs and line ends
anywhere.
-/

namespace Deposit.Uri

/-- The parts of a reference. -/
structure Parts where
  scheme : String
  authority : String
  path : String
  query : String
  fragment : String
deriving DecidableEq, Repr

/-- Why a reference has no parts. -/
inductive SplitFault where
  | brackets
  | noAddress (host : String)
  | octetsInBrackets
  | futureAddress
  | disguised (authority : String)
deriving DecidableEq, Repr

def SplitFault.message : SplitFault → String
  | brackets => "Invalid IPv6 URL"
  | noAddress host => Text.quoted host ++ " does not appear to be an IPv4 or IPv6 address"
  | octetsInBrackets => "An IPv4 address cannot be in brackets"
  | futureAddress => "IPvFuture address is invalid"
  | disguised authority =>
    "netloc '" ++ authority ++ "' contains invalid characters under NFKC normalization"

/-- What a reference says, without what does not count. -/
def significant (cs : List Char) : List Char :=
  (cs.dropWhile fun c => c.toNat ≤ 0x20).filter fun c => !(c = '\t' || c = '\r' || c = '\n')

def splitBefore (p : Char → Bool) (cs : List Char) : List Char × List Char :=
  (cs.takeWhile fun c => !p c, cs.dropWhile fun c => !p c)

/-- Splits a text at the first occurrence of a mark, which belongs to neither side. -/
def splitAt (mark : Char) (cs : List Char) : List Char × List Char :=
  let (before, after) := splitBefore (· = mark) cs
  (before, after.drop 1)

/-- Splits off the scheme in lower case, whatever character it begins with. -/
def takeScheme (cs : List Char) : List Char × List Char :=
  let (scheme, rest) := splitBefore (· = ':') cs
  if !scheme.isEmpty && !rest.isEmpty && scheme.all isSchemeChar then
    (scheme.map Char.toLower, rest.drop 1)
  else ([], cs)

def server (authority : List Char) : List Char :=
  (authority.reverse.takeWhile (· ≠ '@')).reverse

def isFutureAddress (cs : List Char) : Bool :=
  let (version, rest) := splitAt '.' (cs.drop 1)
  !version.isEmpty && version.all isHexDigit && !rest.isEmpty

def checkBracketed (host : List Char) : Except SplitFault Unit :=
  if host.head? = some 'v' then
    if isFutureAddress host then .ok () else .error .futureAddress
  else if isOctetAddress host then .error .octetsInBrackets
  else if isGroupAddress host then .ok ()
  else .error (.noAddress (String.ofList host))

def checkBrackets (authority : List Char) : Except SplitFault Unit :=
  let opens := authority.contains '['
  let closes := authority.contains ']'
  if opens != closes then .error .brackets
  else if !opens then .ok ()
  else
    let address := server authority
    if address.contains '[' then
      let (before, rest) := splitAt '[' address
      let (host, port) := splitAt ']' rest
      if !before.isEmpty || !(port.isEmpty || port.head? = some ':') then .error .brackets
      else checkBracketed host
    else checkBracketed (splitAt ':' address).1

/-- The characters that contain one of the marks of the grammar in a wider or narrower form. -/
def disguises : List Char :=
  ['\u2047', '\u2048', '\u2049', '\u2100', '\u2101', '\u2105', '\u2106', '\u2a74', '\ufe13',
   '\ufe16', '\ufe55', '\ufe56', '\ufe5f', '\ufe6b', '\uff03', '\uff0f', '\uff1a', '\uff1f',
   '\uff20']

def checkAuthority (authority : List Char) : Except SplitFault Unit :=
  if authority.any disguises.contains then .error (.disguised (String.ofList authority)) else .ok ()

/-- Splits off the authority, if there is one. -/
def takeAuthority (cs : List Char) : Except SplitFault (List Char × List Char) :=
  match cs with
  | '/' :: '/' :: rest =>
    let (authority, rest) := splitBefore (fun c => c = '/' || c = '?' || c = '#') rest
    (checkBrackets authority).map fun _ => (authority, rest)
  | _ => .ok ([], cs)

def split (reference : String) : Except SplitFault Parts := do
  let (scheme, rest) := takeScheme (significant reference.toList)
  let (authority, rest) ← takeAuthority rest
  let (beforeFragment, fragment) := splitAt '#' rest
  let (path, query) := splitAt '?' beforeFragment
  checkAuthority authority
  pure
    { scheme := String.ofList scheme
      authority := String.ofList authority
      path := String.ofList path
      query := String.ofList query
      fragment := String.ofList fragment }

end Deposit.Uri
