import Deposit.Decimal.FloatText
import Deposit.Http.Message
import Deposit.Json.Shown
import Deposit.Repository.Binding

set_option autoImplicit false
set_option relaxedAutoImplicit false

/-!
The settings of a client for one server. They are kept as they were given, and each is looked at
when it is needed, so that a client with an unusable setting works as long as it does without it.
-/

namespace Deposit.Http

/-- Settings: where the server is, and everything else by name. -/
structure Settings where
  base : Json
  members : List (String × Json)

/-- Why a setting cannot be used. -/
inductive SettingFault where
  | noBase
  | noServer
  | notDecimal (shown : String)
  | notWhole (shown : String)
  | decimalType (type : String)
  | wholeType (type : String)
  | tooLarge
  | infinite
  | undefined
  | fieldsType (type : String)
  | fieldType (index : Nat)
  | fieldSize (index size : Nat)
  | fieldName (type : String)
  | fieldValue (type : String)
  | fieldText (text : String)
  | credentialType (index : Nat) (type : String)
  | wait (fault : WaitFault)
deriving DecidableEq, Repr

/-- The place and the characters of the first run of characters beyond ASCII. -/
def foreignRun (cs : List Char) : Nat × List Char :=
  let isForeign (c : Char) : Bool := 0x80 ≤ c.toNat
  ((cs.takeWhile fun c => !isForeign c).length,
    (cs.dropWhile fun c => !isForeign c).takeWhile isForeign)

def numbered (c : Char) : String :=
  let n := c.toNat
  if n < 0x100 then "\\x" ++ Text.hexDigits 2 n
  else if n < 0x10000 then "\\u" ++ Text.hexDigits 4 n
  else "\\U" ++ Text.hexDigits 8 n

def foreignText (s : String) : String :=
  let place := match foreignRun s.toList with
    | (i, [c]) => "character '" ++ numbered c ++ "' in position " ++ Text.decimal i
    | (i, run) =>
      "characters in position " ++ Text.decimal i ++ "-" ++ Text.decimal (i + run.length - 1)
  "'ascii' codec can't encode " ++ place ++ ": ordinal not in range(128)"

def SettingFault.message : SettingFault → String
  | noBase => "config must include 'base_url'"
  | noServer => "protocol binding has no 'server-fqdn'"
  | notDecimal shown => "could not convert string to float: " ++ shown
  | notWhole shown => "invalid literal for int() with base 10: " ++ shown
  | decimalType type => "float() argument must be a string or a real number, not '" ++ type ++ "'"
  | wholeType type =>
    "int() argument must be a string, a bytes-like object or a real number, not '" ++ type ++ "'"
  | tooLarge => "int too large to convert to float"
  | infinite => "cannot convert float infinity to integer"
  | undefined => "cannot convert float NaN to integer"
  | fieldsType type => "'" ++ type ++ "' object is not iterable"
  | fieldType index =>
    "cannot convert dictionary update sequence element #" ++ Text.decimal index ++ " to a sequence"
  | fieldSize index size =>
    "dictionary update sequence element #" ++ Text.decimal index ++ " has length " ++
      Text.decimal size ++ "; 2 is required"
  | fieldName type => "unhashable type: '" ++ type ++ "'"
  | fieldValue type => "Header value must be str or bytes, not <class '" ++ type ++ "'>"
  | fieldText text => foreignText text
  | credentialType index type =>
    "sequence item " ++ Text.decimal index ++ ": expected a bytes-like object, " ++ type ++ " found"
  | wait fault => fault.message

def decimalOf : Json → Except SettingFault Float
  | .float x => .ok x
  | .int n =>
    let x := Decimal.toFloat n.natAbs 0
    if x.isInf then .error .tooLarge else .ok (if n < 0 then -x else x)
  | .bool b => .ok (if b then 1.0 else 0.0)
  | .text s =>
    match Decimal.toFloat? s with
    | some x => .ok x
    | none => .error (.notDecimal (Text.quoted s))
  | j => .error (.decimalType j.typeName)

def truncated (x : Float) : Int :=
  let (m, q) := Decimal.decode x.abs.toBits
  let n : Int := if q < 0 then (m / Nat.pow 2 q.natAbs : Nat) else (m * Nat.pow 2 q.natAbs : Nat)
  if x < 0.0 then -n else n

/-- An integer of a setting; what is behind the point of a number does not count. -/
def wholeOf : Json → Except SettingFault Int
  | .int n => .ok n
  | .bool b => .ok (if b then 1 else 0)
  | .float x =>
    if x.isNaN then .error .undefined
    else if x.isInf then .error .infinite
    else .ok (truncated x)
  | .text s =>
    match Decimal.toInt? s.toList with
    | some n => .ok n
    | none => .error (.notWhole (Text.quoted s))
  | j => .error (.wholeType j.typeName)

/-- The field that a pair is, the first of the two its name. -/
def fieldOf (index : Nat) : List Json → Except SettingFault (String × Json)
  | [.text name, v] => .ok (name, v)
  | [.list _, _] => .error (.fieldName (Json.list []).typeName)
  | [.object _, _] => .error (.fieldName (Json.object []).typeName)
  | [j, v] => .ok (j.shown, v)
  | js => .error (.fieldSize index js.length)

/-- The items of a value that has items: those of a list, the names of an object, the characters of
a text. -/
def itemsOf? : Json → Option (List Json)
  | .list xs => some xs
  | .object ms => some (ms.map fun m => .text m.1)
  | .text s => some (s.toList.map fun c => .text (String.singleton c))
  | _ => none

/-- The fields that pairs are, the first of them having a given number. -/
def fieldsFrom (index : Nat) : List Json → Except SettingFault (List (String × Json))
  | [] => .ok []
  | j :: js =>
    match itemsOf? j with
    | none => .error (.fieldType index)
    | some pair => do
      let field ← fieldOf index pair
      let fields ← fieldsFrom (index + 1) js
      pure (field :: fields)

/-- The header fields of a setting: the members of an object, or pairs. -/
def fieldsOf (j : Json) : Except SettingFault (List (String × Json)) :=
  match j with
  | .object ms => .ok ms
  | _ =>
    match itemsOf? j with
    | some js => (fieldsFrom 0 js).map Json.objectOf
    | none => .error (.fieldsType j.typeName)

def headerText (s : String) : Except SettingFault String :=
  if s.toList.all fun c => c.toNat < 0x80 then .ok s else .error (.fieldText s)

def headerField (field : String × Json) : Except SettingFault (String × String) := do
  let name ← headerText field.1
  match field.2 with
  | .text s => pure (name, ← headerText s)
  | j => throw (.fieldValue j.typeName)

def credential (index : Nat) : Json → Except SettingFault String
  | .text s => .ok s
  | j => .error (.credentialType index j.typeName)

namespace Settings

def ofMembers (members : List (String × Json)) : Except SettingFault Settings :=
  match members.lookup "base_url" with
  | some base => .ok { base, members }
  | none => .error .noBase

/-- Settings for the server of a protocol, with members that come before those of the protocol. -/
def ofBinding (b : ProtocolBinding) (overrides : List (String × Json)) :
    Except SettingFault Settings :=
  match b.server with
  | none | some "" => .error .noServer
  | some server =>
    let port := match b.port with
      | none | some "" => ""
      | some port => ":" ++ port
    let agent := match b.userAgent with
      | none | some "" => []
      | some agent => [("headers", Json.object [("User-Agent", .text agent)])]
    ofMembers (Json.objectOf
      ([("base_url", .text ("https://" ++ server ++ port)), ("username", .ofText? b.username),
        ("password", .ofText? b.password)] ++ agent ++ overrides))

def baseText (s : Settings) : String :=
  s.base.shown

/-- The setting of a name, or what stands for it. -/
def getD (s : Settings) (name : String) (j : Json) : Json :=
  (s.members.lookup name).getD j

def timeout (s : Settings) : Except SettingFault Float :=
  decimalOf (s.getD "timeout" (.int 30))

/-- How often a request is made before the server counts as not to be reached. -/
def attempts (s : Settings) : Except SettingFault Int :=
  wholeOf (s.getD "retry_attempts" (.int 3))

def delay (s : Settings) : Except SettingFault Float :=
  decimalOf (s.getD "retry_delay" (.int 1))

def fields (s : Settings) : Except SettingFault (List (String × Json)) :=
  fieldsOf (s.getD "headers" (.object []))

/-- The name and the password to log in with, if there is a name. -/
def credentials (s : Settings) : Except SettingFault (Option (String × String)) :=
  let name := s.getD "username" .null
  let password := s.getD "password" .null
  if name.isGiven then do
    let name ← credential 0 name
    let password ← if password.isGiven then credential 1 password else pure ""
    pure (some (name, password))
  else .ok none

end Settings

end Deposit.Http
