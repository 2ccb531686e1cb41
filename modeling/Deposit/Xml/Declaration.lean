import Deposit.Text.Charset
import Deposit.Text.Blank
import Deposit.Xml.Lexical

set_option autoImplicit false
set_option relaxedAutoImplicit false

/-!
How a document begins: its declaration, and the character set in which its bytes are to be read. The
first bytes show how wide the units of the character set are; which set it is the declaration says.
-/

namespace Deposit.Xml

/-- What a document declares about itself. -/
structure Prolog where
  encoding : Option String
  isStandalone : Bool

/-- Takes an item of the declaration: a name and a literal. -/
def takeItem (cs : List Char) : Option ((List Char × List Char) × List Char) := do
  let (name, cs) ← takeName (← needSpaces cs)
  let cs ← pass "=" (skipSpaces cs)
  let (value, rest) ← takeLiteral (skipSpaces cs)
  some ((name, value), rest)

/-- Takes at most a number of items, up to the end of the declaration. -/
def takeItems : Nat → List Char → Option (List (List Char × List Char) × List Char)
  | 0, cs => (pass "?>" (skipSpaces cs)).map fun rest => ([], rest)
  | n + 1, cs =>
    match pass "?>" (skipSpaces cs) with
    | some rest => some ([], rest)
    | none => do
      let (item, cs) ← takeItem cs
      let (items, rest) ← takeItems n cs
      some (item :: items, rest)

def isVersion : List Char → Bool
  | '1' :: '.' :: cs => cs.all Char.isDigit
  | _ => false

def isEncodingName : List Char → Bool
  | c :: cs => c.isAlpha && cs.all fun c => c.isAlphanum || c = '.' || c = '_' || c = '-'
  | [] => false

def standalone? (value : List Char) : Option Bool :=
  if value = ['y', 'e', 's'] then some true
  else if value = ['n', 'o'] then some false
  else none

/-- What items declare: a version, then an encoding, then whether the document stands alone. -/
def prologOf (items : List (List Char × List Char)) : Option Prolog :=
  match items.map fun i => (String.ofList i.1, i.2) with
  | ("version", version) :: rest =>
    if isVersion version then
      match rest with
      | [] => some ⟨none, false⟩
      | [("encoding", name)] =>
        if isEncodingName name then some ⟨some (String.ofList name), false⟩ else none
      | [("standalone", value)] => (standalone? value).map fun s => ⟨none, s⟩
      | [("encoding", name), ("standalone", value)] =>
        if isEncodingName name then
          (standalone? value).map fun s => ⟨some (String.ofList name), s⟩
        else none
      | _ => none
    else none
  | _ => none

def hasDeclaration (cs : List Char) : Bool :=
  "<?xml".toList.isPrefixOf cs && ((cs.drop 5).head?.map isSpace).getD false

/-- Takes the declaration, if there is one. -/
def takeProlog (cs : List Char) : Option (Prolog × List Char) :=
  if hasDeclaration cs then do
    let (items, rest) ← takeItems 3 (cs.drop 5)
    let prolog ← prologOf items
    some (prolog, rest)
  else some (⟨none, false⟩, cs)

/-- The character set that the first bytes show, and how many of them only show it. -/
def shownCharset : Bytes → Option (Text.Charset × Nat)
  | 0xff :: 0xfe :: 0 :: 0 :: _ => some (.utf32 false, 4)
  | 0 :: 0 :: 0xfe :: 0xff :: _ => some (.utf32 true, 4)
  | 0 :: 0 :: 0 :: 0x3c :: _ => some (.utf32 true, 0)
  | 0x3c :: 0 :: 0 :: 0 :: _ => some (.utf32 false, 0)
  | 0x3c :: 0 :: 0x3f :: 0 :: _ => some (.utf16 false, 0)
  | 0 :: 0x3c :: 0 :: 0x3f :: _ => some (.utf16 true, 0)
  | 0xef :: 0xbb :: 0xbf :: _ => some (.utf8, 3)
  | 0xff :: 0xfe :: _ => some (.utf16 false, 2)
  | 0xfe :: 0xff :: _ => some (.utf16 true, 2)
  | _ => none

/-- The character set that a document in units of one byte declares. -/
def declaredCharset (bytes : Bytes) : Option Text.Charset := do
  let (prolog, _) ← takeProlog (Text.unifyLineEnds (bytes.map fun b => Char.ofNat b.toNat))
  match prolog.encoding with
  | some name => Text.Charset.ofName? name
  | none => some .utf8

def decode (bytes : Bytes) : Option (List Char) := do
  let (charset, skipped) ←
    match shownCharset bytes with
    | some shown => some shown
    | none => (declaredCharset bytes).map fun charset => (charset, 0)
  let cs ← charset.decode? (bytes.drop skipped)
  some (Text.unifyLineEnds cs)

end Deposit.Xml
