import Deposit.Xml.Lexical

set_option autoImplicit false
set_option relaxedAutoImplicit false

/-!
The tokens of a document: tags with their attributes as written, runs of characters, references, and
what stands aside of the content, comments and processing instructions.
-/

namespace Deposit.Xml

/-- A token. -/
inductive Token where
  | opening (name : List Char) (attributes : List (List Char × List Char)) (isEmpty : Bool)
  | closing (name : List Char)
  | characters (cs : List Char)
  | literal (cs : List Char)
  | entity (name : String)
  | aside
deriving DecidableEq, Repr

/-- Takes an attribute: its name and its value as written. -/
def takeAttribute (cs : List Char) : Option ((List Char × List Char) × List Char) := do
  let (name, cs) ← takeQualifiedName cs
  let cs ← pass "=" (skipSpaces cs)
  let (value, cs) ← takeLiteral (skipSpaces cs)
  if value.contains '<' then none else some ((name, value), cs)

/-- Takes the attributes and the end of a tag that opens an element. -/
def takeAttributes (taken : List (List Char × List Char)) (cs : List Char) :
    Option (List (List Char × List Char) × Bool × List Char) :=
  match skipSpaces cs with
  | '>' :: rest => some (taken.reverse, false, rest)
  | '/' :: '>' :: rest => some (taken.reverse, true, rest)
  | _ =>
    match needSpaces cs with
    | none => none
    | some next =>
      match takeAttribute next with
      | none => none
      | some (a, rest) =>
        if rest.length < cs.length then takeAttributes (a :: taken) rest else none
termination_by cs.length

/-- Passes a comment after its opening mark. Two hyphens only stand at its end. -/
def passComment : List Char → Option (List Char)
  | [] => none
  | '-' :: '-' :: '>' :: cs => some cs
  | '-' :: '-' :: _ => none
  | _ :: cs => passComment cs

/-- Whether a name is reserved for the declaration of a document. -/
def isReservedTarget (name : List Char) : Bool :=
  name.map Char.toLower = ['x', 'm', 'l']

/-- Passes a processing instruction after its opening mark. -/
def passInstruction (cs : List Char) : Option (List Char) := do
  let (name, cs) ← takeName cs
  if isReservedTarget name || name.contains ':' then none
  else
    match pass "?>" cs with
    | some rest => some rest
    | none =>
      let cs ← needSpaces cs
      let (_, rest) ← takeUntil ['?', '>'] cs
      some rest

def takeToken : List Char → Option (Token × List Char)
  | [] => none
  | '<' :: '/' :: cs => do
    let (name, cs) ← takeQualifiedName cs
    let rest ← pass ">" (skipSpaces cs)
    some (.closing name, rest)
  | '<' :: '!' :: '-' :: '-' :: cs => (passComment cs).map fun rest => (.aside, rest)
  | '<' :: '!' :: cs => do
    let (inside, rest) ← takeUntil [']', ']', '>'] (← pass "[CDATA[" cs)
    some (.literal inside, rest)
  | '<' :: '?' :: cs => (passInstruction cs).map fun rest => (.aside, rest)
  | '<' :: cs => do
    let (name, cs) ← takeQualifiedName cs
    let (attributes, isEmpty, rest) ← takeAttributes [] cs
    some (.opening name attributes isEmpty, rest)
  | '&' :: cs => do
    let (piece, rest) ← takeReference cs
    match piece with
    | .entity name => some (.entity name, rest)
    | .numbered c => some (.literal [c], rest)
    | .plain c => some (.literal [c], rest)
  | cs =>
    some (.characters (cs.takeWhile fun c => c ≠ '<' ∧ c ≠ '&'),
      cs.dropWhile fun c => c ≠ '<' ∧ c ≠ '&')

def tokens (cs : List Char) : Option (List Token) :=
  if cs = [] then some []
  else
    match takeToken cs with
    | none => none
    | some (t, rest) =>
      if rest.length < cs.length then (tokens rest).map (t :: ·) else none
termination_by cs.length

end Deposit.Xml
