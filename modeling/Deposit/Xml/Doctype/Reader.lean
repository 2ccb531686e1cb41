import Deposit.Xml.Doctype.Basic
import Deposit.Xml.Token

set_option autoImplicit false
set_option relaxedAutoImplicit false

/-!
Reading the declarations that stand before the root of a document. Declarations that lie elsewhere
are never fetched.
-/

namespace Deposit.Xml

def isPublicChar (c : Char) : Bool :=
  c.isAlphanum || " \n-'()+,./:=?;!*#@$_%".toList.contains c

def passPublicId (cs : List Char) : Option (List Char) := do
  let (id, rest) ← takeLiteral cs
  if id.all isPublicChar then some rest else none

/-- Takes the place where something lies that is declared elsewhere: the literal of its place. -/
def takeExternalId (cs : List Char) : Option (List Char × List Char) :=
  match pass "SYSTEM" cs with
  | some rest => do takeLiteral (← needSpaces rest)
  | none => do
    let rest ← passPublicId (← needSpaces (← pass "PUBLIC" cs))
    takeLiteral (← needSpaces rest)

/-- Passes the place or the public identifier of a notation. -/
def passNotationId (cs : List Char) : Option (List Char) :=
  match takeExternalId cs with
  | some (_, rest) => some rest
  | none => do passPublicId (← needSpaces (← pass "PUBLIC" cs))

/-- Passes the end of a declaration, after blanks. -/
def passEnd (cs : List Char) : Option (List Char) :=
  pass ">" (skipSpaces cs)

def takePlainName (cs : List Char) : Option (String × List Char) := do
  let (name, rest) ← takeName cs
  if name.contains ':' then none else some (String.ofList name, rest)

/-- Takes what an entity stands for, except for what says that it is no text. -/
def takeEntityValue (cs : List Char) : Option (Entity × List Char) :=
  match takeLiteral cs with
  | some (value, rest) => (entityContent value).map fun content => (.internal content, rest)
  | none => do
    let (place, rest) ← takeExternalId cs
    if place.contains '#' then none else some (.external, rest)

/-- Takes the declaration of an entity after its opening mark. -/
def takeEntity (d : Doctype) (cs : List Char) : Option (Doctype × List Char) := do
  let cs ← needSpaces cs
  match cs with
  | '%' :: cs =>
    let (name, cs) ← takePlainName (← needSpaces cs)
    let (e, cs) ← takeEntityValue (← needSpaces cs)
    let rest ← passEnd cs
    some (d.withParameter name e, rest)
  | cs =>
    let (name, cs) ← takePlainName cs
    let (e, cs) ← takeEntityValue (← needSpaces cs)
    match passEnd cs with
    | some rest => some (d.withEntity name e, rest)
    | none =>
      if e ≠ .external then none
      let (_, cs) ← takeName (← needSpaces (← pass "NDATA" (← needSpaces cs)))
      let rest ← passEnd cs
      some (d.withEntity name .unparsed, rest)

/-- Passes the choices of an attribute up to the end of their group. -/
def passChoices (isChoice : List Char → Bool) : Nat → List Char → Option (List Char)
  | 0, _ => none
  | fuel + 1, cs =>
    let cs := skipSpaces cs
    let choice := cs.takeWhile isNameChar
    if isChoice choice then
      match skipSpaces (cs.dropWhile isNameChar) with
      | ')' :: rest => some rest
      | '|' :: rest => passChoices isChoice fuel rest
      | _ => none
    else none

def isName (cs : List Char) : Bool :=
  match cs with
  | c :: _ => isNameStart c && cs.all isNameChar
  | [] => false

/-- The words for the types of attributes that consist of tokens, longer words first. -/
def tokenTypes : List String :=
  ["IDREFS", "IDREF", "ID", "ENTITIES", "ENTITY", "NMTOKENS", "NMTOKEN"]

/-- Takes the type of an attribute, and whether its value consists of tokens. -/
def takeAttributeType (cs : List Char) : Option (Bool × List Char) :=
  match pass "CDATA" cs with
  | some rest => some (false, rest)
  | none =>
    match tokenTypes.findSome? fun word => pass word cs with
    | some rest => some (true, rest)
    | none =>
      match pass "NOTATION" cs with
      | some rest => do
        let rest ← pass "(" (← needSpaces rest)
        let rest ← passChoices isName (rest.length + 1) rest
        some (true, rest)
      | none => do
        let rest ← pass "(" cs
        let rest ← passChoices (fun t => !t.isEmpty) (rest.length + 1) rest
        some (true, rest)

/-- Takes the value of an element without the attribute, if there is to be one. -/
def takeFallback (d : Doctype) (cs : List Char) : Option (Option (List Char) × List Char) :=
  match (pass "#REQUIRED" cs).or (pass "#IMPLIED" cs) with
  | some rest => some (none, rest)
  | none => do
    let cs ← match pass "#FIXED" cs with
      | some rest => needSpaces rest
      | none => some cs
    let (written, rest) ← takeLiteral cs
    if written.contains '<' then none
    let value ← attributeValue d.known written
    some (some value, rest)

/-- Takes the declarations of the attributes of an element up to their end. -/
def takeRules (element : List Char) : Nat → Doctype → List Char → Option (Doctype × List Char)
  | 0, _, _ => none
  | fuel + 1, d, cs =>
    match passEnd cs with
    | some rest => some (d, rest)
    | none => do
      let (name, cs) ← takeName (← needSpaces cs)
      let (hasTokens, cs) ← takeAttributeType (← needSpaces cs)
      let (value, cs) ← takeFallback d (← needSpaces cs)
      let fallback := if hasTokens then value.map collapse else value
      takeRules element fuel (d.withRule { element, name, hasTokens, fallback }) cs

def takeDeclaration (d : Doctype) (cs : List Char) : Option (Doctype × List Char) :=
  match pass "<!ENTITY" cs with
  | some rest => takeEntity d rest
  | none =>
    match pass "<!ATTLIST" cs with
    | some rest => do
      let (element, rest) ← takeName (← needSpaces rest)
      takeRules element (rest.length + 1) d rest
    | none =>
      match pass "<!ELEMENT" cs with
      | some rest => do
        let (_, rest) ← takeName (← needSpaces rest)
        let rest ← passContentModel (← needSpaces rest)
        some (d, ← passEnd rest)
      | none =>
        match pass "<!NOTATION" cs with
        | some rest => do
          let (_, rest) ← takePlainName (← needSpaces rest)
          let rest ← passNotationId (← needSpaces rest)
          some (d, ← passEnd rest)
        | none =>
          match pass "<!--" cs with
          | some rest => (passComment rest).map fun rest => (d, rest)
          | none => do
            let rest ← passInstruction (← pass "<?" cs)
            some (d, rest)

/-- Takes declarations up to the end of a text or up to a closing bracket. The text of a parameter
entity that stands between declarations is read in its place. -/
def takeSubset : Nat → Doctype → List Char → Option (Doctype × List Char)
  | 0, _, _ => none
  | fuel + 1, d, cs =>
    match skipSpaces cs with
    | [] => some (d, [])
    | ']' :: rest => some (d, ']' :: rest)
    | '%' :: rest => do
      let (name, rest) ← takeName rest
      let rest ← pass ";" rest
      let d := { d with mayHaveMore := true }
      match d.parameters.lookup (String.ofList name) with
      | some (.internal content) =>
        let (d, left) ← takeSubset fuel d content
        if left = [] then takeSubset fuel d rest else none
      | some _ => takeSubset fuel d rest
      | none => if d.isStandalone then none else takeSubset fuel d rest
    | cs => do
      let (d, rest) ← takeDeclaration d cs
      takeSubset fuel d rest

/-- Takes the declarations of a document after their opening mark. -/
def takeDoctype (isStandalone : Bool) (cs : List Char) : Option (Doctype × List Char) := do
  let (_, cs) ← takeName (← needSpaces cs)
  let (mayHaveMore, cs) :=
    match (needSpaces cs).bind takeExternalId with
    | some (_, rest) => (true, rest)
    | none => (false, cs)
  let d := { Doctype.empty isStandalone with mayHaveMore }
  match skipSpaces cs with
  | '>' :: rest => some (d, rest)
  | '[' :: rest =>
    let (d, rest) ← takeSubset (rest.length + 1) d rest
    let rest ← passEnd (← pass "]" rest)
    some (d, rest)
  | _ => none

end Deposit.Xml
