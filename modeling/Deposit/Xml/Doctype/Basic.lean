import Deposit.Xml.Entity
import Deposit.Xml.Lexical

set_option autoImplicit false
set_option relaxedAutoImplicit false

/-!
What a document declares before its root: entities, parameter entities, and attributes that elements
have without being given them. What the declaration of an element says about its content is only
seen to be written correctly.
-/

namespace Deposit.Xml

/-- A declared attribute: the element and the attribute as they are written, whether its value
consists of tokens, and the value of an element without it. -/
structure AttributeRule where
  element : List Char
  name : List Char
  hasTokens : Bool
  fallback : Option (List Char)
deriving DecidableEq, Repr

/-- The declarations of a document. -/
structure Doctype where
  entities : List (String × Entity)
  parameters : List (String × Entity)
  rules : List AttributeRule
  mayHaveMore : Bool
  isStandalone : Bool

namespace Doctype

def empty (isStandalone : Bool) : Doctype :=
  ⟨[], [], [], false, isStandalone⟩

/-- The entities as references find them: an undeclared one is a fault unless it may be declared
elsewhere. -/
def known (d : Doctype) : Entities :=
  ⟨d.entities, d.mayHaveMore && !d.isStandalone⟩

/-- The declarations with one more entity; the first one of a name counts. -/
def withEntity (d : Doctype) (name : String) (e : Entity) : Doctype :=
  { d with entities := d.entities ++ [(name, e)] }

/-- The declarations with one more parameter entity; the first one of a name counts. -/
def withParameter (d : Doctype) (name : String) (e : Entity) : Doctype :=
  { d with parameters := d.parameters ++ [(name, e)] }

def rule? (d : Doctype) (element name : List Char) : Option AttributeRule :=
  d.rules.find? fun r => r.element == element && r.name == name

/-- The declarations with one more rule; the first one for an attribute counts. -/
def withRule (d : Doctype) (r : AttributeRule) : Doctype :=
  if (d.rule? r.element r.name).isSome then d else { d with rules := d.rules ++ [r] }

/-- The attributes that an element has without being given them. -/
def defaults (d : Doctype) (element : List Char) : List (List Char × List Char) :=
  d.rules.filterMap fun r =>
    if r.element = element then r.fallback.map fun v => (r.name, v) else none

end Doctype

/-- Passes the mark for how often something occurs, if there is one. -/
def passOccurrence : List Char → List Char
  | '?' :: cs => cs
  | '*' :: cs => cs
  | '+' :: cs => cs
  | cs => cs

mutual

/-- Passes a name or a group, and how often it occurs. -/
def passParticle : Nat → List Char → Option (List Char)
  | 0, _ => none
  | fuel + 1, '(' :: cs => passGroup fuel none (skipSpaces cs)
  | _ + 1, cs => (takeName cs).map fun p => passOccurrence p.2

/-- Passes the particles of a group up to its end; all separators of a group are the same. -/
def passGroup : Nat → Option Char → List Char → Option (List Char)
  | 0, _, _ => none
  | fuel + 1, separator, cs => do
    let rest ← passParticle fuel cs
    match skipSpaces rest with
    | ')' :: rest => some (passOccurrence rest)
    | c :: rest =>
      if (c = ',' ∨ c = '|') ∧ (separator = none ∨ separator = some c) then
        passGroup fuel (some c) (skipSpaces rest)
      else none
    | [] => none

end

/-- Passes the names that may occur between text, up to the end of the group. -/
def passMixed : Nat → Bool → List Char → Option (List Char)
  | 0, _, _ => none
  | fuel + 1, hasNames, cs =>
    match skipSpaces cs with
    | ')' :: '*' :: rest => some rest
    | ')' :: rest => if hasNames then none else some rest
    | '|' :: rest => do
      let (_, rest) ← takeName (skipSpaces rest)
      passMixed fuel true rest
    | _ => none

def passContentModel (cs : List Char) : Option (List Char) :=
  (pass "EMPTY" cs).or <| (pass "ANY" cs).or <|
    match cs with
    | '(' :: rest =>
      match pass "#PCDATA" (skipSpaces rest) with
      | some rest => passMixed (rest.length + 1) false rest
      | none => passGroup (2 * rest.length + 2) none (skipSpaces rest)
    | _ => none

end Deposit.Xml
