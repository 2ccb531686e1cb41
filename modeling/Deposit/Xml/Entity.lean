import Deposit.Xml.Lexical

set_option autoImplicit false
set_option relaxedAutoImplicit false

/-!
Entities and the values of attributes. An entity that a document declares itself stands for text, in
which further entities may stand; in the value of an attribute all of them are replaced.
-/

namespace Deposit.Xml

/-- An entity: text of the document, text that lies elsewhere, or something that is no text. -/
inductive Entity where
  | internal (content : List Char)
  | external
  | unparsed
deriving DecidableEq, Repr

/-- The entities of a document, and whether there may be others that are declared elsewhere. -/
structure Entities where
  declared : List (String × Entity)
  mayHaveMore : Bool

namespace Entities

def none : Entities := ⟨[], false⟩

def find? (es : Entities) (name : String) : Option Entity :=
  es.declared.lookup name

end Entities

/-- The text of a piece, entities left as they are. -/
def Piece.text : Piece → List Char
  | .plain c => [c]
  | .numbered c => [c]
  | .entity name => '&' :: (name.toList ++ [';'])

def entityContent (value : List Char) : Option (List Char) :=
  if value.contains '%' then none else (pieces value).map fun ps => ps.flatMap Piece.text

/-- Text that grows as entities are replaced: what there is so far in reverse, and its cost. -/
structure Expansion where
  reversed : List Char
  cost : Nat

namespace Expansion

def limit : Nat := 1000000

/-- The cost of a reference, over that of what it stands for. -/
def referenceCost : Nat := 20

def push (x : Expansion) (c : Char) : Expansion :=
  ⟨c :: x.reversed, x.cost + 1⟩

/-- The text after a reference, if it is not too costly. -/
def charge (x : Expansion) : Option Expansion :=
  if limit < x.cost then none else some ⟨x.reversed, x.cost + referenceCost⟩

end Expansion

/-- Replaces a piece of an attribute value, given how the content of an entity is replaced. White
characters that stand for themselves become blanks in the value itself. -/
def expandPiece (es : Entities) (expandContent : List Char → Expansion → Option Expansion)
    (isOutermost : Bool) (x : Expansion) : Piece → Option Expansion
  | .plain c => some (x.push (if isOutermost && isSpace c then ' ' else c))
  | .numbered c => some (x.push c)
  | .entity name =>
    match predefined? name with
    | some c => some (x.push c)
    | none =>
      match es.find? name with
      | some (.internal content) => expandContent content x
      | some _ => none
      | none => if es.mayHaveMore then some x else none

/-- Replaces the pieces of an attribute value, entities nested to at most a given depth; no entity
may hold the beginning of a tag. -/
def expandPieces (es : Entities) :
    Nat → Bool → List Piece → Expansion → Option Expansion
  | 0, isOutermost, ps, x => ps.foldlM (expandPiece es (fun _ _ => none) isOutermost) x
  | depth + 1, isOutermost, ps, x =>
    let expandContent (content : List Char) (x : Expansion) : Option Expansion := do
      if content.contains '<' then none
      let inner ← pieces content
      expandPieces es depth false inner (← x.charge)
    ps.foldlM (expandPiece es expandContent isOutermost) x

def attributeValue (es : Entities) (written : List Char) : Option (List Char) := do
  let x ← expandPieces es (es.declared.length + 1) true (← pieces written) ⟨[], 0⟩
  some x.reversed.reverse

/-- A value that consists of tokens, with single blanks between them. -/
def collapse (value : List Char) : List Char :=
  [' '].intercalate ((value.splitOn ' ').filter fun t => !t.isEmpty)

end Deposit.Xml
