import Deposit.Text.Digits
import Deposit.Xml.Tree

set_option autoImplicit false
set_option relaxedAutoImplicit false

/-!
The smallest parts of XML text: names, blanks, quoted literals, and the references that stand for
characters or for entities.
-/

namespace Deposit.Xml

def isInRanges (ranges : List (Nat × Nat)) (c : Char) : Bool :=
  ranges.any fun r => r.1 ≤ c.toNat && c.toNat ≤ r.2

/-- The characters that a name may begin with, colons aside. -/
def nameStartRanges : List (Nat × Nat) :=
  [(0x41, 0x5a), (0x5f, 0x5f), (0x61, 0x7a), (0xc0, 0xd6), (0xd8, 0xf6), (0xf8, 0x2ff),
   (0x370, 0x37d), (0x37f, 0x1fff), (0x200c, 0x200d), (0x2070, 0x218f), (0x2c00, 0x2fef),
   (0x3001, 0xd7ff), (0xf900, 0xfdcf), (0xfdf0, 0xfffd), (0x10000, 0xeffff)]

def nameMoreRanges : List (Nat × Nat) :=
  [(0x2d, 0x2e), (0x30, 0x39), (0xb7, 0xb7), (0x300, 0x36f), (0x203f, 0x2040)]

def isNameStart (c : Char) : Bool :=
  c = ':' || isInRanges nameStartRanges c

def isNameChar (c : Char) : Bool :=
  isNameStart c || isInRanges nameMoreRanges c

def isLocalName (cs : List Char) : Bool :=
  match cs with
  | c :: _ => isInRanges nameStartRanges c && cs.all fun c => isNameChar c && c != ':'
  | [] => false

/-- Whether a text is a qualified name: a local name, or two of them with a colon between. -/
def isQualifiedName (cs : List Char) : Bool :=
  match cs.splitOn ':' with
  | [base] => isLocalName base
  | [short, base] => isLocalName short && isLocalName base
  | _ => false

/-- Splits a qualified name at its colon; a name without one has the empty short form. -/
def splitName (cs : List Char) : String × String :=
  match cs.splitOn ':' with
  | [short, base] => (String.ofList short, String.ofList base)
  | _ => ("", String.ofList cs)

def takeName : List Char → Option (List Char × List Char)
  | [] => none
  | c :: cs =>
    if isNameStart c then some ((c :: cs).takeWhile isNameChar, (c :: cs).dropWhile isNameChar)
    else none

def takeQualifiedName (cs : List Char) : Option (List Char × List Char) := do
  let (name, rest) ← takeName cs
  if isQualifiedName name then some (name, rest) else none

def skipSpaces (cs : List Char) : List Char :=
  cs.dropWhile isSpace

/-- Passes blanks, of which there must be one. -/
def needSpaces : List Char → Option (List Char)
  | [] => none
  | c :: cs => if isSpace c then some (skipSpaces cs) else none

def pass (s : String) (cs : List Char) : Option (List Char) :=
  if s.toList.isPrefixOf cs then some (cs.drop s.length) else none

/-- Takes what stands before a mark, and passes the mark. -/
def takeUntil (mark : List Char) : List Char → Option (List Char × List Char)
  | [] => none
  | c :: cs =>
    if mark.isPrefixOf (c :: cs) then some ([], (c :: cs).drop mark.length)
    else (takeUntil mark cs).map fun p => (c :: p.1, p.2)

/-- Takes what stands between two quotation marks of one kind. -/
def takeLiteral : List Char → Option (List Char × List Char)
  | [] => none
  | q :: cs =>
    if q = '"' ∨ q = '\'' then
      match cs.dropWhile (· ≠ q) with
      | [] => none
      | _ :: rest => some (cs.takeWhile (· ≠ q), rest)
    else none

/-- A part of text with references: a character, given as itself or by its number, or an entity. -/
inductive Piece where
  | plain (c : Char)
  | numbered (c : Char)
  | entity (name : String)
deriving DecidableEq, Repr

def numberOf (base : Nat) (ds : List Char) : Option Nat :=
  if ds.isEmpty then none
  else ds.foldlM (fun n c =>
    match Text.hexValue? c with
    | some d => if d < base then some (n * base + d) else none
    | none => none) 0

/-- The character of a number, if documents may hold it. -/
def charOfNumber (n : Nat) : Option Char :=
  let c := Char.ofNat n
  if n.isValidChar ∧ isChar c then some c else none

def takeReference : List Char → Option (Piece × List Char)
  | '#' :: 'x' :: cs => do
    let (ds, rest) ← takeUntil [';'] cs
    let c ← charOfNumber (← numberOf 16 ds)
    some (.numbered c, rest)
  | '#' :: cs => do
    let (ds, rest) ← takeUntil [';'] cs
    let c ← charOfNumber (← numberOf 10 ds)
    some (.numbered c, rest)
  | cs => do
    let (name, rest) ← takeName cs
    let rest ← pass ";" rest
    some (.entity (String.ofList name), rest)

def pieces (cs : List Char) : Option (List Piece) :=
  match cs with
  | [] => some []
  | '&' :: cs =>
    match takeReference cs with
    | some (p, rest) =>
      if rest.length < cs.length then (pieces rest).map (p :: ·) else none
    | none => none
  | c :: cs => (pieces cs).map (.plain c :: ·)
termination_by cs.length
decreasing_by all_goals (simp only [List.length_cons]; omega)

def predefined? : String → Option Char
  | "lt" => some '<'
  | "gt" => some '>'
  | "amp" => some '&'
  | "apos" => some '\''
  | "quot" => some '"'
  | _ => none

end Deposit.Xml
