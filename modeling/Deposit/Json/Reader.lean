import Deposit.Decimal.FloatText
import Deposit.Json.Value

set_option autoImplicit false
set_option relaxedAutoImplicit false

/-!
Reading JSON text. The reader works on the characters that are left and their position; every fault
carries the position at which it was found, counted in characters. The words for infinities and for
an undefined number are accepted as numbers. For texts that others hand in there is a stricter
reading, in which values are nested to a moderate depth.
-/

namespace Deposit.Json

/-- What is wrong with a text. -/
inductive Problem where
  | value
  | name
  | colon
  | comma
  | unterminated
  | control
  | escape
  | unicodeEscape
  | loneHalf
  | excess
  | byteOrderMark
  | deepList
  | deepObject
  | longInteger (digits : Nat)
deriving DecidableEq, Repr

def Problem.text : Problem → String
  | .value => "Expecting value"
  | .name => "Expecting property name enclosed in double quotes"
  | .colon => "Expecting ':' delimiter"
  | .comma => "Expecting ',' delimiter"
  | .unterminated => "Unterminated string starting at"
  | .control => "Invalid control character at"
  | .escape => "Invalid \\escape"
  | .unicodeEscape => "Invalid \\uXXXX escape"
  | .loneHalf => "Escape for half a character"
  | .excess => "Extra data"
  | .byteOrderMark => "Unexpected UTF-8 BOM (decode using utf-8-sig)"
  | .deepList =>
    "maximum recursion depth exceeded while decoding a JSON array from a unicode string"
  | .deepObject =>
    "maximum recursion depth exceeded while decoding a JSON object from a unicode string"
  | .longInteger digits =>
    "Exceeds the limit (4300 digits) for integer string conversion: value has " ++
      Text.decimal digits ++ " digits; use sys.set_int_max_str_digits() to increase the limit"

/-- Whether the problem lies in the grammar, and not in the size of what was written, or in a string
that no text can be. -/
def Problem.isGrammatical : Problem → Bool
  | .deepList | .deepObject | .longInteger _ | .loneHalf => false
  | _ => true

/-- Whether the problem lies in the size of what was written. -/
def Problem.isOversized : Problem → Bool
  | .deepList | .deepObject | .longInteger _ => true
  | _ => false

/-- A problem and the number of characters before it. -/
structure Fault where
  problem : Problem
  position : Nat
deriving DecidableEq, Repr

/-- The characters that are left, and the position of the first of them. -/
structure Cursor where
  position : Nat
  rest : List Char

/-- How deep values are nested at most when they are read from the top of a program. What calls the
reader from further inside leaves it less. -/
def depthLimit : Nat := 990

/-- The longest integer that is read, in digits. -/
def integerLimit : Nat := 4300

def isSpace (c : Char) : Bool :=
  c = ' ' || c = '\t' || c = '\n' || c = '\r'

def skip (position : Nat) : List Char → Cursor
  | [] => ⟨position, []⟩
  | c :: cs => if isSpace c then skip (position + 1) cs else ⟨position, c :: cs⟩

def hexQuad? (cs : List Char) : Option Nat :=
  if cs.length = 4 then cs.foldlM (fun n c => (Text.hexValue? c).map (n * 16 + ·)) 0 else none

def escaped? : Char → Option Char
  | '"' => some '"'
  | '\\' => some '\\'
  | '/' => some '/'
  | 'b' => some '\x08'
  | 'f' => some '\x0c'
  | 'n' => some '\n'
  | 'r' => some '\r'
  | 't' => some '\t'
  | _ => none

/-- Reads the low half of a surrogate pair, when a complete escape stands for one. -/
def lowHalf? : List Char → Except Unit (Option Nat)
  | '\\' :: 'u' :: cs =>
    if (cs.drop 4).isEmpty then .ok none
    else match hexQuad? (cs.take 4) with
      | none => .error ()
      | some n => .ok (if 0xdc00 ≤ n ∧ n < 0xe000 then some n else none)
  | _ => .ok none

/-- Reads a string after its opening mark, which stands at `start`. An escape for half a character
that the other half does not follow ends the reading, since no text holds it. -/
def stringFrom (start : Nat) (read : List Char) (position : Nat) :
    List Char → Except Fault (String × Cursor)
  | [] => .error ⟨.unterminated, start⟩
  | '"' :: cs => .ok (String.ofList read.reverse, ⟨position + 1, cs⟩)
  | '\\' :: cs =>
    match cs with
    | [] => .error ⟨.unterminated, start⟩
    | 'u' :: cs =>
      if (cs.drop 4).isEmpty then .error ⟨.unicodeEscape, position + 1⟩
      else match hexQuad? (cs.take 4) with
        | none => .error ⟨.unicodeEscape, position + 1⟩
        | some n =>
          if 0xd800 ≤ n ∧ n < 0xdc00 then
            match lowHalf? (cs.drop 4) with
            | .error () => .error ⟨.unicodeEscape, position + 7⟩
            | .ok (some m) =>
              let c := Char.ofNat (0x10000 + (n - 0xd800) * 0x400 + (m - 0xdc00))
              stringFrom start (c :: read) (position + 12) (cs.drop 10)
            | .ok none => .error ⟨.loneHalf, position⟩
          else if 0xdc00 ≤ n ∧ n < 0xe000 then .error ⟨.loneHalf, position⟩
          else stringFrom start (Char.ofNat n :: read) (position + 6) (cs.drop 4)
    | e :: cs =>
      match escaped? e with
      | some c => stringFrom start (c :: read) (position + 2) cs
      | none => .error ⟨.escape, position⟩
  | c :: cs =>
    if c.toNat < 0x20 then .error ⟨.control, position⟩
    else stringFrom start (c :: read) (position + 1) cs
termination_by cs => cs.length
decreasing_by all_goals (simp only [List.length_cons, List.length_drop]; omega)

/-- The digits of an integer: a zero alone, or digits that do not begin with one. -/
def wholePart : List Char → List Char
  | '0' :: _ => ['0']
  | cs => cs.takeWhile Char.isDigit

/-- The digits after a point, when there are any. -/
def fractionPart : List Char → List Char
  | '.' :: cs => cs.takeWhile Char.isDigit
  | _ => []

/-- The length and the value of an exponent, when one is complete. -/
def exponentPart : List Char → Option (Nat × Int)
  | e :: cs =>
    if e = 'e' ∨ e = 'E' then
      let signed := match cs with
        | '+' :: _ => true
        | '-' :: _ => true
        | _ => false
      let ds := (if signed then cs.drop 1 else cs).takeWhile Char.isDigit
      if ds.isEmpty then none
      else
        let n : Int := Text.ofDecimalDigits ds
        let value := match cs with
          | '-' :: _ => -n
          | _ => n
        some (ds.length + 1 + (if signed then 1 else 0), value)
    else none
  | [] => none

/-- Reads a number, if the characters begin with one. -/
def number? (c : Cursor) : Option (Except Fault (Json × Cursor)) :=
  let negative := match c.rest with
    | '-' :: _ => true
    | _ => false
  let unsigned := if negative then c.rest.drop 1 else c.rest
  let whole := wholePart unsigned
  if whole.isEmpty then none
  else
    let fraction := fractionPart (unsigned.drop whole.length)
    let pointed := if fraction.isEmpty then 0 else fraction.length + 1
    let power := exponentPart (unsigned.drop (whole.length + pointed))
    let used := (if negative then 1 else 0) + whole.length + pointed + (power.map (·.1)).getD 0
    let after : Cursor := ⟨c.position + used, c.rest.drop used⟩
    if pointed = 0 ∧ power.isNone then
      if integerLimit < whole.length then some (.error ⟨.longInteger whole.length, c.position⟩)
      else
        let n : Int := Text.ofDecimalDigits whole
        some (.ok (.int (if negative then -n else n), after))
    else
      let e := (power.map (·.2)).getD 0
      let x := Decimal.toFloat (Text.ofDecimalDigits (whole ++ fraction)) (e - fraction.length)
      some (.ok (.float (if negative then -x else x), after))

def words : List (List Char × Json) :=
  [(['n', 'u', 'l', 'l'], .null),
   (['t', 'r', 'u', 'e'], .bool true),
   (['f', 'a', 'l', 's', 'e'], .bool false),
   (['N', 'a', 'N'], .float (0.0 / 0.0)),
   (['I', 'n', 'f', 'i', 'n', 'i', 't', 'y'], .float (1.0 / 0.0)),
   (['-', 'I', 'n', 'f', 'i', 'n', 'i', 't', 'y'], .float (-(1.0 / 0.0)))]

def scalar (c : Cursor) : Except Fault (Json × Cursor) :=
  match words.find? fun w => w.1.isPrefixOf c.rest with
  | some w => .ok (w.2, ⟨c.position + w.1.length, c.rest.drop w.1.length⟩)
  | none => (number? c).getD (.error ⟨.value, c.position⟩)

mutual

def valueFrom (limit : Nat) : Nat → Nat → Cursor → Except Fault (Json × Cursor)
  | 0, _, c => .error ⟨.value, c.position⟩
  | fuel + 1, depth, c =>
    match c.rest with
    | '"' :: cs => do
      let (s, c) ← stringFrom c.position [] (c.position + 1) cs
      pure (.text s, c)
    | '[' :: cs =>
      if limit ≤ depth then .error ⟨.deepList, c.position⟩
      else
        let c := skip (c.position + 1) cs
        match c.rest with
        | ']' :: cs => .ok (.list [], ⟨c.position + 1, cs⟩)
        | _ => itemsFrom limit fuel (depth + 1) [] c
    | '{' :: cs =>
      if limit ≤ depth then .error ⟨.deepObject, c.position⟩
      else
        let c := skip (c.position + 1) cs
        match c.rest with
        | '}' :: cs => .ok (.object [], ⟨c.position + 1, cs⟩)
        | _ => membersFrom limit fuel (depth + 1) [] c
    | _ => scalar c

/-- Reads the items of a list up to its end, after those already read in reverse. -/
def itemsFrom (limit : Nat) : Nat → Nat → List Json → Cursor → Except Fault (Json × Cursor)
  | 0, _, _, c => .error ⟨.value, c.position⟩
  | fuel + 1, depth, read, c => do
    let (x, c) ← valueFrom limit fuel depth c
    let c := skip c.position c.rest
    match c.rest with
    | ']' :: cs => pure (.list (x :: read).reverse, ⟨c.position + 1, cs⟩)
    | ',' :: cs => itemsFrom limit fuel depth (x :: read) (skip (c.position + 1) cs)
    | _ => throw ⟨.comma, c.position⟩

/-- Reads the members of an object up to its end, after those already read in reverse. -/
def membersFrom (limit : Nat) :
    Nat → Nat → List (String × Json) → Cursor → Except Fault (Json × Cursor)
  | 0, _, _, c => .error ⟨.value, c.position⟩
  | fuel + 1, depth, read, c =>
    match c.rest with
    | '"' :: cs => do
      let (name, c) ← stringFrom c.position [] (c.position + 1) cs
      let c := skip c.position c.rest
      match c.rest with
      | ':' :: cs => do
        let (x, c) ← valueFrom limit fuel depth (skip (c.position + 1) cs)
        let c := skip c.position c.rest
        match c.rest with
        | '}' :: cs =>
          pure (.object (objectOf ((name, x) :: read).reverse), ⟨c.position + 1, cs⟩)
        | ',' :: cs => membersFrom limit fuel depth ((name, x) :: read) (skip (c.position + 1) cs)
        | _ => throw ⟨.comma, c.position⟩
      | _ => throw ⟨.colon, c.position⟩
    | _ => throw ⟨.name, c.position⟩

end

/-- Reads a text whose values are nested up to a depth. -/
def readWithin (limit : Nat) (cs : List Char) : Except Fault Json :=
  match cs with
  | '\ufeff' :: _ => .error ⟨.byteOrderMark, 0⟩
  | _ => do
    let (x, c) ← valueFrom limit (2 * cs.length + 2) 0 (skip 0 cs)
    let c := skip c.position c.rest
    if c.rest.isEmpty then pure x else throw ⟨.excess, c.position⟩

def read (cs : List Char) : Except Fault Json :=
  readWithin depthLimit cs

/-- The message for a fault in a text: a grammatical one is followed by its line and column. -/
def Fault.message (f : Fault) (cs : List Char) : String :=
  if f.problem.isGrammatical then
    let before := cs.take f.position
    let line := before.count '\n' + 1
    let column := (before.reverse.takeWhile (· ≠ '\n')).length + 1
    f.problem.text ++ ": line " ++ Text.decimal line ++ " column " ++ Text.decimal column ++
      " (char " ++ Text.decimal f.position ++ ")"
  else f.problem.text

mutual

/-- How many lists and objects that hold something stand around the innermost value. -/
def nesting : Json → Nat
  | .list (x :: xs) => max (nesting x) (nestingOfItems xs) + 1
  | .object (m :: ms) => max (nesting m.2) (nestingOfMembers ms) + 1
  | _ => 0

def nestingOfItems : List Json → Nat
  | [] => 0
  | x :: xs => max (nesting x) (nestingOfItems xs)

def nestingOfMembers : List (String × Json) → Nat
  | [] => 0
  | m :: ms => max (nesting m.2) (nestingOfMembers ms)

end

def nestingLimit : Nat := 200

def readStrict? (cs : List Char) : Option Json :=
  match read cs with
  | .ok j => if nestingLimit < nesting j then none else some j
  | .error _ => none

end Deposit.Json
