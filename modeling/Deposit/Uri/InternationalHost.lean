import Deposit.Text.CaseFold

set_option autoImplicit false
set_option relaxedAutoImplicit false

/-!
Host names beyond ASCII. Each label of such a name is written in ASCII: its ASCII characters in
order, then the insertions that yield the others, as numbers of digits whose weights adapt to what
has been written before.
-/

namespace Deposit.Uri

/-- How much weight the next number is expected to have, given the last one, the length of the text
so far, and whether it was the first. -/
def adapt (delta length : Nat) (isFirst : Bool) : Nat :=
  let d := if isFirst then delta / 700 else delta / 2
  scale 0 (d + d / length) (d + d / length)
where
  /-- Divides until the number is small enough, which takes no more than `fuel` steps. -/
  scale (k d : Nat) : Nat → Nat
    | 0 => k + 36 * d / (d + 38)
    | fuel + 1 => if 455 < d then scale (k + 36) (d / 35) fuel else k + 36 * d / (d + 38)

/-- The letter or decimal digit of a value below 36. -/
def insertionDigit (n : Nat) : Char :=
  if n < 26 then Char.ofNat (97 + n) else Char.ofNat (22 + n)

/-- The digits of a number, each with a weight that depends on its place, from place `k` on. -/
def insertionDigits (bias : Nat) (k q : Nat) : Nat → List Char
  | 0 => []
  | fuel + 1 =>
    let t := if k ≤ bias then 1 else min 26 (k - bias)
    if q < t then [insertionDigit q]
    else
      insertionDigit (t + (q - t) % (36 - t)) ::
        insertionDigits bias (k + 36) ((q - t) / (36 - t)) fuel

/-- Where the writing of insertions stands: the number to be written next, the expected weight, the
characters written, whether none was inserted, and the digits in reverse. -/
structure Insertion where
  delta : Nat
  bias : Nat
  written : Nat
  isFirst : Bool
  digits : List Char

/-- Passes a character while one of code `n` is inserted wherever it occurs. -/
def Insertion.pass (n : Nat) (s : Insertion) (c : Char) : Insertion :=
  if c.toNat < n then { s with delta := s.delta + 1 }
  else if c.toNat = n then
    { delta := 0
      bias := adapt s.delta (s.written + 1) s.isFirst
      written := s.written + 1
      isFirst := false
      digits := (insertionDigits s.bias 36 s.delta (s.delta + 1)).reverse ++ s.digits }
  else s

/-- Inserts all characters of one code after the other, the lowest first. -/
def insertCodes (cs : List Char) (last : Nat) (s : Insertion) : List Nat → Insertion
  | [] => s
  | n :: ns =>
    let s := { s with delta := s.delta + (n - last) * (s.written + 1) }
    let s := cs.foldl (Insertion.pass n) s
    insertCodes cs (n + 1) { s with delta := s.delta + 1 } ns

def isAscii (c : Char) : Bool :=
  c.toNat < 0x80

def labelToAscii (cs : List Char) : List Char :=
  if cs.all isAscii then cs
  else
    let basic := cs.filter isAscii
    let codes := (((cs.filter fun c => !isAscii c).map Char.toNat).mergeSort (· ≤ ·)).eraseDups
    let s := insertCodes cs 128 ⟨0, 72, basic.length, true, []⟩ codes
    "xn--".toList ++ basic ++ (if basic.isEmpty then [] else ['-']) ++ s.digits.reverse

def isLabelEnd (c : Char) : Bool :=
  c = '.' || c = '\u3002' || c = '\uff0e' || c = '\uff61'

def labels (cs : List Char) : List (List Char) :=
  cs.splitOnP isLabelEnd

/-- The lower case of a character; the sharp s and the final sigma are in lower case already. -/
def lowerCase (c : Char) : Char :=
  match Text.CaseFold.ofChar c with
  | [d] => if c = '\u03c2' then c else d
  | _ => c

/-- Stretches of the numbers of symbols, and of characters that are forms of others. -/
def symbolStretches : List (Nat × Nat) :=
  [(0x80, 0xb6), (0xb8, 0xde), (0xf7, 0xf7), (0x2000, 0x2bff), (0x2e00, 0x2fff), (0x3000, 0x3004),
   (0x3008, 0x3029), (0x3200, 0x33ff), (0xe000, 0xfdff), (0xfe10, 0xffff), (0x1d400, 0x1d7ff),
   (0x1f000, 0x1faff), (0xe0000, 0x10ffff)]

def isLabelChar (c : Char) : Bool :=
  if isAscii c then c.isLower || c.isDigit || c = '-'
  else !symbolStretches.any fun s => s.1 ≤ c.toNat && c.toNat ≤ s.2

/-- Whether a label is sound before it is written in ASCII. -/
def isLabel (cs : List Char) : Bool :=
  cs.all isLabelChar && cs.head? ≠ some '-' && cs.getLast? ≠ some '-' &&
    (cs.drop 2).take 2 ≠ ['-', '-']

/-- The ASCII form of a host, if its labels are sound, and neither empty nor too long. -/
def hostToAscii? (cs : List Char) : Option (List Char) :=
  let given := labels (cs.map lowerCase)
  let proper := if given.getLast? = some [] then given.dropLast else given
  let isShort (l : List Char) : Bool := !l.isEmpty && (labelToAscii l).length ≤ 63
  if !proper.isEmpty && proper.all fun l => isLabel l && isShort l then
    some (['.'].intercalate (given.map labelToAscii))
  else none

end Deposit.Uri
