import Deposit.Codec.Bzip2.Encoder

set_option autoImplicit false
set_option relaxedAutoImplicit false

/-!
Reading the bzip2 format: blocks with any number of code tables and codes of any length.
-/

namespace Deposit.Codec.Bzip2

/-- The bytes in use, from the bits of the ranges in use. -/
def letters? (bits : List Bool) : Option (Bytes × List Bool) := do
  let (_, rest) ← Bits.read? 16 bits
  let ranges := ((bits.take 16).zipIdx.filter (·.1)).map (·.2)
  ranges.foldlM (fun (s : Bytes × List Bool) r => do
    let (_, rest) ← Bits.read? 16 s.2
    let used := ((s.2.take 16).zipIdx.filter (·.1)).map fun p => UInt8.ofNat (16 * r + p.2)
    pure (s.1 ++ used, rest)) ([], rest)

def unary? : List Bool → Option (Nat × List Bool)
  | [] => none
  | false :: rest => some (0, rest)
  | true :: rest => (unary? rest).map fun p => (p.1 + 1, p.2)

/-- Choices of tables, each given by its place in a list in which it then moves to the front. -/
def selectors? : Nat → List Nat → List Bool → Option (List Nat × List Bool)
  | 0, _, bits => some ([], bits)
  | n + 1, front, bits => do
    let (place, bits) ← unary? bits
    let table ← front[place]?
    let (more, bits) ← selectors? n (table :: front.erase table) bits
    pure (table :: more, bits)

def correctionLimit : Nat := 64

/-- A code length, corrected up or down until a zero bit. -/
def length? : Nat → Nat → List Bool → Option (Nat × List Bool)
  | 0, _, _ => none
  | _ + 1, width, false :: bits => some (width, bits)
  | fuel + 1, width, true :: false :: bits => length? fuel (width + 1) bits
  | fuel + 1, width, true :: true :: bits => length? fuel (width - 1) bits
  | _ + 1, _, _ => none

def lengths? : Nat → Nat → List Bool → Option (List Nat × List Bool)
  | 0, _, bits => some ([], bits)
  | n + 1, width, bits => do
    let (width, bits) ← length? correctionLimit width bits
    let (more, bits) ← lengths? n width bits
    pure (width :: more, bits)

/-- A code table: for each length, the first code of that length and the symbols that have it. -/
abbrev Table := List (Nat × Array Nat)

/-- The table of some code lengths: codes are given out by length, then by symbol. -/
def tableOf (widths : List Nat) : Table :=
  ((List.range 20).foldl (fun (s : Table × Nat) i =>
    let here := (widths.zipIdx.filter (·.1 = i + 1)).map (·.2)
    let first := 2 * s.2
    (s.1 ++ [(first, here.toArray)], first + here.length)) ([], 0)).1

/-- Reads a symbol, longer codes after shorter ones. -/
def symbol? (code : Nat) : Table → List Bool → Option (Nat × List Bool)
  | [], _ => none
  | _, [] => none
  | (first, here) :: longer, b :: bits =>
    let code := 2 * code + b.toNat
    if first ≤ code then
      match here[code - first]? with
      | some s => some (s, bits)
      | none => symbol? code longer bits
    else symbol? code longer bits

def tables? (count : Nat) : Nat → List Bool → Option (List Table × List Bool)
  | 0, bits => some ([], bits)
  | n + 1, bits => do
    let (start, bits) ← Bits.read? 5 bits
    let (widths, bits) ← lengths? count start bits
    let (more, bits) ← tables? count n bits
    pure (tableOf widths :: more, bits)

/-- Reads symbols up to the last one of a block, those read so far in reverse. -/
def block? (tables : Array Table) (ending : Nat) :
    Nat → Nat → List Nat → List Nat → List Bool → Option (List Nat × List Bool)
  | 0, _, _, _, _ => none
  | fuel + 1, left, chosen, done, bits =>
    match left, chosen with
    | 0, [] => none
    | 0, _ :: chosen => block? tables ending fuel groupSize chosen done bits
    | left + 1, chosen => do
      let table ← tables[chosen.headD 0]?
      let (s, bits) ← symbol? 0 table bits
      if s = ending then pure (done.reverse, bits)
      else block? tables ending fuel left chosen (s :: done) bits

/-- The content of a block after its mark, its check, and what follows. -/
def content? (bits : List Bool) : Option (Bytes × UInt32 × List Bool) := do
  let (check, bits) ← Bits.read? 32 bits
  let (_, bits) ← Bits.read? 1 bits
  let (place, bits) ← Bits.read? 24 bits
  let (letters, bits) ← letters? bits
  let (count, bits) ← Bits.read? 3 bits
  let (groups, bits) ← Bits.read? 15 bits
  let (chosen, bits) ← selectors? groups (List.range count) bits
  let (tables, bits) ← tables? (letters.length + 2) count bits
  let (ss, bits) ←
    block? tables.toArray (letters.length + 1) (2 * bits.length + 2) groupSize chosen [] bits
  let content := restore (unrotate (bytesOf letters ss) place)
  if (crc32High content).toNat = check then pure (content, UInt32.ofNat check, bits) else none

/-- Reads blocks up to the end of the stream, their contents so far in reverse. -/
def blocks? : Nat → UInt32 → List Bytes → List Bool → Option Bytes
  | 0, _, _, _ => none
  | fuel + 1, check, done, bits =>
    match Bits.read? 48 bits with
    | none => none
    | some (mark, bits) =>
      if mark = blockMark then
        match content? bits with
        | some (content, own, bits) => blocks? fuel (combine check own) (content :: done) bits
        | none => none
      else if mark = endMark then
        match Bits.read? 32 bits with
        | some (all, _) => if all = check.toNat then some done.reverse.flatten else none
        | none => none
      else none

/-- The content of bytes in the bzip2 format. -/
def decode (bs : Bytes) : Option Bytes :=
  if bs.take 4 = header then
    let bits := Bits.ofBytes (bs.drop 4)
    blocks? (bits.length + 1) 0 [] bits
  else none

end Deposit.Codec.Bzip2
