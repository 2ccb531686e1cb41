import Deposit.Text.CaseFold

set_option autoImplicit false
set_option relaxedAutoImplicit false

/-!
Paths inside a package. A path is a sequence of segments between slashes; in normal form it has at
least one segment and none that is empty or leads elsewhere, so it cannot leave the package. Two
paths clash when, without regard to case, they are the same or one is a directory of the other.
-/

namespace Deposit.PackagePath

def segments (cs : List Char) : List (List Char) :=
  cs.splitOn '/'

def ofSegments (ss : List (List Char)) : List Char :=
  ['/'].intercalate ss

/-- Whether a segment names a file or a directory of its own. -/
def isUsable (s : List Char) : Bool :=
  !(s = [] || s = ['.'] || s = ['.', '.'])

def slash (c : Char) : Char :=
  if c = '\\' then '/' else c

def usableSegments (cs : List Char) : List (List Char) :=
  (segments (cs.map slash)).filter isUsable

/-- The normal form of a name, if any usable segment is left. -/
def normalize? (name : String) : Option String :=
  match usableSegments name.toList with
  | [] => none
  | s :: ss => some (String.ofList (ofSegments (s :: ss)))

/-- The beginnings of a list that are neither empty nor the whole list, the shortest first. -/
def properPrefixes {α : Type} : List α → List (List α)
  | [] => []
  | [_] => []
  | a :: b :: rest => [a] :: (properPrefixes (b :: rest)).map (a :: ·)

def parents (cs : List Char) : List (List Char) :=
  (properPrefixes (segments cs)).map ofSegments

def baseChars (cs : List Char) : List Char :=
  (cs.reverse.takeWhile (· ≠ '/')).reverse

/-- What stands up to the last slash, that slash included. -/
def dirChars (cs : List Char) : List Char :=
  (cs.reverse.dropWhile (· ≠ '/')).reverse

def baseName (path : String) : String :=
  String.ofList (baseChars path.toList)

/-- A segment before its extension, and the extension with its dot. Leading dots start none. -/
def splitSegment (s : List Char) : List Char × List Char :=
  match s.reverse.dropWhile (· ≠ '.') with
  | [] => (s, [])
  | _ :: stem =>
    if stem.all (· = '.') then (s, [])
    else (stem.reverse, '.' :: (s.reverse.takeWhile (· ≠ '.')).reverse)

/-- A path before its extension, and the extension of its last segment. -/
def splitExtension (cs : List Char) : List Char × List Char :=
  let (stem, extension) := splitSegment (baseChars cs)
  (dirChars cs ++ stem, extension)

/-- Two paths clash when their folded forms are equal or one is a directory of the other. -/
def Clash (p q : List Char) : Prop :=
  let a := segments (Text.caseFold p)
  let b := segments (Text.caseFold q)
  a <+: b ∨ b <+: a

instance (p q : List Char) : Decidable (Clash p q) :=
  inferInstanceAs (Decidable (_ ∨ _))

theorem Clash.symm {p q : List Char} (h : Clash p q) : Clash q p :=
  Or.symm h

theorem isUsable_of_mem_usableSegments {cs s : List Char} (h : s ∈ usableSegments cs) :
    isUsable s = true :=
  (List.mem_filter.1 h).2

theorem dirChars_append_baseChars (cs : List Char) : dirChars cs ++ baseChars cs = cs := by
  simp only [dirChars, baseChars, ← List.reverse_append]
  rw [List.takeWhile_append_dropWhile, List.reverse_reverse]

end Deposit.PackagePath
