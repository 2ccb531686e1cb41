import Deposit.Text.Digits

set_option autoImplicit false
set_option relaxedAutoImplicit false

/-!
Locations in a file system, as text names them. Separators that repeat and segments that stay in
place do not count, segments that lead upwards are kept, and a text that begins with exactly two
separators keeps both.
-/

namespace Deposit

/-- A location: the separators it begins with and the segments after them. -/
structure Location where
  root : String
  parts : List String
deriving DecidableEq, Repr, Inhabited

namespace Location

/-- The separators that a text begins with, as far as they count. -/
def rootOf (cs : List Char) : String :=
  match cs.takeWhile (· = '/') with
  | [] => ""
  | ['/', '/'] => "//"
  | _ => "/"

def ofText (s : String) : Location where
  root := rootOf s.toList
  parts := ((s.toList.splitOn '/').filter fun p => !(p = [] || p = ['.'])).map String.ofList

def text (l : Location) : String :=
  if l.root = "" ∧ l.parts = [] then "." else l.root ++ "/".intercalate l.parts

def isAbsolute (l : Location) : Bool :=
  l.root != ""

/-- A location counted from another one, unless it is counted from the root itself. -/
def join (base l : Location) : Location :=
  if l.isAbsolute then l else ⟨base.root, base.parts ++ l.parts⟩

def child (base : Location) (s : String) : Location :=
  base.join (ofText s)

def parent (l : Location) : Location :=
  ⟨l.root, l.parts.dropLast⟩

/-- The last segment, if there is one. -/
def name (l : Location) : String :=
  l.parts.getLast?.getD ""

/-- The segments after the segments that lead upwards have been followed, the last one first. -/
def follow (parts : List String) : List String :=
  parts.foldl (fun done p => if p = ".." then done.drop 1 else p :: done) []

/-- The location counted from the root, with no segment that leads upwards. -/
def resolve (workingDirectory : List String) (l : Location) : Location :=
  let parts := if l.isAbsolute then l.parts else workingDirectory ++ l.parts
  ⟨"/", (follow parts).reverse⟩

end Location

end Deposit
