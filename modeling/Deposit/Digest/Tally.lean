import Deposit.Digest.Algorithm

set_option autoImplicit false
set_option relaxedAutoImplicit false

/-!
Counting bytes and computing their digests while they pass by. A tally takes in bytes piece by
piece; what it reports depends only on all bytes together. Each algorithm is computed once, in the
order of first mention.
-/

namespace Deposit.Digest

/-- A digest on its way. -/
structure Running where
  algorithm : Algorithm
  hasher : Hasher algorithm.blockHash

/-- The bytes passed so far: their digests and their number. -/
structure Tally where
  running : List Running
  count : Nat

/-- The algorithms without repetition of a name, in the order of first mention. -/
def distinct : List Algorithm → List Algorithm
  | [] => []
  | a :: as => a :: (distinct as).filter (·.name ≠ a.name)

namespace Running

def start (a : Algorithm) : Running :=
  ⟨a, .start a.blockHash⟩

def update (r : Running) (bs : Bytes) : Running :=
  ⟨r.algorithm, r.hasher.update bs⟩

def report (r : Running) : String × String :=
  (r.algorithm.name, Bytes.toHex r.hasher.digest)

end Running

namespace Tally

def start (algorithms : List Algorithm) : Tally :=
  ⟨(distinct algorithms).map Running.start, 0⟩

def update (t : Tally) (bs : Bytes) : Tally :=
  ⟨t.running.map (·.update bs), t.count + bs.length⟩

def digests (t : Tally) : List (String × String) :=
  t.running.map Running.report

end Tally

end Deposit.Digest
