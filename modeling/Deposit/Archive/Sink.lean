import Deposit.Content.Fault

set_option autoImplicit false
set_option relaxedAutoImplicit false

/-!
The streams that the bytes of an archive go to, by what they offer besides taking bytes in. Some say
where they are and let themselves be sent to a place; whoever writes to one of these may come back
to what it has written before.
-/

namespace Deposit.Archive

/-- A stream, and the stream below it that it hands its bytes on to. -/
inductive Sink where
  | recorder
  | uncompressed (below : Sink)
  | gzip (below : Sink)
  | bzip2 (below : Sink)
  /-- Offers nothing of the stream below but to take bytes in. -/
  | writeOnly (below : Sink)
deriving DecidableEq, Repr

namespace Sink

/-- Where a stream that has taken in some bytes says it is, if it can be asked. -/
def tell? : Sink → Nat → Option Nat
  | gzip _, taken | bzip2 _, taken => some taken
  | recorder, _ | uncompressed _, _ | writeOnly _, _ => none

/-- The fault of sending a stream from one place to another. What gzip has taken in it cannot take
back; the others go nowhere at all. -/
def seekFault? : Sink → (place target : Nat) → Option Fault
  | gzip _, place, target => if target < place then some (.archive .negativeSeek) else none
  | _, _, _ => some (.archive .unseekable)

/-- Whether a stream that has taken in nothing says where it is and goes there without a fault. -/
def isSeekable (sink : Sink) : Bool :=
  match sink.tell? 0 with
  | some place => (sink.seekFault? place place).isNone
  | none => false

end Sink

end Deposit.Archive
