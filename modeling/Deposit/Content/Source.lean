import Deposit.Bytes
import Deposit.Content.Fault

set_option autoImplicit false
set_option relaxedAutoImplicit false

/-!
Sources of content and the streams that read them. A source holds bytes and decides how many of
them each read returns, at least one and never more than asked for while any are left; it may fail
at the first read after a certain number of bytes. A stream is a source with a position.
-/

namespace Deposit

/-- Bytes, the number that a read returns at an offset for a number asked for, and a fault with the
number of bytes before it. -/
structure Source where
  bytes : Bytes
  serve : Nat → Nat → Nat := fun _ asked => asked
  fault : Option (Nat × Fault) := none

/-- A source, the bytes not yet read and the number of those that were. -/
structure Stream where
  source : Source
  rest : Bytes
  position : Nat

namespace Source

/-- The source that serves full reads and never fails. -/
def ofBytes (bytes : Bytes) : Source where
  bytes := bytes

/-- The number of bytes returned for a positive number asked for. -/
def served (s : Source) (offset asked : Nat) : Nat :=
  min asked (max 1 (s.serve offset asked))

/-- A stream over all bytes of a source. -/
def «open» (s : Source) : Stream :=
  ⟨s, s.bytes, 0⟩

/-- A source that fails at no read. -/
def FaultFree (s : Source) : Prop :=
  s.fault = none

/-- A source that returns as many bytes as asked for while it has them. -/
def ServesFull (s : Source) : Prop :=
  ∀ offset asked, s.serve offset asked = asked

end Source

namespace Stream

/-- The fault of the next read, if its place has been reached. -/
def fault? (s : Stream) : Option Fault :=
  match s.source.fault with
  | some (after, fault) => if after ≤ s.position then some fault else none
  | none => none

/-- Reads at most a number of bytes. -/
def read (s : Stream) (asked : Nat) : Except Fault (Bytes × Stream) :=
  match s.fault? with
  | some fault => .error fault
  | none =>
    let piece := s.rest.take (s.source.served s.position asked)
    .ok (piece, { s with rest := s.rest.drop piece.length, position := s.position + piece.length })

/-- Reads as many bytes as one read for all of them returns. -/
def readAll (s : Stream) : Except Fault (Bytes × Stream) :=
  s.read s.rest.length

theorem append_rest_of_read {s t : Stream} {asked : Nat} {piece : Bytes}
    (h : s.read asked = .ok (piece, t)) : piece ++ t.rest = s.rest := by
  unfold read at h
  split at h
  · simp at h
  · simp only [Except.ok.injEq, Prod.mk.injEq] at h
    obtain ⟨rfl, rfl⟩ := h
    simp only [List.length_take]
    rcases Nat.le_total (s.source.served s.position asked) s.rest.length with hle | hle
    · rw [Nat.min_eq_left hle, List.take_append_drop]
    · rw [Nat.min_eq_right hle, List.take_of_length_le hle, List.drop_length, List.append_nil]

theorem length_rest_of_read {s t : Stream} {asked : Nat} {piece : Bytes}
    (h : s.read asked = .ok (piece, t)) (hp : piece ≠ []) : t.rest.length < s.rest.length := by
  rw [← append_rest_of_read h, List.length_append]
  have := List.length_pos_iff.2 hp
  omega

end Stream

end Deposit
