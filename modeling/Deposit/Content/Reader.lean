import Deposit.Content.Source
import Deposit.Digest.Tally

set_option autoImplicit false
set_option relaxedAutoImplicit false

/-!
Reading content with a tally of everything read, and writing bytes with a tally of everything
written.
-/

namespace Deposit

/-- A stream with the tally of what has been read from it. -/
structure Reader where
  stream : Stream
  tally : Digest.Tally

namespace Reader

/-- A reader over a stream from which nothing has been counted yet. -/
def start (algorithms : List Digest.Algorithm) (stream : Stream) : Reader :=
  ⟨stream, .start algorithms⟩

def read (r : Reader) (asked : Nat) : Except Fault (Bytes × Reader) := do
  let (piece, stream) ← r.stream.read asked
  pure (piece, ⟨stream, r.tally.update piece⟩)

/-- Reads as many bytes as one read for all of them returns, and counts them. -/
def readAll (r : Reader) : Except Fault (Bytes × Reader) :=
  r.read r.stream.rest.length

def count (r : Reader) : Nat :=
  r.tally.count

def digests (r : Reader) : List (String × String) :=
  r.tally.digests

theorem length_rest_of_read {r s : Reader} {asked : Nat} {piece : Bytes}
    (h : r.read asked = .ok (piece, s)) (hp : piece ≠ []) :
    s.stream.rest.length < r.stream.rest.length := by
  cases hr : r.stream.read asked with
  | error fault => simp [read, hr, bind, Except.bind] at h
  | ok next =>
    obtain ⟨p, t⟩ := next
    simp only [read, hr, bind, Except.bind, pure, Except.pure, Except.ok.injEq,
      Prod.mk.injEq] at h
    obtain ⟨rfl, rfl⟩ := h
    exact Stream.length_rest_of_read hr hp

end Reader

/-- Bytes written so far with their tally. -/
structure Recorder where
  output : Bytes
  tally : Digest.Tally

namespace Recorder

def start (algorithms : List Digest.Algorithm) : Recorder :=
  ⟨[], .start algorithms⟩

def write (r : Recorder) (bytes : Bytes) : Recorder :=
  ⟨r.output ++ bytes, r.tally.update bytes⟩

end Recorder

end Deposit
