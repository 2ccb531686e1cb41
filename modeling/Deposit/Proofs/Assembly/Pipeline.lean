import Deposit.Assembly.Pipeline
import Deposit.Proofs.Archive.Writer

set_option autoImplicit false
set_option relaxedAutoImplicit false

/-!
Nothing is lost between the layers of a package: the compression has taken in exactly what has left
the archive, and the sink has counted and digested exactly what it keeps. This holds after every
entry, however it ends, and it is what makes the counters of the closed package those of its bytes.
-/

namespace Deposit

namespace Compressor

/-- A compression that has taken in some bytes and handed on others: all of them at once where
nothing is compressed, and none before the end otherwise. -/
def Took (c : Compressor) (taken handed : Bytes) : Prop :=
  (c.compression = .none ∧ handed = taken ∧ c.pending = []) ∨
    (c.compression ≠ .none ∧ handed = [] ∧ c.pending = taken)

theorem took_start (compression : Compression) : (start compression).Took [] [] := by
  by_cases h : compression = .none
  · exact Or.inl ⟨h, rfl, rfl⟩
  · exact Or.inr ⟨h, rfl, rfl⟩

@[simp] theorem compression_write (c : Compressor) (bytes : Bytes) :
    (c.write bytes).1.compression = c.compression := by
  unfold write
  split <;> rfl

variable {c : Compressor} {taken handed : Bytes}

theorem Took.write (h : c.Took taken handed) (bytes : Bytes) :
    (c.write bytes).1.Took (taken ++ bytes) (handed ++ (c.write bytes).2) := by
  rcases h with ⟨hc, rfl, hp⟩ | ⟨hc, rfl, rfl⟩
  · refine Or.inl ⟨by simp [hc], ?_, ?_⟩
    · simp [Compressor.write, hc]
    · simp [Compressor.write, hc, hp]
  · refine Or.inr ⟨by simp [hc], ?_, ?_⟩
    · simp [Compressor.write]
    · simp [Compressor.write]

private theorem Took.append_close (h : c.Took taken handed) :
    handed ++ c.close = c.compression.encode taken := by
  rcases h with ⟨hc, rfl, hp⟩ | ⟨-, rfl, rfl⟩
  · simp [Compressor.close, Compression.encode, hc, hp]
  · rfl

end Compressor

namespace Recorder

/-- A recorder whose tally covers exactly what it keeps. -/
def Counts (r : Recorder) (algorithms : List Digest.Algorithm) : Prop :=
  r.tally = (Digest.Tally.start algorithms).update r.output

private theorem counts_start (algorithms : List Digest.Algorithm) :
    (start algorithms).Counts algorithms :=
  (Digest.Tally.update_start_nil algorithms).symm

theorem Counts.write {r : Recorder} {algorithms : List Digest.Algorithm} (h : r.Counts algorithms)
    (bytes : Bytes) : (r.write bytes).Counts algorithms := by
  unfold Counts at h ⊢
  rw [Recorder.write, h, Digest.Tally.update_update]

theorem Counts.count_eq {r : Recorder} {algorithms : List Digest.Algorithm}
    (h : r.Counts algorithms) : r.tally.count = r.output.length := by
  rw [h, Digest.Tally.count_update_start]

theorem Counts.describes {r : Recorder} {algorithms : List Digest.Algorithm}
    (h : r.Counts algorithms) :
    Digest.Describes algorithms r.tally.digests r.output := by
  rw [h]
  exact Digest.describes_digests algorithms r.output

end Recorder

namespace Pipeline

/-- Layers of which the compression has taken in some bytes, and no others. -/
structure Passed (p : Pipeline) (algorithms : List Digest.Algorithm) (bytes : Bytes) : Prop where
  taken_eq : p.taken = bytes.length
  took : p.compressor.Took bytes p.sink.output
  counts : p.sink.Counts algorithms

/-- Layers that hold nothing back but what each of them has to. -/
def Sound (p : Pipeline) (algorithms : List Digest.Algorithm) : Prop :=
  p.Passed algorithms p.writer.written

variable {p : Pipeline} {algorithms : List Digest.Algorithm} {bytes : Bytes}

theorem Passed.pass (h : p.Passed algorithms bytes) (hw : bytes <+: p.writer.written) :
    p.pass.Sound algorithms := by
  obtain ⟨piece, hpiece⟩ := hw
  have hdrop : p.writer.written.drop p.taken = piece := by
    rw [← hpiece, h.taken_eq, List.drop_left]
  have htook := h.took.write piece
  rw [hpiece] at htook
  refine ⟨?_, ?_, ?_⟩
  · simp only [Pipeline.pass, hdrop]
    rw [h.taken_eq, ← hpiece, List.length_append]
  · simp only [Pipeline.pass, hdrop]
    exact htook
  · simp only [Pipeline.pass, hdrop]
    exact h.counts.write _

private theorem written_start (archive : ArchiveFormat) :
    (Archive.Writer.start archive).written = [] := by
  cases archive <;> rfl

theorem writer_start (archive : ArchiveFormat) (compression : Compression)
    (algorithms : List Digest.Algorithm) :
    (start archive compression algorithms).writer = .start archive :=
  Archive.Writer.above_eq_start archive _

theorem sound_start (archive : ArchiveFormat) (compression : Compression)
    (algorithms : List Digest.Algorithm) :
    (start archive compression algorithms).Sound algorithms where
  taken_eq := by
    rw [writer_start, written_start]
    rfl
  took := by
    rw [writer_start, written_start]
    exact Compressor.took_start compression
  counts := Recorder.counts_start algorithms

theorem Sound.add (h : p.Sound algorithms) (path : String) (r : Reader) (size : Option Int) :
    (p.add path r size).writer.Sound algorithms := by
  -- only the archive has moved on, so the layers below have passed what it had written before
  have hpassed : ({ p with writer := (p.writer.add path r size).writer } : Pipeline).Passed
      algorithms p.writer.written := ⟨h.taken_eq, h.took, h.counts⟩
  exact hpassed.pass (p.writer.written_prefix_add path r size)

@[simp] theorem compression_pass (p : Pipeline) :
    p.pass.compressor.compression = p.compressor.compression :=
  Compressor.compression_write _ _

@[simp] theorem compression_add (p : Pipeline) (path : String) (r : Reader) (size : Option Int) :
    (p.add path r size).writer.compressor.compression = p.compressor.compression :=
  compression_pass _

@[simp] theorem writer_add (p : Pipeline) (path : String) (r : Reader) (size : Option Int) :
    (p.add path r size).writer.writer = (p.writer.add path r size).writer := rfl

/-- The bytes of a closed package are the compressed form of the closed archive, and its counters
are those of these bytes. -/
theorem Sound.close (h : p.Sound algorithms) :
    p.close.sink.output = p.compressor.compression.encode p.writer.close.written ∧
      p.close.sink.Counts algorithms := by
  have hpassed : ({ p with writer := p.writer.close } : Pipeline).Passed algorithms
      p.writer.written := ⟨h.taken_eq, h.took, h.counts⟩
  have hsound := hpassed.pass p.writer.written_prefix_close
  refine ⟨?_, hsound.counts.write _⟩
  have hclose := hsound.took.append_close
  rw [compression_pass] at hclose
  exact hclose

end Pipeline

end Deposit
