import Deposit.Archive.Tar.Writer
import Deposit.Proofs.Digest.Tally

set_option autoImplicit false
set_option relaxedAutoImplicit false

/-!
What a reader has counted and what its stream still holds make up the content together, however the
source cuts its reads. A copy that ends without a fault has therefore taken all bytes it claims, and
the tally covers the same bytes.
-/

namespace Deposit

namespace Stream

private theorem length_le_of_read {s t : Stream} {asked : Nat} {piece : Bytes}
    (h : s.read asked = .ok (piece, t)) : piece.length ≤ asked := by
  unfold read at h
  split at h
  · simp at h
  · simp only [Except.ok.injEq, Prod.mk.injEq] at h
    obtain ⟨rfl, -⟩ := h
    simp only [List.length_take, Source.served]
    omega

theorem rest_eq_nil_of_read {s t : Stream} {asked : Nat} (h : s.read asked = .ok ([], t))
    (ha : 0 < asked) : s.rest = [] := by
  unfold read at h
  split at h
  · simp at h
  · simp only [Except.ok.injEq, Prod.mk.injEq, List.take_eq_nil_iff, Source.served] at h
    obtain ⟨hs | hs, -⟩ := h
    · omega
    · exact hs

end Stream

namespace Reader

/-- A reader that has read a part of a content, counted under some algorithms. -/
structure Took (r : Reader) (algorithms : List Digest.Algorithm) (content done : Bytes) : Prop where
  tally_eq : r.tally = (Digest.Tally.start algorithms).update done
  append_rest : done ++ r.stream.rest = content

variable {r s : Reader} {algorithms : List Digest.Algorithm} {content done : Bytes}

theorem took_start (algorithms : List Digest.Algorithm) (source : Source) :
    (start algorithms source.open).Took algorithms source.bytes [] where
  tally_eq := by simp [start]
  append_rest := rfl

theorem read_eq_ok {asked : Nat} {piece : Bytes} (h : r.read asked = .ok (piece, s)) :
    r.stream.read asked = .ok (piece, s.stream) ∧ s.tally = r.tally.update piece := by
  cases hr : r.stream.read asked with
  | error fault => simp [read, hr, bind, Except.bind] at h
  | ok next =>
    obtain ⟨p, t⟩ := next
    simp only [read, hr, bind, Except.bind, pure, Except.pure, Except.ok.injEq,
      Prod.mk.injEq] at h
    obtain ⟨rfl, rfl⟩ := h
    exact ⟨rfl, rfl⟩

theorem Took.read (h : r.Took algorithms content done) {asked : Nat} {piece : Bytes}
    (hr : r.read asked = .ok (piece, s)) : s.Took algorithms content (done ++ piece) where
  tally_eq := by
    rw [(read_eq_ok hr).2, h.tally_eq, Digest.Tally.update_update]
  append_rest := by
    rw [List.append_assoc, Stream.append_rest_of_read (read_eq_ok hr).1, h.append_rest]

theorem Took.all_of_read (h : r.Took algorithms content done) {asked : Nat}
    (hr : r.read asked = .ok ([], s)) (ha : 0 < asked) :
    done = content ∧ s.Took algorithms content content := by
  have hnil := Stream.rest_eq_nil_of_read (read_eq_ok hr).1 ha
  have hd : done = content := by
    rw [← h.append_rest, hnil, List.append_nil]
  refine ⟨hd, ?_⟩
  have hs := h.read hr
  rwa [List.append_nil, hd] at hs

theorem Took.count_eq (h : r.Took algorithms content content) : r.count = content.length := by
  rw [count, h.tally_eq, Digest.Tally.count_update_start]

theorem Took.describes (h : r.Took algorithms content content) :
    Digest.Describes algorithms r.digests content := by
  rw [digests, h.tally_eq]
  exact Digest.describes_digests algorithms content

end Reader

namespace Archive

variable {r : Reader} {algorithms : List Digest.Algorithm} {content done : Bytes}

theorem prefix_copyAll (output : Array UInt8) (r : Reader) :
    output.toList <+: (copyAll output r).writer.toList := by
  fun_induction copyAll output r with
  | case1 => exact List.prefix_rfl
  | case2 => exact List.prefix_rfl
  | case3 output r piece next _ _ ih =>
    refine List.IsPrefix.trans ?_ ih
    simp

theorem copyAll_append_rest (output : Array UInt8) (r : Reader) :
    (copyAll output r).writer.toList ++ (copyAll output r).reader.stream.rest =
      output.toList ++ r.stream.rest := by
  fun_induction copyAll output r with
  | case1 => rfl
  | case2 output r next hr =>
    have hrest := Stream.append_rest_of_read (Reader.read_eq_ok hr).1
    rw [List.nil_append] at hrest
    rw [hrest]
  | case3 output r piece next hr _ ih =>
    rw [ih, Array.toList_appendList, List.append_assoc,
      Stream.append_rest_of_read (Reader.read_eq_ok hr).1]

theorem copyAll_spec (h : r.Took algorithms content done) (output : Array UInt8)
    (hf : (copyAll output r).fault = none) :
    (copyAll output r).writer.toList = output.toList ++ r.stream.rest ∧
      (copyAll output r).reader.Took algorithms content content := by
  fun_induction copyAll output r generalizing done with
  | case1 => simp at hf
  | case2 output r next hr =>
    obtain ⟨hd, hs⟩ := h.all_of_read hr (by decide)
    have hnil : r.stream.rest = [] := by
      have happ := h.append_rest
      rw [hd] at happ
      simpa using happ
    exact ⟨by simp [hnil], hs⟩
  | case3 output r piece next hr hp ih =>
    obtain ⟨hw, hs⟩ := ih (h.read hr) hf
    refine ⟨?_, hs⟩
    rw [hw, Array.toList_appendList, List.append_assoc,
      Stream.append_rest_of_read (Reader.read_eq_ok hr).1]

namespace Tar

private theorem prefix_copyExactly (output : Array UInt8) (r : Reader) (size : Nat) :
    output.toList <+: (copyExactly output r size).writer.toList := by
  unfold copyExactly
  split
  · exact List.prefix_rfl
  · split
    · exact List.prefix_rfl
    · simp

private theorem copyExactly_spec (h : r.Took algorithms content done) {output : Array UInt8}
    {size : Nat} (hf : (copyExactly output r size).fault = none) :
    ∃ piece : Bytes, piece.length = size ∧
      (copyExactly output r size).writer.toList = output.toList ++ piece ∧
      (copyExactly output r size).reader.Took algorithms content (done ++ piece) := by
  unfold copyExactly at hf ⊢
  split at hf
  · simp at hf
  · rename_i piece next hr
    split at hf
    · simp at hf
    · rename_i hl
      have hle := Stream.length_le_of_read (Reader.read_eq_ok hr).1
      refine ⟨piece, by omega, ?_⟩
      simp only [if_neg hl, Array.toList_appendList, true_and]
      exact h.read hr

theorem prefix_copyPieces (n remainder : Nat) (output : Array UInt8) (r : Reader) :
    output.toList <+: (copyPieces n remainder output r).writer.toList := by
  fun_induction copyPieces n remainder output r with
  | case1 => exact List.prefix_rfl
  | case2 remainder output r => exact prefix_copyExactly output r _
  | case3 n remainder output r => exact prefix_copyExactly output r _
  | case4 n remainder output r step =>
    rename_i ih
    exact (prefix_copyExactly output r _).trans ih

theorem copyPieces_spec (h : r.Took algorithms content done) (n remainder : Nat)
    (output : Array UInt8) (hf : (copyPieces n remainder output r).fault = none) :
    ∃ bs : Bytes, bs.length = n * copySize + remainder ∧
      (copyPieces n remainder output r).writer.toList = output.toList ++ bs ∧
      (copyPieces n remainder output r).reader.Took algorithms content (done ++ bs) := by
  fun_induction copyPieces n remainder output r generalizing done with
  | case1 output r => exact ⟨[], by simp, by simp, by simpa using h⟩
  | case2 remainder output r =>
    obtain ⟨bs, hl, hw, hs⟩ := copyExactly_spec h hf
    exact ⟨bs, by omega, hw, hs⟩
  | case3 n remainder output r step fault =>
    rename_i hstep
    simp [hstep] at hf
  | case4 n remainder output r step hstep =>
    rename_i ih
    -- a full piece first, then what the rest of the pieces takes from there
    obtain ⟨piece, hl, hw, hs⟩ := copyExactly_spec h hstep
    obtain ⟨bs, hbs, hwriter, hreader⟩ := ih hs hf
    refine ⟨piece ++ bs, ?_, ?_, ?_⟩
    · rw [List.length_append, hl, hbs, Nat.succ_mul]
      omega
    · rw [hwriter, hw, List.append_assoc]
    · rwa [← List.append_assoc]

end Tar

end Archive

end Deposit
