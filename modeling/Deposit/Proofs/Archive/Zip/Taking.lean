import Deposit.Proofs.Archive.Splitting

set_option autoImplicit false
set_option relaxedAutoImplicit false

/-!
When a zip archive that is open takes an entry whose source fails at no read: if the size that is
declared of it is its own, and if the field for the length of a name can hold that of its name and
the widest field for a size that of its packed data. Its member then stands behind all others.
-/

namespace Deposit.Archive.Zip

/-- An entry whose name and packed data are not too long for the fields that give their lengths. -/
structure Fits (path : String) (content : Bytes) : Prop where
  name_le : (Bytes.ofText (cutName path)).length ≤ 65535
  packed_lt : (Codec.Deflate.encode content).length < wideLimit

theorem fits_of_lt {path : String} {content : Bytes}
    (hname : (Bytes.ofText (cutName path)).length ≤ 65535) (hsize : content.length < 2 ^ 63) :
    Fits path content := by
  refine ⟨hname, ?_⟩
  rw [Codec.Deflate.length_encode, Codec.Deflate.blockLimit, wideLimit]
  omega

/-- The member of a content whose local header stands at an offset. -/
def memberOf (name : String) (isWide : Bool) (offset : Nat) (content : Bytes) : Member where
  name := name
  isWide := isWide
  crc := (Codec.crc32 content).toNat
  packedSize := (Codec.Deflate.encode content).length
  size := content.length
  offset := offset

private theorem isWide_eq_false_iff {size : Option Int} :
    isWide size = false ↔ ∃ n, size = some n ∧ n * 21 ≤ (sizeLimit : Int) * 20 := by
  cases size <;> simp [isWide]

theorem isWide_eq_true_iff {size : Option Int} :
    isWide size = true ↔ ∀ n, size = some n → (sizeLimit : Int) * 20 < n * 21 := by
  cases size <;> simp [isWide]

/-- Where numbers of 32 bits are chosen for a declared size, the packed data do not exceed them: the
part of a twentieth is more than the marks of the blocks take. -/
theorem length_encode_le_of_narrow {size : Option Int} {content : Bytes}
    (hright : ∀ n, size = some n → n = content.length) (hnarrow : isWide size = false) :
    (Codec.Deflate.encode content).length ≤ sizeLimit := by
  obtain ⟨n, hsize, hle⟩ := isWide_eq_false_iff.1 hnarrow
  have hn := hright n hsize
  rw [Codec.Deflate.length_encode, Codec.Deflate.blockLimit]
  rw [sizeLimit] at hle ⊢
  omega

private theorem hugeSize?_eq_none {size : Option Int} {content : Bytes}
    (hright : ∀ n, size = some n → n = content.length)
    (hpacked : (Codec.Deflate.encode content).length < wideLimit) : hugeSize? size = none := by
  cases size with
  | none => rfl
  | some n =>
    have hn := hright n rfl
    have hlength := Codec.Deflate.length_lt_encode content
    have hsmall : n.natAbs < Nat.pow 2 1024 - Nat.pow 2 970 := by
      have hlimit : wideLimit < Nat.pow 2 1024 - Nat.pow 2 970 := by decide +kernel
      omega
    rw [hugeSize?, if_neg (Nat.not_le_of_lt hsmall)]

namespace Writer

variable {w : Writer} {r : Reader} {algorithms : List Digest.Algorithm} {content : Bytes}
  {path : String} {size : Option Int}

private theorem finish_of_fits (hfixed : w.movable = none) (name : String) {isWide : Bool}
    (offset : Nat) (hnarrow : isWide = false → (Codec.Deflate.encode content).length ≤ sizeLimit)
    (hpacked : (Codec.Deflate.encode content).length < wideLimit) :
    w.finish name isWide offset content =
      ({ w with
          output := w.output ++ Codec.Deflate.encode content ++
            descriptor (memberOf name isWide offset content)
          members := w.members ++ [memberOf name isWide offset content]
          directory := (w.output ++ Codec.Deflate.encode content ++
            descriptor (memberOf name isWide offset content)).size }, none) := by
  have hlength := Codec.Deflate.length_lt_encode content
  have hsize : ¬ (!isWide && sizeLimit < content.length) = true := by
    simp only [Bool.and_eq_true, Bool.not_eq_true', decide_eq_true_eq, not_and]
    intro hw
    have := hnarrow hw
    omega
  have hencoded : ¬ (!isWide && sizeLimit < (Codec.Deflate.encode content).length) = true := by
    simp only [Bool.and_eq_true, Bool.not_eq_true', decide_eq_true_eq, not_and]
    intro hw
    exact Nat.not_lt_of_le (hnarrow hw)
  have hwide : ¬ (wideLimit ≤ content.length ||
      wideLimit ≤ (Codec.Deflate.encode content).length) = true := by
    simp only [Bool.or_eq_true, decide_eq_true_eq]
    omega
  have hseek : seekFault? { w with output := w.output ++ Codec.Deflate.encode content } offset =
      none := by
    rw [seekFault?, hfixed, Option.bind_none]
  unfold finish
  simp only [if_neg hsize, if_neg hencoded, if_neg hwide, hseek]
  rfl

private theorem packed_lt_of_finish {name : String} {isWide : Bool} {offset : Nat}
    (hf : (w.finish name isWide offset content).2 = none) :
    (Codec.Deflate.encode content).length < wideLimit := by
  by_contra hlong
  have hwide : (wideLimit ≤ content.length ||
      wideLimit ≤ (Codec.Deflate.encode content).length) = true := by
    simp only [Bool.or_eq_true, decide_eq_true_eq]
    omega
  unfold finish at hf
  simp only [if_pos hwide] at hf
  split at hf
  · cases hf
  · split at hf <;> cases hf

theorem right_of_add (hr : r.Took algorithms content []) (hf : (w.add path r size).fault = none) :
    (∀ n, size = some n → n = content.length) ∧ Fits path content := by
  unfold add at hf
  split at hf
  · cases hf
  · split at hf
    · cases hf
    · dsimp only at hf
      split at hf
      · cases hf
      · rename_i hname
        simp only [Option.or_eq_none_iff] at hf
        obtain ⟨hlate, hcopied, hcount⟩ := hf
        obtain ⟨hbytes, htook⟩ := copyAll_spec hr #[] hcopied
        have hall : (copyAll #[] r).writer.toList = content := by
          rw [hbytes, ← hr.append_rest]
        rw [hall] at hlate
        rw [sizeFault?_eq_none_iff, htook.count_eq] at hcount
        exact ⟨hcount, length_le_of_headerFault? hname, packed_lt_of_finish hlate⟩

/-- An open archive takes an entry of its declared size that fits, and its member then stands behind
all others. -/
theorem add_of_fits (hopen : w.IsOpen) (hr : r.Took algorithms content [])
    (hfree : r.stream.source.FaultFree) (hright : ∀ n, size = some n → n = content.length)
    (hfits : Fits path content) :
    let m := memberOf (cutName path) (isWide size) w.output.size content
    let output := w.output ++ localHeader m.name m.isWide ++ Codec.Deflate.encode content ++
      descriptor m
    (w.add path r size).writer =
        { w with output, members := w.members ++ [m], directory := output.size } ∧
      (w.add path r size).fault = none := by
  obtain ⟨hcopied, -⟩ := copyAll_of_faultFree #[] hfree
  obtain ⟨hbytes, htook⟩ := copyAll_spec hr #[] hcopied
  have hall : (copyAll #[] r).writer.toList = content := by
    rw [hbytes, ← hr.append_rest]
  have hcount : sizeFault? path (copyAll #[] r).reader size = none := by
    rw [sizeFault?_eq_none_iff, htook.count_eq]
    exact hright
  have hclosed : ¬ w.closed = true := by simp [hopen.closed_eq]
  have hheader : w.headerFault? (cutName path) size = none :=
    (headerFault?_eq_none_iff hopen.movable_eq size).2 hfits.name_le
  have hnarrow := length_encode_le_of_narrow hright
  unfold add
  rw [if_neg hclosed]
  simp only [hugeSize?_eq_none hright hfits.packed_lt, hheader, header_eq hopen.movable_eq, hall]
  rw [finish_of_fits (by exact hopen.movable_eq) _ _ hnarrow hfits.packed_lt, hcopied, hcount]
  exact ⟨rfl, rfl⟩

/-- An open archive takes an entry exactly if the declared size, if there is one, is that of its
content, and if the entry fits. -/
theorem fault_add_eq_none_iff (hopen : w.IsOpen) (hr : r.Took algorithms content [])
    (hfree : r.stream.source.FaultFree) :
    (w.add path r size).fault = none ↔
      (∀ n, size = some n → n = content.length) ∧ Fits path content := by
  refine ⟨right_of_add hr, ?_⟩
  rintro ⟨hright, hfits⟩
  exact (add_of_fits hopen hr hfree hright hfits).2

end Writer

end Deposit.Archive.Zip
