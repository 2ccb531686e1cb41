import Deposit.Proofs.Archive.Writer

set_option autoImplicit false
set_option relaxedAutoImplicit false

/-!
Where the faults of adding an entry come from. A writer meets the fault that the source of the
content was bound to raise, or it raises one of its own; and its own faults are of the system or of
values, unless the entry exceeds what a zip archive can express.
-/

namespace Deposit

/-- A source that raises a fault after some number of bytes. -/
def Source.Raises (s : Source) (fault : Fault) : Prop :=
  ∃ after, s.fault = some (after, fault)

namespace Stream

theorem raises_of_read {s : Stream} {asked : Nat} {fault : Fault}
    (h : s.read asked = .error fault) : s.source.Raises fault := by
  unfold read fault? at h
  cases hs : s.source.fault with
  | none => simp [hs] at h
  | some planted =>
    obtain ⟨after, f⟩ := planted
    by_cases hle : after ≤ s.position
    · simp only [hs, if_pos hle, Except.error.injEq] at h
      exact ⟨after, by rw [hs, h]⟩
    · simp [hs, if_neg hle] at h

theorem source_of_read {s t : Stream} {asked : Nat} {piece : Bytes}
    (h : s.read asked = .ok (piece, t)) : t.source = s.source := by
  unfold read at h
  split at h
  · simp at h
  · simp only [Except.ok.injEq, Prod.mk.injEq] at h
    rw [← h.2]

end Stream

namespace Reader

variable {r s : Reader} {asked : Nat}

theorem raises_of_read {fault : Fault} (h : r.read asked = .error fault) :
    r.stream.source.Raises fault := by
  cases hr : r.stream.read asked with
  | error f =>
    obtain rfl : f = fault := by simpa [read, hr, bind, Except.bind] using h
    exact Stream.raises_of_read hr
  | ok next => simp [read, hr, bind, Except.bind, pure, Except.pure] at h

theorem source_of_read {piece : Bytes} (h : r.read asked = .ok (piece, s)) :
    s.stream.source = r.stream.source :=
  Stream.source_of_read (read_eq_ok h).1

end Reader

namespace Archive

variable {r : Reader} {fault : Fault}

private theorem raises_of_copyAll {output : Array UInt8}
    (h : (copyAll output r).fault = some fault) :
    r.stream.source.Raises fault := by
  fun_induction copyAll output r with
  | case1 output r f hr =>
    obtain rfl : f = fault := Option.some.inj h
    exact Reader.raises_of_read hr
  | case2 => cases h
  | case3 output r piece next hr _ ih =>
    rw [← Reader.source_of_read hr]
    exact ih h

private theorem copied_prefix_rest (output : Array UInt8) (r : Reader) :
    ∃ piece, piece <+: r.stream.rest ∧
      (copyAll output r).writer.toList = output.toList ++ piece := by
  obtain ⟨piece, hpiece⟩ := prefix_copyAll output r
  have hrest := copyAll_append_rest output r
  rw [← hpiece, List.append_assoc] at hrest
  exact ⟨piece, ⟨_, List.append_cancel_left hrest⟩, hpiece.symm⟩

/-- A fault that an archive raises by itself, of the system or of values. -/
def IsOrdinary (fault : Fault) : Prop :=
  ∃ e : ArchiveFault, fault = .archive e ∧ e.family ≠ .other

private theorem isOrdinary_of_sizeFault? {path : String} {size : Option Int}
    (h : sizeFault? path r size = some fault) : IsOrdinary fault := by
  unfold sizeFault? at h
  split at h
  · split at h
    · cases h
    · exact ⟨_, (Option.some.inj h).symm, by simp [ArchiveFault.family]⟩
  · cases h

theorem sizeFault?_eq_none_iff {path : String} {size : Option Int} :
    sizeFault? path r size = none ↔ ∀ n, size = some n → n = r.count := by
  cases size with
  | none => simp [sizeFault?]
  | some n =>
    simp only [sizeFault?, ite_eq_left_iff, reduceCtorEq, imp_false, Decidable.not_not,
      Option.some.injEq, forall_eq']
    exact eq_comm

namespace Tar

theorem source_copyExactly (output : Array UInt8) (r : Reader) (size : Nat) :
    (copyExactly output r size).reader.stream.source = r.stream.source := by
  unfold copyExactly
  split
  · rfl
  · rename_i piece next hr
    split <;> exact Reader.source_of_read hr

private theorem fault_copyExactly {output : Array UInt8} {size : Nat}
    (h : (copyExactly output r size).fault = some fault) :
    r.stream.source.Raises fault ∨ IsOrdinary fault := by
  unfold copyExactly at h
  split at h
  · rename_i f hr
    obtain rfl : f = fault := Option.some.inj h
    exact Or.inl (Reader.raises_of_read hr)
  · split at h
    · exact Or.inr ⟨.endedEarly, (Option.some.inj h).symm, by decide⟩
    · cases h

private theorem source_copyPieces (n remainder : Nat) (output : Array UInt8) (r : Reader) :
    (copyPieces n remainder output r).reader.stream.source = r.stream.source := by
  fun_induction copyPieces n remainder output r with
  | case1 => rfl
  | case2 remainder output r => exact source_copyExactly output r _
  | case3 n remainder output r => exact source_copyExactly output r _
  | case4 n remainder output r step =>
    rename_i ih
    exact ih.trans (source_copyExactly output r _)

private theorem fault_copyPieces {n remainder : Nat} {output : Array UInt8}
    (h : (copyPieces n remainder output r).fault = some fault) :
    r.stream.source.Raises fault ∨ IsOrdinary fault := by
  fun_induction copyPieces n remainder output r with
  | case1 => cases h
  | case2 remainder output r => exact fault_copyExactly h
  | case3 n remainder output r => exact fault_copyExactly h
  | case4 n remainder output r step =>
    rename_i ih
    rw [← source_copyExactly output r copySize]
    exact ih h

namespace Writer

variable {w : Writer} {name : String}

theorem source_addSized (w : Writer) (name : String) (r : Reader) (size : Int) :
    (w.addSized name r size).reader.stream.source = r.stream.source := by
  unfold addSized
  split
  · rfl
  · split
    · rfl
    · simp only
      split <;> (split <;> first | rfl | exact source_copyPieces _ _ _ r)

private theorem fault_addSized {size : Int} (h : (w.addSized name r size).fault = some fault) :
    r.stream.source.Raises fault ∨ IsOrdinary fault := by
  unfold addSized at h
  split at h
  · exact Or.inr ⟨.tarClosed, (Option.some.inj h).symm, by decide⟩
  · split at h
    · exact Or.inr ⟨.fieldOverflow, (Option.some.inj h).symm, by decide⟩
    · simp only at h
      split at h
      · rename_i f hf
        obtain rfl : f = fault := Option.some.inj h
        split at hf
        · cases hf
        · exact fault_copyPieces hf
      · cases h

theorem fault_add {size : Option Int} (h : (w.add name r size).fault = some fault) :
    r.stream.source.Raises fault ∨ IsOrdinary fault := by
  cases size with
  | some n =>
    simp only [add, addDeclared] at h
    cases hsized : (w.addSized name r n).fault with
    | some f =>
      simp only [hsized] at h
      exact fault_addSized (hsized.trans h)
    | none =>
      simp only [hsized] at h
      split at h
      · rename_i f hr
        obtain rfl : f = fault := Option.some.inj h
        rw [← source_addSized w name r n]
        exact Or.inl (Reader.raises_of_read hr)
      · split at h
        · cases h
        · exact Or.inr ⟨_, (Option.some.inj h).symm, by simp [ArchiveFault.family]⟩
  | none =>
    simp only [add, addSpooled] at h
    split at h
    · rename_i f hf
      obtain rfl : f = fault := Option.some.inj h
      exact Or.inl (raises_of_copyAll hf)
    · -- what is replayed comes from memory and raises nothing
      rcases fault_addSized h with ⟨after, hreplay⟩ | hown
      · cases hreplay
      · exact Or.inr hown

end Writer

end Tar

theorem Raw.Writer.fault_add {w : Raw.Writer} {path : String} {size : Option Int}
    (h : (w.add path r size).fault = some fault) :
    r.stream.source.Raises fault ∨ IsOrdinary fault := by
  unfold add at h
  split at h
  · exact Or.inr ⟨_, (Option.some.inj h).symm, by simp [ArchiveFault.family]⟩
  · rcases Option.or_eq_some_iff.1 h with hcopy | ⟨-, hsize⟩
    · exact Or.inl (raises_of_copyAll hcopy)
    · exact Or.inr (isOrdinary_of_sizeFault? hsize)

namespace Zip

/-- What a zip archive cannot express of an entry of which some bytes were read: a name or a size
that no field holds, or more bytes than the fields chosen for the declared size. -/
inductive Exceeds (path : String) (size : Option Int) (done : Bytes) : ArchiveFault → Prop where
  | longName (h : 65535 < (Bytes.ofText (cutName path)).length) : Exceeds path size done .longName
  | sizeTooLarge {n : Int} (declared : size = some n)
      (h : Nat.pow 2 1024 - Nat.pow 2 970 ≤ n.natAbs) : Exceeds path size done .sizeTooLarge
  | entryTooLarge (narrow : isWide size = false) (h : sizeLimit < done.length) :
      Exceeds path size done .entryTooLarge
  | compressedTooLarge (narrow : isWide size = false)
      (h : sizeLimit < (Codec.Deflate.encode done).length) :
      Exceeds path size done .compressedTooLarge
  | numberTooLarge (h : wideLimit ≤ done.length ∨ wideLimit ≤ (Codec.Deflate.encode done).length) :
      Exceeds path size done .numberTooLarge

namespace Writer

variable {w : Writer} {path : String}

private theorem exceeds_of_finish (hfixed : w.movable = none) {size : Option Int} {offset : Nat}
    {content : Bytes} (h : (w.finish (cutName path) (isWide size) offset content).2 = some fault) :
    ∃ e, fault = .archive e ∧ Exceeds path size content e := by
  unfold finish at h
  simp only [Bool.and_eq_true, Bool.not_eq_true', decide_eq_true_eq, Bool.or_eq_true] at h
  split at h
  · rename_i hlarge
    exact ⟨_, (Option.some.inj h).symm, .entryTooLarge hlarge.1 hlarge.2⟩
  · split at h
    · rename_i hlarge
      exact ⟨_, (Option.some.inj h).symm, .compressedTooLarge hlarge.1 hlarge.2⟩
    · split at h
      · rename_i hlarge
        exact ⟨_, (Option.some.inj h).symm, .numberTooLarge hlarge⟩
      · have hseek : seekFault? { w with output := w.output ++ Codec.Deflate.encode content }
            offset = none := by
          rw [seekFault?, hfixed, Option.bind_none]
        rw [hseek] at h
        cases h

private theorem headerFault?_eq_some (hfixed : w.movable = none) {name : String} {size : Option Int}
    (h : w.headerFault? name size = some fault) :
    fault = .archive .longName ∧ 65535 < (Bytes.ofText name).length := by
  rw [headerFault?, hfixed] at h
  simp only [Option.ite_none_right_eq_some, Option.some.injEq] at h
  exact ⟨h.2.symm, h.1⟩

/-- A zip archive adds faults of values to those of the source, and those of an entry that exceeds
what it can express. -/
theorem fault_add (hfixed : w.movable = none) {size : Option Int}
    (h : (w.add path r size).fault = some fault) :
    r.stream.source.Raises fault ∨ IsOrdinary fault ∨
      ∃ e done, fault = .archive e ∧ done <+: r.stream.rest ∧ Exceeds path size done e := by
  unfold add at h
  split at h
  · exact Or.inr (Or.inl ⟨.zipClosed, (Option.some.inj h).symm, by decide⟩)
  · split at h
    · rename_i f hf
      obtain rfl : f = fault := Option.some.inj h
      cases size with
      | none => cases hf
      | some n =>
        simp only [hugeSize?] at hf
        split at hf
        · rename_i hhuge
          exact Or.inr (Or.inr ⟨_, [], (Option.some.inj hf).symm, List.nil_prefix,
            .sizeTooLarge rfl hhuge⟩)
        · cases hf
    · simp only at h
      split at h
      · rename_i f hheader
        obtain rfl : f = fault := Option.some.inj h
        obtain ⟨rfl, hlong⟩ := headerFault?_eq_some hfixed hheader
        exact Or.inr (Or.inr ⟨_, [], rfl, List.nil_prefix, .longName hlong⟩)
      · -- the data are written whatever was read of them, so a fault of writing them counts first
        rcases Option.or_eq_some_iff.1 h with hlate | ⟨-, hearly⟩
        · obtain ⟨piece, hpiece, hw⟩ := copied_prefix_rest #[] r
          rw [hw] at hlate
          obtain ⟨e, he, hexceeds⟩ := exceeds_of_finish (by exact hfixed) hlate
          exact Or.inr (Or.inr ⟨e, piece, he, hpiece, hexceeds⟩)
        · rcases Option.or_eq_some_iff.1 hearly with hcopy | ⟨-, hsize⟩
          · exact Or.inl (raises_of_copyAll hcopy)
          · exact Or.inr (Or.inl (isOrdinary_of_sizeFault? hsize))

end Writer

end Zip

namespace Writer

variable {w : Writer} {path : String}

/-- A fault of adding an entry comes from its source, or it is of the system or of values, or the
entry exceeds what a zip archive can express. -/
theorem fault_add (hopen : w.IsOpen) {size : Option Int}
    (h : (w.add path r size).fault = some fault) :
    r.stream.source.Raises fault ∨ IsOrdinary fault ∨
      (w.format = .zip ∧ ∃ e done, fault = .archive e ∧ done <+: r.stream.rest ∧
        Zip.Exceeds path size done e) := by
  cases w with
  | raw w => exact (Raw.Writer.fault_add h).imp_right Or.inl
  | tar w => exact (Tar.Writer.fault_add h).imp_right Or.inl
  | zip w =>
    exact (Zip.Writer.fault_add (Zip.Writer.IsOpen.movable_eq hopen) h).imp_right
      (Or.imp_right fun hx => ⟨rfl, hx⟩)

theorem closeFault?_eq_some (hopen : w.IsOpen) (h : w.closeFault? = some fault) :
    fault = .archive .numberTooLarge ∧ w.format = .zip ∧
      Zip.wideLimit ≤ w.close.written.length := by
  cases w with
  | raw w => cases h
  | tar w => cases h
  | zip w =>
    rw [closeFault?, Zip.Writer.closeFault?_eq hopen] at h
    simp only [Option.ite_none_right_eq_some, Option.some.injEq] at h
    obtain ⟨hlong, rfl⟩ := h
    have hwritten : (zip w).close.written = w.output.toList ++ w.central ++ Zip.endRecords
        w.members.length (w.output.size + w.central.length - w.directory) w.directory :=
      Zip.Writer.output_close hopen
    refine ⟨rfl, rfl, ?_⟩
    rw [hwritten, List.length_append, List.length_append, Array.length_toList]
    omega

/-- An archive whose end can be written: no zip archive that is longer than its fields can say. -/
def Fits (w : Writer) : Prop :=
  w.format = .zip → w.close.written.length < Zip.wideLimit

theorem Fits.closeFault?_eq_none (h : w.Fits) (hopen : w.IsOpen) : w.closeFault? = none := by
  cases hc : w.closeFault? with
  | none => rfl
  | some fault =>
    obtain ⟨-, hzip, hlong⟩ := closeFault?_eq_some hopen hc
    exact absurd (h hzip) (Nat.not_lt.2 hlong)

end Writer

end Archive

end Deposit
