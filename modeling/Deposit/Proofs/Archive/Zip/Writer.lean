import Deposit.Archive.Zip.Writer
import Deposit.Proofs.Archive.Zip.Record
import Deposit.Proofs.Content.Reading
import Mathlib.Data.List.Forall2
import Mathlib.Data.List.TakeWhile

set_option autoImplicit false
set_option relaxedAutoImplicit false

/-!
A zip archive on its way has the data of every member where the member says, and nothing that is
written later moves it. Behind the data of all members the directory lists them in the order in
which they were added.
-/

namespace Deposit.Archive.Zip

/-- A member that describes an entry whose data stands in some bytes. -/
structure Member.Stored (output : Bytes) (m : Member) (e : String × Bytes) : Prop where
  name_eq : m.name = cutName e.1
  name_lt : (Bytes.ofText m.name).length < 256 ^ 2
  size_eq : e.2.length = m.size
  size_lt : m.size < wideLimit
  packedSize_lt : m.packedSize < wideLimit
  crc_eq : (Codec.crc32 e.2).toNat = m.crc
  offset_le : m.offset ≤ output.length
  data_eq : ∃ rest, output.drop m.offset =
    localHeader m.name m.isWide ++ (Codec.Deflate.encode e.2 ++ rest)

namespace Member.Stored

variable {output : Bytes} {m : Member} {e : String × Bytes}

theorem append (h : m.Stored output e) (more : Bytes) : m.Stored (output ++ more) e where
  name_eq := h.name_eq
  name_lt := h.name_lt
  size_eq := h.size_eq
  size_lt := h.size_lt
  packedSize_lt := h.packedSize_lt
  crc_eq := h.crc_eq
  offset_le := by
    rw [List.length_append]
    exact Nat.le_add_right_of_le h.offset_le
  data_eq := by
    obtain ⟨rest, hrest⟩ := h.data_eq
    refine ⟨rest ++ more, ?_⟩
    rw [List.drop_append_of_le_length h.offset_le, hrest, List.append_assoc, List.append_assoc]

theorem fits (h : m.Stored output e) (hl : output.length < wideLimit) : m.Fits where
  name_lt := h.name_lt
  crc_lt := by
    rw [← h.crc_eq]
    exact UInt32.toNat_lt _
  size_lt := h.size_lt
  packedSize_lt := h.packedSize_lt
  offset_lt := Nat.lt_of_le_of_lt h.offset_le hl

theorem member? (h : m.Stored output e) {inflate : Bytes → Option (Bytes × Bytes)}
    (hinflate : Codec.Deflate.UndoneBy inflate) (hl : output.length < wideLimit)
    (more rest : Bytes) :
    ∃ found, member? inflate (output ++ more) (centralRecord m ++ rest) = some (found, rest) ∧
      found.name = cutName e.1 ∧ found.content = e.2 := by
  obtain ⟨behind, hbehind⟩ := (h.append more).data_eq
  have hdata := data?_localHeader hinflate h.name_lt m.isWide e.2 behind
  rw [← hbehind] at hdata
  obtain ⟨found, hfound, hname, hcontent⟩ :=
    member?_centralRecord (h.fits hl) hdata h.size_eq h.crc_eq rest
  exact ⟨found, hfound, hname.trans h.name_eq, hcontent⟩

end Member.Stored

private theorem members?_central {inflate : Bytes → Option (Bytes × Bytes)}
    (hinflate : Codec.Deflate.UndoneBy inflate) {output : Bytes} {ms : List Member}
    {entries : List (String × Bytes)}
    (h : List.Forall₂ (Member.Stored output) ms entries) (hl : output.length < wideLimit)
    (more rest : Bytes) :
    ∃ found,
      members? inflate (output ++ more) ms.length (ms.flatMap centralRecord ++ rest) = some found ∧
      found.map (fun f => (f.name, f.content)) = entries.map fun e => (cutName e.1, e.2) := by
  induction h with
  | nil => exact ⟨[], rfl, rfl⟩
  | @cons m e ms entries hm _ ih =>
    obtain ⟨found, hfound, hmap⟩ := ih
    obtain ⟨first, hfirst, hname, hcontent⟩ :=
      hm.member? hinflate hl more (ms.flatMap centralRecord ++ rest)
    refine ⟨first :: found, ?_, by rw [List.map_cons, hmap, hname, hcontent]; rfl⟩
    rw [List.length_cons, List.flatMap_cons, List.append_assoc, members?, hfirst]
    simp [hfound]

namespace Writer

/-- A writer whose end has not been written, over a stream that stays where it is. -/
structure IsOpen (w : Writer) : Prop where
  closed_eq : w.closed = false
  movable_eq : w.movable = none

/-- A writer that has taken in some entries and is still open. -/
structure Holds (w : Writer) (entries : List (String × Bytes)) : Prop where
  isOpen : w.IsOpen
  directory_eq : w.directory = w.output.size
  stored : List.Forall₂ (Member.Stored w.output.toList) w.members entries

theorem isOpen_empty : empty.IsOpen := ⟨rfl, rfl⟩

theorem holds_empty : empty.Holds [] where
  isOpen := isOpen_empty
  directory_eq := rfl
  stored := .nil

variable {w : Writer} {entries : List (String × Bytes)} {name : String} {r : Reader}
  {algorithms : List Digest.Algorithm} {content : Bytes}

private theorem seekFault?_eq_none (h : w.movable = none) (place : Nat) :
    w.seekFault? place = none := by
  rw [seekFault?, h, Option.bind_none]

theorem length_le_of_headerFault? {size : Option Int} (h : w.headerFault? name size = none) :
    (Bytes.ofText name).length ≤ 65535 := by
  by_contra hlong
  unfold headerFault? at h
  simp only [if_pos (Nat.lt_of_not_le hlong)] at h
  cases hmovable : w.movable <;> simp [hmovable] at h

theorem headerFault?_eq_none_iff (h : w.movable = none) (size : Option Int) :
    w.headerFault? name size = none ↔ (Bytes.ofText name).length ≤ 65535 := by
  rw [headerFault?, h]
  simp

theorem header_eq (h : w.movable = none) (name : String) (size : Option Int) :
    w.header name size = localHeader name (isWide size) := by
  rw [header, h]

private theorem finish_eq (hfixed : w.movable = none) {isWide : Bool} {offset : Nat}
    (hf : (w.finish name isWide offset content).2 = none) :
    ∃ m : Member, m.name = name ∧ m.isWide = isWide ∧ m.crc = (Codec.crc32 content).toNat ∧
      m.size = content.length ∧ m.size < wideLimit ∧ m.packedSize < wideLimit ∧
      m.offset = offset ∧
      (w.finish name isWide offset content).1 =
        { w with
          output := w.output ++ Codec.Deflate.encode content ++ descriptor m
          members := w.members ++ [m]
          directory := (w.output ++ Codec.Deflate.encode content ++ descriptor m).size } := by
  have hseek : seekFault? { w with output := w.output ++ Codec.Deflate.encode content } offset =
      none := by
    rw [seekFault?, hfixed, Option.bind_none]
  unfold finish at hf ⊢
  simp only at hf ⊢
  split at hf
  · simp at hf
  · rename_i hsize
    split at hf
    · simp at hf
    · rename_i hpacked
      split at hf
      · simp at hf
      · rename_i hwide
        rw [if_neg hsize, if_neg hpacked, if_neg hwide, hseek]
        simp only [Bool.or_eq_true, decide_eq_true_eq, not_or, Nat.not_le] at hwide
        exact ⟨_, rfl, rfl, rfl, rfl, hwide.1, hwide.2, rfl, rfl⟩

theorem Holds.add (h : w.Holds entries) (hr : r.Took algorithms content [])
    {size : Option Int} (hf : (w.add name r size).fault = none) :
    (w.add name r size).writer.Holds (entries ++ [(name, content)]) ∧
      (w.add name r size).reader.Took algorithms content content := by
  unfold Writer.add at hf ⊢
  rw [if_neg (by simp [h.isOpen.closed_eq])] at hf ⊢
  cases hh : hugeSize? size with
  | some fault => simp [hh] at hf
  | none =>
    simp only [hh] at hf ⊢
    split at hf
    · simp at hf
    · rename_i hl
      rw [headerFault?_eq_none_iff h.isOpen.movable_eq] at hl
      simp only [header_eq h.isOpen.movable_eq, Option.or_eq_none_iff] at hf ⊢
      obtain ⟨hlate, hcopied, -⟩ := hf
      obtain ⟨hcontent, ht⟩ := copyAll_spec hr #[] hcopied
      have hall : (copyAll #[] r).writer.toList = content := by
        rw [hcontent, ← hr.append_rest]
      rw [hall] at hlate ⊢
      obtain ⟨m, hname, hisWide, hcrc, hsize, hsizelt, hpackedlt, hoffset, heq⟩ :=
        finish_eq (by exact h.isOpen.movable_eq) hlate
      rw [heq]
      refine ⟨⟨⟨h.isOpen.closed_eq, h.isOpen.movable_eq⟩, rfl, ?_⟩, ht⟩
      have hout : (w.output ++ localHeader (cutName name) (isWide size) ++
          Codec.Deflate.encode content ++ descriptor m).toList = w.output.toList ++
          (localHeader (cutName name) (isWide size) ++
            (Codec.Deflate.encode content ++ descriptor m)) := by
        simp
      -- all that is new stands behind the earlier members, which keep their places
      refine List.rel_append (h.stored.imp fun m e hm => ?_) (.cons ?_ .nil)
      · rw [hout]
        exact hm.append _
      · refine ⟨hname, ?_, hsize.symm, hsizelt, hpackedlt, hcrc.symm, ?_, descriptor m, ?_⟩
        · rw [hname]
          omega
        · rw [hoffset, hout, List.length_append, Array.length_toList]
          exact Nat.le_add_right _ _
        · rw [hoffset, hout, hname, hisWide, List.drop_left' (Array.length_toList)]

private theorem finish_ne_none_of_gzip {below : Sink} (hmovable : w.movable = some (.gzip below))
    {isWide : Bool} {offset : Nat} (hback : offset < w.output.size) :
    (w.finish name isWide offset content).2 ≠ none := by
  have hseek : seekFault? { w with output := w.output ++ Codec.Deflate.encode content } offset =
      some (.archive .negativeSeek) := by
    have hbehind : offset < (w.output ++ Codec.Deflate.encode content).size := by
      rw [← Array.length_toList, Array.toList_appendList, List.length_append, Array.length_toList]
      exact Nat.lt_add_right _ hback
    rw [seekFault?, hmovable, Option.bind_some, Sink.seekFault?, if_pos hbehind]
  unfold finish
  simp only [hseek]
  split
  · simp
  · split
    · simp
    · split <;> simp

/-- Over a gzip stream that it sees, a zip archive takes nothing: the header of the first member
would be written again behind its data, and the stream does not go back. -/
theorem fault_add_start_gzip (below : Sink) (path : String) (r : Reader)
    (size : Option Int) :
    ((start (.gzip below)).add path r size).fault ≠ none := by
  have hback : (start (.gzip below)).output.size < ((start (.gzip below)).output ++
      (start (.gzip below)).header (cutName path) size).size := by
    rw [← Array.length_toList, ← Array.length_toList, Array.toList_appendList, List.length_append]
    refine Nat.lt_add_of_pos_right ?_
    show 0 < (provisionalHeader _ _ _).length
    simp [provisionalHeader]
  have hopen : ¬ (start (.gzip below)).closed = true := Bool.false_ne_true
  have hmovable : (start (.gzip below)).movable = some (.gzip below) := rfl
  generalize start (.gzip below) = w at hback hopen hmovable ⊢
  unfold Writer.add
  rw [if_neg hopen]
  split
  · simp
  · simp only
    split
    · simp
    · intro hfault
      exact finish_ne_none_of_gzip (by exact hmovable) hback (Option.or_eq_none_iff.1 hfault).1

/-- A writer that has gone on from another one: nothing that had left it is taken back. -/
structure Extends (w v : Writer) : Prop where
  closed_eq : v.closed = w.closed
  movable_eq : v.movable = w.movable
  output_le : w.output.toList <+: v.output.toList

private theorem extends_finish (w : Writer) (name : String) (isWide : Bool) (offset : Nat)
    (content : Bytes) : w.Extends (w.finish name isWide offset content).1 := by
  unfold finish
  simp only
  split
  · exact ⟨rfl, rfl, by simp⟩
  · split
    · exact ⟨rfl, rfl, by simp⟩
    · split
      · exact ⟨rfl, rfl, by simp⟩
      · split <;> exact ⟨rfl, rfl, by simp⟩

theorem extends_add (w : Writer) (path : String) (r : Reader) (size : Option Int) :
    w.Extends (w.add path r size).writer := by
  unfold Writer.add
  split
  · exact ⟨rfl, rfl, List.prefix_rfl⟩
  · split
    · exact ⟨rfl, rfl, List.prefix_rfl⟩
    · simp only
      split
      · exact ⟨rfl, rfl, List.prefix_rfl⟩
      · have hfinish := extends_finish
          { w with output := w.output ++ w.header (cutName path) size } (cutName path)
          (isWide size) w.output.size (copyAll #[] r).writer.toList
        exact ⟨hfinish.closed_eq, hfinish.movable_eq,
          List.IsPrefix.trans (by simp) hfinish.output_le⟩

theorem IsOpen.add (h : w.IsOpen) (path : String) (r : Reader) (size : Option Int) :
    (w.add path r size).writer.IsOpen :=
  have hadd := w.extends_add path r size
  ⟨hadd.closed_eq.trans h.closed_eq, hadd.movable_eq.trans h.movable_eq⟩

theorem prefix_close (w : Writer) : w.output.toList <+: w.close.output.toList := by
  unfold close
  split
  · exact List.prefix_rfl
  · split
    · exact List.prefix_rfl
    · simp

theorem output_close (hopen : w.IsOpen) :
    w.close.output.toList = w.output.toList ++ w.central ++ endRecords w.members.length
      (w.output.size + w.central.length - w.directory) w.directory := by
  rw [close, if_neg (by simp [hopen.closed_eq]), seekFault?_eq_none hopen.movable_eq]
  simp

theorem closeFault?_eq (hopen : w.IsOpen) :
    w.closeFault? = if wideLimit ≤ w.output.size + w.central.length then
      some (.archive .numberTooLarge) else none := by
  rw [closeFault?, if_neg (by simp [hopen.closed_eq]), seekFault?_eq_none hopen.movable_eq,
    Option.none_or]

theorem Holds.output_close (h : w.Holds entries) :
    w.close.output.toList = w.output.toList ++ w.central ++
      endRecords w.members.length w.central.length w.output.size := by
  rw [Writer.output_close h.isOpen, h.directory_eq, Nat.add_sub_cancel_left]

private theorem length_members_le (w : Writer) : w.members.length ≤ w.central.length := by
  unfold central
  induction w.members with
  | nil => exact Nat.le_refl _
  | cons m ms ih =>
    rw [List.flatMap_cons, List.length_append, length_centralRecord, List.length_cons]
    omega

/-- A closed archive is read back: all entries in the order they were added, under the names stored
of them. -/
theorem Holds.readWith?_close (h : w.Holds entries) {inflate : Bytes → Option (Bytes × Bytes)}
    (hinflate : Codec.Deflate.UndoneBy inflate) (hf : w.closeFault? = none) :
    ∃ found, readWith? inflate w.close.output.toList = some found ∧
      found.map (fun f => (f.name, f.content)) = entries.map fun e => (cutName e.1, e.2) := by
  have hl : w.output.toList.length + w.central.length < wideLimit := by
    rw [Array.length_toList]
    simpa [closeFault?_eq h.isOpen] using hf
  rw [h.output_close, ← Array.length_toList, readWith?_endRecords _ _ _ (length_members_le w) hl,
    List.append_assoc]
  exact members?_central hinflate h.stored (by omega) _ _

end Writer

end Deposit.Archive.Zip
