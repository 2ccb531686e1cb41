import Deposit.Proofs.Archive.Tar.Reading
import Deposit.Proofs.Content.Reading

set_option autoImplicit false
set_option relaxedAutoImplicit false

/-!
A tar archive on its way holds the members added so far, one behind the other, and knows its length.
Adding an entry without a fault adds exactly the content that the reader delivers: a declared size
is read in full, and the read behind it finds nothing more.
-/

namespace Deposit.Archive.Tar.Writer

/-- A writer that has taken in some entries and is still open. -/
structure Holds (w : Writer) (entries : List (String × Bytes)) : Prop where
  isOpen : w.closed = false
  output_eq : w.output.toList = entries.flatMap fun e => member e.1 e.2
  offset_eq : w.offset = w.output.size
  short : ∀ e ∈ entries, (records e.1 e.2.length).length < sizeLimit

theorem holds_empty : empty.Holds [] where
  isOpen := rfl
  output_eq := rfl
  offset_eq := rfl
  short := by simp

variable {w : Writer} {entries : List (String × Bytes)} {name : String} {r : Reader}
  {algorithms : List Digest.Algorithm} {content : Bytes}

private theorem remainder_eq (n : Nat) : ((n : Int) % blockSize).toNat = n % blockSize := by
  rw [← Int.natCast_emod, Int.toNat_natCast]

private theorem padding_eq (n : Nat) :
    (if n % blockSize = 0 then 0 else blockSize - n % blockSize) = padding n := by
  unfold padding
  by_cases h : n % blockSize = 0
  · rw [if_pos h, h, Nat.sub_zero, Nat.mod_self]
  · have hpos : 0 < blockSize := by decide
    have hlt : blockSize - n % blockSize < blockSize := by omega
    rw [if_neg h, Nat.mod_eq_of_lt hlt]

private theorem blocks_eq (n : Nat) :
    ((n : Int) / blockSize + (if n % blockSize = 0 then 0 else 1)) * blockSize =
      (n + padding n : Nat) := by
  rw [← padding_eq]
  by_cases h : n % blockSize = 0
  · rw [if_pos h, if_pos h]
    simp only [blockSize] at h ⊢
    omega
  · rw [if_neg h, if_neg h]
    simp only [blockSize] at h ⊢
    omega

/-- What is copied for an entry of a size. -/
private def copied (w : Writer) (name : String) (r : Reader) (size : Int) : Added (Array UInt8) :=
  if size = 0 then ⟨w.output ++ header name size, r, none⟩
  else copyPieces (size / copySize).toNat (size % copySize).toNat (w.output ++ header name size) r

private theorem copied_spec (hr : r.Took algorithms content []) {n : Nat}
    (hf : (copied w name r n).fault = none) :
    ∃ bs : Bytes, bs.length = n ∧
      (copied w name r n).writer.toList = w.output.toList ++ header name n ++ bs ∧
      (copied w name r n).reader.Took algorithms content bs := by
  unfold copied at hf ⊢
  split
  · rename_i h0
    exact ⟨[], by simp; omega, by simp, hr⟩
  · rename_i h0
    rw [if_neg h0] at hf
    obtain ⟨bs, hl, hw, ht⟩ := copyPieces_spec hr _ _ _ hf
    refine ⟨bs, ?_, by simpa using hw, by simpa using ht⟩
    rw [hl]
    simp only [copySize]
    omega

private theorem addSized_eq (hopen : w.closed = false) {n : Nat}
    (hf : (w.addSized name r n).fault = none) :
    (records name n).length < sizeLimit ∧ (copied w name r n).fault = none ∧
      w.addSized name r n =
        ⟨{ output := (copied w name r n).writer ++ Bytes.zeros (padding n),
           offset := w.offset + (header name n).length + (n + padding n : Nat), closed := false },
          (copied w name r n).reader, none⟩ := by
  unfold addSized at hf ⊢
  rw [if_neg (by simp [hopen])] at hf ⊢
  split at hf
  · simp at hf
  · rename_i hs
    rw [if_neg hs]
    refine ⟨Nat.lt_of_not_le hs, ?_⟩
    simp only [remainder_eq, padding_eq, blocks_eq] at hf ⊢
    unfold copied
    split at hf
    · simp at hf
    · rename_i hc
      refine ⟨hc, ?_⟩
      simp only [hopen]

theorem Holds.addSized (h : w.Holds entries) (hr : r.Took algorithms content []) {n : Nat}
    (hf : (w.addSized name r n).fault = none) :
    ∃ bs : Bytes, bs.length = n ∧ (w.addSized name r n).writer.Holds (entries ++ [(name, bs)]) ∧
      (w.addSized name r n).reader.Took algorithms content bs := by
  obtain ⟨hs, hc, heq⟩ := addSized_eq h.isOpen hf
  obtain ⟨bs, hl, hw, ht⟩ := copied_spec hr hc
  rw [heq]
  refine ⟨bs, hl, ?_, ht⟩
  have hout : ((copied w name r n).writer ++ Bytes.zeros (padding n)).toList =
      (entries ++ [(name, bs)]).flatMap fun e => member e.1 e.2 := by
    simp [hw, h.output_eq, member, hl]
  refine ⟨rfl, hout, ?_, ?_⟩
  · have hsize := congrArg List.length hout
    rw [List.flatMap_append, List.length_append, ← h.output_eq] at hsize
    simp only [Array.length_toList, List.flatMap_cons, List.flatMap_nil, List.append_nil, member,
      List.length_append, Bytes.length_zeros, hl] at hsize
    rw [h.offset_eq]
    simp only [hsize]
    omega
  · intro e he
    rcases List.mem_append.1 he with he | he
    · exact h.short e he
    · rw [List.mem_singleton.1 he]
      simpa [hl] using hs

theorem Holds.addDeclared (h : w.Holds entries) (hr : r.Took algorithms content []) {n : Nat}
    (hf : (w.addDeclared name r n).fault = none) :
    (w.addDeclared name r n).writer.Holds (entries ++ [(name, content)]) ∧
      (w.addDeclared name r n).reader.Took algorithms content content := by
  unfold Writer.addDeclared at hf ⊢
  cases hs : (w.addSized name r n).fault with
  | some fault => simp [hs] at hf
  | none =>
    obtain ⟨bs, hl, hw, ht⟩ := h.addSized hr hs
    simp only [hs] at hf ⊢
    split at hf
    · simp at hf
    · rename_i piece next hread
      split at hf
      · rename_i hp
        subst hp
        -- the read for one more byte has met the end
        obtain ⟨hall, hnext⟩ := ht.all_of_read hread (by decide)
        rw [if_pos rfl]
        exact ⟨hall ▸ hw, hnext⟩
      · simp at hf

theorem Holds.addSpooled (h : w.Holds entries) (hr : r.Took algorithms content [])
    (hf : (w.addSpooled name r).fault = none) :
    (w.addSpooled name r).writer.Holds (entries ++ [(name, content)]) ∧
      (w.addSpooled name r).reader.Took algorithms content content := by
  unfold Writer.addSpooled at hf ⊢
  cases hs : (copyAll #[] r).fault with
  | some fault => simp [hs] at hf
  | none =>
    obtain ⟨hspool, ht⟩ := copyAll_spec hr #[] hs
    have hall : (copyAll #[] r).writer.toList = content := by
      rw [hspool, ← hr.append_rest]
    simp only [hs, hall] at hf ⊢
    have hreplay := Reader.took_start [] (Source.ofBytes content)
    obtain ⟨bs, hl, hw, hbs⟩ := h.addSized hreplay hf
    -- the replay delivers a prefix of the content that is as long as the content
    have heq : bs = content :=
      (List.IsPrefix.eq_of_length ⟨_, hbs.append_rest⟩ hl)
    exact ⟨heq ▸ hw, ht⟩

theorem Holds.add (h : w.Holds entries) (hr : r.Took algorithms content []) {size : Option Int}
    (hsize : ∀ n, size = some n → 0 ≤ n) (hf : (w.add name r size).fault = none) :
    (w.add name r size).writer.Holds (entries ++ [(name, content)]) ∧
      (w.add name r size).reader.Took algorithms content content := by
  cases size with
  | none => exact h.addSpooled hr hf
  | some n =>
    obtain ⟨k, rfl⟩ := Int.eq_ofNat_of_zero_le (hsize n rfl)
    exact h.addDeclared hr hf

private theorem prefix_output_addSized (w : Writer) (name : String) (r : Reader) (size : Int) :
    (w.addSized name r size).writer.closed = w.closed ∧
      w.output.toList <+: (w.addSized name r size).writer.output.toList := by
  have hstart : w.output.toList <+: (w.output ++ header name size).toList := by simp
  unfold addSized
  split
  · exact ⟨rfl, List.prefix_rfl⟩
  · split
    · exact ⟨rfl, List.prefix_rfl⟩
    · have hcopied : (w.output ++ header name size).toList <+:
          (copied w name r size).writer.toList := by
        unfold copied
        split
        · exact List.prefix_rfl
        · exact prefix_copyPieces _ _ _ _
      unfold copied at hcopied
      simp only
      split
      · exact ⟨rfl, hstart.trans hcopied⟩
      · refine ⟨rfl, (hstart.trans hcopied).trans ?_⟩
        simp

theorem prefix_output_add (w : Writer) (name : String) (r : Reader) (size : Option Int) :
    (w.add name r size).writer.closed = w.closed ∧
      w.output.toList <+: (w.add name r size).writer.output.toList := by
  cases size with
  | none =>
    simp only [add, addSpooled]
    split
    · exact ⟨rfl, List.prefix_rfl⟩
    · exact prefix_output_addSized w name _ _
  | some n =>
    simp only [add, addDeclared]
    split
    · exact prefix_output_addSized w name r n
    · split
      · exact prefix_output_addSized w name r n
      · split <;> exact prefix_output_addSized w name r n

private theorem take_prefix_take {bs cs : Bytes} (h : bs <+: cs) {i j : Nat} (hi : i ≤ bs.length)
    (hij : i ≤ j) : bs.take i <+: cs.take j := by
  obtain ⟨t, rfl⟩ := h
  rw [← List.take_append_of_le_length hi]
  exact List.take_prefix_take_left hij

private theorem records_le (n : Nat) : (n - 1) / recordSize * recordSize ≤ n :=
  (Nat.div_mul_le_self _ _).trans (Nat.sub_le _ _)

private theorem written_prefix_output (w : Writer) : w.written <+: w.output.toList := by
  unfold written
  split
  · exact List.prefix_rfl
  · exact List.take_prefix _ _

theorem written_prefix_add (w : Writer) (name : String) (r : Reader) (size : Option Int) :
    w.written <+: (w.add name r size).writer.written := by
  obtain ⟨hclosed, hout⟩ := prefix_output_add w name r size
  unfold written
  rw [hclosed]
  split
  · exact hout
  · have hle := hout.length_le
    rw [Array.length_toList, Array.length_toList] at hle
    refine take_prefix_take hout (records_le _) ?_
    exact Nat.mul_le_mul_right _ (Nat.div_le_div_right (by omega))

private theorem recordSize_dvd_filled (n : Nat) :
    recordSize ∣ n + if n % recordSize = 0 then 0 else recordSize - n % recordSize := by
  have hlt : n % recordSize < recordSize := Nat.mod_lt n (by decide)
  have hdiv := Nat.div_add_mod n recordSize
  split
  · rename_i h
    exact Nat.dvd_of_mod_eq_zero h
  · refine ⟨n / recordSize + 1, ?_⟩
    rw [Nat.mul_add]
    omega

theorem written_close (hopen : w.closed = false) :
    ∃ k, w.close.written = w.output.toList ++ Bytes.zeros (2 * blockSize + k) ∧
      (w.offset = w.output.size → recordSize ∣ w.close.written.length) := by
  obtain ⟨k, hk⟩ : ∃ k, k = if ((w.offset + 2 * blockSize) % recordSize).toNat = 0 then 0
      else recordSize - ((w.offset + 2 * blockSize) % recordSize).toNat := ⟨_, rfl⟩
  have hclose : w.close.written = w.output.toList ++ Bytes.zeros (2 * blockSize + k) := by
    have hclosed : ¬ w.closed = true := by simp [hopen]
    rw [written, close, if_neg hclosed, if_pos rfl, Array.toList_appendList, hk]
  refine ⟨k, hclose, fun hoffset => ?_⟩
  have hrem : ((w.offset + 2 * blockSize) % recordSize).toNat =
      (w.output.size + 2 * blockSize) % recordSize := by
    rw [hoffset]
    simp only [blockSize, recordSize]
    omega
  rw [hclose, List.length_append, Array.length_toList, Bytes.length_zeros, hk, hrem,
    ← Nat.add_assoc]
  exact recordSize_dvd_filled _

theorem written_prefix_close (w : Writer) : w.written <+: w.close.written := by
  by_cases hc : w.closed
  · have hsame : w.close = w := by rw [close, if_pos hc]
    exact hsame.symm ▸ List.prefix_rfl
  · obtain ⟨k, hk, -⟩ := written_close (Bool.eq_false_iff.2 hc)
    rw [hk]
    exact (written_prefix_output w).trans (List.prefix_append _ _)

theorem Holds.read?_close (h : w.Holds entries) :
    read? w.close.written = some (entries.map foundMember) := by
  obtain ⟨k, hk, -⟩ := written_close h.isOpen
  rw [hk, h.output_eq]
  exact read?_members h.short k

end Deposit.Archive.Tar.Writer
