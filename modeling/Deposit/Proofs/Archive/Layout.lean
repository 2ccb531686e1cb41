import Deposit.Proofs.Archive.Writer

set_option autoImplicit false
set_option relaxedAutoImplicit false

/-!
What an archive holds of its entries, whatever sizes are declared of them. A negative size goes into
the header of a tar archive as it is, and leads a reader astray; but an entry that is taken without
a fault has been read to its end, and lies in the archive whole, behind the header with its name.
-/

namespace Deposit.Archive

theorem ne_none_of_read? {format : ArchiveFormat} {archived : Bytes}
    {found : List (Option String × Bytes)} (h : read? format archived = some found)
    (hlength : 1 < found.length) : format ≠ .none := by
  rintro rfl
  obtain rfl := Option.some.inj h
  exact Nat.lt_irrefl 1 hlength

variable {r : Reader} {algorithms : List Digest.Algorithm} {content : Bytes} {name : String}
  {entries : List (String × Bytes)}

namespace Tar

/-- Entries that lie one behind the other, each between its header and some zeros. The header gives
the length of the entry, unless a negative one was declared. -/
inductive Laid : List (String × Bytes) → Bytes → Prop where
  | nil : Laid [] []
  | snoc {entries : List (String × Bytes)} {bs : Bytes} (before : Laid entries bs) (name : String)
      (content : Bytes) {size : Int} (length_eq : 0 ≤ size → size = content.length) (k : Nat) :
      Laid (entries ++ [(name, content)]) (bs ++ (header name size ++ content ++ Bytes.zeros k))

/-- How many bytes are copied for a declared size: full pieces, then the remainder. For a negative
size there are no full pieces, but there is a remainder. -/
def copyLength (size : Int) : Nat :=
  (size / copySize).toNat * copySize + (size % copySize).toNat

theorem copyLength_of_nonneg {size : Int} (h : 0 ≤ size) : (copyLength size : Int) = size := by
  unfold copyLength copySize
  omega

theorem copyLength_of_neg {size : Int} (h : size < 0) :
    (copyLength size : Int) = size % copySize := by
  unfold copyLength copySize
  omega

theorem copyLength_natCast (n : Nat) : copyLength n = n :=
  Int.ofNat.inj (copyLength_of_nonneg (Int.natCast_nonneg n))

namespace Writer

variable {w : Writer}

/-- Behind the header of an entry, a part of its content is laid down, as long as its declared size
makes the copy. -/
theorem addSized_eq_none (hr : r.Took algorithms content []) {size : Int}
    (hf : (w.addSized name r size).fault = none) :
    ∃ (bs : Bytes) (k : Nat), bs.length = copyLength size ∧
      (w.addSized name r size).writer.output.toList =
        w.output.toList ++ (header name size ++ bs ++ Bytes.zeros k) ∧
      (w.addSized name r size).reader.Took algorithms content bs := by
  unfold addSized at hf ⊢
  split at hf
  · cases hf
  · rename_i hopen
    rw [if_neg hopen]
    split at hf
    · cases hf
    · rename_i hshort
      rw [if_neg hshort]
      dsimp only at hf ⊢
      split at hf
      · cases hf
      · rename_i hcopied
        dsimp only
        generalize (if (size % blockSize).toNat = 0 then 0
          else blockSize - (size % blockSize).toNat) = fill
        by_cases hzero : size = 0
        · simp only [if_pos hzero]
          refine ⟨[], fill, by rw [hzero]; rfl, ?_, hr⟩
          rw [Array.toList_appendList, Array.toList_appendList, List.append_nil, List.append_assoc]
        · simp only [if_neg hzero] at hcopied ⊢
          obtain ⟨bs, hlength, hwriter, htook⟩ := copyPieces_spec hr _ _ _ hcopied
          refine ⟨bs, fill, hlength, ?_, htook⟩
          rw [Array.toList_appendList, hwriter, Array.toList_appendList, List.append_assoc,
            List.append_assoc, List.append_assoc]

/-- Behind the header of an entry that is taken, its whole content is laid down, because nothing is
left behind the copy. -/
theorem addDeclared_eq_none (hr : r.Took algorithms content []) {size : Int}
    (hf : (w.addDeclared name r size).fault = none) :
    ∃ k, content.length = copyLength size ∧
      (w.addDeclared name r size).writer.output.toList =
        w.output.toList ++ (header name size ++ content ++ Bytes.zeros k) ∧
      (w.addDeclared name r size).reader.Took algorithms content content := by
  unfold addDeclared at hf ⊢
  cases hsized : (w.addSized name r size).fault with
  | some fault =>
    simp only [hsized] at hf
    cases hf
  | none =>
    obtain ⟨bs, k, hlength, houtput, htook⟩ := addSized_eq_none hr hsized
    simp only [hsized] at hf ⊢
    split at hf
    · cases hf
    · rename_i piece next hread
      split at hf
      · -- the read for one more byte has met the end
        rename_i hempty
        subst hempty
        obtain ⟨rfl, hall⟩ := htook.all_of_read hread (by decide)
        rw [if_pos rfl]
        exact ⟨k, hlength, houtput, hall⟩
      · cases hf

private theorem laid_addDeclared (h : Laid entries w.output.toList)
    (hr : r.Took algorithms content [])
    {size : Int} (hf : (w.addDeclared name r size).fault = none) :
    Laid (entries ++ [(name, content)]) (w.addDeclared name r size).writer.output.toList ∧
      (w.addDeclared name r size).reader.Took algorithms content content := by
  obtain ⟨k, hlength, houtput, hall⟩ := addDeclared_eq_none hr hf
  refine ⟨?_, hall⟩
  rw [houtput]
  refine h.snoc name content (fun hnonneg => ?_) k
  rw [hlength, copyLength_of_nonneg hnonneg]

private theorem laid_addSpooled (h : Laid entries w.output.toList)
    (hr : r.Took algorithms content []) (hf : (w.addSpooled name r).fault = none) :
    Laid (entries ++ [(name, content)]) (w.addSpooled name r).writer.output.toList ∧
      (w.addSpooled name r).reader.Took algorithms content content := by
  unfold addSpooled at hf ⊢
  cases hspooled : (copyAll #[] r).fault with
  | some fault =>
    simp only [hspooled] at hf
    cases hf
  | none =>
    obtain ⟨hspool, htook⟩ := copyAll_spec hr #[] hspooled
    have hall : (copyAll #[] r).writer.toList = content := by
      rw [hspool, ← hr.append_rest]
    simp only [hspooled, hall] at hf ⊢
    have hreplay := Reader.took_start [] (Source.ofBytes content)
    obtain ⟨bs, k, hlength, houtput, hbs⟩ := addSized_eq_none hreplay hf
    -- the replay delivers a part of the content that is as long as the content
    obtain rfl : bs = content := by
      refine List.IsPrefix.eq_of_length ⟨_, hbs.append_rest⟩ ?_
      rw [hlength, copyLength_natCast]
    refine ⟨?_, htook⟩
    rw [houtput]
    exact h.snoc name bs (fun _ => rfl) k

private theorem laid_add (h : Laid entries w.output.toList) (hr : r.Took algorithms content [])
    {size : Option Int} (hf : (w.add name r size).fault = none) :
    Laid (entries ++ [(name, content)]) (w.add name r size).writer.output.toList ∧
      (w.add name r size).reader.Took algorithms content content := by
  cases size with
  | none => exact laid_addSpooled h hr hf
  | some n => exact laid_addDeclared h hr hf

end Writer

end Tar

namespace Writer

/-- A writer that has taken in some entries, of whatever sizes are declared. -/
def Bears : Writer → List (String × Bytes) → Prop
  | raw w, entries => w.Holds entries
  | tar w, entries => Tar.Laid entries w.output.toList
  | zip w, entries => w.Holds entries

theorem bears_start (format : ArchiveFormat) : (start format).Bears [] := by
  cases format
  · exact Raw.Writer.holds_empty
  · exact .nil
  · exact Zip.Writer.holds_empty

theorem Bears.add {w : Writer} (h : w.Bears entries) (hr : r.Took algorithms content [])
    {size : Option Int} (hf : (w.add name r size).fault = none) :
    (w.add name r size).writer.Bears (entries ++ [(name, content)]) ∧
      (w.add name r size).reader.Took algorithms content content := by
  cases w with
  | raw w => exact Raw.Writer.Holds.add h hr hf
  | tar w => exact Tar.Writer.laid_add h hr hf
  | zip w => exact Zip.Writer.Holds.add h hr hf

theorem Bears.laid_close {w : Writer} (h : w.Bears entries) (hopen : w.IsOpen)
    (hformat : w.format = .tar) :
    ∃ body k, w.close.written = body ++ Bytes.zeros k ∧ Tar.Laid entries body := by
  cases w with
  | raw w => cases hformat
  | tar w =>
    obtain ⟨k, hk, -⟩ := Tar.Writer.written_close hopen
    exact ⟨_, _, hk, h⟩
  | zip w => cases hformat

end Writer

end Deposit.Archive
