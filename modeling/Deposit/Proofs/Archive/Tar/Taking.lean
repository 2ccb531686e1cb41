import Deposit.Proofs.Archive.Layout
import Deposit.Proofs.Archive.Splitting

set_option autoImplicit false
set_option relaxedAutoImplicit false

/-!
A tar archive that is open takes any content of a true declared size, if its source fails at no read
and serves pieces in full.
-/

namespace Deposit.Archive.Tar

theorem records_of_short {name : String} {n : Nat} (hname : needsPathRecord name = false)
    (hn : n < sizeLimit) : records name n = [] := by
  have hsize : needsSizeRecord n = false := by
    simp only [needsSizeRecord, Bool.or_eq_false_iff, decide_eq_false_iff_not]
    omega
  simp [records, hname, hsize]

variable {r : Reader}

private theorem fault_copyExactly_of_served (output : Array UInt8)
    (hfree : r.stream.source.FaultFree)
    (hserves : r.stream.source.ServesPieces) {size : Nat} (hsize : size ≤ copySize)
    (hrest : size ≤ r.stream.rest.length) :
    (copyExactly output r size).fault = none ∧
      r.stream.rest.length =
        size + (copyExactly output r size).reader.stream.rest.length := by
  obtain ⟨next, hread⟩ := Reader.read_of_faultFree hfree size
  rw [served_of_servesPieces hserves hsize] at hread
  have hlength : (r.stream.rest.take size).length = size := List.length_take_of_le hrest
  have hparts := congrArg List.length
    (Stream.append_rest_of_read (Reader.read_eq_ok hread).1)
  rw [List.length_append, hlength] at hparts
  unfold copyExactly
  rw [hread]
  simp only [hlength, Nat.lt_irrefl, if_false, true_and]
  exact hparts.symm

private theorem fault_copyPieces_of_served (n : Nat) {remainder : Nat} (output : Array UInt8)
    (hfree : r.stream.source.FaultFree) (hserves : r.stream.source.ServesPieces)
    (hremainder : remainder ≤ copySize)
    (hrest : n * copySize + remainder ≤ r.stream.rest.length) :
    (copyPieces n remainder output r).fault = none := by
  induction n generalizing r output with
  | zero =>
    cases remainder with
    | zero => rfl
    | succ remainder =>
      exact (fault_copyExactly_of_served output hfree hserves hremainder (by omega)).1
  | succ n ih =>
    rw [Nat.succ_mul] at hrest
    obtain ⟨hfault, hleft⟩ :=
      fault_copyExactly_of_served output hfree hserves (Nat.le_refl copySize) (by omega)
    have hsource := source_copyExactly output r copySize
    simp only [copyPieces, hfault]
    exact ih _ (hsource ▸ hfree) (hsource ▸ hserves) (by omega)

namespace Writer

variable {w : Writer} {algorithms : List Digest.Algorithm} {content : Bytes} {name : String}
  {size : Int}

private theorem fault_addSized_of_length (hopen : w.closed = false)
    (hfree : r.stream.source.FaultFree)
    (hserves : r.stream.source.ServesPieces) (hshort : (records name size).length < sizeLimit)
    (hrest : copyLength size ≤ r.stream.rest.length) :
    (w.addSized name r size).fault = none := by
  have hcopied : (copyPieces (size / copySize).toNat (size % copySize).toNat
      (w.output ++ header name size) r).fault = none := by
    refine fault_copyPieces_of_served _ _ hfree hserves ?_ hrest
    unfold copySize
    omega
  have hclosed : ¬ w.closed = true := by simp [hopen]
  unfold addSized
  rw [if_neg hclosed, if_neg (Nat.not_le_of_lt hshort)]
  by_cases hzero : size = 0
  · simp only [if_pos hzero]
  · simp only [if_neg hzero, hcopied]

private theorem short_of_addSized (hf : (w.addSized name r size).fault = none) :
    (records name size).length < sizeLimit := by
  by_contra hlong
  unfold addSized at hf
  rw [if_pos (Nat.le_of_not_lt hlong)] at hf
  split at hf <;> cases hf

private theorem short_of_addDeclared (hf : (w.addDeclared name r size).fault = none) :
    (records name size).length < sizeLimit := by
  unfold addDeclared at hf
  cases hsized : (w.addSized name r size).fault with
  | some fault => simp [hsized] at hf
  | none => exact short_of_addSized hsized

/-- An entry of a declared size is taken exactly if its content is as long as the size makes the
copy, and if its extended header, should it need one, fits its own size field. -/
theorem fault_addDeclared_eq_none_iff (hopen : w.closed = false)
    (hr : r.Took algorithms content []) (hfree : r.stream.source.FaultFree)
    (hserves : r.stream.source.ServesPieces) :
    (w.addDeclared name r size).fault = none ↔
      content.length = copyLength size ∧ (records name size).length < sizeLimit := by
  constructor
  · intro hf
    obtain ⟨-, hlength, -⟩ := addDeclared_eq_none hr hf
    exact ⟨hlength, short_of_addDeclared hf⟩
  · rintro ⟨hlength, hshort⟩
    have hrest : r.stream.rest.length = content.length := congrArg List.length hr.append_rest
    have hsized := fault_addSized_of_length hopen hfree hserves hshort
      (hlength.symm.trans hrest.symm).le
    obtain ⟨bs, k, hbs, -, htook⟩ := addSized_eq_none hr hsized
    -- all has been read, so the read for one more byte meets the end
    have hempty : (w.addSized name r size).reader.stream.rest = [] := by
      have hparts := congrArg List.length htook.append_rest
      rw [List.length_append] at hparts
      exact List.length_eq_zero_iff.1 (by omega)
    have hsource := source_addSized w name r size
    obtain ⟨next, hread⟩ := Reader.read_of_faultFree (hsource ▸ hfree) 1
    rw [hempty, List.take_nil] at hread
    unfold addDeclared
    simp only [hsized, hread, if_true]

theorem fault_addDeclared_of_served (hopen : w.closed = false)
    (hr : r.Took algorithms content []) (hfree : r.stream.source.FaultFree)
    (hserves : r.stream.source.ServesPieces)
    (hshort : (records name content.length).length < sizeLimit) :
    (w.addDeclared name r content.length).fault = none :=
  (fault_addDeclared_eq_none_iff hopen hr hfree hserves).2
    ⟨(copyLength_natCast content.length).symm, hshort⟩

/-- An entry of unknown size from a source that fails at no read is added as if it were copied from
its content. -/
theorem addSpooled_of_faultFree (name : String) (h : r.stream.source.FaultFree) :
    (w.addSpooled name r).fault = (w.addSized name
        (.start [] (Source.ofBytes r.stream.rest).open) r.stream.rest.length).fault ∧
      (w.addSpooled name r).writer = (w.addSized name
        (.start [] (Source.ofBytes r.stream.rest).open) r.stream.rest.length).writer := by
  obtain ⟨hfault, hspool, -⟩ := copyAll_of_faultFree #[] h
  have hall : (copyAll #[] r).writer.toList = r.stream.rest := by
    rw [hspool, Array.toList_appendList]
    rfl
  unfold addSpooled
  simp only [hfault, hall, and_self]

private theorem fault_addSpooled_eq_none_iff (hopen : w.closed = false)
    (hr : r.Took algorithms content []) (hfree : r.stream.source.FaultFree) :
    (w.addSpooled name r).fault = none ↔ (records name content.length).length < sizeLimit := by
  obtain rfl : r.stream.rest = content := hr.append_rest
  rw [(addSpooled_of_faultFree name hfree).1]
  constructor
  · exact short_of_addSized
  · intro hshort
    refine fault_addSized_of_length hopen rfl (fun _ _ _ => Nat.le_refl _) hshort ?_
    rw [copyLength_natCast]
    exact Nat.le_refl _

/-- An entry of which no negative size is declared is taken exactly if a declared size is that of
its content, and if its extended header, should it need one, fits its own size field. -/
theorem fault_add_eq_none_iff {declared : Option Int} (hopen : w.closed = false)
    (hr : r.Took algorithms content []) (hfree : r.stream.source.FaultFree)
    (hserves : r.stream.source.ServesPieces) (hnonneg : ∀ n, declared = some n → 0 ≤ n) :
    (w.add name r declared).fault = none ↔
      (∀ n, declared = some n → n = content.length) ∧
        (records name content.length).length < sizeLimit := by
  cases declared with
  | none =>
    simp only [reduceCtorEq, false_implies, implies_true, true_and]
    exact fault_addSpooled_eq_none_iff hopen hr hfree
  | some n =>
    have hlength := copyLength_of_nonneg (hnonneg n rfl)
    simp only [Option.some.injEq, forall_eq']
    refine (fault_addDeclared_eq_none_iff hopen hr hfree hserves).trans ⟨?_, ?_⟩
    · rintro ⟨heq, hshort⟩
      obtain rfl : n = content.length := by omega
      exact ⟨rfl, hshort⟩
    · rintro ⟨rfl, hshort⟩
      exact ⟨by omega, hshort⟩

end Writer

end Deposit.Archive.Tar
