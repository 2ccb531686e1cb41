import Deposit.Proofs.Archive.Faults

set_option autoImplicit false
set_option relaxedAutoImplicit false

/-!
How much the cut of the reads matters to an archive. Two readers that have counted the same and have
the same bytes left are told apart by nothing that reads on until a read returns nothing. Only a tar
member of a declared size is copied in reads that must be served in full, so there the sources have
to serve whole blocks.
-/

namespace Deposit

/-- A source that returns as many bytes as asked for, while it has them, for up to one piece of a
tar member. -/
def Source.ServesPieces (s : Source) : Prop :=
  ∀ offset asked, asked ≤ Archive.Tar.copySize → asked ≤ s.serve offset asked

namespace Reader

/-- Readers without a fault that have counted the same and have the same bytes left. -/
structure Alike (r t : Reader) : Prop where
  tally_eq : r.tally = t.tally
  rest_eq : r.stream.rest = t.stream.rest
  left : r.stream.source.FaultFree
  right : t.stream.source.FaultFree

variable {r t : Reader} {asked : Nat}

theorem alike_start {s u : Source} (algorithms : List Digest.Algorithm) (h : s.bytes = u.bytes)
    (hs : s.FaultFree) (hu : u.FaultFree) :
    (start algorithms s.open).Alike (start algorithms u.open) :=
  ⟨rfl, h, hs, hu⟩

theorem read_of_faultFree (h : r.stream.source.FaultFree) (asked : Nat) :
    ∃ next, r.read asked =
      .ok (r.stream.rest.take (r.stream.source.served r.stream.position asked), next) := by
  have hfault : r.stream.fault? = none := by
    unfold Stream.fault?
    rw [h]
  let piece := r.stream.rest.take (r.stream.source.served r.stream.position asked)
  refine ⟨⟨⟨r.stream.source, r.stream.rest.drop piece.length, r.stream.position + piece.length⟩,
    r.tally.update piece⟩, ?_⟩
  unfold read Stream.read
  rw [hfault]
  rfl

theorem Alike.read (h : r.Alike t)
    (hserved : r.stream.source.served r.stream.position asked =
      t.stream.source.served t.stream.position asked) :
    ∃ piece r' t', r.read asked = .ok (piece, r') ∧ t.read asked = .ok (piece, t') ∧
      r'.Alike t' := by
  obtain ⟨r', hr⟩ := read_of_faultFree h.left asked
  obtain ⟨t', ht⟩ := read_of_faultFree h.right asked
  rw [← hserved, ← h.rest_eq] at ht
  refine ⟨_, r', t', hr, ht, ?_, ?_, ?_, ?_⟩
  · rw [(read_eq_ok hr).2, (read_eq_ok ht).2, h.tally_eq]
  · -- the same piece is gone from the same bytes
    have hrest := Stream.append_rest_of_read (read_eq_ok hr).1
    have hother := Stream.append_rest_of_read (read_eq_ok ht).1
    exact List.append_cancel_left (hrest.trans (h.rest_eq.trans hother.symm))
  · rw [source_of_read hr]
    exact h.left
  · rw [source_of_read ht]
    exact h.right

private theorem Alike.read_one (h : r.Alike t) :
    ∃ piece r' t', r.read 1 = .ok (piece, r') ∧ t.read 1 = .ok (piece, t') ∧ r'.Alike t' := by
  refine h.read ?_
  unfold Source.served
  omega

end Reader

namespace Archive

/-- Two ways in which adding an entry ended that differ at most in the cut of the reads to come. -/
structure Added.Alike {W : Type} (a b : Added W) : Prop where
  writer_eq : a.writer = b.writer
  reader_alike : a.reader.Alike b.reader
  fault_eq : a.fault = b.fault

theorem Added.Alike.map {V W : Type} {a b : Added V} (h : a.Alike b) (f : V → W) :
    (a.map f).Alike (b.map f) :=
  ⟨congrArg f h.writer_eq, h.reader_alike, h.fault_eq⟩

variable {r t : Reader}

theorem copyAll_of_faultFree (output : Array UInt8) (h : r.stream.source.FaultFree) :
    (copyAll output r).fault = none ∧ (copyAll output r).writer = output ++ r.stream.rest ∧
      (copyAll output r).reader.tally = r.tally.update r.stream.rest ∧
      (copyAll output r).reader.stream.rest = [] ∧
      (copyAll output r).reader.stream.source = r.stream.source := by
  fun_induction copyAll output r with
  | case1 output r fault hr =>
    obtain ⟨after, hfault⟩ := Reader.raises_of_read hr
    cases h.symm.trans hfault
  | case2 output r next hr =>
    obtain ⟨hstream, htally⟩ := Reader.read_eq_ok hr
    have hnil : r.stream.rest = [] := Stream.rest_eq_nil_of_read hstream (by decide)
    have hrest := Stream.append_rest_of_read hstream
    rw [hnil] at hrest ⊢
    exact ⟨rfl, by simp, htally, hrest, Reader.source_of_read hr⟩
  | case3 output r piece next hr hp ih =>
    obtain ⟨hstream, htally⟩ := Reader.read_eq_ok hr
    have hsource := Reader.source_of_read hr
    obtain ⟨hfault, hwriter, hcounted, hnil, hsame⟩ := ih (by rw [hsource]; exact h)
    rw [← Stream.append_rest_of_read hstream]
    refine ⟨hfault, ?_, ?_, hnil, hsame.trans hsource⟩
    · rw [hwriter]
      apply Array.toList_inj.1
      simp
    · rw [hcounted, htally, Digest.Tally.update_update]

private theorem copyAll_alike (output : Array UInt8) (h : r.Alike t) :
    (copyAll output r).Alike (copyAll output t) := by
  obtain ⟨hfault, hwriter, htally, hrest, hsource⟩ := copyAll_of_faultFree output h.left
  obtain ⟨hfault', hwriter', htally', hrest', hsource'⟩ := copyAll_of_faultFree output h.right
  refine ⟨?_, ⟨?_, hrest.trans hrest'.symm, ?_, ?_⟩, hfault.trans hfault'.symm⟩
  · rw [hwriter, hwriter', h.rest_eq]
  · rw [htally, htally', h.rest_eq, h.tally_eq]
  · rw [hsource]
    exact h.left
  · rw [hsource']
    exact h.right

private theorem sizeFault?_alike (h : r.Alike t) (path : String) (size : Option Int) :
    sizeFault? path r size = sizeFault? path t size := by
  have hcount : r.count = t.count := congrArg Digest.Tally.count h.tally_eq
  unfold sizeFault?
  rw [hcount]

theorem Raw.Writer.add_alike (w : Raw.Writer) (path : String) (h : r.Alike t)
    (size : Option Int) : (w.add path r size).Alike (w.add path t size) := by
  have hcopy := copyAll_alike w.output h
  unfold add
  split
  · exact ⟨rfl, h, rfl⟩
  · refine ⟨?_, hcopy.reader_alike, ?_⟩
    · simp only [hcopy.writer_eq]
    · simp only [hcopy.fault_eq, sizeFault?_alike hcopy.reader_alike]

theorem Zip.Writer.add_alike (w : Zip.Writer) (path : String) (h : r.Alike t)
    (size : Option Int) : (w.add path r size).Alike (w.add path t size) := by
  have hcopy := copyAll_alike #[] h
  unfold add
  split
  · exact ⟨rfl, h, rfl⟩
  · split
    · exact ⟨rfl, h, rfl⟩
    · simp only
      split
      · exact ⟨rfl, h, rfl⟩
      · refine ⟨?_, hcopy.reader_alike, ?_⟩
        · simp only [hcopy.writer_eq]
        · simp only [hcopy.writer_eq, hcopy.fault_eq, sizeFault?_alike hcopy.reader_alike]

namespace Tar

theorem served_of_servesPieces {s : Source} (h : s.ServesPieces) {offset asked : Nat}
    (ha : asked ≤ copySize) : s.served offset asked = asked := by
  have := h offset asked ha
  unfold Source.served
  omega

private theorem copyExactly_alike (output : Array UInt8) (h : r.Alike t) {size : Nat}
    (hsize : size ≤ copySize) (hr : r.stream.source.ServesPieces)
    (ht : t.stream.source.ServesPieces) :
    (copyExactly output r size).Alike (copyExactly output t size) := by
  obtain ⟨piece, r', t', hread, hread', halike⟩ := h.read
    ((served_of_servesPieces hr hsize).trans (served_of_servesPieces ht hsize).symm)
  unfold copyExactly
  rw [hread, hread']
  dsimp only
  split <;> exact ⟨rfl, halike, rfl⟩

private theorem copyPieces_alike (n : Nat) {remainder : Nat} (hremainder : remainder ≤ copySize)
    (output : Array UInt8) (h : r.Alike t) (hr : r.stream.source.ServesPieces)
    (ht : t.stream.source.ServesPieces) :
    (copyPieces n remainder output r).Alike (copyPieces n remainder output t) := by
  induction n generalizing output r t with
  | zero =>
    cases remainder with
    | zero => exact ⟨rfl, h, rfl⟩
    | succ remainder => exact copyExactly_alike output h hremainder hr ht
  | succ n ih =>
    have hstep := copyExactly_alike output h (Nat.le_refl copySize) hr ht
    unfold copyPieces
    dsimp only
    rw [hstep.fault_eq]
    cases hfault : (copyExactly output t copySize).fault with
    | some fault => exact hstep
    | none =>
      dsimp only
      rw [hstep.writer_eq]
      refine ih _ hstep.reader_alike ?_ ?_
      · rw [source_copyExactly]
        exact hr
      · rw [source_copyExactly]
        exact ht

namespace Writer

private theorem addSized_alike (w : Writer) (name : String) (h : r.Alike t) (size : Int)
    (hr : r.stream.source.ServesPieces) (ht : t.stream.source.ServesPieces) :
    (w.addSized name r size).Alike (w.addSized name t size) := by
  have hremainder : (size % copySize).toNat ≤ copySize := by
    unfold copySize
    omega
  have hcopy (output : Array UInt8) :
      Added.Alike
        (if size = 0 then ⟨output, r, none⟩
          else copyPieces (size / copySize).toNat (size % copySize).toNat output r)
        (if size = 0 then ⟨output, t, none⟩
          else copyPieces (size / copySize).toNat (size % copySize).toNat output t) := by
    split
    · exact ⟨rfl, h, rfl⟩
    · exact copyPieces_alike _ hremainder output h hr ht
  unfold addSized
  split
  · exact ⟨rfl, h, rfl⟩
  · split
    · exact ⟨rfl, h, rfl⟩
    · dsimp only
      have hcopied := hcopy (w.output ++ header name size)
      rw [hcopied.fault_eq, hcopied.writer_eq]
      split <;> exact ⟨rfl, hcopied.reader_alike, rfl⟩

private theorem addDeclared_alike (w : Writer) (name : String) (h : r.Alike t) (size : Int)
    (hr : r.stream.source.ServesPieces) (ht : t.stream.source.ServesPieces) :
    (w.addDeclared name r size).Alike (w.addDeclared name t size) := by
  have hsized := w.addSized_alike name h size hr ht
  unfold addDeclared
  dsimp only
  cases hfault : (w.addSized name t size).fault with
  | some fault =>
    rw [hsized.fault_eq, hfault]
    exact hsized
  | none =>
    obtain ⟨piece, r', t', hread, hread', halike⟩ := hsized.reader_alike.read_one
    rw [hsized.fault_eq, hfault, hread, hread']
    dsimp only
    split
    · exact ⟨hsized.writer_eq, halike, rfl⟩
    · exact ⟨hsized.writer_eq, halike, rfl⟩

private theorem addSpooled_alike (w : Writer) (name : String) (h : r.Alike t) :
    (w.addSpooled name r).Alike (w.addSpooled name t) := by
  have hcopy := copyAll_alike #[] h
  unfold addSpooled
  dsimp only
  rw [hcopy.fault_eq, hcopy.writer_eq]
  split
  · exact ⟨rfl, hcopy.reader_alike, rfl⟩
  · exact ⟨rfl, hcopy.reader_alike, rfl⟩

end Writer

private theorem fault_copyExactly_of_short (output : Array UInt8) {size : Nat}
    (h : r.stream.source.FaultFree)
    (hshort : r.stream.source.served r.stream.position size < size) :
    (copyExactly output r size).fault = some (.archive .endedEarly) := by
  obtain ⟨next, hread⟩ := Reader.read_of_faultFree h size
  have hlength : (r.stream.rest.take
      (r.stream.source.served r.stream.position size)).length < size := by
    rw [List.length_take]
    omega
  unfold copyExactly
  rw [hread]
  dsimp only
  rw [if_pos hlength]

theorem Writer.fault_addDeclared_of_short (w : Writer) (name : String) {size : Int}
    (hpos : 0 < size) (h : r.stream.source.FaultFree)
    (hshort : r.stream.source.served r.stream.position (min size.toNat copySize) <
      min size.toNat copySize) :
    (w.addDeclared name r size).fault ≠ none := by
  -- the first piece is a full one or the remainder, whichever there is
  have hcopy (output : Array UInt8) :
      (copyPieces (size / copySize).toNat (size % copySize).toNat output r).fault =
        some (.archive .endedEarly) := by
    cases hn : (size / copySize).toNat with
    | zero =>
      have hremainder : (size % copySize).toNat = min size.toNat copySize := by
        unfold copySize at hn ⊢
        omega
      rw [hremainder]
      cases hmin : min size.toNat copySize with
      | zero =>
        unfold copySize at hmin
        omega
      | succ remainder =>
        rw [hmin] at hshort
        exact fault_copyExactly_of_short output h hshort
    | succ n =>
      have hfull : min size.toNat copySize = copySize := by
        unfold copySize at hn ⊢
        omega
      rw [hfull] at hshort
      have hstep := fault_copyExactly_of_short output h hshort
      unfold copyPieces
      simp only [hstep]
  have hsized : (w.addSized name r size).fault ≠ none := by
    unfold addSized
    split
    · simp
    · split
      · simp
      · simp only [if_neg (Int.ne_of_gt hpos), hcopy]
        simp
  unfold addDeclared
  cases hfault : (w.addSized name r size).fault with
  | some fault => simp [hfault]
  | none => exact absurd hfault hsized

end Tar

/-- Readers that are alike leave the same archive, whatever the cut of their reads, if they serve
whole pieces where a tar member has a declared size. -/
theorem Writer.add_alike (w : Writer) (path : String) (h : r.Alike t) (size : Option Int)
    (hpieces : w.format = .tar → size ≠ none →
      r.stream.source.ServesPieces ∧ t.stream.source.ServesPieces) :
    (w.add path r size).Alike (w.add path t size) := by
  cases w with
  | raw w => exact (w.add_alike path h size).map raw
  | zip w => exact (w.add_alike path h size).map zip
  | tar w =>
    refine Added.Alike.map ?_ tar
    cases size with
    | none => exact w.addSpooled_alike path h
    | some n =>
      obtain ⟨hr, ht⟩ := hpieces rfl (Option.some_ne_none n)
      exact w.addDeclared_alike path h n hr ht

end Archive

end Deposit
