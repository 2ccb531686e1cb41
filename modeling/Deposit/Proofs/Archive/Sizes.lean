import Deposit.Proofs.Archive.Tar.RoundTrip
import Deposit.Proofs.Archive.Zip.Taking

set_option autoImplicit false
set_option relaxedAutoImplicit false

/-!
Declared sizes under every format. A tar archive copies as many bytes as are declared and looks for
one more, the others count what they have read to the end; either way an entry is taken exactly if
its declared size is its own, as long as the format has fields for it.
-/

namespace Deposit.Archive

/-- An entry that a format has fields for: a tar archive for the length of its extended header, a
zip archive for those of its name and its packed data. -/
def Expressible : ArchiveFormat → String → Bytes → Prop
  | .none, _, _ => True
  | .tar, path, content => (Tar.records path content.length).length < Tar.sizeLimit
  | .zip, path, content => Zip.Fits path content

private theorem length_le_ofText (cs : List Char) :
    cs.length ≤ (cs.flatMap String.utf8EncodeChar).length := by
  induction cs with
  | nil => exact Nat.le_refl 0
  | cons c cs ih =>
    have hc : 1 ≤ (String.utf8EncodeChar c).length := by
      rw [String.length_utf8EncodeChar]
      exact c.utf8Size_pos
    rw [List.flatMap_cons, List.length_append, List.length_cons]
    omega

private theorem length_ofText_cutName_le (path : String) :
    (Bytes.ofText (Zip.cutName path)).length ≤ (Bytes.ofText path).length := by
  obtain ⟨rest, hrest⟩ := List.takeWhile_prefix (l := path.toList) (· ≠ '\x00')
  rw [Zip.cutName, Bytes.ofText, Bytes.ofText, String.toList_ofList]
  conv_rhs => rw [← hrest]
  rw [List.flatMap_append, List.length_append]
  exact Nat.le_add_right _ _

theorem expressible_of_le (format : ArchiveFormat) {path : String} {content : Bytes}
    (hpath : (Bytes.ofText path).length ≤ 65535) (hsize : content.length < 2 ^ 63) :
    Expressible format path content := by
  cases format with
  | none => trivial
  | tar =>
    have hchars : path.length ≤ (Bytes.ofText path).length := by
      rw [← String.length_toList]
      exact length_le_ofText path.toList
    exact Tar.fits_of_le (e := ⟨path, .ofBytes content, none⟩)
      (hchars.trans (hpath.trans (by omega)))
      (hsize.trans (by omega))
  | zip => exact Zip.fits_of_lt ((length_ofText_cutName_le path).trans hpath) hsize

variable {r : Reader} {algorithms : List Digest.Algorithm} {content : Bytes} {path : String}
  {size : Option Int}

namespace Raw.Writer

variable {w : Writer}

theorem right_of_add (hr : r.Took algorithms content []) (hf : (w.add path r size).fault = none) :
    ∀ n, size = some n → n = content.length := by
  unfold add at hf
  split at hf
  · cases hf
  · obtain ⟨hcopied, hcount⟩ := Option.or_eq_none_iff.1 hf
    rwa [sizeFault?_eq_none_iff, (copyAll_spec hr w.output hcopied).2.count_eq] at hcount

theorem fault_add_eq_none_iff (hfirst : w.path = none) (hr : r.Took algorithms content [])
    (hfree : r.stream.source.FaultFree) :
    (w.add path r size).fault = none ↔ ∀ n, size = some n → n = content.length := by
  refine ⟨right_of_add hr, fun hright => ?_⟩
  obtain ⟨hcopied, -⟩ := copyAll_of_faultFree w.output hfree
  have hcount : sizeFault? path (copyAll w.output r).reader size = none := by
    rw [sizeFault?_eq_none_iff, (copyAll_spec hr w.output hcopied).2.count_eq]
    exact hright
  unfold add
  rw [hfirst]
  simp only [hcopied, hcount, Option.none_or]

end Raw.Writer

namespace Writer

variable {w : Writer}

/-- A writer that has room for an entry: without an archive, for its only one. -/
def IsReady : Writer → Prop
  | raw w => w.path = none
  | tar w => w.closed = false
  | zip w => w.IsOpen

theorem isReady_start (format : ArchiveFormat) : (start format).IsReady := by
  cases format
  · rfl
  · rfl
  · exact Zip.Writer.isOpen_empty

theorem IsOpen.isReady (h : w.IsOpen) (harchive : w.format ≠ .none) : w.IsReady := by
  cases w with
  | raw w => exact absurd rfl harchive
  | tar w => exact h
  | zip w => exact h

theorem right_of_add (hr : r.Took algorithms content []) (hnonneg : ∀ n, size = some n → 0 ≤ n)
    (hf : (w.add path r size).fault = none) : ∀ n, size = some n → n = content.length := by
  cases w with
  | raw w => exact Raw.Writer.right_of_add hr hf
  | tar w =>
    rintro n rfl
    obtain ⟨-, hlength, -⟩ := Tar.Writer.addDeclared_eq_none hr hf
    have hn := Tar.copyLength_of_nonneg (hnonneg n rfl)
    omega
  | zip w => exact (Zip.Writer.right_of_add hr hf).1

/-- Whatever the format, an entry whose source fails at no read and serves whole pieces is taken
exactly if the size that is declared of it, if one is, is its own, and if the format has fields for
it. -/
theorem fault_add_eq_none_iff (hready : w.IsReady) (hr : r.Took algorithms content [])
    (hfree : r.stream.source.FaultFree) (hserves : r.stream.source.ServesPieces)
    (hnonneg : ∀ n, size = some n → 0 ≤ n) :
    (w.add path r size).fault = none ↔
      (∀ n, size = some n → n = content.length) ∧ Expressible w.format path content := by
  cases w with
  | raw w =>
    exact (Raw.Writer.fault_add_eq_none_iff hready hr hfree).trans (and_iff_left trivial).symm
  | tar w => exact Tar.Writer.fault_add_eq_none_iff hready hr hfree hserves hnonneg
  | zip w => exact Zip.Writer.fault_add_eq_none_iff hready hr hfree

/-- Only a tar archive takes an entry of which a negative size is declared, and only if its content
is as long as the remainder of that size. -/
theorem format_eq_tar_of_add {n : Int} (hneg : n < 0) (hr : r.Took algorithms content [])
    (hf : (w.add path r (some n)).fault = none) :
    w.format = .tar ∧ (content.length : Int) = n % Tar.copySize := by
  cases w with
  | raw w =>
    have hn := Raw.Writer.right_of_add hr hf n rfl
    omega
  | tar w =>
    obtain ⟨-, hlength, -⟩ := Tar.Writer.addDeclared_eq_none hr hf
    exact ⟨rfl, by rw [hlength, Tar.copyLength_of_neg hneg]⟩
  | zip w =>
    have hn := (Zip.Writer.right_of_add hr hf).1 n rfl
    omega

end Writer

end Deposit.Archive
