import Deposit.Archive.Formats
import Deposit.Proofs.Archive.Tar.Writer
import Deposit.Proofs.Archive.Zip.Writer

set_option autoImplicit false
set_option relaxedAutoImplicit false

/-!
Archives of every format: an entry that is added without a fault is held with the whole content of
its reader, and a closed archive is read back as the entries it holds, in the order they were added.
What has left an archive is never taken back.
-/

namespace Deposit.Archive

namespace Raw.Writer

/-- A writer that has taken in at most one entry. -/
def Holds (w : Writer) : List (String × Bytes) → Prop
  | [] => w.path = none ∧ w.output.toList = []
  | [e] => w.path = some e.1 ∧ w.output.toList = e.2
  | _ => False

theorem holds_empty : empty.Holds [] := ⟨rfl, rfl⟩

theorem Holds.add {w : Writer} {entries : List (String × Bytes)} (h : w.Holds entries) {r : Reader}
    {algorithms : List Digest.Algorithm} {content : Bytes} (hr : r.Took algorithms content [])
    {name : String} {size : Option Int} (hf : (w.add name r size).fault = none) :
    (w.add name r size).writer.Holds (entries ++ [(name, content)]) ∧
      (w.add name r size).reader.Took algorithms content content := by
  match entries, h with
  | [], ⟨hpath, hempty⟩ =>
    unfold Writer.add at hf ⊢
    simp only [hpath, Option.or_eq_none_iff] at hf ⊢
    obtain ⟨hw, ht⟩ := copyAll_spec hr w.output hf.1
    refine ⟨⟨rfl, ?_⟩, ht⟩
    rw [hw, hempty, ← hr.append_rest]
  | [e], ⟨hpath, _⟩ =>
    unfold Writer.add at hf
    simp [hpath] at hf

private theorem prefix_add (w : Writer) (path : String) (r : Reader) (size : Option Int) :
    w.output.toList <+: (w.add path r size).writer.output.toList := by
  unfold add
  split
  · exact List.prefix_rfl
  · exact prefix_copyAll w.output r

end Raw.Writer

namespace Writer

/-- A writer that has taken in some entries and is still open. -/
def Holds : Writer → List (String × Bytes) → Prop
  | raw w => w.Holds
  | tar w => w.Holds
  | zip w => w.Holds

/-- A writer of a format. -/
def format : Writer → ArchiveFormat
  | raw _ => .none
  | tar _ => .tar
  | zip _ => .zip

/-- Whatever stream an archive is written over, it sees nothing but that bytes go in, and so it is
written in the same way. -/
theorem above_eq_start (format : ArchiveFormat) (sink : Sink) :
    above format sink = start format := by
  cases format with
  | none => rfl
  | tar => rfl
  | zip =>
    have hhidden : (Sink.writeOnly sink).isSeekable = (Sink.writeOnly .recorder).isSeekable := rfl
    rw [above, start, above, onto, onto, Zip.Writer.start, hhidden]
    rfl

theorem holds_start (format : ArchiveFormat) : (start format).Holds [] := by
  cases format
  · exact Raw.Writer.holds_empty
  · exact Tar.Writer.holds_empty
  · exact Zip.Writer.holds_empty

@[simp] theorem format_start (f : ArchiveFormat) : (start f).format = f := by
  cases f <;> rfl

@[simp] theorem format_add (w : Writer) (path : String) (r : Reader) (size : Option Int) :
    (w.add path r size).writer.format = w.format := by
  cases w <;> rfl

/-- An entry that is added without a fault is held with its whole content, which has been counted
on the way. -/
theorem Holds.add {w : Writer} {entries : List (String × Bytes)} (h : w.Holds entries) {r : Reader}
    {algorithms : List Digest.Algorithm} {content : Bytes} (hr : r.Took algorithms content [])
    {name : String} {size : Option Int} (hsize : ∀ n, size = some n → 0 ≤ n)
    (hf : (w.add name r size).fault = none) :
    (w.add name r size).writer.Holds (entries ++ [(name, content)]) ∧
      (w.add name r size).reader.Took algorithms content content := by
  cases w with
  | raw w => exact Raw.Writer.Holds.add h hr hf
  | tar w => exact Tar.Writer.Holds.add h hr hsize hf
  | zip w => exact Zip.Writer.Holds.add h hr hf

theorem written_prefix_add (w : Writer) (path : String) (r : Reader) (size : Option Int) :
    w.written <+: (w.add path r size).writer.written := by
  cases w with
  | raw w => exact w.prefix_add path r size
  | tar w => exact w.written_prefix_add path r size
  | zip w => exact (w.extends_add path r size).output_le

/-- A writer whose end has not been written, over a stream that stays where it is. -/
def IsOpen : Writer → Prop
  | raw _ => True
  | tar w => w.closed = false
  | zip w => w.IsOpen

theorem isOpen_start (format : ArchiveFormat) : (start format).IsOpen := by
  cases format
  · trivial
  · rfl
  · exact Zip.Writer.isOpen_empty

theorem IsOpen.add {w : Writer} (h : w.IsOpen) (path : String) (r : Reader) (size : Option Int) :
    (w.add path r size).writer.IsOpen := by
  cases w with
  | raw w => trivial
  | tar w => exact (w.prefix_output_add path r size).1.trans h
  | zip w => exact Zip.Writer.IsOpen.add h path r size

/-- How a closed archive ends, behind all that was written before: with two blocks of zeros and the
zeros that complete a record, or with the directory of all members and the records that lead to
it. -/
def EndsIn : Writer → Bytes → Prop
  | raw w, bytes => bytes = w.output.toList
  | tar w, bytes => ∃ k, bytes = w.output.toList ++ Bytes.zeros (2 * Tar.blockSize + k)
  | zip w, bytes => bytes = w.output.toList ++ w.central ++ Zip.endRecords w.members.length
      (w.output.size + w.central.length - w.directory) w.directory

theorem IsOpen.endsIn_close {w : Writer} (h : w.IsOpen) : w.EndsIn w.close.written := by
  cases w with
  | raw w => rfl
  | tar w =>
    obtain ⟨k, hk, -⟩ := Tar.Writer.written_close h
    exact ⟨k, hk⟩
  | zip w => exact Zip.Writer.output_close h

theorem written_prefix_close (w : Writer) : w.written <+: w.close.written := by
  cases w with
  | raw w => exact List.prefix_rfl
  | tar w => exact w.written_prefix_close
  | zip w => exact w.prefix_close

end Writer

theorem Writer.Holds.recordSize_dvd {w : Writer} {entries : List (String × Bytes)}
    (h : w.Holds entries) (hf : w.format = .tar) : Tar.recordSize ∣ w.close.written.length := by
  cases w with
  | raw w => simp [format] at hf
  | tar w =>
    obtain ⟨k, -, hdvd⟩ := Tar.Writer.written_close (Tar.Writer.Holds.isOpen h)
    exact hdvd (Tar.Writer.Holds.offset_eq h)
  | zip w => simp [format] at hf

/-- The name under which an entry is found in an archive of a format: without an archive it has
none. -/
def entryName? : ArchiveFormat → String → Option String
  | .none, _ => none
  | _, path => some path

/-- The name under which a reader finds an entry: a zip archive cuts it before its first zero
character, and so does the name field of a tar archive. -/
def storedName? : ArchiveFormat → String → Option String
  | .none, _ => none
  | .tar, path => some (Tar.storedName path)
  | .zip, path => some (Zip.cutName path)

/-- A closed archive is read back: all entries it holds, in the order they were added, under the
names stored of them. -/
theorem Writer.Holds.read?_close_stored {w : Writer} {entries : List (String × Bytes)}
    (h : w.Holds entries) (hne : entries ≠ []) (hf : w.closeFault? = none) :
    read? w.format w.close.written =
      some (entries.map fun e => (storedName? w.format e.1, e.2)) := by
  cases w with
  | raw w =>
    match entries, h with
    | [e], ⟨_, hout⟩ =>
      show some [(none, w.output.toList)] = some [(none, e.2)]
      rw [hout]
  | tar w =>
    show (Tar.read? w.close.written).map _ = _
    rw [Tar.Writer.Holds.read?_close h, Option.map_some, List.map_map]
    rfl
  | zip w =>
    obtain ⟨found, hfound, hmap⟩ := Zip.Writer.Holds.readWith?_close h
      Codec.Deflate.undoneBy_decode hf
    have hnames := congrArg (List.map fun f : String × Bytes => (some f.1, f.2)) hmap
    rw [List.map_map, List.map_map] at hnames
    show (Zip.read? w.close.output.toList).map _ = _
    rw [Zip.read?, hfound]
    exact congrArg some hnames

theorem ofList_takeWhile_eq_self_iff {path : String} :
    String.ofList (path.toList.takeWhile (· ≠ '\x00')) = path ↔ '\x00' ∉ path.toList := by
  constructor
  · intro h hmem
    have hchars : path.toList.takeWhile (· ≠ '\x00') = path.toList := by
      rw [← String.toList_ofList (l := path.toList.takeWhile (· ≠ '\x00')), h]
    simpa using List.takeWhile_eq_self_iff.1 hchars '\x00' hmem
  · intro hn
    have hchars : path.toList.takeWhile (· ≠ '\x00') = path.toList := by
      rw [List.takeWhile_eq_self_iff]
      intro c hc
      exact decide_eq_true fun he => hn (he ▸ hc)
    rw [hchars, String.ofList_toList]

theorem storedName?_eq_some_iff {format : ArchiveFormat} (harchive : format ≠ .none)
    {path : String} :
    storedName? format path = some path ↔
      '\x00' ∉ path.toList ∨ (format = .tar ∧ Tar.needsPathRecord path = true) := by
  cases format with
  | none => exact absurd rfl harchive
  | tar =>
    rw [storedName?, Option.some.injEq, Tar.storedName]
    by_cases hrecord : Tar.needsPathRecord path = true
    · simp [hrecord]
    · rw [if_neg hrecord, ofList_takeWhile_eq_self_iff]
      simp [hrecord]
  | zip =>
    rw [storedName?, Option.some.injEq, Zip.cutName, ofList_takeWhile_eq_self_iff]
    simp

private theorem storedName?_of_not_mem (format : ArchiveFormat) {path : String}
    (hn : '\x00' ∉ path.toList) : storedName? format path = entryName? format path := by
  cases format with
  | none => rfl
  | tar => exact (storedName?_eq_some_iff (by decide)).2 (.inl hn)
  | zip => exact (storedName?_eq_some_iff (by decide)).2 (.inl hn)

theorem Writer.Holds.read?_close {w : Writer} {entries : List (String × Bytes)}
    (h : w.Holds entries) (hne : entries ≠ []) (hn : ∀ e ∈ entries, '\x00' ∉ e.1.toList)
    (hf : w.closeFault? = none) :
    read? w.format w.close.written =
      some (entries.map fun e => (entryName? w.format e.1, e.2)) := by
  rw [h.read?_close_stored hne hf]
  refine congrArg some (List.map_congr_left fun e he => ?_)
  rw [storedName?_of_not_mem w.format (hn e he)]

end Deposit.Archive
