import Deposit.Proofs.Archive.Offered
import Deposit.Proofs.Archive.Zip.Taking

set_option autoImplicit false
set_option relaxedAutoImplicit false

/-!
A zip archive from the first entry to its end. Sizes and checks are known only behind the data, so
they stand in three places: as zeros before the data, in the descriptor behind them, and in the
directory. All three are read here at the offsets where they stand, each record directly behind the
one before it, and found to agree with the content.
-/

namespace Deposit.Archive.Zip

/-- Records that stand one behind the other from one offset to another. -/
inductive Chain {α : Type} (At : Nat → α → Nat → Prop) : Nat → List α → Nat → Prop where
  | nil (offset : Nat) : Chain At offset [] offset
  | cons {offset next stop : Nat} {x : α} {xs : List α} (first : At offset x next)
      (more : Chain At next xs stop) : Chain At offset (x :: xs) stop

theorem Chain.snoc {α : Type} {At : Nat → α → Nat → Prop} {offset next stop : Nat} {x : α}
    {xs : List α} (h : Chain At offset xs next) (last : At next x stop) :
    Chain At offset (xs ++ [x]) stop := by
  induction h with
  | nil offset => exact .cons last (.nil stop)
  | cons first _ ih => exact .cons first (ih last)

/-- The place of the data of a member, behind its name and the extra field of a wide one. -/
def Member.dataPlace (m : Member) : Nat :=
  m.offset + 30 + (Bytes.ofText m.name).length + if m.isWide then 20 else 0

def Member.descriptorPlace (m : Member) : Nat :=
  m.dataPlace + m.packedSize

variable {inflate : Bytes → Option (Bytes × Bytes)}

/-- A member at an offset of an archive, with its content, up to the end of its descriptor. The
header before the data leaves check and sizes open; the descriptor gives those of the content, with
sizes of 64 bits if the member is wide. -/
structure MemberAt (inflate : Bytes → Option (Bytes × Bytes)) (archive : Bytes) (offset : Nat)
    (p : Member × Bytes) (stop : Nat) : Prop where
  offset_eq : p.1.offset = offset
  header_eq : numbers localWidths (archive.drop offset) =
    [0x04034b50, 20, flags p.1.name, 8, 0, 0x21, 0, 0, 0, (Bytes.ofText p.1.name).length,
      if p.1.isWide then 20 else 0]
  name_eq : (archive.drop (offset + 30)).take (Bytes.ofText p.1.name).length =
    Bytes.ofText p.1.name
  data_eq : inflate (archive.drop p.1.dataPlace) =
    some (p.2, archive.drop p.1.descriptorPlace)
  descriptor_eq : numbers (descriptorWidths p.1.isWide) (archive.drop p.1.descriptorPlace) =
    [0x08074b50, p.1.crc, p.1.packedSize, p.1.size]
  crc_eq : p.1.crc = (Codec.crc32 p.2).toNat
  size_eq : p.1.size = p.2.length
  stop_eq : stop = p.1.descriptorPlace + if p.1.isWide then 24 else 16

/-- The numbers that some fields of a directory entry give: where a field shows all ones, the next
of the wide numbers stands for it. -/
def given (wide : List Nat) : List Nat → List Nat
  | [] => []
  | shown :: more =>
    if shown = allOnes then wide.headD 0 :: given wide.tail more else shown :: given wide more

/-- The directory entry of a member at a place of an archive, with its name and its extra field. -/
structure EntryAt (archive : Bytes) (place : Nat) (m : Member) (stop : Nat) : Prop where
  name_eq : (archive.drop (place + 46)).take (Bytes.ofText m.name).length = Bytes.ofText m.name
  fields_eq : ∃ needed packedSize size offset extraLength,
    numbers centralWidths (archive.drop place) =
      [0x02014b50, needed, 3, needed, 0, flags m.name, 8, 0, 0x21, m.crc, packedSize, size,
        (Bytes.ofText m.name).length, extraLength, 0, 0, 0, 0o644 * 65536, offset] ∧
    given (wideNumbersOf
        ((archive.drop (place + 46 + (Bytes.ofText m.name).length)).take extraLength))
      [size, packedSize, offset] = [m.size, m.packedSize, m.offset] ∧
    stop = place + 46 + (Bytes.ofText m.name).length + extraLength

/-- An archive of members with their contents: they stand one behind the other from its start to the
directory, whose entries lead to them in the same order, and the end records lead to the
directory. -/
structure WellFormed (inflate : Bytes → Option (Bytes × Bytes)) (archive : Bytes)
    (placed : List (Member × Bytes)) (directory stop : Nat) : Prop where
  members : Chain (MemberAt inflate archive) 0 placed directory
  entries : Chain (EntryAt archive) directory (placed.map Prod.fst) stop
  ends : archive.drop stop = endRecords placed.length (stop - directory) directory

/-- A member whose numbers are those of a content and fit the fields chosen for them. -/
structure Member.Describes (m : Member) (content : Bytes) : Prop where
  name_lt : (Bytes.ofText m.name).length < 256 ^ 2
  crc_eq : m.crc = (Codec.crc32 content).toNat
  size_eq : m.size = content.length
  packedSize_eq : m.packedSize = (Codec.Deflate.encode content).length
  packedSize_lt : m.packedSize < wideLimit
  narrow : m.isWide = false → m.packedSize ≤ sizeLimit

/-- What stands in an archive of a member before the directory. -/
def segment (m : Member) (content : Bytes) : Bytes :=
  localHeader m.name m.isWide ++ (Codec.Deflate.encode content ++ descriptor m)

theorem Member.Describes.numbers_descriptor {m : Member} {content : Bytes} (h : m.Describes content)
    (rest : Bytes) : numbers (descriptorWidths m.isWide) (descriptor m ++ rest) =
      [0x08074b50, m.crc, m.packedSize, m.size] := by
  have hcrc : m.crc < 256 ^ 4 := by
    rw [h.crc_eq]
    exact UInt32.toNat_lt _
  have hsize : m.size < m.packedSize := by
    rw [h.size_eq, h.packedSize_eq]
    exact Codec.Deflate.length_lt_encode content
  refine Zip.numbers_descriptor hcrc (fun hw => ?_) h.packedSize_lt
    (hsize.trans h.packedSize_lt) rest
  have hle := h.narrow hw
  rw [sizeLimit] at hle
  omega

private theorem memberAt_segment (hinflate : Codec.Deflate.UndoneBy inflate) {m : Member}
    {content : Bytes} (h : m.Describes content) {before : Bytes}
    (hoffset : m.offset = before.length) (rest : Bytes) :
    MemberAt inflate (before ++ (segment m content ++ rest)) before.length (m, content)
      (before ++ segment m content).length := by
  have harchive : before ++ (segment m content ++ rest) =
      before ++ (localHeader m.name m.isWide ++
        (Codec.Deflate.encode content ++ (descriptor m ++ rest))) := by
    simp only [segment, List.append_assoc]
  have hdata : m.dataPlace = (before ++ localHeader m.name m.isWide).length := by
    rw [Member.dataPlace, List.length_append, length_localHeader, length_localExtra, hoffset]
    omega
  have hdescriptor : m.descriptorPlace =
      (before ++ localHeader m.name m.isWide ++ Codec.Deflate.encode content).length := by
    rw [Member.descriptorPlace, hdata, h.packedSize_eq, ← List.length_append]
  have hbehind : (before ++ (segment m content ++ rest)).drop m.descriptorPlace =
      descriptor m ++ rest := by
    rw [harchive, hdescriptor, ← List.append_assoc, ← List.append_assoc, List.drop_left]
  refine ⟨hoffset, ?_, ?_, ?_, ?_, h.crc_eq, h.size_eq, ?_⟩
  · rw [harchive, List.drop_left, numbers_localHeader h.name_lt, length_localExtra]
    rfl
  · rw [harchive, ← List.drop_drop, List.drop_left,
      List.drop_append_of_le_length (by rw [length_localHeader]; omega), drop_localHeader,
      List.append_assoc]
    exact List.take_left
  · rw [hbehind, harchive, hdata, ← List.append_assoc, List.drop_left]
    exact hinflate content _
  · rw [hbehind]
    exact h.numbers_descriptor rest
  · rw [hdescriptor, ← length_descriptor, ← List.length_append, segment]
    simp only [List.append_assoc]

/-- Members with their contents, laid down one behind the other. -/
inductive Laid : List (Member × Bytes) → Bytes → Prop where
  | nil : Laid [] []
  | snoc {placed : List (Member × Bytes)} {bs : Bytes} (before : Laid placed bs) {m : Member}
      {content : Bytes} (describes : m.Describes content) (offset_eq : m.offset = bs.length) :
      Laid (placed ++ [(m, content)]) (bs ++ segment m content)

private theorem Laid.chain (hinflate : Codec.Deflate.UndoneBy inflate)
    {placed : List (Member × Bytes)}
    {bs : Bytes} (h : Laid placed bs) (rest : Bytes) :
    Chain (MemberAt inflate (bs ++ rest)) 0 placed bs.length := by
  induction h generalizing rest with
  | nil => exact .nil 0
  | snoc _ describes offset_eq ih =>
    rw [List.append_assoc]
    exact (ih _).snoc (memberAt_segment hinflate describes offset_eq rest)

private theorem given_wideNumbers (m : Member) :
    given (wideNumbers m)
        [if hidesSizes m then allOnes else m.size, if hidesSizes m then allOnes else m.packedSize,
          if sizeLimit < m.offset then allOnes else m.offset] =
      [m.size, m.packedSize, m.offset] := by
  have hoffset : given (if sizeLimit < m.offset then [m.offset] else [])
      [if sizeLimit < m.offset then allOnes else m.offset] = [m.offset] := by
    by_cases hfar : sizeLimit < m.offset
    · rw [if_pos hfar, if_pos hfar]
      rfl
    · have hne : m.offset ≠ allOnes := by
        rw [sizeLimit] at hfar
        rw [allOnes]
        omega
      rw [if_neg hfar, if_neg hfar, given, if_neg hne, given]
  unfold wideNumbers
  by_cases hlarge : hidesSizes m
  · rw [if_pos hlarge, if_pos hlarge, if_pos hlarge, given, if_pos rfl, given, if_pos rfl]
    exact congrArg (m.size :: m.packedSize :: ·) hoffset
  · have hne : m.size ≠ allOnes ∧ m.packedSize ≠ allOnes := by
      simp only [hidesSizes, sizeLimit] at hlarge
      rw [allOnes]
      omega
    rw [if_neg hlarge, if_neg hlarge, if_neg hlarge, List.nil_append, given, if_neg hne.1, given,
      if_neg hne.2, hoffset]

private theorem entryAt_centralRecord {m : Member} (h : m.Fits) (before rest : Bytes) :
    EntryAt (before ++ (centralRecord m ++ rest)) before.length m
      (before ++ centralRecord m).length := by
  refine ⟨?_, neededVersion m, if hidesSizes m then allOnes else m.packedSize,
    if hidesSizes m then allOnes else m.size, if sizeLimit < m.offset then allOnes else m.offset,
    (centralExtra m).length, ?_, ?_, ?_⟩
  · rw [← List.drop_drop, List.drop_left, drop_centralRecord]
    exact List.take_left
  · rw [List.drop_left, numbers_centralRecord h]
    rfl
  · rw [Nat.add_assoc, ← List.drop_drop, List.drop_left, drop_name_centralRecord, List.take_left,
      wideNumbersOf_centralExtra h]
    exact given_wideNumbers m
  · rw [List.length_append, length_centralRecord]
    omega

private theorem chain_central {ms : List Member} (h : ∀ m ∈ ms, m.Fits) (before rest : Bytes) :
    Chain (EntryAt (before ++ (ms.flatMap centralRecord ++ rest))) before.length ms
      (before ++ ms.flatMap centralRecord).length := by
  induction ms generalizing before with
  | nil => simpa using Chain.nil before.length
  | cons m ms ih =>
    rw [List.flatMap_cons, List.append_assoc]
    refine .cons (entryAt_centralRecord (h m List.mem_cons_self) before _) ?_
    rw [← List.append_assoc before, ← List.append_assoc before]
    exact ih (fun m hm => h m (List.mem_cons_of_mem _ hm)) _

private theorem fits_of_stored {output : Bytes} {ms : List Member} {entries : List (String × Bytes)}
    (h : List.Forall₂ (Member.Stored output) ms entries) (hl : output.length < wideLimit) :
    ∀ m ∈ ms, m.Fits := by
  induction h with
  | nil => simp
  | cons hm _ ih =>
    rw [List.forall_mem_cons]
    exact ⟨hm.fits hl, ih⟩

namespace Writer

variable {w : Writer} {placed : List (Member × Bytes)} {entries : List (String × Bytes)}
  {algorithms : List Digest.Algorithm}

/-- A writer whose members are laid down with their contents. -/
structure Lays (w : Writer) (placed : List (Member × Bytes)) : Prop where
  members_eq : w.members = placed.map Prod.fst
  laid : Laid placed w.output.toList

private theorem lays_empty : empty.Lays [] := ⟨rfl, .nil⟩

theorem Lays.wellFormed_close (hinflate : Codec.Deflate.UndoneBy inflate) (h : w.Lays placed)
    (hholds : w.Holds entries) (hf : w.closeFault? = none) :
    WellFormed inflate w.close.output.toList placed w.output.size
      (w.output.size + w.central.length) := by
  have hlength : w.output.toList.length < wideLimit := by
    have hl : w.output.size + w.central.length < wideLimit := by
      simpa [closeFault?_eq hholds.isOpen] using hf
    rw [Array.length_toList]
    omega
  have hfits := fits_of_stored hholds.stored hlength
  have hcount : w.members.length = placed.length := by
    rw [h.members_eq, List.length_map]
  rw [hholds.output_close, hcount]
  refine ⟨?_, ?_, ?_⟩
  · rw [List.append_assoc, ← Array.length_toList]
    exact h.laid.chain hinflate _
  · rw [List.append_assoc, ← Array.length_toList, ← List.length_append, ← h.members_eq]
    exact chain_central hfits _ _
  · rw [List.drop_left' (by rw [List.length_append, Array.length_toList]), Nat.add_sub_cancel_left]

variable {r : Reader} {content : Bytes} {path : String} {size : Option Int}

theorem Lays.add (h : w.Lays placed) (hopen : w.IsOpen)
    (hr : r.Took algorithms content []) (hfree : r.stream.source.FaultFree)
    (hright : ∀ n, size = some n → n = content.length) (hfits : Fits path content) :
    (w.add path r size).writer.Lays
      (placed ++ [(memberOf (cutName path) (isWide size) w.output.size content, content)]) := by
  rw [(add_of_fits hopen hr hfree hright hfits).1]
  refine ⟨?_, ?_⟩
  · rw [h.members_eq, List.map_append]
    rfl
  · have hdescribes :
        (memberOf (cutName path) (isWide size) w.output.size content).Describes content := by
      refine ⟨Nat.lt_succ_of_le hfits.name_le, rfl, rfl, rfl, hfits.packed_lt, ?_⟩
      exact length_encode_le_of_narrow hright
    have hlaid := h.laid.snoc hdescribes Array.length_toList.symm
    simpa only [segment, Array.toList_appendList, List.append_assoc] using hlaid

end Writer

/-- An entry that a zip archive is meant for: its source fails at no read, a size that is declared
of it is its own, and its name has no zero character and fits the field for its length. -/
structure IsPlain (e : Offered) : Prop where
  faultFree : e.source.FaultFree
  size_eq : ∀ n, e.size = some n → n = e.source.bytes.length
  noZero : '\x00' ∉ e.path.toList
  name_le : (Bytes.ofText e.path).length ≤ 65535

/-- The member of an entry with its content. It is wide if the size of the entry is unknown, or so
large that a twentieth more may not fit 32 bits. -/
structure Matches (p : Member × Bytes) (e : Offered) : Prop where
  name_eq : p.1.name = e.path
  content_eq : p.2 = e.source.bytes
  isWide_iff : p.1.isWide = true ↔ e.size = none ∨ sizeLimit * 20 < e.source.bytes.length * 21

private theorem IsPlain.cutName_eq {e : Offered} (h : IsPlain e) : cutName e.path = e.path :=
  ofList_takeWhile_eq_self_iff.2 h.noZero

private theorem matches_memberOf {e : Offered} (h : IsPlain e) (offset : Nat) :
    Matches
      (memberOf (cutName e.path) (isWide e.size) offset e.source.bytes, e.source.bytes) e := by
  refine ⟨h.cutName_eq, rfl, ?_⟩
  show isWide e.size = true ↔ _
  rw [isWide_eq_true_iff]
  cases hsize : e.size with
  | none => simp
  | some n =>
    rw [h.size_eq n hsize]
    simp only [Option.some.injEq, forall_eq', reduceCtorEq, false_or]
    omega

theorem Writer.Lays.addAll {w : Writer} {placed : List (Member × Bytes)}
    {entries : List (String × Bytes)} (h : w.Lays placed) (hholds : w.Holds entries)
    (algorithms : List Digest.Algorithm) {offered : List Offered}
    (hplain : ∀ e ∈ offered, IsPlain e)
    (hpacked : ∀ e ∈ offered, (Codec.Deflate.encode e.source.bytes).length < wideLimit) :
    ∃ (next : Writer) (more : List (Member × Bytes)),
      (Archive.Writer.zip w).addAll algorithms offered = (.zip next, none) ∧
      next.Holds (entries ++ offered.map Offered.entry) ∧ next.Lays (placed ++ more) ∧
      List.Forall₂ Matches more offered := by
  induction offered generalizing w placed entries with
  | nil => exact ⟨w, [], rfl, by simpa using hholds, by simpa using h, .nil⟩
  | cons e offered ih =>
    have he := hplain e List.mem_cons_self
    have htook := Reader.took_start algorithms e.source
    have hfits : Fits e.path e.source.bytes := by
      refine ⟨?_, hpacked e List.mem_cons_self⟩
      rw [he.cutName_eq]
      exact he.name_le
    have hfault : (w.add e.path (e.reader algorithms) e.size).fault = none :=
      (fault_add_eq_none_iff hholds.isOpen htook he.faultFree).2 ⟨he.size_eq, hfits⟩
    have hnext := hholds.add htook hfault
    obtain ⟨next, more, hrun, hall, hlays, hmatches⟩ :=
      ih (h.add hholds.isOpen htook he.faultFree he.size_eq hfits) hnext.1
        (fun e he => hplain e (List.mem_cons_of_mem _ he))
        fun e he => hpacked e (List.mem_cons_of_mem _ he)
    refine ⟨next, _ :: more, ?_, ?_, ?_, .cons (matches_memberOf he w.output.size) hmatches⟩
    · rw [Archive.Writer.addAll]
      simp only [Archive.Writer.add, Added.map, hfault]
      exact hrun
    · rwa [List.append_assoc] at hall
    · rwa [List.append_assoc] at hlays

/-- Plain entries, in any number, are taken one after the other, and what has left the archive
before stays as it is. The closed archive is read back as exactly these paths and contents, in their
order, and it is well formed from its start to its end: unless it is so long, or the packed data of
an entry are, that no field of a zip archive can say where it ends. -/
theorem addAll_reads_back {inflate : Bytes → Option (Bytes × Bytes)}
    (hinflate : Codec.Deflate.UndoneBy inflate) (algorithms : List Digest.Algorithm)
    (offered : List Offered) (hplain : ∀ e ∈ offered, IsPlain e) :
    ∃ (w : Archive.Writer) (fault : Option Fault),
      (Archive.Writer.start .zip).addAll algorithms offered = (w, fault) ∧
      (∀ k, ((Archive.Writer.start .zip).addAll algorithms (offered.take k)).1.written <+:
        w.close.written) ∧
      ((∃ e ∈ offered, wideLimit ≤ (Codec.Deflate.encode e.source.bytes).length) ∨
        wideLimit ≤ w.close.written.length ∨
        fault = none ∧ w.closeFault? = none ∧
          ∃ (placed : List (Member × Bytes)) (found : List Found) (directory stop : Nat),
            List.Forall₂ Matches placed offered ∧
            readWith? inflate w.close.written = some found ∧
            found.map (fun f => (f.name, f.content)) = offered.map Offered.entry ∧
            WellFormed inflate w.close.written placed directory stop) := by
  have hkept (k : Nat) :
      ((Archive.Writer.start .zip).addAll algorithms (offered.take k)).1.written <+:
        ((Archive.Writer.start .zip).addAll algorithms offered).1.close.written :=
    ((Archive.Writer.start .zip).written_addAll_take algorithms offered k).trans
      (Archive.Writer.written_prefix_close _)
  refine ⟨_, _, rfl, hkept, ?_⟩
  by_cases hlong : ∃ e ∈ offered, wideLimit ≤ (Codec.Deflate.encode e.source.bytes).length
  · exact .inl hlong
  · have hpacked : ∀ e ∈ offered,
        (Codec.Deflate.encode e.source.bytes).length < wideLimit := by
      simpa using hlong
    obtain ⟨next, placed, hrun, hholds, hlays, hmatches⟩ :=
      Writer.lays_empty.addAll Writer.holds_empty algorithms hplain hpacked
    rw [List.nil_append] at hholds hlays
    have hstart : (Archive.Writer.start .zip).addAll algorithms offered = (.zip next, none) := hrun
    rw [hstart]
    cases hclose : (Archive.Writer.zip next).closeFault? with
    | some fault =>
      have hopen : (Archive.Writer.zip next).IsOpen := hholds.isOpen
      exact .inr (.inl (Archive.Writer.closeFault?_eq_some hopen hclose).2.2)
    | none =>
      obtain ⟨found, hread, hfound⟩ := hholds.readWith?_close hinflate hclose
      refine .inr (.inr ⟨rfl, rfl, placed, found, _, _, hmatches, hread, ?_,
        hlays.wellFormed_close hinflate hholds hclose⟩)
      rw [hfound, List.map_map]
      refine List.map_congr_left fun e he => ?_
      exact congrArg (·, e.source.bytes) (hplain e he).cutName_eq

/-- A declared size, an unknown one with a name that is not in ASCII, and an empty file. -/
def papers : List Offered :=
  [⟨"notes.txt", .ofBytes (Bytes.ofText "Dear all,"), some 9⟩,
    ⟨"été.txt", .ofBytes (Bytes.ofText "yours"), none⟩,
    ⟨"empty", .ofBytes [], some 0⟩]

theorem papers_read_back :
    (∀ e ∈ papers, IsPlain e) ∧
      ∃ (w : Archive.Writer) (placed : List (Member × Bytes)) (found : List Found)
          (directory stop : Nat),
        (Archive.Writer.start .zip).addAll [] papers = (w, none) ∧
        List.Forall₂ Matches placed papers ∧ read? w.close.written = some found ∧
        found.map (fun f => (f.name, f.content)) = papers.map Offered.entry ∧
        WellFormed Codec.Deflate.decode w.close.written placed directory stop := by
  have hplain : ∀ e ∈ papers, IsPlain e := by
    simp only [papers, List.forall_mem_cons]
    refine ⟨⟨rfl, ?_, by decide, by decide⟩, ⟨rfl, ?_, by decide, by decide⟩,
      ⟨rfl, ?_, by decide, by decide⟩, by simp⟩
    · rintro n ⟨⟩
      decide
    · rintro n ⟨⟩
    · rintro n ⟨⟩
      decide
  have hpacked : ∀ e ∈ papers,
      (Codec.Deflate.encode e.source.bytes).length < wideLimit := by
    simp only [papers, List.forall_mem_cons, Codec.Deflate.length_encode]
    decide
  have hshort : ((Archive.Writer.start .zip).addAll [] papers).1.close.written.length <
      wideLimit := by
    decide +kernel
  obtain ⟨w, fault, hrun, -, hlong | hlong | ⟨rfl, -, placed, found, directory, stop, hformed⟩⟩ :=
    addAll_reads_back Codec.Deflate.undoneBy_decode [] papers hplain
  · obtain ⟨e, he, hle⟩ := hlong
    exact absurd hle (Nat.not_le_of_lt (hpacked e he))
  · rw [hrun] at hshort
    exact absurd hlong (Nat.not_le_of_lt hshort)
  · exact ⟨hplain, w, placed, found, directory, stop, hrun, hformed⟩

end Deposit.Archive.Zip
