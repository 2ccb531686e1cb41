import Deposit.Proofs.Archive.Tar.Taking
import Deposit.Proofs.Archive.Offered

set_option autoImplicit false
set_option relaxedAutoImplicit false

/-!
A tar archive from the first entry to its end. Fair entries are all taken, unless the extended
header of one is too long for its own size field, and what has been taken is read back. Each header
stands at the start of a block because everything before it fills whole blocks.
-/

namespace Deposit.Archive.Tar

/-- A header block at an offset of an archive: it stands at the start of a block, and the checksum
in its field is that of the bytes around the field. -/
structure HeaderAt (archive : Bytes) (offset : Nat) (h : Header) : Prop where
  aligned : blockSize ∣ offset
  header_eq : header? ((archive.drop offset).take blockSize) = some h
  checksum_eq : octalOf? ((archive.drop (offset + 148)).take 8) =
    some (checksum ((archive.drop offset).take 148) ((archive.drop (offset + 156)).take 356))

/-- Members that stand one behind the other from one offset of an archive to another. Each is a
header block with its content, filled up to whole blocks; an extended header may come before it. -/
inductive Spans (archive : Bytes) : Nat → List Found → Nat → Prop where
  | nil (offset : Nat) : Spans archive offset [] offset
  | extended {offset stop : Nat} {found : List Found} {h : Header}
      (block : HeaderAt archive offset h) (kind_eq : h.kind = Bytes.ofChars ['x'])
      (more : Spans archive (offset + (blockSize + h.size + padding h.size)) found stop) :
      Spans archive offset found stop
  | member {offset stop : Nat} {found : List Found} {f : Found}
      (block : HeaderAt archive offset f.header) (kind_eq : f.header.kind = Bytes.ofChars ['0'])
      (content_eq : (archive.drop (offset + blockSize)).take f.content.length = f.content)
      (more : Spans archive
        (offset + (blockSize + f.content.length + padding f.content.length)) found stop) :
      Spans archive offset (f :: found) stop

/-- The header of a regular file that tells nothing of an owner or a time. -/
structure Header.IsNormal (h : Header) : Prop where
  mode_eq : h.mode = 0o644
  user_eq : h.user = 0
  group_eq : h.group = 0
  time_eq : h.time = 0
  userName_eq : h.userName = ""
  groupName_eq : h.groupName = ""

/-- An archive whose members are read as they are found, one behind the other from its start, each
under a normal header. At least two blocks of zeros follow, and fill the last record. -/
structure WellFormed (archive : Bytes) (found : List Found) : Prop where
  read_eq : read? archive = some found
  normal : ∀ f ∈ found, f.header.IsNormal
  spans : ∃ stop k, Spans archive 0 found stop ∧
    archive.drop stop = Bytes.zeros (2 * blockSize + k)
  whole : recordSize ∣ archive.length

private theorem blockSize_dvd_filled (n : Nat) : blockSize ∣ blockSize + n + padding n := by
  unfold padding blockSize
  omega

private theorem headerAt_block {before : Bytes} (hdvd : blockSize ∣ before.length)
    (name : List Char)
    {mode size : Nat} (hm : mode < 8 ^ 7) (hs : size < sizeLimit) (kind : Char) (rest : Bytes) :
    HeaderAt (before ++ (block name mode size kind ++ rest)) before.length
      (shownHeader name mode size kind) := by
  have hl := length_block name hm hs kind
  have hend : ((block name mode size kind).drop 156).length = 356 := by
    rw [List.length_drop, hl, blockSize]
  have hfield : (((block name mode size kind) ++ rest).drop 148).take 8 =
      ((block name mode size kind).drop 148).take 8 := by
    rw [List.drop_append_of_le_length (by rw [hl, blockSize]; omega),
      List.take_append_of_le_length (by rw [List.length_drop, hl, blockSize]; omega)]
  refine ⟨hdvd, ?_, ?_⟩
  · rw [List.drop_left, List.take_left' hl]
    exact header?_block name hm hs kind
  · rw [← List.drop_drop, ← List.drop_drop, List.drop_left, hfield,
      List.take_append_of_le_length (by rw [hl, blockSize]; omega),
      List.drop_append_of_le_length (by rw [hl, blockSize]; omega), List.take_left' hend]
    exact checksum_block name hm hs kind

private theorem length_extended {records : Bytes} (hs : records.length < sizeLimit) :
    (extended records).length = blockSize + records.length + padding records.length := by
  rw [extended, List.length_append, List.length_append, length_block _ (by decide) hs,
    Bytes.length_zeros]

/-- The header block of a member and its content, filled up to whole blocks. -/
private def body (e : String × Bytes) : Bytes :=
  block e.1.toList fileMode (shownSize e.2.length) '0' ++
    (e.2 ++ Bytes.zeros (padding e.2.length))

private theorem length_body (e : String × Bytes) :
    (body e).length = blockSize + e.2.length + padding e.2.length := by
  rw [body, List.length_append, length_block _ (by decide) (shownSize_lt e.2.length),
    List.length_append, Bytes.length_zeros, Nat.add_assoc]

private theorem member_eq (e : String × Bytes) :
    member e.1 e.2 = (if records e.1 e.2.length = [] then []
      else extended (records e.1 e.2.length)) ++ body e := by
  rw [member, header_eq, body, List.append_assoc, List.append_assoc]

variable {more : List Found} {stop : Nat} {e : String × Bytes}

section Behind

variable {before rest : Bytes}

private theorem spans_body (hdvd : blockSize ∣ before.length)
    (hmore : Spans (before ++ (body e ++ rest)) (before ++ body e).length more stop) :
    Spans (before ++ (body e ++ rest)) before.length (foundMember e :: more) stop := by
  have hl := length_block e.1.toList (by decide : fileMode < 8 ^ 7) (shownSize_lt e.2.length) '0'
  rw [List.length_append, length_body] at hmore
  refine .member ?_ (shownHeader_kind _ _ _ _) ?_ hmore
  · rw [body, List.append_assoc]
    exact headerAt_block hdvd _ (by decide) (shownSize_lt e.2.length) '0' _
  · rw [← List.drop_drop, List.drop_left, body, List.append_assoc, List.drop_left' hl,
      List.append_assoc]
    exact List.take_left

private theorem spans_member (hdvd : blockSize ∣ before.length)
    (hs : (records e.1 e.2.length).length < sizeLimit)
    (hmore : Spans (before ++ (member e.1 e.2 ++ rest))
      (before ++ member e.1 e.2).length more stop) :
    Spans (before ++ (member e.1 e.2 ++ rest)) before.length (foundMember e :: more) stop := by
  rw [member_eq] at hmore ⊢
  by_cases hr : records e.1 e.2.length = []
  · rw [if_pos hr, List.nil_append] at hmore ⊢
    exact spans_body hdvd hmore
  · rw [if_neg hr] at hmore ⊢
    have hlength := length_extended hs
    have hblocks : blockSize ∣ (before ++ extended (records e.1 e.2.length)).length := by
      rw [List.length_append, hlength]
      exact Nat.dvd_add hdvd (blockSize_dvd_filled _)
    refine .extended
      (h := shownHeader "././@PaxHeader".toList 0 (records e.1 e.2.length).length 'x')
      ?_ (shownHeader_kind _ _ _ _) ?_
    · rw [extended, List.append_assoc, List.append_assoc, List.append_assoc]
      exact headerAt_block hdvd _ (by decide) hs 'x' _
    · rw [shownHeader_size, ← hlength, ← List.length_append, List.append_assoc,
        ← List.append_assoc before]
      refine spans_body hblocks ?_
      simpa only [List.append_assoc] using hmore

end Behind

private theorem blockSize_dvd_member (hs : (records e.1 e.2.length).length < sizeLimit) :
    blockSize ∣ (member e.1 e.2).length := by
  have hbody : blockSize ∣ (body e).length := by
    rw [length_body]
    exact blockSize_dvd_filled _
  rw [member_eq, List.length_append]
  refine Nat.dvd_add ?_ hbody
  split
  · exact Nat.dvd_zero _
  · rw [length_extended hs]
    exact blockSize_dvd_filled _

private theorem spans_members {entries : List (String × Bytes)}
    (hs : ∀ e ∈ entries, (records e.1 e.2.length).length < sizeLimit)
    (before rest : Bytes) (hdvd : blockSize ∣ before.length) :
    Spans (before ++ (entries.flatMap (fun e => member e.1 e.2) ++ rest)) before.length
      (entries.map foundMember) (before ++ entries.flatMap fun e => member e.1 e.2).length := by
  induction entries generalizing before with
  | nil => simpa using Spans.nil before.length
  | cons e entries ih =>
    have he := hs e List.mem_cons_self
    rw [List.flatMap_cons, List.map_cons, List.append_assoc]
    refine spans_member hdvd he ?_
    rw [← List.append_assoc before, ← List.append_assoc before]
    refine ih (fun e he => hs e (List.mem_cons_of_mem _ he)) _ ?_
    rw [List.length_append]
    exact Nat.dvd_add hdvd (blockSize_dvd_member he)

theorem Writer.Holds.wellFormed_close {w : Writer} {entries : List (String × Bytes)}
    (h : w.Holds entries) : WellFormed w.close.written (entries.map foundMember) := by
  obtain ⟨k, hk, hwhole⟩ := Writer.written_close h.isOpen
  have hspans := spans_members h.short [] (Bytes.zeros (2 * blockSize + k)) (Nat.dvd_zero _)
  rw [List.nil_append, List.nil_append, ← h.output_eq, ← hk] at hspans
  refine ⟨h.read?_close, ?_, ⟨w.output.toList.length, k, hspans, ?_⟩, hwhole h.offset_eq⟩
  · intro f hf
    obtain ⟨e, -, rfl⟩ := List.mem_map.1 hf
    exact ⟨rfl, rfl, rfl, rfl, rfl, rfl⟩
  · rw [hk, List.drop_left]

/-- An entry whose extended header, if it has one, is short enough for its own size field. -/
def Fits (e : Offered) : Prop :=
  (records e.path e.source.bytes.length).length < sizeLimit

instance (e : Offered) : Decidable (Fits e) :=
  inferInstanceAs (Decidable (_ < _))

private theorem length_record_le (key value : String) {n : Nat}
    (hn : (Bytes.ofText key).length + (Bytes.ofText value).length ≤ n) (hlimit : n + 3 < 10 ^ 10) :
    (record key value).length ≤ n + 14 := by
  have hrest : (Bytes.ofText key).length + (Bytes.ofText value).length + 3 < 10 ^ 10 := by omega
  have hle := recordLength_le hrest
  rw [length_record]
  omega

theorem fits_of_le {e : Offered} (hpath : e.path.length ≤ 2 ^ 30)
    (hsize : e.source.bytes.length < 2 ^ 64) : Fits e := by
  have hkeys : (Bytes.ofText "path").length = 4 ∧ (Bytes.ofText "size").length = 4 := by decide
  have hname := Bytes.length_ofText_le e.path
  rw [String.length_toList] at hname
  have hdecimal : Text.decimalInt e.source.bytes.length = Text.decimal e.source.bytes.length := by
    rw [Text.decimalInt, if_neg (by omega), Int.natAbs_natCast]
  have hdigits : (Text.decimal e.source.bytes.length).toList.length ≤ 20 := by
    rw [Text.decimal, String.toList_ofList, Nat.length_toDigits_le_iff (by decide) (by decide)]
    omega
  have hnumber := Bytes.length_ofText_le (Text.decimal e.source.bytes.length)
  have hlong : (record "path" e.path).length ≤ 4 + 4 * 2 ^ 30 + 14 :=
    length_record_le "path" e.path (by omega) (by omega)
  have hwide : (record "size" (Text.decimal e.source.bytes.length)).length ≤ 84 + 14 :=
    length_record_le "size" _ (by omega) (by omega)
  rw [Fits, records, hdecimal, List.length_append, sizeLimit]
  simp only [apply_ite List.length, List.length_nil]
  split <;> split <;> omega

namespace Writer

variable {w : Writer} {entries : List (String × Bytes)} {e : Offered}

theorem Holds.add_of_fits (h : w.Holds entries) (hfair : e.IsFair) (hfits : Fits e)
    (algorithms : List Digest.Algorithm) :
    (w.add e.path (e.reader algorithms) e.size).fault = none ∧
      (w.add e.path (e.reader algorithms) e.size).writer.Holds (entries ++ [e.entry]) ∧
      (w.add e.path (e.reader algorithms) e.size).reader.Took algorithms e.source.bytes
        e.source.bytes := by
  have htook := Reader.took_start algorithms e.source
  have hfault := (fault_add_eq_none_iff h.isOpen htook hfair.faultFree hfair.servesPieces
    hfair.nonneg).2 ⟨hfair.size_eq, hfits⟩
  exact ⟨hfault, h.add htook hfair.nonneg hfault⟩

theorem add_of_not_fits (hopen : w.closed = false) (hfair : e.IsFair) (hfits : ¬ Fits e)
    (algorithms : List Digest.Algorithm) :
    (w.add e.path (e.reader algorithms) e.size).fault = some (.archive .fieldOverflow) ∧
      (w.add e.path (e.reader algorithms) e.size).writer = w := by
  have hclosed : ¬ w.closed = true := by simp [hopen]
  have hsized (r : Reader) : w.addSized e.path r e.source.bytes.length =
      ⟨w, r, some (.archive .fieldOverflow)⟩ := by
    rw [addSized, if_neg hclosed, if_pos (Nat.le_of_not_lt hfits)]
  cases hsize : e.size with
  | none =>
    obtain ⟨hfault, hwriter⟩ :=
      addSpooled_of_faultFree (w := w) e.path (r := e.reader algorithms) hfair.faultFree
    have hreplay := hsized (.start [] (Source.ofBytes e.source.bytes).open)
    exact ⟨hfault.trans (congrArg Added.fault hreplay),
      hwriter.trans (congrArg Added.writer hreplay)⟩
  | some n =>
    rw [hfair.size_eq n hsize]
    simp only [Writer.add, addDeclared, hsized, and_self]

theorem Holds.addAll (h : w.Holds entries) (algorithms : List Digest.Algorithm)
    {offered : List Offered} (hfair : ∀ e ∈ offered, e.IsFair) :
    ∃ (next : Writer) (taken left : List Offered),
      (Archive.Writer.tar w).addAll algorithms offered =
        (.tar next, if left = [] then none else some (.archive .fieldOverflow)) ∧
      offered = taken ++ left ∧ (∀ e ∈ left.head?, ¬ Fits e) ∧
      next.Holds (entries ++ taken.map Offered.entry) := by
  induction offered generalizing w entries with
  | nil => exact ⟨w, [], [], rfl, rfl, by simp, by simpa using h⟩
  | cons e offered ih =>
    have he := hfair e List.mem_cons_self
    by_cases hfits : Fits e
    · obtain ⟨hfault, hholds, -⟩ := h.add_of_fits he hfits algorithms
      obtain ⟨next, taken, left, hrun, hsplit, hleft, hnext⟩ :=
        ih hholds fun e he => hfair e (List.mem_cons_of_mem _ he)
      refine ⟨next, e :: taken, left, ?_, by rw [hsplit, List.cons_append], hleft, ?_⟩
      · rw [Archive.Writer.addAll]
        simp only [Archive.Writer.add, Added.map, hfault]
        exact hrun
      · rwa [List.append_assoc, List.singleton_append, ← List.map_cons] at hnext
    · obtain ⟨hfault, hsame⟩ := add_of_not_fits h.isOpen he hfits algorithms
      refine ⟨w, [], e :: offered, ?_, rfl, by simpa using hfits, by simpa using h⟩
      rw [Archive.Writer.addAll]
      simp only [Archive.Writer.add, Added.map, hfault, hsame]
      rfl

end Writer

private theorem storedName_of_not_mem {name : String} (h : '\x00' ∉ name.toList) :
    storedName name = name := by
  rw [storedName, ofList_takeWhile_eq_self_iff.2 h, ite_self]

/-- Fair entries without a zero character in their paths are all taken, up to the first whose
extended header would be too long for its own size field; then the archive is closed, and read back
as exactly these paths and contents, in their order. It is well formed from its start to its end. -/
theorem addAll_round_trip (algorithms : List Digest.Algorithm) (offered : List Offered)
    (hfair : ∀ e ∈ offered, e.IsFair) (hpaths : ∀ e ∈ offered, '\x00' ∉ e.path.toList) :
    ∃ (w : Archive.Writer) (taken left : List Offered) (found : List Found),
      (Archive.Writer.start .tar).addAll algorithms offered =
        (w, if left = [] then none else some (.archive .fieldOverflow)) ∧
      offered = taken ++ left ∧
      (∀ e ∈ left.head?, ¬ Fits e ∧
        (2 ^ 30 < e.path.length ∨ 2 ^ 64 ≤ e.source.bytes.length)) ∧
      found.map (fun f => (f.name, f.content)) =
        taken.map (fun e => (e.path, e.source.bytes)) ∧
      WellFormed w.close.written found := by
  obtain ⟨w, taken, left, hrun, hsplit, hleft, hholds⟩ :=
    Writer.holds_empty.addAll algorithms hfair
  refine ⟨.tar w, taken, left, _, hrun, hsplit, fun e he => ⟨hleft e he, ?_⟩, ?_,
    hholds.wellFormed_close⟩
  · by_contra hsmall
    rw [not_or, Nat.not_lt, Nat.not_le] at hsmall
    exact hleft e he (fits_of_le hsmall.1 hsmall.2)
  · rw [List.nil_append, List.map_map, List.map_map]
    refine List.map_congr_left fun e he => ?_
    have hname := storedName_of_not_mem (hpaths e (hsplit ▸ List.mem_append_left left he))
    show (storedName e.path, e.source.bytes) = _
    rw [hname]

/-- A short name with a declared size, a name that does not fit the field and an empty file whose
name is not in ASCII. -/
def letters : List Offered :=
  [⟨"notes.txt", .ofBytes (Bytes.ofText "Dear all,"), some 9⟩,
    ⟨String.ofList (List.replicate 120 'a'), .ofBytes (Bytes.ofText "yours"), none⟩,
    ⟨"été.txt", .ofBytes [], some 0⟩]

private theorem isFair_letters : ∀ e ∈ letters, e.IsFair := by
  simp only [letters, List.forall_mem_cons]
  refine ⟨⟨rfl, fun _ _ => rfl, ?_⟩, ⟨rfl, fun _ _ => rfl, ?_⟩, ⟨rfl, fun _ _ => rfl, ?_⟩, by simp⟩
  · rintro n ⟨⟩
    decide
  · rintro n ⟨⟩
  · rintro n ⟨⟩
    decide

theorem letters_round_trip :
    (∀ e ∈ letters, e.IsFair) ∧ (∀ e ∈ letters, '\x00' ∉ e.path.toList) ∧
      ∃ (w : Archive.Writer) (found : List Found),
        (Archive.Writer.start .tar).addAll [] letters = (w, none) ∧
        found.map (fun f => (f.name, f.content)) =
          letters.map (fun e => (e.path, e.source.bytes)) ∧
        WellFormed w.close.written found := by
  have hpaths : ∀ e ∈ letters, '\x00' ∉ e.path.toList := by decide +kernel
  obtain ⟨w, taken, left, found, hrun, hsplit, hleft, hfound, hformed⟩ :=
    addAll_round_trip [] letters isFair_letters hpaths
  have hshort : ∀ e ∈ letters, e.path.length ≤ 2 ^ 30 ∧ e.source.bytes.length < 2 ^ 64 := by
    decide +kernel
  cases left with
  | nil =>
    rw [List.append_nil] at hsplit
    exact ⟨isFair_letters, hpaths, w, found, hrun, hsplit ▸ hfound, hformed⟩
  | cons e left =>
    have hbig := (hleft e rfl).2
    have hsmall := hshort e (hsplit ▸ List.mem_append_right taken List.mem_cons_self)
    omega

end Deposit.Archive.Tar
