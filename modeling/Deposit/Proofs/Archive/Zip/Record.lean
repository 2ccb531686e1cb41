import Deposit.Archive.Zip.Reader
import Deposit.Proofs.Bytes
import Deposit.Proofs.Codec.Deflate
import Deposit.Proofs.Text.Utf8

set_option autoImplicit false
set_option relaxedAutoImplicit false

/-!
The records of a zip archive read back. Every number fits the field that holds it, or is shown as
the largest number of the field and given in the wide extra field instead.
-/

namespace Deposit.Archive.Zip

@[simp] theorem numbers_nil (bs : Bytes) : numbers [] bs = [] := rfl

private theorem numbers_cons {width n : Nat} (h : n < 256 ^ width) (widths : List Nat)
    (bs : Bytes) :
    numbers (width :: widths) (Bytes.le width n ++ bs) = n :: numbers widths bs := by
  rw [numbers, Bytes.fields_cons_append (Bytes.length_le width n), List.map_cons,
    Bytes.readLE_le_of_lt h, numbers]

private theorem numbers_replicate {width : Nat} {ns : List Nat} (h : ∀ n ∈ ns, n < 256 ^ width)
    (bs : Bytes) :
    numbers (List.replicate ns.length width) (ns.flatMap (Bytes.le width) ++ bs) = ns := by
  induction ns with
  | nil => rfl
  | cons n ns ih =>
    rw [List.length_cons, List.replicate_succ, List.flatMap_cons, List.append_assoc,
      numbers_cons (h n List.mem_cons_self), ih fun n hn => h n (List.mem_cons_of_mem _ hn)]

@[simp] theorem length_wideField (ns : List Nat) : (wideField ns).length = 4 + 8 * ns.length := by
  have hnumbers : (ns.flatMap (Bytes.le 8)).length = 8 * ns.length := by
    induction ns with
    | nil => rfl
    | cons n ns ih =>
      rw [List.flatMap_cons, List.length_append, ih, Bytes.length_le, List.length_cons]
      omega
  rw [wideField, List.length_append, List.length_append, Bytes.length_le, Bytes.length_le, hnumbers]

private theorem wideNumbersOf_wideField {ns : List Nat} (hl : ns.length ≤ 3)
    (h : ∀ n ∈ ns, n < wideLimit) :
    wideNumbersOf (wideField ns) = ns := by
  have hhead : numbers [2, 2] (wideField ns) = [1, 8 * ns.length] := by
    rw [wideField, List.append_assoc, numbers_cons (by decide), numbers_cons (by omega),
      numbers_nil]
  have hrest : (wideField ns).drop 4 = ns.flatMap (Bytes.le 8) ++ [] := by
    rw [wideField, List.append_nil]
    exact List.drop_left' rfl
  rw [wideNumbersOf, hhead]
  simp only
  rw [hrest, Nat.mul_div_cancel_left _ (by decide)]
  exact numbers_replicate h []

private theorem wideNumbersOf_nil : wideNumbersOf [] = [] := rfl

private theorem nameText?_ofText (name : String) :
    nameText? (flags name) (Bytes.ofText name) = some name := by
  rw [nameText?, flags]
  cases he : isExtended name with
  | true =>
    rw [if_pos (by decide), Text.Utf8.decode_ofText]
    rfl
  | false =>
    have hascii : ∀ c ∈ name.toList, c.toNat < 128 := by
      simpa [isExtended] using he
    have hbytes : Bytes.ofText name = Bytes.ofChars name.toList := by
      rw [← Bytes.ofText_eq_ofChars hascii, String.ofList_toList]
    rw [if_neg (by decide), hbytes, Bytes.toChars_ofChars hascii, String.ofList_toList]

private theorem flags_lt (name : String) : flags name < 256 ^ 2 := by
  unfold flags
  split <;> decide

/-- The extra field of a local header. -/
def localExtra (isWide : Bool) : Bytes :=
  if isWide then wideField [0, 0] else []

theorem length_localExtra (isWide : Bool) :
    (localExtra isWide).length = if isWide then 20 else 0 := by
  cases isWide <;> rfl

private theorem length_localExtra_lt (isWide : Bool) : (localExtra isWide).length < 256 ^ 2 := by
  cases isWide <;> decide

private theorem localHeader_eq (name : String) (isWide : Bool) :
    localHeader name isWide =
      (Bytes.le 4 0x04034b50 ++ (Bytes.le 2 version ++ (Bytes.le 2 (flags name) ++
        (Bytes.le 2 deflated ++ (Bytes.le 2 dosTime ++ (Bytes.le 2 dosDate ++ (Bytes.le 4 0 ++
        (Bytes.le 4 0 ++ (Bytes.le 4 0 ++ (Bytes.le 2 (Bytes.ofText name).length ++
        Bytes.le 2 (localExtra isWide).length)))))))))) ++
        (Bytes.ofText name ++ localExtra isWide) := by
  have hmark : Bytes.le 4 0x04034b50 = [0x50, 0x4b, 3, 4] := by decide
  rw [hmark]
  simp only [localHeader, localExtra, List.append_assoc]

theorem length_localHeader (name : String) (isWide : Bool) :
    (localHeader name isWide).length =
      30 + (Bytes.ofText name).length + (localExtra isWide).length := by
  rw [localHeader_eq]
  simp only [List.length_append, Bytes.length_le]
  omega

theorem drop_localHeader (name : String) (isWide : Bool) :
    (localHeader name isWide).drop 30 = Bytes.ofText name ++ localExtra isWide := by
  rw [localHeader_eq]
  exact List.drop_left' (by simp)

theorem numbers_localHeader {name : String} (hn : (Bytes.ofText name).length < 256 ^ 2)
    (isWide : Bool) (rest : Bytes) :
    numbers localWidths (localHeader name isWide ++ rest) =
      [0x04034b50, version, flags name, deflated, dosTime, dosDate, 0, 0, 0,
        (Bytes.ofText name).length, (localExtra isWide).length] := by
  rw [localHeader_eq]
  simp only [List.append_assoc]
  rw [localWidths, numbers_cons (by decide), numbers_cons (by decide),
    numbers_cons (flags_lt name), numbers_cons (by decide), numbers_cons (by decide),
    numbers_cons (by decide), numbers_cons (by decide), numbers_cons (by decide),
    numbers_cons (by decide), numbers_cons hn, numbers_cons (length_localExtra_lt isWide),
    numbers_nil]

theorem data?_localHeader {inflate : Bytes → Option (Bytes × Bytes)}
    (hinflate : Codec.Deflate.UndoneBy inflate) {name : String}
    (hn : (Bytes.ofText name).length < 256 ^ 2) (isWide : Bool) (content rest : Bytes) :
    data? inflate (Bytes.ofText name)
        (localHeader name isWide ++ (Codec.Deflate.encode content ++ rest)) =
      some (localHeader name isWide, content) := by
  have hname : ((localHeader name isWide).drop 30).take (Bytes.ofText name).length =
      Bytes.ofText name := by
    rw [drop_localHeader]
    exact List.take_left
  rw [data?, numbers_localHeader hn]
  simp only [← length_localHeader, List.take_left, List.drop_left, hname, and_self, if_true,
    hinflate content rest, Option.map_some]

/-- The widths of the numbers in a descriptor. -/
def descriptorWidths (isWide : Bool) : List Nat :=
  if isWide then [4, 4, 8, 8] else [4, 4, 4, 4]

theorem length_descriptor (m : Member) :
    (descriptor m).length = if m.isWide then 24 else 16 := by
  cases hw : m.isWide <;> simp [descriptor, hw]

theorem numbers_descriptor {m : Member} (hcrc : m.crc < 256 ^ 4)
    (hnarrow : m.isWide = false → m.packedSize < 256 ^ 4 ∧ m.size < 256 ^ 4)
    (hpacked : m.packedSize < wideLimit) (hsize : m.size < wideLimit) (rest : Bytes) :
    numbers (descriptorWidths m.isWide) (descriptor m ++ rest) =
      [0x08074b50, m.crc, m.packedSize, m.size] := by
  have hmark : [0x50, 0x4b, 7, 8] = Bytes.le 4 0x08074b50 := by decide
  simp only [descriptor, hmark, List.append_assoc]
  cases hw : m.isWide with
  | true =>
    rw [descriptorWidths, if_pos rfl, if_pos rfl, numbers_cons (by decide), numbers_cons hcrc,
      numbers_cons hpacked, numbers_cons hsize, numbers_nil]
  | false =>
    rw [descriptorWidths, if_neg Bool.false_ne_true, if_neg Bool.false_ne_true,
      numbers_cons (by decide), numbers_cons hcrc, numbers_cons (hnarrow hw).1,
      numbers_cons (hnarrow hw).2, numbers_nil]

/-- A member whose numbers fit the widest fields. -/
structure Member.Fits (m : Member) : Prop where
  name_lt : (Bytes.ofText m.name).length < 256 ^ 2
  crc_lt : m.crc < 256 ^ 4
  size_lt : m.size < wideLimit
  packedSize_lt : m.packedSize < wideLimit
  offset_lt : m.offset < wideLimit

/-- The sizes of a member are given in the wide extra field. -/
abbrev hidesSizes (m : Member) : Prop :=
  sizeLimit < m.size ∨ sizeLimit < m.packedSize

/-- The extra field of a directory entry. -/
def centralExtra (m : Member) : Bytes :=
  if wideNumbers m = [] then [] else wideField (wideNumbers m)

/-- The version that a directory entry gives. -/
def neededVersion (m : Member) : Nat :=
  if wideNumbers m = [] then version else wideVersion

private theorem centralRecord_eq (m : Member) :
    centralRecord m =
      (Bytes.le 4 0x02014b50 ++ (Bytes.le 1 (neededVersion m) ++ (Bytes.le 1 system ++
        (Bytes.le 1 (neededVersion m) ++ (Bytes.le 1 0 ++ (Bytes.le 2 (flags m.name) ++
        (Bytes.le 2 deflated ++ (Bytes.le 2 dosTime ++ (Bytes.le 2 dosDate ++ (Bytes.le 4 m.crc ++
        (Bytes.le 4 (if hidesSizes m then allOnes else m.packedSize) ++
        (Bytes.le 4 (if hidesSizes m then allOnes else m.size) ++
        (Bytes.le 2 (Bytes.ofText m.name).length ++ (Bytes.le 2 (centralExtra m).length ++
        (Bytes.le 2 0 ++ (Bytes.le 2 0 ++ (Bytes.le 2 0 ++ (Bytes.le 4 attributes ++
        Bytes.le 4 (if sizeLimit < m.offset then allOnes else m.offset))))))))))))))))))) ++
        (Bytes.ofText m.name ++ centralExtra m) := by
  have hmark : Bytes.le 4 0x02014b50 = [0x50, 0x4b, 1, 2] := by decide
  have hversion : Bytes.le 1 (neededVersion m) = [UInt8.ofNat (neededVersion m)] := by
    unfold neededVersion
    split <;> rfl
  have hsystem : Bytes.le 1 system = [UInt8.ofNat system] := rfl
  have hzero : Bytes.le 1 0 = [0] := rfl
  rw [hmark, hversion, hsystem, hzero]
  -- `unfold` would go through an equation for each way the two conditions can turn out
  delta centralRecord
  simp only [centralExtra, neededVersion, List.append_assoc, List.cons_append, List.nil_append]

private theorem length_wideNumbers (m : Member) : (wideNumbers m).length ≤ 3 := by
  unfold wideNumbers
  split <;> split <;> simp

theorem wideNumbersOf_centralExtra {m : Member} (h : m.Fits) :
    wideNumbersOf (centralExtra m) = wideNumbers m := by
  unfold centralExtra
  split
  · rename_i hnil
    rw [hnil, wideNumbersOf_nil]
  · refine wideNumbersOf_wideField (length_wideNumbers m) fun n hn => ?_
    rcases List.mem_append.1 hn with hn | hn
    · split at hn
      · simp only [List.mem_cons, List.not_mem_nil, or_false] at hn
        rcases hn with rfl | rfl
        · exact h.size_lt
        · exact h.packedSize_lt
      · simp at hn
    · split at hn
      · rw [List.mem_singleton.1 hn]
        exact h.offset_lt
      · simp at hn

private theorem length_centralExtra (m : Member) : (centralExtra m).length < 256 ^ 2 := by
  unfold centralExtra
  split
  · decide
  · have := length_wideNumbers m
    rw [length_wideField]
    omega

theorem length_centralRecord (m : Member) :
    (centralRecord m).length = 46 + (Bytes.ofText m.name).length + (centralExtra m).length := by
  rw [centralRecord_eq]
  simp only [List.length_append, Bytes.length_le]
  omega

theorem drop_centralRecord (m : Member) (rest : Bytes) :
    (centralRecord m ++ rest).drop 46 = Bytes.ofText m.name ++ (centralExtra m ++ rest) := by
  rw [centralRecord_eq, List.append_assoc, List.drop_left' (by simp), List.append_assoc]

theorem drop_name_centralRecord (m : Member) (rest : Bytes) :
    (centralRecord m ++ rest).drop (46 + (Bytes.ofText m.name).length) =
      centralExtra m ++ rest := by
  rw [← List.drop_drop, drop_centralRecord, List.drop_left]

theorem numbers_centralRecord {m : Member} (h : m.Fits) (rest : Bytes) :
    numbers centralWidths (centralRecord m ++ rest) =
      [0x02014b50, neededVersion m, system, neededVersion m, 0, flags m.name, deflated, dosTime,
        dosDate, m.crc, if hidesSizes m then allOnes else m.packedSize,
        if hidesSizes m then allOnes else m.size, (Bytes.ofText m.name).length,
        (centralExtra m).length, 0, 0, 0, attributes,
        if sizeLimit < m.offset then allOnes else m.offset] := by
  have hversion : neededVersion m < 256 ^ 1 := by
    unfold neededVersion
    split <;> decide
  have hpacked : (if hidesSizes m then allOnes else m.packedSize) < 256 ^ 4 := by
    split
    · decide
    · simp only [hidesSizes, sizeLimit] at *
      omega
  have hsize : (if hidesSizes m then allOnes else m.size) < 256 ^ 4 := by
    split
    · decide
    · simp only [hidesSizes, sizeLimit] at *
      omega
  have hoffset : (if sizeLimit < m.offset then allOnes else m.offset) < 256 ^ 4 := by
    split
    · decide
    · simp only [sizeLimit] at *
      omega
  rw [centralRecord_eq]
  simp only [List.append_assoc]
  rw [centralWidths, numbers_cons (by decide), numbers_cons hversion, numbers_cons (by decide),
    numbers_cons hversion, numbers_cons (by decide), numbers_cons (flags_lt m.name),
    numbers_cons (by decide), numbers_cons (by decide), numbers_cons (by decide),
    numbers_cons h.crc_lt, numbers_cons hpacked, numbers_cons hsize, numbers_cons h.name_lt,
    numbers_cons (length_centralExtra m), numbers_cons (by decide), numbers_cons (by decide),
    numbers_cons (by decide), numbers_cons (by decide), numbers_cons hoffset, numbers_nil]

private theorem given_size (m : Member) :
    (if (if hidesSizes m then allOnes else m.size) = allOnes then (wideNumbers m).headD 0
      else if hidesSizes m then allOnes else m.size) = m.size := by
  by_cases h : hidesSizes m
  · rw [if_pos h, if_pos rfl, wideNumbers, if_pos h]
    rfl
  · have hne : m.size ≠ allOnes := by
      simp only [hidesSizes, sizeLimit, allOnes] at h ⊢
      omega
    rw [if_neg h, if_neg hne]

private theorem given_offset (m : Member) :
    (if (if sizeLimit < m.offset then allOnes else m.offset) = allOnes then
        (if (if hidesSizes m then allOnes else m.size) = allOnes then (wideNumbers m).drop 2
          else wideNumbers m).headD 0
      else if sizeLimit < m.offset then allOnes else m.offset) = m.offset := by
  by_cases h : sizeLimit < m.offset
  · rw [if_pos h, if_pos rfl, wideNumbers, if_pos h]
    by_cases hs : hidesSizes m
    · rw [if_pos hs, if_pos rfl, if_pos hs]
      rfl
    · have hne : m.size ≠ allOnes := by
        simp only [hidesSizes, sizeLimit, allOnes] at hs ⊢
        omega
      rw [if_neg hs, if_neg hne, if_neg hs]
      rfl
  · have hne : m.offset ≠ allOnes := by
      simp only [sizeLimit, allOnes] at h ⊢
      omega
    rw [if_neg h, if_neg hne]

theorem member?_centralRecord {inflate : Bytes → Option (Bytes × Bytes)} {m : Member} (h : m.Fits)
    {archive header content : Bytes}
    (hdata : data? inflate (Bytes.ofText m.name) (archive.drop m.offset) = some (header, content))
    (hsize : content.length = m.size) (hcrc : (Codec.crc32 content).toNat = m.crc)
    (rest : Bytes) :
    ∃ found, member? inflate archive (centralRecord m ++ rest) = some (found, rest) ∧
      found.name = m.name ∧ found.content = content := by
  have hbody := drop_centralRecord m rest
  have hextra := drop_name_centralRecord m rest
  have hrest : (centralRecord m ++ rest).drop
      (46 + (Bytes.ofText m.name).length + (centralExtra m).length + 0) = rest := by
    rw [Nat.add_zero, ← length_centralRecord, List.drop_left]
  rw [member?, numbers_centralRecord h rest]
  simp only [hbody, hextra, hrest, List.take_left, wideNumbersOf_centralExtra h, given_size,
    given_offset, nameText?_ofText, hdata, hsize, hcrc, Option.bind_eq_bind, Option.bind_some,
    and_self, if_true]
  exact ⟨_, rfl, rfl, rfl⟩

/-- The numbers of an end that do not fit the end record. -/
private abbrev needsWide (count size offset : Nat) : Prop :=
  countLimit < count ∨ sizeLimit < offset ∨ sizeLimit < size

/-- The last record of an archive. -/
private def endRecord (count size offset : Nat) : Bytes :=
  Bytes.le 4 0x06054b50 ++ (Bytes.le 2 0 ++ (Bytes.le 2 0 ++ (Bytes.le 2 count ++
    (Bytes.le 2 count ++ (Bytes.le 4 size ++ (Bytes.le 4 offset ++ Bytes.le 2 0))))))

/-- The end record with numbers of 64 bits. -/
private def wideEndRecord (count size offset : Nat) : Bytes :=
  Bytes.le 4 0x06064b50 ++ (Bytes.le 8 44 ++ (Bytes.le 2 wideVersion ++ (Bytes.le 2 wideVersion ++
    (Bytes.le 4 0 ++ (Bytes.le 4 0 ++ (Bytes.le 8 count ++ (Bytes.le 8 count ++
    (Bytes.le 8 size ++ Bytes.le 8 offset))))))))

/-- The record that leads to the end record with numbers of 64 bits. -/
private def locator (place : Nat) : Bytes :=
  Bytes.le 4 0x07064b50 ++ (Bytes.le 4 0 ++ (Bytes.le 8 place ++ Bytes.le 4 1))

@[simp] private theorem length_endRecord (count size offset : Nat) :
    (endRecord count size offset).length = 22 := by
  simp [endRecord]

private theorem endRecords_plain {count size offset : Nat} (h : ¬ needsWide count size offset) :
    endRecords count size offset = endRecord count size offset := by
  have hmark : Bytes.le 4 0x06054b50 = [0x50, 0x4b, 5, 6] := by decide
  simp only [endRecords, if_neg h, endRecord, hmark, List.append_assoc, List.nil_append]

private theorem endRecords_wide {count size offset : Nat} (h : needsWide count size offset) :
    endRecords count size offset =
      wideEndRecord count size offset ++ (locator (offset + size) ++
        endRecord (min 0xffff count) (min allOnes size) (min allOnes offset)) := by
  have hmark : Bytes.le 4 0x06054b50 = [0x50, 0x4b, 5, 6] := by decide
  have hwide : Bytes.le 4 0x06064b50 = [0x50, 0x4b, 6, 6] := by decide
  have hlocator : Bytes.le 4 0x07064b50 = [0x50, 0x4b, 6, 7] := by decide
  simp only [endRecords, if_pos h, endRecord, wideEndRecord, locator, hmark, hwide, hlocator,
    List.append_assoc]

private theorem numbers_endRecord {count size offset : Nat} (hc : count < 256 ^ 2)
    (hs : size < 256 ^ 4) (ho : offset < 256 ^ 4) :
    numbers endWidths (endRecord count size offset) =
      [0x06054b50, 0, 0, count, count, size, offset, 0] := by
  rw [endWidths, endRecord, numbers_cons (by decide), numbers_cons (by decide),
    numbers_cons (by decide), numbers_cons hc, numbers_cons hc, numbers_cons hs, numbers_cons ho,
    ← List.append_nil (Bytes.le 2 0), numbers_cons (by decide), numbers_nil]

private theorem numbers_wideEndRecord {count size offset : Nat} (hc : count < 256 ^ 8)
    (hs : size < 256 ^ 8) (ho : offset < 256 ^ 8) (rest : Bytes) :
    numbers wideEndWidths (wideEndRecord count size offset ++ rest) =
      [0x06064b50, 44, wideVersion, wideVersion, 0, 0, count, count, size, offset] := by
  simp only [wideEndRecord, List.append_assoc]
  rw [wideEndWidths, numbers_cons (by decide), numbers_cons (by decide),
    numbers_cons (by decide), numbers_cons (by decide), numbers_cons (by decide),
    numbers_cons (by decide), numbers_cons hc, numbers_cons hc, numbers_cons hs, numbers_cons ho,
    numbers_nil]

@[simp] private theorem length_wideEndRecord (count size offset : Nat) :
    (wideEndRecord count size offset).length = 56 := by
  simp [wideEndRecord]

@[simp] private theorem length_locator (place : Nat) : (locator place).length = 20 := by
  simp [locator]

private theorem drop_append_sub {bs cs : Bytes} {n : Nat} (h : cs.length = n) :
    (bs ++ cs).drop ((bs ++ cs).length - n) = cs :=
  List.drop_left' (by rw [List.length_append, h, Nat.add_sub_cancel])

private theorem readWith?_plain {inflate : Bytes → Option (Bytes × Bytes)}
    {archive front directory last : Bytes} {count : Nat}
    (hlast : last = endRecord count directory.length front.length)
    (harchive : archive = front ++ directory ++ last)
    (h : ¬ needsWide count directory.length front.length) :
    readWith? inflate archive = members? inflate archive count (directory ++ last) := by
  have hlength : last.length = 22 := by
    rw [hlast, length_endRecord]
  have hend : archive.drop (archive.length - 22) = last := by
    rw [harchive]
    exact drop_append_sub hlength
  have hdirectory : archive.drop front.length = directory ++ last := by
    rw [harchive, List.append_assoc, List.drop_left]
  have hplace : front.length + directory.length + 22 = archive.length := by
    rw [harchive, List.length_append, List.length_append, hlength]
  have hnumbers : numbers endWidths last =
      [0x06054b50, 0, 0, count, count, directory.length, front.length, 0] := by
    simp only [needsWide, countLimit, sizeLimit] at h
    rw [hlast, numbers_endRecord (by omega) (by omega) (by omega)]
  rw [readWith?, hend, hnumbers]
  simp only [ne_eq, not_true_eq_false, if_false, hplace, if_true, hdirectory]

private theorem readWith?_wide {inflate : Bytes → Option (Bytes × Bytes)}
    {archive front directory place last : Bytes} {count : Nat}
    (hlast : last = endRecord (min 0xffff count) (min allOnes directory.length)
      (min allOnes front.length))
    (hplace : place.length = 20)
    (harchive : archive = front ++ directory ++
      (wideEndRecord count directory.length front.length ++ (place ++ last)))
    (hc : count < 256 ^ 8) (hl : front.length + directory.length < 256 ^ 8) :
    readWith? inflate archive = members? inflate archive count
      (directory ++ (wideEndRecord count directory.length front.length ++ (place ++ last))) := by
  have hlength : last.length = 22 := by
    rw [hlast, length_endRecord]
  have hend : archive.drop (archive.length - 22) = last := by
    rw [harchive]
    simp only [← List.append_assoc]
    exact drop_append_sub hlength
  have hwide : archive.drop (archive.length - 22 - 20 - 56) =
      wideEndRecord count directory.length front.length ++ (place ++ last) := by
    rw [Nat.sub_sub, Nat.sub_sub, harchive]
    exact drop_append_sub (by simp [hlength, hplace])
  have hdirectory : archive.drop front.length =
      directory ++ (wideEndRecord count directory.length front.length ++ (place ++ last)) := by
    rw [harchive, List.append_assoc, List.drop_left]
  -- at least one shown number is capped, so the numbers do not lead up to the end record
  have hbehind : ¬ min allOnes front.length + min allOnes directory.length + 22 =
      archive.length := by
    simp only [harchive, List.length_append, length_wideEndRecord, hlength, hplace]
    omega
  have hnumbers : numbers endWidths last =
      [0x06054b50, 0, 0, min 0xffff count, min 0xffff count, min allOnes directory.length,
        min allOnes front.length, 0] := by
    have hones : allOnes < 256 ^ 4 := by decide
    rw [hlast, numbers_endRecord (by omega) (by omega) (by omega)]
  rw [readWith?, hend, hnumbers]
  simp only [ne_eq, not_true_eq_false, if_false, hbehind]
  rw [hwide, numbers_wideEndRecord hc (by omega) (by omega)]
  simp only [not_true_eq_false, if_false, hdirectory]

theorem readWith?_endRecords (inflate : Bytes → Option (Bytes × Bytes))
    (front directory : Bytes) {count : Nat} (hc : count ≤ directory.length)
    (hl : front.length + directory.length < wideLimit) :
    readWith? inflate (front ++ directory ++ endRecords count directory.length front.length) =
      members? inflate (front ++ directory ++ endRecords count directory.length front.length) count
        (directory ++ endRecords count directory.length front.length) := by
  have hl : front.length + directory.length < 256 ^ 8 := hl
  by_cases hw : needsWide count directory.length front.length
  · rw [endRecords_wide hw]
    exact readWith?_wide rfl (length_locator _) rfl (by omega) hl
  · rw [endRecords_plain hw]
    exact readWith?_plain rfl rfl hw

end Deposit.Archive.Zip
