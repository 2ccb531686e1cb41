import Deposit.Proofs.Archive.Tar.Header

set_option autoImplicit false
set_option relaxedAutoImplicit false

/-!
Records of extended headers and whole members read back. A record begins with its own length, which
counts the digits it is written in: adding their number may add one digit, and no more. A member is
its headers, its content and the zeros that complete the last block, and reading finds the content
behind the headers because they tell its length.
-/

namespace Deposit.Archive.Tar

private theorem length_toDigits_le {n k : Nat} (hk : 0 < k) :
    (Nat.toDigits 10 n).length ≤ k ↔ n < 10 ^ k :=
  Nat.length_toDigits_le_iff (by decide) hk

private theorem succ_le_pow (k : Nat) : k + 1 ≤ 10 ^ k := by
  induction k with
  | zero => decide
  | succ k ih =>
    rw [Nat.pow_succ]
    omega

private theorem length_toDigits_le_of_le {n m : Nat} (h : n ≤ m) :
    (Nat.toDigits 10 n).length ≤ (Nat.toDigits 10 m).length := by
  rw [length_toDigits_le Nat.length_toDigits_pos]
  exact Nat.lt_of_le_of_lt h ((length_toDigits_le Nat.length_toDigits_pos).1 (Nat.le_refl _))

private theorem recordLength_eq (rest : Nat) :
    recordLength rest = (Nat.toDigits 10 (recordLength rest)).length + rest := by
  have hpos : 0 < (Nat.toDigits 10 rest).length := Nat.length_toDigits_pos
  have hrest := (length_toDigits_le hpos).1 (Nat.le_refl _)
  have hgrow := length_toDigits_le_of_le (Nat.le_add_right rest (Nat.toDigits 10 rest).length)
  have hsmall := succ_le_pow (Nat.toDigits 10 rest).length
  generalize hw : (Nat.toDigits 10 rest).length = width at *
  rw [recordLength, hw]
  by_cases hsame : (Nat.toDigits 10 (rest + width)).length = width
  · rw [if_pos hsame, hsame, Nat.add_comm]
  · rw [if_neg hsame]
    -- one digit more holds everything up to ten times the bound
    have hle : (Nat.toDigits 10 (rest + width + 1)).length ≤ width + 1 := by
      rw [length_toDigits_le (Nat.succ_pos _), Nat.pow_succ]
      omega
    have hge := length_toDigits_le_of_le (Nat.le_add_right (rest + width) 1)
    omega

theorem recordLength_le {rest : Nat} (h : rest < 10 ^ 10) : recordLength rest ≤ rest + 11 := by
  have hwidth := (length_toDigits_le (by decide)).2 h
  rw [recordLength]
  split <;> omega

/-- What a record holds behind its length: a key and a value. -/
private def line (key value : String) : Bytes :=
  Bytes.ofText key ++ 61 :: (Bytes.ofText value ++ [10])

private theorem record_eq (key value : String) :
    record key value =
      Bytes.ofChars (Text.digits 10 0 (recordLength ((line key value).length + 1))) ++
        32 :: line key value := by
  have hbody : Bytes.ofText (" " ++ key ++ "=" ++ value ++ "\n") = 32 :: line key value := by
    have hblank : Bytes.ofText " " = [32] := rfl
    have hequals : Bytes.ofText "=" = [61] := rfl
    have hend : Bytes.ofText "\n" = [10] := rfl
    simp [line, Bytes.ofText_append, hblank, hequals, hend]
  have hdecimal : ∀ n, Text.decimal n = String.ofList (Text.digits 10 0 n) := fun n => by
    rw [← Text.toList_decimal, String.ofList_toList]
  rw [record, hbody, List.length_cons, hdecimal,
    Bytes.ofText_eq_ofChars fun _ => Text.isAscii_of_mem_digits (by decide) (by decide)]

theorem length_record (key value : String) : (record key value).length =
    recordLength ((Bytes.ofText key).length + (Bytes.ofText value).length + 3) := by
  have hline : (line key value).length + 1 =
      (Bytes.ofText key).length + (Bytes.ofText value).length + 3 := by
    simp only [line, List.length_append, List.length_cons, List.length_nil]
    omega
  rw [record_eq, List.length_append, List.length_cons, Bytes.length_ofChars, Text.digits, hline]
  rw [List.length_append, List.length_replicate, Nat.zero_sub, Nat.zero_add]
  exact (recordLength_eq _).symm

private theorem digit_ne_blank {n : Nat} {c : Char} (hc : c ∈ Text.digits 10 0 n) :
    decide (UInt8.ofNat c.toNat ≠ 32) = true := by
  have hd := Text.toNat_of_mem_digits (by decide) (by decide) hc
  refine decide_eq_true fun he => ?_
  have hn : (UInt8.ofNat c.toNat).toNat = c.toNat := by
    rw [UInt8.toNat_ofNat']
    exact Nat.mod_eq_of_lt (by omega)
  rw [he] at hn
  simp at hn
  omega

private theorem takeWhile_digits (n : Nat) (bs : Bytes) :
    (Bytes.ofChars (Text.digits 10 0 n) ++ 32 :: bs).takeWhile (· ≠ 32) =
      Bytes.ofChars (Text.digits 10 0 n) :=
  Bytes.takeWhile_ofChars_append bs (fun _ hc => digit_ne_blank hc) rfl

private theorem takeWhile_line {key : String} (hk : 61 ∉ Bytes.ofText key) (value : String) :
    (line key value).takeWhile (· ≠ 61) = Bytes.ofText key := by
  have hstays : ∀ b ∈ Bytes.ofText key, decide (b ≠ 61) = true := fun b hb =>
    decide_eq_true fun he => hk (he ▸ hb)
  rw [line, List.takeWhile_append_of_pos hstays]
  simp

private theorem drop_line (key value : String) :
    ((line key value).drop ((Bytes.ofText key).length + 1)).dropLast = Bytes.ofText value := by
  rw [line, List.drop_append]
  simp

private theorem getLast?_line (key value : String) : (line key value).getLast? = some 10 := by
  rw [line, ← List.cons_append, ← List.append_assoc]
  exact List.getLast?_concat

private theorem records?_record {key : String} (hk : 61 ∉ Bytes.ofText key) (value : String)
    (rest : Bytes) :
    records? (record key value ++ rest) = (records? rest).map ((key, value) :: ·) := by
  have hlength := recordLength_eq ((line key value).length + 1)
  rw [record_eq]
  generalize recordLength ((line key value).length + 1) = length at hlength ⊢
  have hdigits : (Bytes.ofChars (Text.digits 10 0 length)).length =
      (Nat.toDigits 10 length).length := by
    simp [Text.digits]
  have hwhole : (Bytes.ofChars (Text.digits 10 0 length) ++ 32 :: line key value).length =
      length := by
    rw [List.length_append, hdigits, List.length_cons]
    exact hlength.symm
  have hfirst : (Bytes.ofChars (Text.digits 10 0 length) ++ 32 :: line key value ++ rest).takeWhile
      (· ≠ 32) = Bytes.ofChars (Text.digits 10 0 length) := by
    rw [List.append_assoc, List.cons_append]
    exact takeWhile_digits length _
  have hline : (Bytes.ofChars (Text.digits 10 0 length) ++ 32 :: line key value).drop
      ((Bytes.ofChars (Text.digits 10 0 length)).length + 1) = line key value := by
    rw [List.drop_append]
    simp
  have hfits : (Bytes.ofChars (Text.digits 10 0 length)).length + 1 < length ∧
      length ≤
        (Bytes.ofChars (Text.digits 10 0 length) ++ 32 :: line key value ++ rest).length := by
    have hpos : 0 < (line key value).length := by
      simp only [line, List.length_append, List.length_cons]
      omega
    rw [List.length_append, hwhole, hdigits]
    omega
  have hten : 1 < 10 := by decide
  rw [records?, if_neg (by simp)]
  simp only [hfirst, numberOf?_digits hten le_rfl, if_pos hfits,
    List.take_left' hwhole, List.drop_left' hwhole, hline, takeWhile_line hk, drop_line,
    getLast?_line, Text.Utf8.decode_ofText]
  cases records? rest <;> rfl

@[simp] theorem records?_nil : records? [] = some [] := by
  rw [records?, if_pos rfl]

/-- What the extended header of a member gives: the name and the size, where they do not fit. -/
def given (name : String) (size : Nat) : List (String × String) :=
  (if needsPathRecord name then [("path", name)] else []) ++
    (if needsSizeRecord size then [("size", Text.decimalInt size)] else [])

private theorem records?_records (name : String) (size : Nat) :
    records? (records name size) = some (given name size) := by
  have hsize :
      records? (if needsSizeRecord size then record "size" (Text.decimalInt size) else []) =
        some (if needsSizeRecord size then [("size", Text.decimalInt size)] else []) := by
    split
    · rw [← List.append_nil (record _ _), records?_record (by decide), records?_nil]
      rfl
    · exact records?_nil
  rw [records, given]
  split
  · rw [records?_record (by decide), hsize]
    rfl
  · exact hsize

private theorem records_eq_nil_iff (name : String) (size : Nat) :
    records name size = [] ↔ given name size = [] := by
  have hne : ∀ key value : String, record key value ≠ [] := fun key value h => by
    rw [record_eq] at h
    simp at h
  rw [records, given]
  split <;> split <;> simp [hne]

/-- The name under which a member is found: a name that is short and in ASCII stands in the fixed
field only, and ends there before its first zero character. -/
def storedName (name : String) : String :=
  if needsPathRecord name then name else String.ofList (name.toList.takeWhile (· ≠ '\x00'))

private theorem valueOf?_path_given (name : String) (size : Nat) :
    (valueOf? "path" (given name size)).getD (String.ofList (fieldName name.toList)) =
      storedName name := by
  cases hn : needsPathRecord name with
  | true =>
    cases hs : needsSizeRecord size <;>
      simp [given, storedName, hn, hs, valueOf?, List.lookup_cons]
  | false =>
    rw [fieldName, shownName_eq_self hn]
    cases hs : needsSizeRecord size <;> simp [given, storedName, hn, hs, valueOf?]

private theorem sizeOf?_given (name : String) (size : Nat) (h : Header)
    (hh : h.size = if needsSizeRecord size then 0 else size) :
    sizeOf? (given name size) h = some size := by
  cases hs : needsSizeRecord size with
  | true =>
    have hv : valueOf? "size" (given name size) = some (Text.decimalInt size) := by
      cases hn : needsPathRecord name <;> simp [given, hn, hs, valueOf?]
    have hd : Text.decimalInt size = String.ofList (Text.digits 10 0 size) := by
      have hpos : ¬ (size : Int) < 0 := by omega
      rw [Text.decimalInt, if_neg hpos, ← Text.toList_decimal, String.ofList_toList,
        Int.natAbs_natCast]
    rw [sizeOf?, hv]
    simp only
    rw [hd, Bytes.ofText_eq_ofChars fun _ => Text.isAscii_of_mem_digits (by decide) (by decide),
      numberOf?_digits (by decide) (by decide)]
  | false =>
    have hv : valueOf? "size" (given name size) = none := by
      cases hn : needsPathRecord name <;> simp [given, hn, hs, valueOf?]
    rw [sizeOf?, hv]
    simpa [hs] using hh

/-- All that stands in an archive for a member. -/
def member (name : String) (content : Bytes) : Bytes :=
  header name content.length ++ content ++ Bytes.zeros (padding content.length)

private theorem blank_mem_block (name : List Char) (mode size : Nat) (kind : Char) :
    32 ∈ block name mode size kind := by
  simp [block]

private theorem take_block_ne_zeros {name : List Char} {mode size : Nat} {kind : Char}
    (hl : (block name mode size kind).length = blockSize) (bs : Bytes) :
    (block name mode size kind ++ bs).take (2 * blockSize) ≠ Bytes.zeros (2 * blockSize) := by
  intro h
  have hmem : (32 : UInt8) ∈ (block name mode size kind ++ bs).take (2 * blockSize) := by
    rw [List.take_append, List.take_of_length_le (by omega)]
    exact List.mem_append_left _ (blank_mem_block name mode size kind)
  rw [h] at hmem
  exact absurd (List.eq_of_mem_replicate hmem) (by decide)

private theorem members?_extended (rs : List (String × String)) {records : Bytes}
    {given : List (String × String)} (hs : records.length < sizeLimit)
    (hr : records? records = some given) (rest : Bytes) :
    members? rs (extended records ++ rest) = members? given rest := by
  have hmode : 0 < 8 ^ 7 := by decide
  have hl := length_block "././@PaxHeader".toList hmode hs 'x'
  have hh := header?_block "././@PaxHeader".toList hmode hs 'x'
  rw [extended, List.append_assoc, List.append_assoc, members?,
    if_neg (take_block_ne_zeros hl _), if_neg (by rw [List.length_append, hl]; omega)]
  simp only [List.take_left' hl, List.drop_left' hl, hh, shownHeader_kind, shownHeader_size]
  rw [if_pos ⟨trivial, by simp⟩, List.take_left, hr]
  simp only
  rw [← List.append_assoc, List.drop_left' (by simp)]

private theorem members?_block {name stored : String} {rs : List (String × String)} {shown : Nat}
    (hs : shown < sizeLimit) {content : Bytes}
    (hsize : sizeOf? rs (shownHeader name.toList fileMode shown '0') = some content.length)
    (hname : (valueOf? "path" rs).getD (String.ofList (fieldName name.toList)) = stored)
    (rest : Bytes) :
    members? rs (block name.toList fileMode shown '0' ++
        (content ++ (Bytes.zeros (padding content.length) ++ rest))) =
      (members? [] rest).map
        (⟨stored, shownHeader name.toList fileMode shown '0', content⟩ :: ·) := by
  have hm : fileMode < 8 ^ 7 := by decide
  have hl := length_block name.toList hm hs '0'
  have hh := header?_block name.toList hm hs '0'
  have hne : ¬ Bytes.ofChars ['0'] = Bytes.ofChars ['x'] := by decide
  rw [members?, if_neg (take_block_ne_zeros hl _), if_neg (by rw [List.length_append, hl]; omega)]
  simp only [List.take_left' hl, List.drop_left' hl, hh, shownHeader_kind, hne, false_and, if_false,
    if_true, hsize, shownHeader_name, hname]
  rw [if_pos (by simp), List.take_left, ← List.append_assoc content, List.drop_left' (by simp)]

/-- The size that a header block gives: none if it stands in a record. -/
def shownSize (size : Nat) : Nat :=
  if needsSizeRecord size then 0 else size

theorem shownSize_lt (size : Nat) : shownSize size < sizeLimit := by
  unfold shownSize
  split
  · decide
  · rename_i h
    simp only [needsSizeRecord, Bool.or_eq_true, decide_eq_true_eq, not_or] at h
    omega

theorem header_eq (name : String) (size : Nat) :
    header name size = (if records name size = [] then [] else extended (records name size)) ++
      block name.toList fileMode (shownSize size) '0' := by
  rw [header, Int.toNat_natCast, shownSize]

/-- A member as it is found: under the name that is stored of it, with the header block that shows
it, and with its content. -/
def foundMember (e : String × Bytes) : Found where
  name := storedName e.1
  header := shownHeader e.1.toList fileMode (shownSize e.2.length) '0'
  content := e.2

private theorem members?_member {name : String} {content : Bytes}
    (hs : (records name content.length).length < sizeLimit) (rest : Bytes) :
    members? [] (member name content ++ rest) =
      (members? [] rest).map (foundMember (name, content) :: ·) := by
  have hblock := members?_block (shownSize_lt content.length)
    (sizeOf?_given name content.length (shownHeader name.toList fileMode _ '0') rfl)
    (valueOf?_path_given name content.length) rest
  rw [foundMember, ← hblock, member, header_eq]
  simp only [List.append_assoc]
  by_cases hr : records name content.length = []
  · rw [if_pos hr, List.nil_append, (records_eq_nil_iff name content.length).1 hr]
  · rw [if_neg hr, members?_extended [] hs (records?_records name content.length)]

private theorem members?_end (rs : List (String × String)) (k : Nat) :
    members? rs (Bytes.zeros (2 * blockSize + k)) = some [] := by
  rw [members?, Bytes.zeros_add, List.take_left' (Bytes.length_zeros _), if_pos rfl]

theorem read?_members {entries : List (String × Bytes)}
    (hs : ∀ e ∈ entries, (records e.1 e.2.length).length < sizeLimit) (k : Nat) :
    read? (entries.flatMap (fun e => member e.1 e.2) ++ Bytes.zeros (2 * blockSize + k)) =
      some (entries.map foundMember) := by
  induction entries with
  | nil => exact members?_end [] k
  | cons e entries ih =>
    have hfound := ih fun e he => hs e (List.mem_cons_of_mem _ he)
    rw [read?] at hfound ⊢
    rw [List.flatMap_cons, List.append_assoc, members?_member (hs e List.mem_cons_self), hfound]
    rfl

end Deposit.Archive.Tar
