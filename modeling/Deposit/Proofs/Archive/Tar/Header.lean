import Deposit.Archive.Tar.Reader
import Deposit.Proofs.Bytes
import Deposit.Proofs.Text.Digits
import Deposit.Proofs.Text.Utf8
import Mathlib.Data.List.TakeWhile

set_option autoImplicit false
set_option relaxedAutoImplicit false

/-!
Header blocks read back. Every number is small enough for the digits of its field, so each field has
its width, the checksum is found where it stands, and reading gives the name as far as the field
gives it, the size and the type.
-/

namespace Deposit.Archive.Tar

private theorem all_digits {base width n : Nat} (hb : 1 < base) (hten : base ≤ 10) :
    (Bytes.ofChars (Text.digits base width n)).all
      (fun b => 48 ≤ b.toNat && b.toNat < 48 + base) = true := by
  rw [List.all_eq_true]
  intro b hbs
  obtain ⟨c, hc, rfl⟩ := List.mem_map.1 hbs
  have hd := Text.toNat_of_mem_digits hb hten hc
  rw [UInt8.toNat_ofNat', Nat.mod_eq_of_lt (by omega)]
  simpa using hd

theorem numberOf?_digits {base width n : Nat} (hb : 1 < base) (hten : base ≤ 10) :
    numberOf? base (Bytes.ofChars (Text.digits base width n)) = some n := by
  rw [numberOf?, if_pos (all_digits hb hten),
    Bytes.toChars_ofChars fun _ => Text.isAscii_of_mem_digits hb hten,
    Text.ofDigitChars_digits hb hten]

private theorem octal_digit {width n : Nat} {c : Char} (hc : c ∈ Text.digits 8 width n) :
    UInt8.ofNat c.toNat ≠ 0 ∧ UInt8.ofNat c.toNat ≠ 32 := by
  have hd := Text.toNat_of_mem_digits (by decide) (by decide) hc
  have hn : (UInt8.ofNat c.toNat).toNat = c.toNat := by
    rw [UInt8.toNat_ofNat']
    exact Nat.mod_eq_of_lt (by omega)
  constructor <;> intro he <;> rw [he] at hn <;> simp at hn <;> omega

private theorem octalOf?_digits (width n : Nat) (bs : Bytes) :
    octalOf? (Bytes.ofChars (Text.digits 8 width n) ++ 0 :: bs) = some n := by
  rw [octalOf?, Bytes.takeWhile_ofChars_append bs]
  · exact numberOf?_digits (by decide) (by decide)
  · intro c hc
    simpa using octal_digit hc
  · rfl

private theorem octalOf?_octalField (width n : Nat) : octalOf? (octalField width n) = some n :=
  octalOf?_digits (width - 1) n []

private theorem length_octalField {width n : Nat} (hw : 1 < width) (hn : n < 8 ^ (width - 1)) :
    (octalField width n).length = width := by
  rw [octalField, List.length_append, Bytes.length_ofChars,
    Text.length_digits (by decide) (by omega) hn, List.length_singleton]
  omega

/-- The characters of a name as the fixed field shows them. -/
def shownName (name : List Char) : List Char :=
  (name.map fun c => if c.toNat < 128 then c else '?').take 100

/-- What is read of a name from the fixed field: it ends before its first zero character. -/
def fieldName (name : List Char) : List Char :=
  (shownName name).takeWhile (· ≠ '\x00')

private theorem mem_fieldName {name : List Char} {c : Char} (hc : c ∈ fieldName name) :
    c.toNat < 128 ∧ c ≠ '\x00' := by
  have hz : c ≠ '\x00' := of_decide_eq_true
    (List.mem_takeWhile_imp (p := fun c : Char => decide (c ≠ '\x00')) hc)
  obtain ⟨d, -, rfl⟩ := List.mem_map.1
    (List.mem_of_mem_take ((List.takeWhile_sublist _).mem hc : _ ∈ shownName name))
  refine ⟨?_, hz⟩
  split
  · assumption
  · decide

theorem shownName_eq_self {name : String} (h : needsPathRecord name = false) :
    shownName name.toList = name.toList := by
  simp only [needsPathRecord, Bool.or_eq_false_iff, decide_eq_false_iff_not, List.any_eq_false,
    decide_eq_true_eq] at h
  obtain ⟨hascii, hlength⟩ := h
  have hmap : (name.toList.map fun c => if c.toNat < 128 then c else '?') = name.toList := by
    refine (List.map_congr_left fun c hc => ?_).trans (List.map_id _)
    have := hascii c hc
    rw [if_pos (by omega), id]
  rw [shownName, hmap, List.take_of_length_le]
  rw [String.length_toList]
  omega

private theorem nameField_eq (name : List Char) :
    nameField name =
      Bytes.ofChars (shownName name) ++ Bytes.zeros (100 - (shownName name).length) := by
  simp only [nameField, Bytes.fit, shownName, Bytes.ofChars, List.map_take, List.length_map,
    List.length_take]

private theorem textOf?_zeros (n : Nat) : textOf? (Bytes.zeros n) = some "" := by
  have h : (Bytes.zeros n).takeWhile (· ≠ 0) = [] := by
    cases n <;> simp [Bytes.zeros, List.replicate_succ]
  have hempty : Bytes.ofText "" = [] := rfl
  rw [textOf?, h, ← hempty, Text.Utf8.decode_ofText]
  rfl

private theorem nameField_eq_fieldName (name : List Char) :
    nameField name = Bytes.ofChars (fieldName name) ∨
      ∃ bs, nameField name = Bytes.ofChars (fieldName name) ++ 0 :: bs := by
  have hsplit : Bytes.ofChars (shownName name) = Bytes.ofChars (fieldName name) ++
      Bytes.ofChars ((shownName name).dropWhile (· ≠ '\x00')) := by
    rw [fieldName, Bytes.ofChars, Bytes.ofChars, Bytes.ofChars, ← List.map_append,
      List.takeWhile_append_dropWhile]
  rw [nameField_eq, hsplit, List.append_assoc]
  cases hrest : (shownName name).dropWhile (· ≠ '\x00') with
  | nil =>
    cases 100 - (shownName name).length with
    | zero => exact .inl (by simp [Bytes.ofChars, Bytes.zeros])
    | succ k => exact .inr ⟨Bytes.zeros k, rfl⟩
  | cons c cs =>
    have hc : c = '\x00' := by
      have hne : (shownName name).dropWhile (· ≠ '\x00') ≠ [] := by
        rw [hrest]
        exact List.cons_ne_nil c cs
      have hhead := List.head_dropWhile_not _ hne
      simp only [hrest, List.head_cons] at hhead
      simpa using hhead
    exact .inr ⟨_, by rw [hc]; rfl⟩

private theorem textOf?_nameField (name : List Char) :
    textOf? (nameField name) = some (String.ofList (fieldName name)) := by
  have hc : ∀ c ∈ fieldName name, decide (UInt8.ofNat c.toNat ≠ 0) = true := by
    intro c hc
    obtain ⟨hlt, hz⟩ := mem_fieldName hc
    refine decide_eq_true fun he => hz (Char.toNat_inj.1 ?_)
    have hn : (UInt8.ofNat c.toNat).toNat = c.toNat := by
      rw [UInt8.toNat_ofNat']
      exact Nat.mod_eq_of_lt (by omega)
    rw [← hn, he]
    rfl
  have htake : (nameField name).takeWhile (· ≠ 0) = Bytes.ofChars (fieldName name) := by
    rcases nameField_eq_fieldName name with hall | ⟨bs, hmore⟩
    · rw [hall, List.takeWhile_eq_self_iff]
      intro b hb
      obtain ⟨c, hcs, rfl⟩ := List.mem_map.1 hb
      exact hc c hcs
    · rw [hmore]
      exact Bytes.takeWhile_ofChars_append bs hc rfl
  rw [textOf?, htake, ← Bytes.ofText_eq_ofChars fun c hcs => (mem_fieldName hcs).1,
    Text.Utf8.decode_ofText]
  rfl

@[simp] theorem length_nameField (name : List Char) : (nameField name).length = 100 :=
  Bytes.length_fit _ _

private theorem sum_from (n : Nat) (bs : Bytes) :
    bs.foldl (fun n b => n + b.toNat) n ≤ n + 255 * bs.length := by
  induction bs generalizing n with
  | nil => simp
  | cons b bs ih =>
    have hb := b.toNat_lt
    have hi := ih (n + b.toNat)
    simp only [List.foldl_cons, List.length_cons]
    omega

private theorem sum_le (bs : Bytes) : sum bs ≤ 255 * bs.length := by
  have h := sum_from 0 bs
  rwa [Nat.zero_add] at h

private theorem length_fieldsBefore (name : List Char) {mode size : Nat} (hm : mode < 8 ^ 7)
    (hs : size < sizeLimit) : (fieldsBefore name mode size).length = 148 := by
  have hmode : (octalField 8 mode).length = 8 := length_octalField (by decide) hm
  have hsize : (octalField 12 size).length = 12 := length_octalField (by decide) hs
  simp [fieldsBefore, length_octalField, hmode, hsize]

@[simp] theorem length_fieldsAfter (kind : Char) : (fieldsAfter kind).length = 356 := by
  simp [fieldsAfter, formatMark]

private theorem length_checksum (name : List Char) {mode size : Nat} (hm : mode < 8 ^ 7)
    (hs : size < sizeLimit) (kind : Char) :
    (Bytes.ofChars (Text.digits 8 6
      (checksum (fieldsBefore name mode size) (fieldsAfter kind)))).length = 6 := by
  rw [Bytes.length_ofChars, Text.length_digits (by decide) (by decide)]
  have hb := sum_le (fieldsBefore name mode size)
  have ha := sum_le (fieldsAfter kind)
  rw [length_fieldsBefore name hm hs] at hb
  rw [length_fieldsAfter] at ha
  rw [checksum]
  omega

theorem length_block (name : List Char) {mode size : Nat} (hm : mode < 8 ^ 7)
    (hs : size < sizeLimit) (kind : Char) : (block name mode size kind).length = blockSize := by
  have hc := length_checksum name hm hs kind
  have hb := length_fieldsBefore name hm hs
  simp only [block, List.length_append, hb, hc, length_fieldsAfter, List.length_cons,
    List.length_nil, blockSize]

private theorem fields_block (name : List Char) {mode size : Nat} (hm : mode < 8 ^ 7)
    (hs : size < sizeLimit) (kind : Char) :
    Bytes.fields fieldWidths (block name mode size kind) =
      [nameField name, octalField 8 mode, octalField 8 0, octalField 8 0, octalField 12 size,
        octalField 12 0,
        Bytes.ofChars (Text.digits 8 6
          (checksum (fieldsBefore name mode size) (fieldsAfter kind))) ++ [0, 32],
        Bytes.ofChars [kind], Bytes.zeros 100, formatMark, Bytes.zeros 32, Bytes.zeros 32,
        Bytes.zeros 8, Bytes.zeros 8, Bytes.zeros 155] := by
  have hzero : ∀ width, 1 < width → (octalField width 0).length = width := fun width hw =>
    length_octalField hw (Nat.pow_pos (by decide))
  have hsize : size < 8 ^ (12 - 1) := hs
  have hend : Bytes.zeros 247 = Bytes.zeros 32 ++ (Bytes.zeros 32 ++ (Bytes.zeros 8 ++
      (Bytes.zeros 8 ++ (Bytes.zeros 155 ++ Bytes.zeros 12)))) := by
    simp [Bytes.zeros]
  have hsum : (Bytes.ofChars (Text.digits 8 6 (checksum (fieldsBefore name mode size)
      (fieldsAfter kind))) ++ [0, 32]).length = 8 := by
    rw [List.length_append, length_checksum name hm hs kind]
    rfl
  have hblock : block name mode size kind = nameField name ++ (octalField 8 mode ++
      (octalField 8 0 ++ (octalField 8 0 ++ (octalField 12 size ++ (octalField 12 0 ++
      ((Bytes.ofChars (Text.digits 8 6 (checksum (fieldsBefore name mode size)
        (fieldsAfter kind))) ++ [0, 32]) ++ (Bytes.ofChars [kind] ++ (Bytes.zeros 100 ++
      (formatMark ++ (Bytes.zeros 32 ++ (Bytes.zeros 32 ++ (Bytes.zeros 8 ++ (Bytes.zeros 8 ++
      (Bytes.zeros 155 ++ Bytes.zeros 12)))))))))))))) := by
    simp only [block, fieldsBefore, fieldsAfter, hend, List.append_assoc]
  rw [hblock, fieldWidths, Bytes.fields_cons_append (length_nameField name),
    Bytes.fields_cons_append (length_octalField (by decide) hm),
    Bytes.fields_cons_append (hzero 8 (by decide)), Bytes.fields_cons_append (hzero 8 (by decide)),
    Bytes.fields_cons_append (length_octalField (by decide) hsize),
    Bytes.fields_cons_append (hzero 12 (by decide)), Bytes.fields_cons_append hsum]
  rfl

/-- What a header block says: the name as far as the field gives it, the mode, the size and the
type, and nothing of an owner or a time. -/
def shownHeader (name : List Char) (mode size : Nat) (kind : Char) : Header where
  name := String.ofList (fieldName name)
  mode := mode
  user := 0
  group := 0
  size := size
  time := 0
  kind := Bytes.ofChars [kind]
  userName := ""
  groupName := ""

@[simp] theorem shownHeader_name (name : List Char) (mode size : Nat) (kind : Char) :
    (shownHeader name mode size kind).name = String.ofList (fieldName name) := rfl

@[simp] theorem shownHeader_size (name : List Char) (mode size : Nat) (kind : Char) :
    (shownHeader name mode size kind).size = size := rfl

@[simp] theorem shownHeader_kind (name : List Char) (mode size : Nat) (kind : Char) :
    (shownHeader name mode size kind).kind = Bytes.ofChars [kind] := rfl

private theorem take_block (name : List Char) {mode size : Nat} (hm : mode < 8 ^ 7)
    (hs : size < sizeLimit) (kind : Char) :
    (block name mode size kind).take 148 = fieldsBefore name mode size := by
  simp only [block, List.append_assoc]
  exact List.take_left' (length_fieldsBefore name hm hs)

private theorem drop_block (name : List Char) {mode size : Nat} (hm : mode < 8 ^ 7)
    (hs : size < sizeLimit) (kind : Char) :
    (block name mode size kind).drop 156 = fieldsAfter kind := by
  rw [block]
  exact List.drop_left' (by
    simp only [List.length_append, length_fieldsBefore name hm hs, length_checksum name hm hs kind,
      List.length_cons, List.length_nil])

theorem checksum_block (name : List Char) {mode size : Nat} (hm : mode < 8 ^ 7)
    (hs : size < sizeLimit) (kind : Char) :
    octalOf? (((block name mode size kind).drop 148).take 8) =
      some (checksum ((block name mode size kind).take 148)
        ((block name mode size kind).drop 156)) := by
  rw [take_block name hm hs, drop_block name hm hs]
  have hfield : ((block name mode size kind).drop 148).take 8 =
      Bytes.ofChars (Text.digits 8 6 (checksum (fieldsBefore name mode size) (fieldsAfter kind))) ++
        [0, 32] := by
    simp only [block, List.append_assoc, List.drop_left' (length_fieldsBefore name hm hs)]
    rw [← List.append_assoc]
    exact List.take_left' (by
      rw [List.length_append, length_checksum name hm hs kind]
      rfl)
  rw [hfield]
  exact octalOf?_digits 6 _ [32]

theorem header?_block (name : List Char) {mode size : Nat} (hm : mode < 8 ^ 7)
    (hs : size < sizeLimit) (kind : Char) :
    header? (block name mode size kind) = some (shownHeader name mode size kind) := by
  have hshown : octalOf? (Bytes.ofChars (Text.digits 8 6 (checksum (fieldsBefore name mode size)
      (fieldsAfter kind))) ++ [0, 32]) =
      some (checksum (fieldsBefore name mode size) (fieldsAfter kind)) :=
    octalOf?_digits 6 _ [32]
  rw [header?, fields_block name hm hs kind]
  simp only [hshown, textOf?_nameField name, textOf?_zeros, octalOf?_octalField,
    take_block name hm hs, drop_block name hm hs, Option.bind_eq_bind, Option.bind_some, and_self,
    if_true]
  rfl

end Deposit.Archive.Tar
