import Deposit.Bytes
import Deposit.Text.Utf8

set_option autoImplicit false
set_option relaxedAutoImplicit false

/-!
Decoding gives back the text that was encoded. A character takes one to four bytes; the first of
them announces how many follow, and each of those carries six bits. Where nothing is malformed,
nothing is replaced.
-/

namespace Deposit.Text.Utf8

private theorem toNat_cases (c : Char) :
    c.toNat < 0xd800 ∨ (0xdfff < c.toNat ∧ c.toNat < 0x110000) :=
  c.valid

private theorem toNat_ofNat_of_lt {n : Nat} (h : n < 256) : (UInt8.ofNat n).toNat = n := by
  rw [UInt8.toNat_ofNat']
  exact Nat.mod_eq_of_lt h

private theorem ofNat_lt_iff {n m : Nat} (hn : n < 256) (hm : m < 256) :
    UInt8.ofNat n < UInt8.ofNat m ↔ n < m := by
  rw [UInt8.lt_iff_toNat_lt, toNat_ofNat_of_lt hn, toNat_ofNat_of_lt hm]

private theorem ofNat_le_iff {n m : Nat} (hn : n < 256) (hm : m < 256) :
    UInt8.ofNat n ≤ UInt8.ofNat m ↔ n ≤ m := by
  rw [UInt8.le_iff_toNat_le, toNat_ofNat_of_lt hn, toNat_ofNat_of_lt hm]

private theorem ofNat_eq_iff {n m : Nat} (hn : n < 256) (hm : m < 256) :
    UInt8.ofNat n = UInt8.ofNat m ↔ n = m := by
  rw [← UInt8.toNat_inj, toNat_ofNat_of_lt hn, toNat_ofNat_of_lt hm]

private theorem lead?_ofNat {n : Nat} (hn : n < 256) :
    lead? (UInt8.ofNat n) =
      if n < 0xc2 then none
      else if n < 0xe0 then some (1, n - 0xc0, 0x80, 0xbf)
      else if n < 0xf0 then
        some (2, n - 0xe0, if n = 0xe0 then 0xa0 else 0x80, if n = 0xed then 0x9f else 0xbf)
      else if n < 0xf5 then
        some (3, n - 0xf0, if n = 0xf0 then 0x90 else 0x80, if n = 0xf4 then 0x8f else 0xbf)
      else none := by
  have lt : ∀ m, m < 256 → (UInt8.ofNat n < UInt8.ofNat m ↔ n < m) := fun m hm => ofNat_lt_iff hn hm
  have eq : ∀ m, m < 256 → (UInt8.ofNat n = UInt8.ofNat m ↔ n = m) := fun m hm => ofNat_eq_iff hn hm
  have h1 : UInt8.ofNat n < 0xc2 ↔ n < 0xc2 := lt 0xc2 (by decide)
  have h2 : UInt8.ofNat n < 0xe0 ↔ n < 0xe0 := lt 0xe0 (by decide)
  have h3 : UInt8.ofNat n < 0xf0 ↔ n < 0xf0 := lt 0xf0 (by decide)
  have h4 : UInt8.ofNat n < 0xf5 ↔ n < 0xf5 := lt 0xf5 (by decide)
  have h5 : UInt8.ofNat n = 0xe0 ↔ n = 0xe0 := eq 0xe0 (by decide)
  have h6 : UInt8.ofNat n = 0xed ↔ n = 0xed := eq 0xed (by decide)
  have h7 : UInt8.ofNat n = 0xf0 ↔ n = 0xf0 := eq 0xf0 (by decide)
  have h8 : UInt8.ofNat n = 0xf4 ↔ n = 0xf4 := eq 0xf4 (by decide)
  simp only [lead?, h1, h2, h3, h4, h5, h6, h7, h8, toNat_ofNat_of_lt hn]

private theorem follow_cons (low high : Nat) {k value seen n : Nat} {bs : Bytes} (hl : low ≤ n)
    (hh : n ≤ high) (hhigh : high < 256) :
    follow (k + 1) (UInt8.ofNat low) (UInt8.ofNat high) value seen (UInt8.ofNat n :: bs) =
      follow k 0x80 0xbf (value * 64 + (n - 0x80)) (seen + 1) bs := by
  have hn : n < 256 := Nat.lt_of_le_of_lt hh hhigh
  have hlow : low < 256 := Nat.lt_of_le_of_lt hl hn
  rw [follow, if_pos ⟨(ofNat_le_iff hlow hn).2 hl, (ofNat_le_iff hn hhigh).2 hh⟩,
    toNat_ofNat_of_lt hn]

private theorem follow_tail {n : Nat} (hl : 0x80 ≤ n) (hh : n ≤ 0xbf) (k value seen : Nat)
    (bs : Bytes) :
    follow (k + 1) 0x80 0xbf value seen (UInt8.ofNat n :: bs) =
      follow k 0x80 0xbf (value * 64 + (n - 0x80)) (seen + 1) bs :=
  follow_cons 0x80 0xbf hl hh (by decide)

private theorem decodeFrom_ascii {n : Nat} (hn : n < 128) (read : List Char) (p : Nat)
    (bs : Bytes) :
    decodeFrom read p (UInt8.ofNat n :: bs) = decodeFrom (Char.ofNat n :: read) (p + 1) bs := by
  have h : UInt8.ofNat n < 0x80 := (ofNat_lt_iff (m := 0x80) (by omega) (by decide)).2 hn
  rw [decodeFrom, if_pos h, toNat_ofNat_of_lt (by omega)]

private theorem decodeFrom_long (value : Nat) {n k bits : Nat} {low high : UInt8}
    (hn : 128 ≤ n ∧ n < 256) (hl : lead? (UInt8.ofNat n) = some (k, bits, low, high)) {bs : Bytes}
    (hf : follow k low high bits 1 bs = .ok value) (read : List Char) (p : Nat) :
    decodeFrom read p (UInt8.ofNat n :: bs) =
      decodeFrom (Char.ofNat value :: read) (p + 1 + k) (bs.drop k) := by
  have h : ¬ UInt8.ofNat n < 0x80 := fun h =>
    absurd ((ofNat_lt_iff (m := 0x80) hn.2 (by decide)).1 h) (by omega)
  rw [decodeFrom, if_neg h]
  simp only [hl, hf]

private theorem decodeFrom_two {v : Nat} (hv : 0x80 ≤ v ∧ v < 0x800) (read : List Char) (p : Nat)
    (bs : Bytes) :
    decodeFrom read p (UInt8.ofNat (v / 64 % 0x20 + 0xc0) :: UInt8.ofNat (v % 0x40 + 0x80) :: bs) =
      decodeFrom (Char.ofNat v :: read) (p + 2) bs := by
  have hl := lead?_ofNat (n := v / 64 % 0x20 + 0xc0) (by omega)
  rw [if_neg (by omega), if_pos (by omega)] at hl
  have hf : follow 1 0x80 0xbf (v / 64 % 0x20 + 0xc0 - 0xc0) 1
      (UInt8.ofNat (v % 0x40 + 0x80) :: bs) = .ok v := by
    rw [follow_tail (n := v % 0x40 + 0x80) (by omega) (by omega), follow]
    exact congrArg Except.ok (by omega)
  exact decodeFrom_long v (by omega) hl hf read p

private theorem decodeFrom_three {v : Nat} (hv : 0x800 ≤ v ∧ v < 0x10000)
    (hs : v < 0xd800 ∨ 0xdfff < v) (read : List Char) (p : Nat) (bs : Bytes) :
    decodeFrom read p (UInt8.ofNat (v / 4096 % 0x10 + 0xe0) ::
        UInt8.ofNat (v / 64 % 0x40 + 0x80) :: UInt8.ofNat (v % 0x40 + 0x80) :: bs) =
      decodeFrom (Char.ofNat v :: read) (p + 3) bs := by
  have hl := lead?_ofNat (n := v / 4096 % 0x10 + 0xe0) (by omega)
  rw [if_neg (by omega), if_neg (by omega), if_pos (by omega)] at hl
  have hf : follow 2 (if v / 4096 % 0x10 + 0xe0 = 0xe0 then 0xa0 else 0x80)
      (if v / 4096 % 0x10 + 0xe0 = 0xed then 0x9f else 0xbf) (v / 4096 % 0x10 + 0xe0 - 0xe0) 1
      (UInt8.ofNat (v / 64 % 0x40 + 0x80) :: UInt8.ofNat (v % 0x40 + 0x80) :: bs) = .ok v := by
    have first : follow 2 (if v / 4096 % 0x10 + 0xe0 = 0xe0 then 0xa0 else 0x80)
        (if v / 4096 % 0x10 + 0xe0 = 0xed then 0x9f else 0xbf) (v / 4096 % 0x10 + 0xe0 - 0xe0) 1
        (UInt8.ofNat (v / 64 % 0x40 + 0x80) :: UInt8.ofNat (v % 0x40 + 0x80) :: bs) =
        follow 1 0x80 0xbf ((v / 4096 % 0x10 + 0xe0 - 0xe0) * 64 + (v / 64 % 0x40 + 0x80 - 0x80)) 2
          (UInt8.ofNat (v % 0x40 + 0x80) :: bs) := by
      split
      · rw [if_neg (by omega)]
        exact follow_cons 0xa0 0xbf (by omega) (by omega) (by decide)
      · split
        · exact follow_cons 0x80 0x9f (by omega) (by omega) (by decide)
        · exact follow_cons 0x80 0xbf (by omega) (by omega) (by decide)
    rw [first, follow_tail (n := v % 0x40 + 0x80) (by omega) (by omega), follow]
    exact congrArg Except.ok (by omega)
  exact decodeFrom_long v (by omega) hl hf read p

private theorem decodeFrom_four {v : Nat} (hv : 0x10000 ≤ v ∧ v < 0x110000) (read : List Char)
    (p : Nat) (bs : Bytes) :
    decodeFrom read p (UInt8.ofNat (v / 262144 % 0x08 + 0xf0) ::
        UInt8.ofNat (v / 4096 % 0x40 + 0x80) :: UInt8.ofNat (v / 64 % 0x40 + 0x80) ::
        UInt8.ofNat (v % 0x40 + 0x80) :: bs) =
      decodeFrom (Char.ofNat v :: read) (p + 4) bs := by
  have hl := lead?_ofNat (n := v / 262144 % 0x08 + 0xf0) (by omega)
  rw [if_neg (by omega), if_neg (by omega), if_neg (by omega), if_pos (by omega)] at hl
  have hf : follow 3 (if v / 262144 % 0x08 + 0xf0 = 0xf0 then 0x90 else 0x80)
      (if v / 262144 % 0x08 + 0xf0 = 0xf4 then 0x8f else 0xbf) (v / 262144 % 0x08 + 0xf0 - 0xf0) 1
      (UInt8.ofNat (v / 4096 % 0x40 + 0x80) :: UInt8.ofNat (v / 64 % 0x40 + 0x80) ::
        UInt8.ofNat (v % 0x40 + 0x80) :: bs) = .ok v := by
    have first : follow 3 (if v / 262144 % 0x08 + 0xf0 = 0xf0 then 0x90 else 0x80)
        (if v / 262144 % 0x08 + 0xf0 = 0xf4 then 0x8f else 0xbf)
        (v / 262144 % 0x08 + 0xf0 - 0xf0) 1 (UInt8.ofNat (v / 4096 % 0x40 + 0x80) ::
          UInt8.ofNat (v / 64 % 0x40 + 0x80) :: UInt8.ofNat (v % 0x40 + 0x80) :: bs) =
        follow 2 0x80 0xbf
          ((v / 262144 % 0x08 + 0xf0 - 0xf0) * 64 + (v / 4096 % 0x40 + 0x80 - 0x80)) 2
          (UInt8.ofNat (v / 64 % 0x40 + 0x80) :: UInt8.ofNat (v % 0x40 + 0x80) :: bs) := by
      split
      · rw [if_neg (by omega)]
        exact follow_cons 0x90 0xbf (by omega) (by omega) (by decide)
      · split
        · exact follow_cons 0x80 0x8f (by omega) (by omega) (by decide)
        · exact follow_cons 0x80 0xbf (by omega) (by omega) (by decide)
    rw [first, follow_tail (n := v / 64 % 0x40 + 0x80) (by omega) (by omega),
      follow_tail (n := v % 0x40 + 0x80) (by omega) (by omega), follow]
    exact congrArg Except.ok (by omega)
  exact decodeFrom_long v (by omega) hl hf read p

private theorem exists_decodeFrom_utf8EncodeChar (c : Char) (p : Nat) :
    ∃ q, ∀ read bs, decodeFrom read p (String.utf8EncodeChar c ++ bs) =
      decodeFrom (c :: read) q bs := by
  have hc := toNat_cases c
  have hv : c.val.toNat = c.toNat := rfl
  unfold String.utf8EncodeChar
  simp only [hv]
  split
  · refine ⟨p + 1, fun read bs => ?_⟩
    exact (decodeFrom_ascii (by omega) read p bs).trans (by rw [Char.ofNat_toNat])
  · split
    · refine ⟨p + 2, fun read bs => ?_⟩
      exact (decodeFrom_two (by omega) read p bs).trans (by rw [Char.ofNat_toNat])
    · split
      · refine ⟨p + 3, fun read bs => ?_⟩
        exact (decodeFrom_three (by omega) (by omega) read p bs).trans (by rw [Char.ofNat_toNat])
      · refine ⟨p + 4, fun read bs => ?_⟩
        exact (decodeFrom_four (by omega) read p bs).trans (by rw [Char.ofNat_toNat])

private theorem decodeFrom_flatMap (cs read : List Char) (p : Nat) :
    decodeFrom read p (cs.flatMap String.utf8EncodeChar) = .ok (read.reverse ++ cs) := by
  induction cs generalizing read p with
  | nil => simp [decodeFrom]
  | cons c cs ih =>
    obtain ⟨q, hq⟩ := exists_decodeFrom_utf8EncodeChar c p
    rw [List.flatMap_cons, hq, ih]
    simp

@[simp] theorem decode_ofText (s : String) : decode (Bytes.ofText s) = .ok s := by
  rw [decode, Bytes.ofText, decodeFrom_flatMap]
  simp [Except.map]

private theorem decodeLossy_of_decodeFrom {read cs : List Char} {position : Nat} {bs : Bytes}
    (h : decodeFrom read position bs = .ok cs) : cs = read.reverse ++ decodeLossy bs := by
  fun_induction decodeFrom read position bs with
  | case1 read position =>
    rw [decodeLossy, List.append_nil]
    exact (Except.ok.inj h).symm
  | case2 read position b bs hb ih =>
    rw [decodeLossy, if_pos hb, ih h, List.reverse_cons, List.append_assoc, List.singleton_append]
  | case3 => cases h
  | case4 => cases h
  | case5 read position b bs hb k bits low high hlead value hfollow ih =>
    rw [decodeLossy, if_neg hb]
    simp only [hlead, hfollow]
    rw [ih h, List.reverse_cons, List.append_assoc, List.singleton_append]

theorem decodeLossy_utf8 (cs : List Char) :
    decodeLossy (cs.flatMap String.utf8EncodeChar) = cs := by
  have hdecode := decode_ofText (String.ofList cs)
  rw [Bytes.ofText, String.toList_ofList, decode] at hdecode
  cases hfrom : decodeFrom [] 0 (cs.flatMap String.utf8EncodeChar) with
  | error malformed =>
    rw [hfrom] at hdecode
    cases hdecode
  | ok read =>
    rw [hfrom] at hdecode
    have hread : read = cs := String.ofList_injective (Except.ok.inj hdecode)
    exact (decodeLossy_of_decodeFrom hfrom).symm.trans hread

end Deposit.Text.Utf8
