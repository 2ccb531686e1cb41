import Deposit.Codec.Gzip

set_option autoImplicit false
set_option relaxedAutoImplicit false

/-!
Decoding gives back what was encoded: first for a single stored block, then for a sequence of them,
and from it for the gzip format. What follows the last block is left alone.
-/

namespace Deposit.Codec

namespace Deflate

private theorem le_two (n : Nat) :
    Bytes.le 2 n = [UInt8.ofNat (n % 256), UInt8.ofNat (n / 256 % 256)] := rfl

private theorem readLE_le_two {n : Nat} (h : n ≤ blockLimit) :
    Bytes.readLE [UInt8.ofNat (n % 256), UInt8.ofNat (n / 256 % 256)] = n := by
  rw [← le_two, Bytes.readLE_le]
  exact Nat.mod_eq_of_lt (Nat.lt_succ_of_le h)

private theorem block?_stored (isLast : Bool) {bs : Bytes} (h : bs.length ≤ blockLimit)
    (rest : Bytes) :
    block? (stored isLast bs ++ rest) = some (isLast, bs, rest) := by
  have hn := readLE_le_two h
  have hc : Bytes.readLE [UInt8.ofNat ((65535 - bs.length) % 256),
      UInt8.ofNat ((65535 - bs.length) / 256 % 256)] = 65535 - bs.length :=
    readLE_le_two (Nat.sub_le _ _)
  simp only [stored, le_two, List.cons_append, List.nil_append, block?, hn, hc, List.take_left,
    List.drop_left]
  cases isLast <;> simp

@[simp] theorem length_stored (isLast : Bool) (bs : Bytes) :
    (stored isLast bs).length = bs.length + 5 := by
  simp [stored]
  omega

private theorem length_encode_pos (bs : Bytes) : 0 < (encode bs).length := by
  rw [encode]
  split
  · simp
  · rw [List.length_append, length_stored]
    omega

theorem length_encode (bs : Bytes) :
    (encode bs).length = bs.length + 5 * ((bs.length - 1) / blockLimit + 1) := by
  fun_induction encode bs with
  | case1 bs hlast =>
    have hle : bs.length ≤ blockLimit := by simpa [List.isEmpty_iff] using hlast
    have hblocks : (bs.length - 1) / blockLimit = 0 := by
      apply Nat.div_eq_of_lt
      simp only [blockLimit] at hle ⊢
      omega
    rw [length_stored, hblocks]
  | case2 bs hmore ih =>
    have hlt : blockLimit < bs.length := by simpa [List.isEmpty_iff] using hmore
    have htake : (bs.take blockLimit).length = blockLimit :=
      List.length_take_of_le (Nat.le_of_lt hlt)
    rw [List.length_append, length_stored, ih, htake, List.length_drop]
    simp only [blockLimit] at hlt ⊢
    omega

theorem length_lt_encode (bs : Bytes) : bs.length < (encode bs).length := by
  rw [length_encode]
  exact Nat.lt_add_of_pos_right (Nat.mul_pos (by decide) (Nat.succ_pos _))

private theorem decodeFrom_encode (bs : Bytes) (fuel : Nat) (read : List Bytes) (rest : Bytes)
    (hf : (encode bs).length ≤ fuel) :
    decodeFrom fuel read (encode bs ++ rest) = some (read.reverse.flatten ++ bs, rest) := by
  induction fuel generalizing bs read with
  | zero =>
    have := length_encode_pos bs
    omega
  | succ fuel ih =>
    rw [encode] at hf ⊢
    split
    · rename_i he
      have hb : bs.length ≤ blockLimit := by simpa [List.isEmpty_iff] using he
      simp [decodeFrom, block?_stored true hb]
    · rename_i he
      have ht : (bs.take blockLimit).length ≤ blockLimit := List.length_take_le _ _
      rw [if_neg he, List.length_append, length_stored] at hf
      rw [List.append_assoc, decodeFrom, block?_stored false ht]
      simp only
      rw [ih (bs.drop blockLimit) (bs.take blockLimit :: read) (by omega)]
      simp

private theorem decode_encode_append (bs rest : Bytes) :
    decode (encode bs ++ rest) = some (bs, rest) := by
  rw [decode, decodeFrom_encode bs _ [] rest (by simp)]
  simp

/-- A way of inflating that gives back what was encoded, and the bytes that follow. -/
def UndoneBy (inflate : Bytes → Option (Bytes × Bytes)) : Prop :=
  ∀ bs rest, inflate (encode bs ++ rest) = some (bs, rest)

theorem undoneBy_decode : UndoneBy decode := decode_encode_append

end Deflate

namespace Gzip

@[simp] theorem decode_encode (bs : Bytes) : decode (encode bs) = some bs := by
  have hh : header.length = 10 := rfl
  rw [decode, encode, List.append_assoc, List.take_left' hh, if_pos rfl, List.drop_left' hh,
    Deflate.decode_encode_append]
  simp

end Gzip

end Deposit.Codec
