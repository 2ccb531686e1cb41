import Mathlib.Algebra.Group.Nat.Defs
import Deposit.Bytes

set_option autoImplicit false
set_option relaxedAutoImplicit false

/-!
Reading back what stands in fields of fixed width, and texts in ASCII as bytes.
-/

namespace Deposit.Bytes

theorem readLE_le_of_lt {width n : Nat} (h : n < 256 ^ width) : readLE (le width n) = n := by
  rw [readLE_le]
  exact Nat.mod_eq_of_lt h

theorem fields_cons_append {width : Nat} {field : Bytes} (h : field.length = width)
    (widths : List Nat) (bs : Bytes) :
    fields (width :: widths) (field ++ bs) = field :: fields widths bs := by
  rw [fields, List.take_left' h, List.drop_left' h]

@[simp] theorem length_zeros (n : Nat) : (zeros n).length = n := List.length_replicate

theorem zeros_add (n m : Nat) : zeros (n + m) = zeros n ++ zeros m :=
  (List.replicate_append_replicate ..).symm

@[simp] theorem length_ofChars (cs : List Char) : (ofChars cs).length = cs.length :=
  List.length_map _

private theorem toNat_byte {n : Nat} (h : n < 128) : (UInt8.ofNat n).toNat = n := by
  rw [UInt8.toNat_ofNat']
  exact Nat.mod_eq_of_lt (by omega)

theorem toChars_ofChars {cs : List Char} (h : ∀ c ∈ cs, c.toNat < 128) :
    toChars (ofChars cs) = cs := by
  rw [toChars, ofChars, List.map_map]
  refine (List.map_congr_left fun c hc => ?_).trans (List.map_id cs)
  rw [Function.comp_apply, toNat_byte (h c hc), Char.ofNat_toNat, id]

theorem ofText_eq_ofChars {cs : List Char} (h : ∀ c ∈ cs, c.toNat < 128) :
    ofText (String.ofList cs) = ofChars cs := by
  rw [ofText, String.toList_ofList]
  induction cs with
  | nil => rfl
  | cons c cs ih =>
    have hc : c.toNat < 128 := h c List.mem_cons_self
    have he : String.utf8EncodeChar c = [UInt8.ofNat c.toNat] := by
      have hle : c.val.toNat ≤ 127 := Nat.le_of_lt_succ hc
      simp only [String.utf8EncodeChar, if_pos hle]
      rfl
    rw [List.flatMap_cons, he, ih fun d hd => h d (List.mem_cons_of_mem c hd)]
    rfl

theorem length_ofText_le (s : String) : (ofText s).length ≤ 4 * s.toList.length := by
  unfold ofText
  induction s.toList with
  | nil => exact Nat.le_refl 0
  | cons c cs ih =>
    have hc : (String.utf8EncodeChar c).length ≤ 4 := by
      rw [String.length_utf8EncodeChar]
      exact c.utf8Size_le_four
    rw [List.flatMap_cons, List.length_append, List.length_cons]
    omega

theorem takeWhile_ofChars_append {p : UInt8 → Bool} {cs : List Char} {b : UInt8} (bs : Bytes)
    (h : ∀ c ∈ cs, p (UInt8.ofNat c.toNat) = true) (hb : p b = false) :
    (ofChars cs ++ b :: bs).takeWhile p = ofChars cs := by
  rw [List.takeWhile_append_of_pos (by simpa [ofChars] using h)]
  simp [hb]

end Deposit.Bytes
