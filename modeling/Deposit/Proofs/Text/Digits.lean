import Mathlib.Algebra.Group.Nat.Defs
import Deposit.Text.Digits

set_option autoImplicit false
set_option relaxedAutoImplicit false

/-!
Numbers written in digits: which characters stand in them, how many there are, and that they give
the number back.
-/

namespace Deposit.Text

variable {base width n : Nat}

private theorem exists_digitChar_of_mem_toDigits {c : Char} (hb : 1 < base)
    (hc : c ∈ Nat.toDigits base n) : ∃ d, d < base ∧ c = d.digitChar := by
  induction n using Nat.strongRecOn with
  | ind n ih =>
    rw [Nat.toDigits_eq_if hb] at hc
    split at hc
    · rename_i hn
      exact ⟨n, hn, List.mem_singleton.1 hc⟩
    · rename_i hn
      rcases List.mem_append.1 hc with hc | hc
      · exact ih (n / base) (Nat.div_lt_self (by omega) hb) hc
      · exact ⟨n % base, Nat.mod_lt n (by omega), List.mem_singleton.1 hc⟩

theorem exists_digitChar_of_mem_digits {c : Char} (hb : 1 < base)
    (hc : c ∈ digits base width n) : ∃ d, d < base ∧ c = d.digitChar := by
  rcases List.mem_append.1 hc with hc | hc
  · exact ⟨0, by omega, List.eq_of_mem_replicate hc⟩
  · exact exists_digitChar_of_mem_toDigits hb hc

theorem toNat_of_mem_digits {c : Char} (hb : 1 < base) (hten : base ≤ 10)
    (hc : c ∈ digits base width n) : 48 ≤ c.toNat ∧ c.toNat < 48 + base := by
  obtain ⟨d, hd, rfl⟩ := exists_digitChar_of_mem_digits hb hc
  rw [Nat.toNat_digitChar_of_lt_ten (by omega)]
  omega

theorem isAscii_of_mem_digits {c : Char} (hb : 1 < base) (hten : base ≤ 10)
    (hc : c ∈ digits base width n) : c.toNat < 128 := by
  have := toNat_of_mem_digits hb hten hc
  omega

theorem length_digits (hb : 1 < base) (hw : 0 < width) (hn : n < base ^ width) :
    (digits base width n).length = width := by
  have hle : (Nat.toDigits base n).length ≤ width := (Nat.length_toDigits_le_iff hb hw).2 hn
  simp only [digits, List.length_append, List.length_replicate]
  omega

theorem ofDigitChars_digits (hb : 1 < base) (hten : base ≤ 10) :
    Nat.ofDigitChars base (digits base width n) 0 = n := by
  rw [digits, Nat.ofDigitChars_append, Nat.ofDigitChars_replicate_zero, Nat.mul_zero,
    Nat.ofDigitChars_toDigits hb hten]

theorem toList_decimal (n : Nat) : (decimal n).toList = digits 10 0 n := by
  simp [decimal, digits]

theorem ofDecimalDigits_toDigits (n : Nat) : ofDecimalDigits (Nat.toDigits 10 n) = n := by
  have hfold : ∀ cs : List Char, ofDecimalDigits cs = Nat.ofDigitChars 10 cs 0 := by
    intro cs
    simp only [ofDecimalDigits, Nat.ofDigitChars_eq_foldl, Nat.mul_comm 10]
    rfl
  rw [hfold, Nat.ofDigitChars_ten_toDigits]

theorem head?_toDigits {n : Nat} (hn : 0 < n) : (Nat.toDigits 10 n).head? ≠ some '0' := by
  induction n using Nat.strongRecOn with
  | ind n ih =>
    rw [Nat.toDigits_eq_if (by decide)]
    split
    · rename_i hlt
      have hchar : ∀ d, d < 10 → 0 < d → d.digitChar ≠ '0' := by decide
      simpa using hchar n hlt hn
    · rename_i hge
      have hpos : 0 < n / 10 := by omega
      have hrest := ih (n / 10) (by omega) hpos
      obtain ⟨c, cs, hcs⟩ := List.exists_cons_of_ne_nil
        (Nat.toDigits_ne_nil (n := n / 10) (b := 10))
      rw [hcs] at hrest ⊢
      exact hrest

theorem hexValue?_digitChar {d : Nat} (hd : d < 16) : hexValue? d.digitChar = some d := by
  have hall : ∀ d, d < 16 → hexValue? d.digitChar = some d := by decide
  exact hall d hd

end Deposit.Text
