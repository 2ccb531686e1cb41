import Deposit.Text.CaseFold
import Deposit.Text.Digits

set_option autoImplicit false
set_option relaxedAutoImplicit false

/-!
What case folding does to slashes, to digits and to the mark before a number. Main statements: a
text holds a slash exactly where its folded form does, so folding keeps the segments of a path, and
texts that differ only in a decimal number keep different folded forms.
-/

namespace Deposit.Text

namespace CaseFold

private theorem toNat_eq_of_ofNat_eq_slash {n : Nat} (h : Char.ofNat n = '/') : n = 47 := by
  by_cases hv : n.isValidChar
  · have hn : (Char.ofNat n).toNat = n := by
      rw [Char.ofNat, dif_pos hv]
      rfl
    rw [← hn, h]
    rfl
  · rw [Char.ofNat, dif_neg hv] at h
    exact absurd h (by decide)

private theorem shifted_ne_slash {r : Run} (hr : r ∈ runs) {n : Nat} (hn : r.covers n = true) :
    (n : Int) + r.shift ≠ 47 := by
  have outside : ∀ r ∈ runs, (r.last : Int) + r.shift < 47 ∨ 47 < (r.first : Int) + r.shift := by
    decide +kernel
  have hb := outside r hr
  simp only [Run.covers, Bool.and_eq_true, decide_eq_true_eq] at hn
  omega

private theorem slash_not_mem_expansions {n : Nat} {ns : List Nat}
    (h : expansions.lookup n = some ns) : 47 ∉ ns := by
  have clear : ∀ e ∈ expansions, 47 ∉ e.2 := by decide +kernel
  have hm : (n, ns) ∈ expansions := by
    rw [List.lookup_eq_some_iff] at h
    obtain ⟨before, after, he, -⟩ := h
    simp [he]
  exact clear _ hm

private theorem slash_not_mem_lookup {c : Char} (hc : c ≠ '/') : '/' ∉ lookup c := by
  intro hm
  unfold lookup at hm
  split at hm
  · rename_i r hr
    have hs := toNat_eq_of_ofNat_eq_slash (List.mem_singleton.1 hm).symm
    have hv : r.covers c.toNat = true := by simpa using List.find?_some hr
    exact shifted_ne_slash (List.mem_of_find?_eq_some hr) hv (by omega)
  · split at hm
    · rename_i ns hns
      obtain ⟨n, hn, he⟩ := List.mem_map.1 hm
      exact slash_not_mem_expansions hns (toNat_eq_of_ofNat_eq_slash he ▸ hn)
    · exact hc (List.mem_singleton.1 hm).symm

private theorem toLower_ne_slash {c : Char} (ha : c.toNat < 128) (hc : c ≠ '/') :
    c.toLower ≠ '/' := by
  have checked : ∀ n < 128, (Char.ofNat n).toLower = '/' → n = 47 := by decide
  intro hl
  have hn := checked c.toNat ha (by rwa [Char.ofNat_toNat])
  exact hc (by rw [← Char.ofNat_toNat c, hn])

private theorem slash_not_mem_ofChar {c : Char} (hc : c ≠ '/') : '/' ∉ ofChar c := by
  unfold ofChar
  split
  · rename_i ha
    intro hm
    exact toLower_ne_slash ha hc (List.mem_singleton.1 hm).symm
  · exact slash_not_mem_lookup hc

theorem ofChar_slash : ofChar '/' = ['/'] := rfl

private theorem ofChar_of_isDigit {c : Char} (hc : c.isDigit = true) : ofChar c = [c] := by
  have checked : ∀ n < 58, 48 ≤ n → ofChar (Char.ofNat n) = [Char.ofNat n] := by decide
  simp only [Char.isDigit, Bool.and_eq_true, decide_eq_true_eq] at hc
  have hn : 48 ≤ c.toNat ∧ c.toNat < 58 := by
    constructor
    · exact hc.1
    · exact Nat.lt_succ_of_le hc.2
  have h := checked c.toNat hn.2 hn.1
  rwa [Char.ofNat_toNat] at h

end CaseFold

theorem slash_mem_caseFold_iff {cs : List Char} : '/' ∈ caseFold cs ↔ '/' ∈ cs := by
  constructor
  · intro h
    obtain ⟨c, hc, hm⟩ := List.mem_flatMap.1 h
    by_cases hs : c = '/'
    · exact hs ▸ hc
    · exact absurd hm (CaseFold.slash_not_mem_ofChar hs)
  · intro h
    exact List.mem_flatMap.2 ⟨'/', h, by simp [CaseFold.ofChar_slash]⟩

@[simp] theorem caseFold_cons (c : Char) (cs : List Char) :
    caseFold (c :: cs) = CaseFold.ofChar c ++ caseFold cs := by
  simp [caseFold]

private theorem caseFold_of_isDigit {cs : List Char} (h : ∀ c ∈ cs, c.isDigit = true) :
    caseFold cs = cs := by
  induction cs with
  | nil => rfl
  | cons c cs ih =>
    rw [caseFold_cons, CaseFold.ofChar_of_isDigit (h c (by simp)),
      ih fun d hd => h d (by simp [hd])]
    rfl

theorem isDigit_of_mem_digits {n : Nat} {c : Char} (h : c ∈ Nat.toDigits 10 n) :
    c.isDigit = true :=
  Nat.isDigit_of_mem_toDigits (by decide) (by decide) h

@[simp] theorem caseFold_toDigits (n : Nat) : caseFold (Nat.toDigits 10 n) = Nat.toDigits 10 n :=
  caseFold_of_isDigit fun _ => isDigit_of_mem_digits

theorem toDigits_injective : Function.Injective (Nat.toDigits 10) := by
  intro m n h
  rw [← Nat.ofDigitChars_ten_toDigits (n := m), h, Nat.ofDigitChars_ten_toDigits]

theorem caseFold_numbered_injective (before after : List Char) :
    Function.Injective fun n => caseFold (before ++ '-' :: Nat.toDigits 10 n ++ after) := by
  intro m n h
  simp only [caseFold_append, caseFold_cons, caseFold_toDigits, List.append_assoc] at h
  exact toDigits_injective
    (List.append_cancel_right (List.append_cancel_left (List.append_cancel_left h)))

end Deposit.Text
