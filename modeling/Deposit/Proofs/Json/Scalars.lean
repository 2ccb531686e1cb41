import Deposit.Json.Printer
import Deposit.Json.Reader
import Deposit.Proofs.Text.Digits

set_option autoImplicit false
set_option relaxedAutoImplicit false

/-!
Reading printed strings and integers. A character is written in one of four ways and each is read as
that character; an integer is written in digits, which are read up to their end.
-/

namespace Deposit.Json

private theorem foldlM_toDigits (n : Nat) :
    (Nat.toDigits 16 n).foldlM (fun n c => (Text.hexValue? c).map (n * 16 + ·)) 0 = some n := by
  induction n using Nat.strongRecOn with
  | ind n ih =>
    rw [Nat.toDigits_eq_if (by decide)]
    split
    · rename_i hlt
      simp [Text.hexValue?_digitChar hlt]
    · rename_i hge
      have hlast := Text.hexValue?_digitChar (Nat.mod_lt n (show 0 < 16 by decide))
      rw [List.foldlM_append, ih (n / 16) (by omega)]
      simp only [Option.bind_eq_bind, Option.bind_some, List.foldlM_cons, List.foldlM_nil, hlast,
        Option.map_some]
      exact congrArg some (by omega)

private theorem hexQuad?_digits {n : Nat} (hn : n < 0x10000) :
    hexQuad? (Text.digits 16 4 n) = some n := by
  have hlength : (Text.digits 16 4 n).length = 4 :=
    Text.length_digits (by decide) (by decide) hn
  have hzeros : ∀ k, (List.replicate k '0').foldlM
      (fun n c => (Text.hexValue? c).map (n * 16 + ·)) 0 = some 0 := by
    intro k
    induction k with
    | zero => rfl
    | succ k ih => exact ih
  rw [hexQuad?, if_pos hlength, Text.digits, List.foldlM_append, hzeros]
  exact foldlM_toDigits n

variable {start position : Nat} {read rest : List Char} {c : Char}

private theorem stringFrom_escaped {e : Char} (he : escaped? e = some c) :
    stringFrom start read position ('\\' :: e :: rest) =
      stringFrom start (c :: read) (position + 2) rest := by
  have hu : e ≠ 'u' := by
    rintro rfl
    cases he
  rw [stringFrom.eq_def]
  simp [he]

private theorem stringFrom_plain (hmark : c ≠ '"') (hslash : c ≠ '\\') (hc : 0x20 ≤ c.toNat) :
    stringFrom start read position (c :: rest) =
      stringFrom start (c :: read) (position + 1) rest := by
  rw [stringFrom.eq_def]
  split
  · rename_i h
    cases h
  · rename_i h
    exact absurd (List.cons.inj h).1 hmark
  · rename_i h
    exact absurd (List.cons.inj h).1 hslash
  · rename_i h
    obtain ⟨rfl, rfl⟩ := List.cons.inj h
    rw [if_neg (by omega)]

private theorem take_unit {n : Nat} (hn : n < 0x10000) (rest : List Char) :
    (Text.digits 16 4 n ++ rest).take 4 = Text.digits 16 4 n :=
  List.take_left' (Text.length_digits (by decide) (by decide) hn)

private theorem drop_unit {n : Nat} (hn : n < 0x10000) (rest : List Char) :
    (Text.digits 16 4 n ++ rest).drop 4 = rest :=
  List.drop_left' (Text.length_digits (by decide) (by decide) hn)

private theorem stringFrom_unit {n : Nat} (hn : n < 0xd800 ∨ 0xdfff < n) (hlarge : n < 0x10000)
    (hrest : rest ≠ []) :
    stringFrom start read position (unitEscape n ++ rest) =
      stringFrom start (Char.ofNat n :: read) (position + 6) rest := by
  have hmore : rest.isEmpty = false := by simpa using hrest
  have hhigh : ¬ (0xd800 ≤ n ∧ n < 0xdc00) := by omega
  have hlow : ¬ (0xdc00 ≤ n ∧ n < 0xe000) := by omega
  rw [unitEscape, List.cons_append, List.cons_append, stringFrom.eq_def]
  simp only [take_unit hlarge, drop_unit hlarge, hexQuad?_digits hlarge, hmore, if_neg hhigh,
    if_neg hlow, Bool.false_eq_true, if_false]

private theorem stringFrom_pair {high low : Nat} (hhigh : 0xd800 ≤ high ∧ high < 0xdc00)
    (hlow : 0xdc00 ≤ low ∧ low < 0xe000) (hrest : rest ≠ []) :
    stringFrom start read position (unitEscape high ++ (unitEscape low ++ rest)) =
      stringFrom start
        (Char.ofNat (0x10000 + (high - 0xd800) * 0x400 + (low - 0xdc00)) :: read)
        (position + 12) rest := by
  have hmore : rest.isEmpty = false := by simpa using hrest
  have hl : low < 0x10000 := by omega
  have hh : high < 0x10000 := by omega
  have hhalf : lowHalf? (unitEscape low ++ rest) = .ok (some low) := by
    rw [unitEscape, List.cons_append, List.cons_append, lowHalf?]
    simp only [take_unit hl, drop_unit hl, hexQuad?_digits hl, hmore, if_pos hlow,
      Bool.false_eq_true, if_false]
  have hdrop : (Text.digits 16 4 high ++ (unitEscape low ++ rest)).drop 10 = rest := by
    have hten : 10 = 4 + (2 + 4) := rfl
    rw [hten, ← List.drop_drop, drop_unit hh, ← List.drop_drop, unitEscape]
    exact drop_unit hl rest
  have hne : (unitEscape low ++ rest).isEmpty = false := rfl
  rw [unitEscape, List.cons_append, List.cons_append, stringFrom.eq_def]
  simp only [take_unit hh, drop_unit hh, hexQuad?_digits hh, hne, hhalf, if_pos hhigh, hdrop,
    Bool.false_eq_true, if_false]

private theorem charText_cases (c : Char) :
    (∃ e, charText c = ['\\', e] ∧ escaped? e = some c) ∨
      charText c = [c] ∧ c ≠ '"' ∧ c ≠ '\\' ∧ 0x20 ≤ c.toNat ∨
      charText c = unitEscape c.toNat ∧ c.toNat < 0x10000 ∨
      charText c = unitEscape (0xd800 + (c.toNat - 0x10000) / 0x400) ++
        unitEscape (0xdc00 + (c.toNat - 0x10000) % 0x400) ∧ 0x10000 ≤ c.toNat := by
  by_cases hshort : c ∈ ['"', '\\', '\n', '\r', '\t', '\x08', '\x0c']
  · have hall : ∀ c ∈ ['"', '\\', '\n', '\r', '\t', '\x08', '\x0c'],
        charText c = ['\\', (charText c)[1]!] ∧ escaped? (charText c)[1]! = some c := by
      simp only [List.forall_mem_cons, List.not_mem_nil, false_implies, implies_true, and_true]
      decide
    exact Or.inl ⟨_, hall c hshort⟩
  · simp only [List.mem_cons, List.not_mem_nil, or_false, not_or] at hshort
    obtain ⟨hmark, hslash, hn, hr, ht, hb, hf⟩ := hshort
    unfold charText
    rw [if_neg (by simp [hmark, hslash]), if_neg hn, if_neg hr, if_neg ht, if_neg hb, if_neg hf]
    split
    · rename_i hc
      exact Or.inr (Or.inl ⟨rfl, hmark, hslash, hc.1⟩)
    · split
      · rename_i hc
        exact Or.inr (Or.inr (Or.inl ⟨rfl, hc⟩))
      · rename_i hc
        exact Or.inr (Or.inr (Or.inr ⟨rfl, Nat.le_of_not_lt hc⟩))

private theorem stringFrom_charText (start position : Nat) (read : List Char) (c : Char)
    (hrest : rest ≠ []) :
    ∃ p, stringFrom start read position (charText c ++ rest) =
      stringFrom start (c :: read) p rest := by
  have hscalar : c.toNat < 0xd800 ∨ 0xdfff < c.toNat ∧ c.toNat < 0x110000 := c.valid
  rcases charText_cases c with ⟨e, htext, he⟩ | ⟨htext, hmark, hslash, hc⟩ | ⟨htext, hc⟩ |
    ⟨htext, hc⟩
  · exact ⟨_, by rw [htext]; exact stringFrom_escaped he⟩
  · exact ⟨_, by rw [htext]; exact stringFrom_plain hmark hslash hc⟩
  · refine ⟨position + 6, ?_⟩
    rw [htext, stringFrom_unit (hscalar.imp_right And.left) hc hrest, Char.ofNat_toNat]
  · refine ⟨position + 12, ?_⟩
    have hback : 0x10000 + (0xd800 + (c.toNat - 0x10000) / 0x400 - 0xd800) * 0x400 +
        (0xdc00 + (c.toNat - 0x10000) % 0x400 - 0xdc00) = c.toNat := by
      omega
    rw [htext, List.append_assoc, stringFrom_pair (by omega) (by omega) hrest, hback,
      Char.ofNat_toNat]

theorem stringFrom_flatMap_charText (start position : Nat) (read cs rest : List Char) :
    ∃ p, stringFrom start read position (cs.flatMap charText ++ '"' :: rest) =
      .ok (String.ofList (read.reverse ++ cs), ⟨p, rest⟩) := by
  induction cs generalizing read position with
  | nil =>
    refine ⟨position + 1, ?_⟩
    rw [List.flatMap_nil, List.nil_append, List.append_nil, stringFrom.eq_def]
    rfl
  | cons c cs ih =>
    have hne : cs.flatMap charText ++ '"' :: rest ≠ [] := by simp
    obtain ⟨middle, hfirst⟩ := stringFrom_charText start position read c hne
    obtain ⟨p, hothers⟩ := ih middle (c :: read)
    refine ⟨p, ?_⟩
    rw [List.flatMap_cons, List.append_assoc, hfirst, hothers, List.reverse_cons,
      List.append_assoc]
    rfl

/-- What may stand behind a value, so that it goes on no further. -/
def Ends (tail : List Char) : Prop :=
  ∀ c ∈ tail.head?, c = ',' ∨ c = '\n' ∨ c = ']' ∨ c = '\x7d'

variable {tail : List Char}

private theorem Ends.not_isDigit (h : Ends tail) : ∀ c ∈ tail.head?, c.isDigit = false := by
  intro c hc
  rcases h c hc with rfl | rfl | rfl | rfl <;> rfl

private theorem fractionPart_of_ends (h : Ends tail) : fractionPart tail = [] := by
  unfold fractionPart
  split
  · rcases h '.' rfl with hc | hc | hc | hc <;> cases hc
  · rfl

private theorem exponentPart_of_ends (h : Ends tail) : exponentPart tail = none := by
  cases tail with
  | nil => rfl
  | cons c tail =>
    have hc : ¬ (c = 'e' ∨ c = 'E') := by
      rcases h c rfl with rfl | rfl | rfl | rfl <;> decide
    simp [exponentPart, hc]

private theorem takeWhile_isDigit_append {ds : List Char} (hds : ∀ d ∈ ds, d.isDigit = true)
    (h : Ends tail) : (ds ++ tail).takeWhile Char.isDigit = ds := by
  rw [List.takeWhile_append_of_pos hds]
  cases tail with
  | nil => simp
  | cons c tail => rw [List.takeWhile_cons_of_neg (by simp [h.not_isDigit c rfl]), List.append_nil]

private theorem wholePart_append (n : Nat) (h : Ends tail) :
    wholePart (Nat.toDigits 10 n ++ tail) = Nat.toDigits 10 n := by
  rcases Nat.eq_zero_or_pos n with rfl | hn
  · rfl
  · have hhead := Text.head?_toDigits hn
    have hdigits : ∀ d ∈ Nat.toDigits 10 n, d.isDigit = true :=
      fun d hd => Nat.isDigit_of_mem_toDigits (by decide) (by decide) hd
    obtain ⟨d, ds, hds⟩ := List.exists_cons_of_ne_nil (Nat.toDigits_ne_nil (n := n) (b := 10))
    rw [hds] at hhead hdigits ⊢
    have hzero : d ≠ '0' := fun hd => hhead (congrArg some hd)
    have htake := takeWhile_isDigit_append hdigits h
    unfold wholePart
    split
    · rename_i hcs
      exact absurd (List.cons.inj hcs).1 hzero
    · exact htake

theorem exists_toDigits_eq_cons (n : Nat) :
    ∃ d ds, d.isDigit = true ∧ Nat.toDigits 10 n = d :: ds := by
  obtain ⟨d, ds, hds⟩ := List.exists_cons_of_ne_nil (Nat.toDigits_ne_nil (n := n) (b := 10))
  exact ⟨d, ds, Nat.isDigit_of_mem_toDigits (by decide) (by decide) (hds ▸ List.mem_cons_self),
    hds⟩

theorem toList_decimalInt (i : Int) :
    i = -i.natAbs ∧ (Text.decimalInt i).toList = '-' :: Nat.toDigits 10 i.natAbs ∨
      i = i.natAbs ∧ (Text.decimalInt i).toList = Nat.toDigits 10 i.natAbs := by
  unfold Text.decimalInt
  split
  · exact Or.inl ⟨by omega, by simp [Text.decimal]⟩
  · exact Or.inr ⟨by omega, by simp [Text.decimal]⟩

theorem number?_of_int {i : Int} (hi : i.natAbs < 10 ^ integerLimit) (h : Ends tail)
    (position : Nat) :
    ∃ p, number? ⟨position, (Text.decimalInt i).toList ++ tail⟩ =
      some (.ok (.int i, ⟨p, tail⟩)) := by
  have hwhole := wholePart_append i.natAbs h
  have hvalue := Text.ofDecimalDigits_toDigits i.natAbs
  have hshort := (Nat.length_toDigits_le_iff (by decide) (by decide)).2 hi
  obtain ⟨d, rest, hd, hds⟩ := exists_toDigits_eq_cons i.natAbs
  have hunsigned : ∀ cs, Nat.toDigits 10 i.natAbs ++ tail ≠ '-' :: cs := by
    intro cs hcs
    rw [hds] at hcs
    obtain rfl := (List.cons.inj hcs).1
    cases hd
  have hsign := toList_decimalInt i
  generalize Nat.toDigits 10 i.natAbs = ds at *
  have hempty : ds.isEmpty = false := by rw [hds]; rfl
  rcases hsign with ⟨hneg, htext⟩ | ⟨hpos, htext⟩
  · have hnumber : -(Text.ofDecimalDigits ds : Int) = i := by rw [hvalue, ← hneg]
    have hdrop : ('-' :: (ds ++ tail)).drop (1 + ds.length) = tail := by
      rw [Nat.add_comm, List.drop_succ_cons, List.drop_left]
    refine ⟨position + (1 + ds.length), ?_⟩
    rw [htext, List.cons_append, number?]
    simp [hwhole, hempty, fractionPart_of_ends h, exponentPart_of_ends h, Nat.not_lt.2 hshort,
      hnumber, hdrop]
  · refine ⟨position + ds.length, ?_⟩
    rw [htext]
    unfold number?
    dsimp only
    split
    · rename_i hcs
      exact absurd hcs (hunsigned _)
    · simp [hwhole, hempty, fractionPart_of_ends h, exponentPart_of_ends h, hshort, hvalue,
        ← hpos]

end Deposit.Json
