import Mathlib.Data.List.Basic
import Mathlib.Data.List.TakeWhile
import Deposit.Text.Blank

set_option autoImplicit false
set_option relaxedAutoImplicit false

/-!
Texts with separators: the parts between them, and the text that parts make with separators between
them or behind each. And texts without separators at their ends: nothing is left exactly of a text
of them, and putting more of them in front of a text or behind it changes nothing of what is left.
-/

namespace Deposit

variable {cs part : List Char} {parts : List (List Char)} {a c : Char}

private theorem mem_intercalate_of_mem (hpart : part ∈ parts) (hc : c ∈ part) :
    c ∈ [a].intercalate parts := by
  induction parts with
  | nil => cases hpart
  | cons first rest ih =>
    cases rest with
    | nil =>
      obtain rfl := List.mem_singleton.1 hpart
      simpa [List.intercalate] using hc
    | cons second rest =>
      rw [List.intercalate_cons_cons, List.mem_append, List.mem_append]
      rcases List.mem_cons.1 hpart with rfl | hrest
      · exact Or.inl (Or.inl hc)
      · exact Or.inr (ih hrest)

theorem mem_of_mem_intercalate (h : c ∈ [a].intercalate parts) :
    c = a ∨ ∃ part ∈ parts, c ∈ part := by
  induction parts with
  | nil => cases h
  | cons first rest ih =>
    cases rest with
    | nil => exact Or.inr ⟨first, List.mem_cons_self, by simpa [List.intercalate] using h⟩
    | cons second rest =>
      rw [List.intercalate_cons_cons, List.mem_append, List.mem_append, List.mem_singleton] at h
      rcases h with (h | h) | h
      · exact Or.inr ⟨first, List.mem_cons_self, h⟩
      · exact Or.inl h
      · exact (ih h).imp_right fun ⟨part, hpart, hc⟩ =>
          ⟨part, List.mem_cons_of_mem first hpart, hc⟩

theorem mem_of_mem_splitOn (h : part ∈ cs.splitOn a) (hc : c ∈ part) : c ∈ cs := by
  have hparts := mem_intercalate_of_mem (a := a) h hc
  rwa [List.intercalate_splitOn] at hparts

theorem not_mem_of_mem_splitOn {cs part : List Char} {a : Char} (h : part ∈ cs.splitOn a) :
    a ∉ part := by
  by_cases ha : a ∈ cs
  · obtain ⟨first, rest, hcs, hfirst⟩ := List.eq_append_cons_of_mem ha
    rw [hcs, List.splitOn_append_cons_self_of_not_mem hfirst, List.mem_cons] at h
    rcases h with rfl | h
    · exact hfirst
    · exact not_mem_of_mem_splitOn h
  · rw [List.splitOn_eq_singleton ha, List.mem_singleton] at h
    exact h ▸ ha
termination_by cs.length
decreasing_by
  simp only [hcs, List.length_append, List.length_cons]
  omega

theorem splitOn_flatMap_append (h : ∀ p ∈ parts, a ∉ p) :
    (parts.flatMap fun p => p ++ [a]).splitOn a = parts ++ [[]] := by
  induction parts with
  | nil => exact List.splitOn_eq_singleton List.not_mem_nil
  | cons p ps ih =>
    rw [List.flatMap_cons, List.append_assoc, List.singleton_append,
      List.splitOn_append_cons_self_of_not_mem (h p List.mem_cons_self),
      ih fun q hq => h q (List.mem_cons_of_mem p hq)]
    rfl

theorem intercalate_cons_first (a b : Char) (part : List Char) (parts : List (List Char)) :
    [a].intercalate ((b :: part) :: parts) = b :: [a].intercalate (part :: parts) := by
  cases parts with
  | nil => simp [List.intercalate]
  | cons next parts => simp only [List.intercalate_cons_cons, List.cons_append]

theorem intercalate_pair (a b : Char) (part : List Char) (parts : List (List Char)) :
    [a, b].intercalate (part :: parts) = [a].intercalate (part :: parts.map (b :: ·)) := by
  induction parts generalizing part with
  | nil => simp [List.intercalate]
  | cons next parts ih =>
    rw [List.map_cons, List.intercalate_cons_cons, List.intercalate_cons_cons,
      intercalate_cons_first, ← ih]
    simp only [List.append_assoc, List.cons_append, List.nil_append]

namespace Text

variable {p : Char → Bool} {front back : List Char}

theorem mem_of_mem_stripWhere (h : c ∈ stripWhere p cs) : c ∈ cs := by
  rw [stripWhere, dropTail, List.mem_reverse] at h
  have hdropped := List.mem_reverse.1 ((List.dropWhile_sublist _).mem h)
  exact (List.dropWhile_sublist _).mem hdropped

theorem stripWhere_eq_nil_iff : stripWhere p cs = [] ↔ ∀ c ∈ cs, p c = true := by
  have hdrop : stripWhere p cs = [] ↔ ∀ c ∈ cs.dropWhile p, p c = true := by
    rw [stripWhere, dropTail, List.reverse_eq_nil_iff, List.dropWhile_eq_nil_iff]
    simp only [List.mem_reverse]
  rw [hdrop]
  constructor
  · intro hclass c hc
    rw [← List.takeWhile_append_dropWhile (p := p) (l := cs), List.mem_append] at hc
    exact hc.elim List.mem_takeWhile_imp (hclass c)
  · intro hclass c hc
    exact hclass c ((List.dropWhile_sublist _).mem hc)

theorem stripWhere_append_of_front (h : ∀ c ∈ front, p c = true) (cs : List Char) :
    stripWhere p (front ++ cs) = stripWhere p cs := by
  rw [stripWhere, stripWhere, List.dropWhile_append_of_pos h]

theorem stripWhere_append_of_back (h : ∀ c ∈ back, p c = true) (cs : List Char) :
    stripWhere p (cs ++ back) = stripWhere p cs := by
  by_cases hall : ∀ c ∈ cs, p c = true
  · rw [stripWhere_eq_nil_iff.2 hall, stripWhere_append_of_front hall, stripWhere_eq_nil_iff.2 h]
  · have hrest : (cs.dropWhile p).isEmpty = false := by
      rw [← Bool.not_eq_true, List.isEmpty_iff, List.dropWhile_eq_nil_iff]
      exact hall
    rw [stripWhere, stripWhere, List.dropWhile_append, hrest, if_neg Bool.false_ne_true, dropTail,
      dropTail, List.reverse_append, List.dropWhile_append_of_pos]
    intro c hc
    exact h c (List.mem_reverse.1 hc)

end Text

end Deposit
