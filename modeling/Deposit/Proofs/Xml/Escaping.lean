import Mathlib.Data.List.TakeWhile
import Deposit.Xml.Printer
import Deposit.Xml.Reader

set_option autoImplicit false
set_option relaxedAutoImplicit false

/-!
Names, attributes and escaped characters as a reader takes them from the text around them. What is
written for a value leads a reader back to that value, whatever characters it consists of.
-/

namespace Deposit.Xml

theorem exists_isNameStart {name : List Char} (h : takeName name = some (name, [])) :
    ∃ c cs, name = c :: cs ∧ isNameStart c = true ∧ ∀ c ∈ name, isNameChar c = true := by
  cases name with
  | nil => cases h
  | cons c cs =>
    by_cases hstart : isNameStart c = true
    · rw [takeName, if_pos hstart] at h
      obtain ⟨-, hdrop⟩ := Prod.mk.inj (Option.some.inj h)
      exact ⟨c, cs, rfl, hstart, List.dropWhile_eq_nil_iff.1 hdrop⟩
    · rw [takeName, if_neg hstart] at h
      cases h

private theorem takeName_append {name : List Char} (h : takeName name = some (name, []))
    {c : Char} (hc : isNameChar c = false) (rest : List Char) :
    takeName (name ++ c :: rest) = some (name, c :: rest) := by
  obtain ⟨d, cs, rfl, hstart, hchars⟩ := exists_isNameStart h
  have hend : ¬ isNameChar c = true := by rw [hc]; decide
  have htake : (d :: cs ++ c :: rest).takeWhile isNameChar = d :: cs := by
    rw [List.takeWhile_append_of_pos hchars, List.takeWhile_cons_of_neg hend, List.append_nil]
  have hdrop : (d :: cs ++ c :: rest).dropWhile isNameChar = c :: rest := by
    rw [List.dropWhile_append_of_pos hchars, List.dropWhile_cons_of_neg hend]
  rw [List.cons_append] at htake hdrop ⊢
  rw [takeName, if_pos hstart, htake, hdrop]

/-- Whether a name that is written is read as that name. -/
def IsReadable (name : List Char) : Prop :=
  takeQualifiedName name = some (name, [])

instance (name : List Char) : Decidable (IsReadable name) :=
  inferInstanceAs (Decidable (_ = _))

theorem IsReadable.takeName_eq {name : List Char} (h : IsReadable name) :
    takeName name = some (name, []) ∧ isQualifiedName name = true := by
  obtain ⟨⟨taken, rest⟩, htake, hqualified⟩ := Option.bind_eq_some_iff.1 h
  dsimp only at hqualified
  split at hqualified
  · rename_i hq
    obtain ⟨rfl, rfl⟩ := Prod.mk.inj (Option.some.inj hqualified)
    exact ⟨htake, hq⟩
  · cases hqualified

theorem IsReadable.takeQualifiedName_append {name : List Char} (h : IsReadable name) {c : Char}
    (hc : isNameChar c = false) (rest : List Char) :
    takeQualifiedName (name ++ c :: rest) = some (name, c :: rest) := by
  obtain ⟨htake, hqualified⟩ := h.takeName_eq
  rw [takeQualifiedName, takeName_append htake hc]
  simp [hqualified]

theorem IsReadable.exists_start {name : List Char} (h : IsReadable name) :
    ∃ c cs, name = c :: cs ∧ isNameStart c = true :=
  let ⟨c, cs, hname, hstart, _⟩ := exists_isNameStart h.takeName_eq.1
  ⟨c, cs, hname, hstart⟩

theorem ne_of_isNameStart {c d : Char} (hc : isNameStart c = true) (hd : isNameStart d = false) :
    c ≠ d := by
  rintro rfl
  rw [hc] at hd
  cases hd

private theorem isSpace_of_isNameStart {c : Char} (h : isNameStart c = true) :
    isSpace c = false := by
  have hblank : c ≠ ' ' := ne_of_isNameStart h (by decide)
  have htab : c ≠ '\t' := ne_of_isNameStart h (by decide)
  have hline : c ≠ '\n' := ne_of_isNameStart h (by decide)
  have hreturn : c ≠ '\r' := ne_of_isNameStart h (by decide)
  simp [isSpace, hblank, htab, hline, hreturn]

theorem skipSpaces_cons_of_not {c : Char} (hc : isSpace c = false) (cs : List Char) :
    skipSpaces (c :: cs) = c :: cs :=
  List.dropWhile_cons_of_neg (by rw [hc]; decide)

/-- A character as it stands in the value of an attribute. -/
def attributePiece (c : Char) : Piece :=
  if c = '"' then .entity "quot"
  else if c = '&' then .entity "amp"
  else if c = '<' then .entity "lt"
  else if c = '>' then .entity "gt"
  else if c = '\t' ∨ c = '\n' ∨ c = '\r' then .numbered c
  else .plain c

private theorem pieces_reference (written : List Char) {p : Piece} {rest : List Char}
    (h : takeReference (written ++ rest) = some (p, rest)) (hne : written ≠ []) :
    pieces ('&' :: written ++ rest) = (pieces rest).map (p :: ·) := by
  have hlt : rest.length < (written ++ rest).length := by
    have := List.length_pos_iff.2 hne
    simp only [List.length_append]
    omega
  rw [List.cons_append, pieces, h]
  exact if_pos hlt

private theorem pieces_attributeChar (c : Char) (rest : List Char) :
    pieces (attributeChar c ++ rest) = (pieces rest).map (attributePiece c :: ·) := by
  by_cases hquote : c = '"'
  · subst hquote
    exact pieces_reference "quot;".toList rfl (by decide)
  by_cases htab : c = '\t'
  · subst htab
    exact pieces_reference "#9;".toList rfl (by decide)
  by_cases hline : c = '\n'
  · subst hline
    exact pieces_reference "#10;".toList rfl (by decide)
  by_cases hamp : c = '&'
  · subst hamp
    exact pieces_reference "amp;".toList rfl (by decide)
  by_cases hlt : c = '<'
  · subst hlt
    exact pieces_reference "lt;".toList rfl (by decide)
  by_cases hgt : c = '>'
  · subst hgt
    exact pieces_reference "gt;".toList rfl (by decide)
  by_cases hreturn : c = '\r'
  · subst hreturn
    exact pieces_reference "#13;".toList rfl (by decide)
  have hchar : attributeChar c = [c] := by
    simp [attributeChar, textChar, hquote, htab, hline, hamp, hlt, hgt, hreturn]
  have hpiece : attributePiece c = .plain c := by
    simp [attributePiece, hquote, htab, hline, hamp, hlt, hgt, hreturn]
  rw [hchar, hpiece, List.singleton_append, pieces]
  exact hamp

private theorem pieces_escaped (cs : List Char) :
    pieces (cs.flatMap attributeChar) = some (cs.map attributePiece) := by
  induction cs with
  | nil => rw [List.flatMap_nil, pieces]; rfl
  | cons c cs ih =>
    rw [List.flatMap_cons, pieces_attributeChar, ih]
    rfl

private theorem expandPiece_attributePiece (es : Entities)
    (expandContent : List Char → Expansion → Option Expansion) (isOutermost : Bool)
    (x : Expansion) (c : Char) :
    expandPiece es expandContent isOutermost x (attributePiece c) = some (x.push c) := by
  unfold attributePiece
  split
  · rename_i h
    rw [h]
    rfl
  split
  · rename_i h
    rw [h]
    rfl
  split
  · rename_i h
    rw [h]
    rfl
  split
  · rename_i h
    rw [h]
    rfl
  split
  · rfl
  · -- the only blank that stands for itself is the one that blanks become
    rename_i hblank
    simp only [not_or] at hblank
    by_cases hc : c = ' '
    · subst hc
      simp [expandPiece]
    · simp [expandPiece, isSpace, hc, hblank]

theorem attributeValue_escaped (es : Entities) (cs : List Char) :
    attributeValue es (cs.flatMap attributeChar) = some cs := by
  have hfold : ∀ (expandContent : List Char → Expansion → Option Expansion) (x : Expansion),
      (cs.map attributePiece).foldlM (expandPiece es expandContent true) x =
        some ⟨cs.reverse ++ x.reversed, x.cost + cs.length⟩ := by
    intro expandContent
    induction cs with
    | nil => exact fun x => rfl
    | cons c cs ih =>
      intro x
      rw [List.map_cons, List.foldlM_cons, expandPiece_attributePiece]
      show (cs.map attributePiece).foldlM _ (x.push c) = _
      rw [ih]
      simp [Expansion.push, Nat.add_assoc, Nat.add_comm 1]
  rw [attributeValue, pieces_escaped]
  show (expandPieces es _ true _ _).bind _ = _
  rw [expandPieces, hfold]
  simp

/-- Names with values as attributes, each after a blank. -/
def attributesText (as : List (List Char × String)) : List Char :=
  as.flatMap fun a => attributeText a.1 a.2

/-- An attribute as it is taken from a tag. -/
def escaped (a : List Char × String) : List Char × List Char :=
  (a.1, a.2.toList.flatMap attributeChar)

private theorem not_mem_attributeChar (c : Char) :
    '"' ∉ attributeChar c ∧ '<' ∉ attributeChar c := by
  unfold attributeChar textChar
  split
  · decide
  split
  · decide
  split
  · decide
  split
  · decide
  split
  · decide
  split
  · decide
  split
  · decide
  · rename_i hquote _ _ _ hlt _ _
    exact ⟨by simpa using Ne.symm hquote, by simpa using Ne.symm hlt⟩

private theorem not_mem_escaped (cs : List Char) :
    '"' ∉ cs.flatMap attributeChar ∧ '<' ∉ cs.flatMap attributeChar := by
  constructor
  · intro h
    obtain ⟨c, -, hc⟩ := List.mem_flatMap.1 h
    exact (not_mem_attributeChar c).1 hc
  · intro h
    obtain ⟨c, -, hc⟩ := List.mem_flatMap.1 h
    exact (not_mem_attributeChar c).2 hc

private theorem takeLiteral_quoted {cs : List Char} (h : '"' ∉ cs) (rest : List Char) :
    takeLiteral ('"' :: (cs ++ '"' :: rest)) = some (cs, rest) := by
  have hne : ∀ c ∈ cs, decide (c ≠ '"') = true := by
    intro c hc
    rw [decide_eq_true_iff]
    rintro rfl
    exact h hc
  have htake : (cs ++ '"' :: rest).takeWhile (fun c => decide (c ≠ '"')) = cs := by
    rw [List.takeWhile_append_of_pos hne]
    simp
  have hdrop : (cs ++ '"' :: rest).dropWhile (fun c => decide (c ≠ '"')) = '"' :: rest := by
    rw [List.dropWhile_append_of_pos hne]
    simp
  rw [takeLiteral, if_pos (Or.inl rfl), htake, hdrop]

private theorem takeAttribute_written {name : List Char} (hname : IsReadable name) (value : String)
    (rest : List Char) :
    takeAttribute (name ++ '=' :: '"' :: (value.toList.flatMap attributeChar ++ '"' :: rest)) =
      some (escaped (name, value), rest) := by
  obtain ⟨hquote, hopen⟩ := not_mem_escaped value.toList
  rw [takeAttribute, hname.takeQualifiedName_append (by decide)]
  simp only [Option.bind_eq_bind, Option.bind_some]
  rw [skipSpaces_cons_of_not (by decide)]
  have hpass : ∀ cs : List Char, pass "=" ('=' :: cs) = some cs := fun cs => rfl
  rw [hpass, Option.bind_some, skipSpaces_cons_of_not (by decide), takeLiteral_quoted hquote,
    Option.bind_some]
  simp [hopen, escaped]

/-- The end of a tag, and whether it is one without content. -/
def tagEnd (isEmpty : Bool) : List Char :=
  if isEmpty then ['/', '>'] else ['>']

private theorem takeAttributes_tagEnd (taken : List (List Char × List Char)) (isEmpty : Bool)
    (rest : List Char) :
    takeAttributes taken (tagEnd isEmpty ++ rest) = some (taken.reverse, isEmpty, rest) := by
  rw [takeAttributes]
  cases isEmpty <;> rfl

theorem takeAttributes_written {as : List (List Char × String)} (has : ∀ a ∈ as, IsReadable a.1)
    (taken : List (List Char × List Char)) (isEmpty : Bool) (rest : List Char) :
    takeAttributes taken (attributesText as ++ (tagEnd isEmpty ++ rest)) =
      some (taken.reverse ++ as.map escaped, isEmpty, rest) := by
  induction as generalizing taken with
  | nil =>
    rw [attributesText, List.flatMap_nil, List.nil_append, takeAttributes_tagEnd]
    simp
  | cons a as ih =>
    have hname : IsReadable a.1 := has a List.mem_cons_self
    obtain ⟨c, cs, hstart, hc⟩ := hname.exists_start
    -- behind the blank stands the attribute, which begins with its name
    obtain ⟨following, hfollowing⟩ : ∃ following, following =
        a.1 ++ '=' :: '"' :: (a.2.toList.flatMap attributeChar ++
          '"' :: (attributesText as ++ (tagEnd isEmpty ++ rest))) :=
      ⟨_, rfl⟩
    have htext : attributesText (a :: as) ++ (tagEnd isEmpty ++ rest) = ' ' :: following := by
      rw [hfollowing]
      simp [attributesText, attributeText]
    have hskip : skipSpaces (' ' :: following) = following := by
      rw [skipSpaces, List.dropWhile_cons_of_pos (by decide), hfollowing, hstart]
      exact skipSpaces_cons_of_not (isSpace_of_isNameStart hc) _
    have htake : takeAttribute following =
        some (escaped a, attributesText as ++ (tagEnd isEmpty ++ rest)) := by
      rw [hfollowing]
      exact takeAttribute_written hname a.2 _
    have hlt : (attributesText as ++ (tagEnd isEmpty ++ rest)).length <
        (' ' :: following).length := by
      rw [hfollowing]
      simp only [List.length_cons, List.length_append]
      omega
    have hneed : needSpaces (' ' :: following) = some following := by
      have hfirst : skipSpaces following = following := by
        rw [skipSpaces, List.dropWhile_cons_of_pos (by decide)] at hskip
        exact hskip
      rw [needSpaces, if_pos (by decide), hfirst]
    obtain ⟨more, hmore⟩ : ∃ more, following = c :: more := by
      rw [hfollowing, hstart]
      exact ⟨_, rfl⟩
    rw [htext, takeAttributes, hskip, hneed]
    dsimp only
    rw [htake]
    dsimp only
    rw [if_pos hlt, ih (fun b hb => has b (List.mem_cons_of_mem a hb))]
    rw [hmore]
    split
    · rename_i heq
      exact absurd (List.cons.inj heq).1 (ne_of_isNameStart hc (by decide))
    · rename_i heq
      exact absurd (List.cons.inj heq).1 (ne_of_isNameStart hc (by decide))
    · simp

end Deposit.Xml
