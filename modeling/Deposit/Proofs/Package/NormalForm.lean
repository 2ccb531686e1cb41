import Deposit.Proofs.Package.Segments

set_option autoImplicit false
set_option relaxedAutoImplicit false

/-!
Normal forms of names. Of a name all segments are kept, in their order, that are not empty and not
one or two dots; either slash separates them. Main statements: normal forms are the paths that are
their own normal forms, they join to normal forms, and no step along their segments leads out of the
place where it begins.
-/

namespace Deposit.PackagePath

variable {cs s : List Char} {name path : String}

theorem isUsable_iff : isUsable s = true ↔ s ≠ [] ∧ s ≠ ['.'] ∧ s ≠ ['.', '.'] := by
  simp only [isUsable, Bool.not_eq_true', decide_eq_false_iff_not, Bool.or_eq_false_iff, ne_eq,
    and_assoc]

theorem isUsable_of_mem {c : Char} (hc : c ∈ s) (hdot : c ≠ '.') : isUsable s = true := by
  rw [isUsable_iff]
  refine ⟨?_, ?_, ?_⟩ <;>
    · rintro rfl
      simp [hdot] at hc

/-- Whether a character separates the segments of a name. -/
def isSeparator (c : Char) : Bool :=
  c = '/' || c = '\\'

private theorem slash_eq_slash_iff (c : Char) : (slash c == '/') = isSeparator c := by
  rw [Bool.eq_iff_iff, beq_iff_eq, isSeparator, Bool.or_eq_true, decide_eq_true_eq,
    decide_eq_true_eq, slash]
  by_cases hback : c = '\\'
  · simp [hback]
  · simp [hback]

private theorem slash_of_not_isSeparator {c : Char} (h : isSeparator c = false) : slash c = c := by
  rw [isSeparator, Bool.or_eq_false_iff, decide_eq_false_iff_not, decide_eq_false_iff_not] at h
  exact if_neg h.2

private theorem backslash_not_mem_map_slash (cs : List Char) : '\\' ∉ cs.map slash := by
  intro hmem
  obtain ⟨c, -, hc⟩ := List.mem_map.1 hmem
  unfold slash at hc
  split at hc
  · cases hc
  · contradiction

private theorem map_slash_of_not_mem (h : '\\' ∉ cs) : cs.map slash = cs := by
  conv_rhs => rw [← List.map_id cs]
  refine List.map_congr_left fun c hc => if_neg ?_
  rintro rfl
  exact h hc

private theorem segments_map_slash (cs : List Char) :
    segments (cs.map slash) = cs.splitOnP isSeparator := by
  induction cs with
  | nil => rfl
  | cons c cs ih =>
    have htail : (cs.map slash).splitOnP (· == '/') = cs.splitOnP isSeparator := ih
    show ((slash c :: cs.map slash).splitOnP (· == '/')) = _
    rw [List.splitOnP_cons_eq_if_modifyHead, List.splitOnP_cons_eq_if_modifyHead, htail,
      slash_eq_slash_iff]
    by_cases hseparator : isSeparator c = true
    · rw [if_pos hseparator, if_pos hseparator]
    · rw [if_neg hseparator, if_neg hseparator,
        slash_of_not_isSeparator (Bool.not_eq_true _ ▸ hseparator)]

theorem usableSegments_eq (cs : List Char) :
    usableSegments cs = (cs.splitOnP isSeparator).filter isUsable := by
  rw [usableSegments, segments_map_slash]

private theorem usableSegments_append_slash (xs ys : List Char) :
    usableSegments (xs ++ '/' :: ys) = usableSegments xs ++ usableSegments ys := by
  have hslash : slash '/' = '/' := rfl
  simp only [usableSegments, List.map_append, List.map_cons, hslash, segments_append_slash,
    List.filter_append]

private theorem slash_not_mem_of_mem_usableSegments (h : s ∈ usableSegments cs) : '/' ∉ s :=
  slash_not_mem_of_mem_segments (List.mem_of_mem_filter h)

private theorem backslash_not_mem_of_mem_usableSegments (h : s ∈ usableSegments cs) : '\\' ∉ s :=
  fun hmem => backslash_not_mem_map_slash cs (mem_of_mem_splitOn (List.mem_of_mem_filter h) hmem)

theorem normalize?_eq_some_iff :
    normalize? name = some path ↔ segments path.toList = usableSegments name.toList := by
  unfold normalize?
  split
  · rename_i hnone
    rw [hnone]
    simp [segments_ne_nil]
  · rename_i first rest hsegments
    rw [hsegments]
    have hplain : ∀ s ∈ first :: rest, '/' ∉ s := by
      intro s hs
      exact slash_not_mem_of_mem_usableSegments (hsegments.symm ▸ hs)
    have hfound := segments_ofSegments hplain (List.cons_ne_nil first rest)
    constructor
    · intro h
      rw [← Option.some.inj h, String.toList_ofList, hfound]
    · intro h
      have hpath : path.toList = ofSegments (first :: rest) := by
        rw [← h, ofSegments_segments]
      rw [← hpath, String.ofList_toList]

theorem normalize?_eq_none_iff : normalize? name = none ↔ usableSegments name.toList = [] := by
  unfold normalize?
  split
  · rename_i h
    simp [h]
  · rename_i h
    simp [h]

/-- A path in normal form: all of its segments are usable, and backslashes do not occur. -/
structure IsNormal (cs : List Char) : Prop where
  backslash : '\\' ∉ cs
  usable : ∀ s ∈ segments cs, isUsable s = true

theorem IsNormal.usableSegments_eq (h : IsNormal cs) : usableSegments cs = segments cs := by
  rw [usableSegments, map_slash_of_not_mem h.backslash, List.filter_eq_self]
  exact h.usable

theorem isNormal_of_normalize? (h : normalize? name = some path) : IsNormal path.toList := by
  have hsegments := normalize?_eq_some_iff.1 h
  constructor
  · intro hback
    rw [← ofSegments_segments path.toList] at hback
    rcases mem_of_mem_intercalate hback with hslash | ⟨s, hs, hmem⟩
    · cases hslash
    · rw [hsegments] at hs
      exact backslash_not_mem_of_mem_usableSegments hs hmem
  · intro s hs
    rw [hsegments] at hs
    exact isUsable_of_mem_usableSegments hs

theorem normalize?_eq_self_iff : normalize? path = some path ↔ IsNormal path.toList := by
  constructor
  · exact isNormal_of_normalize?
  · intro h
    rw [normalize?_eq_some_iff, h.usableSegments_eq]

theorem normalize?_append_slash {left right : String} {x y : String}
    (hleft : normalize? left = some x) (hright : normalize? right = some y) :
    normalize? (left ++ "/" ++ right) = some (x ++ "/" ++ y) := by
  have hjoin (a b : String) : (a ++ "/" ++ b).toList = a.toList ++ '/' :: b.toList := by
    simp [String.toList_append]
  rw [normalize?_eq_some_iff] at hleft hright ⊢
  rw [hjoin, hjoin, segments_append_slash, usableSegments_append_slash, hleft, hright]

/-- Names that differ at most in which of the two slashes separates their segments have one normal
form. -/
theorem normalize?_congr {left right : String}
    (h : List.Forall₂ (fun c d => c = d ∨ isSeparator c = true ∧ isSeparator d = true)
      left.toList right.toList) : normalize? left = normalize? right := by
  have hmap (xs ys : List Char)
      (hxs : List.Forall₂ (fun c d => c = d ∨ isSeparator c = true ∧ isSeparator d = true) xs ys) :
      xs.map slash = ys.map slash := by
    induction hxs with
    | nil => rfl
    | @cons c d xs ys first _ ih =>
      have hcd : slash c = slash d := by
        rcases first with rfl | ⟨hc, hd⟩
        · rfl
        · rw [← slash_eq_slash_iff, beq_iff_eq] at hc hd
          rw [hc, hd]
      rw [List.map_cons, List.map_cons, hcd, ih]
  have hsegments : usableSegments left.toList = usableSegments right.toList := by
    rw [usableSegments, usableSegments, hmap _ _ h]
  unfold normalize?
  rw [hsegments]

namespace IsNormal

theorem ne_nil (h : IsNormal cs) : cs ≠ [] := by
  rintro rfl
  have hempty : isUsable [] = true := h.usable [] List.mem_cons_self
  cases hempty

theorem not_slash_prefix (h : IsNormal cs) : ¬ ['/'] <+: cs := by
  rintro ⟨rest, rfl⟩
  have hsegments : segments (['/'] ++ rest) = segments [] ++ segments rest :=
    segments_append_slash [] rest
  have hmem : [] ∈ segments (['/'] ++ rest) := by
    rw [hsegments]
    exact List.mem_cons_self
  have hempty := h.usable [] hmem
  cases hempty

theorem not_slash_suffix (h : IsNormal cs) : ¬ ['/'] <:+ cs := by
  rintro ⟨before, rfl⟩
  have hsegments : segments (before ++ ['/']) = segments before ++ segments [] :=
    segments_append_slash before []
  have hmem : [] ∈ segments (before ++ ['/']) := by
    rw [hsegments]
    exact List.mem_append_right _ List.mem_cons_self
  have hempty := h.usable [] hmem
  cases hempty

theorem append_slash {xs ys : List Char} (hx : IsNormal xs) (hy : IsNormal ys) :
    IsNormal (xs ++ '/' :: ys) := by
  constructor
  · intro hback
    rcases List.mem_append.1 hback with hmem | hmem
    · exact hx.backslash hmem
    · rcases List.mem_cons.1 hmem with hslash | hmem
      · cases hslash
      · exact hy.backslash hmem
  · intro s hs
    rw [segments_append_slash, List.mem_append] at hs
    rcases hs with hs | hs
    · exact hx.usable s hs
    · exact hy.usable s hs

theorem of_isUsable (hslash : '/' ∉ s) (hback : '\\' ∉ s) (h : isUsable s = true) : IsNormal s := by
  refine ⟨hback, ?_⟩
  intro t ht
  rw [segments_of_slash_not_mem hslash, List.mem_singleton] at ht
  rwa [ht]

theorem isUsable_baseChars (h : IsNormal cs) : isUsable (baseChars cs) = true :=
  h.usable _ (List.mem_of_getLast? (getLast?_segments cs))

theorem baseChars (h : IsNormal cs) : IsNormal (PackagePath.baseChars cs) := by
  apply of_isUsable (slash_not_mem_baseChars cs) ?_ h.isUsable_baseChars
  intro hback
  exact h.backslash (mem_of_mem_baseChars hback)

theorem dirChars_append (h : IsNormal cs) (hslash : '/' ∉ s) (hback : '\\' ∉ s)
    (hs : isUsable s = true) : IsNormal (dirChars cs ++ s) := by
  obtain ⟨before, hbefore⟩ := exists_segments_dirChars cs
  have hsegments : segments cs = before ++ [PackagePath.baseChars cs] := by
    have hlast := hbefore (PackagePath.baseChars cs) (slash_not_mem_baseChars cs)
    rwa [dirChars_append_baseChars] at hlast
  constructor
  · intro hmem
    rcases List.mem_append.1 hmem with hmem | hmem
    · exact h.backslash (mem_of_mem_dirChars hmem)
    · exact hback hmem
  · intro t ht
    rw [hbefore s hslash, List.mem_append, List.mem_singleton] at ht
    rcases ht with ht | rfl
    · apply h.usable
      rw [hsegments]
      exact List.mem_append_left _ ht
    · exact hs

end IsNormal

private theorem baseChars_map_slash (cs : List Char) :
    baseChars (cs.map slash) = baseChars ((baseChars cs).map slash) := by
  by_cases hslash : '/' ∈ cs
  · obtain ⟨xs, ys, rfl, hplain⟩ := exists_eq_append_last hslash
    rw [List.map_append, List.map_cons, show slash '/' = '/' from rfl, baseChars_append_slash,
      baseChars_append_slash, baseChars_of_slash_not_mem hplain]
  · rw [baseChars_of_slash_not_mem hslash]

theorem baseChars_map_slash_eq_iff :
    baseChars (cs.map slash) = baseChars cs ↔ '\\' ∉ baseChars cs := by
  constructor
  · intro hsame hback
    rw [← hsame] at hback
    exact backslash_not_mem_map_slash cs (mem_of_mem_baseChars hback)
  · intro hback
    rw [baseChars_map_slash, map_slash_of_not_mem hback,
      baseChars_of_slash_not_mem (slash_not_mem_baseChars cs)]

theorem toList_of_normalize?_ofList (hslash : '/' ∉ s) (hback : '\\' ∉ s)
    (h : normalize? (String.ofList s) = some path) : path.toList = s := by
  rw [normalize?_eq_some_iff, String.toList_ofList, usableSegments, map_slash_of_not_mem hback,
    segments_of_slash_not_mem hslash] at h
  by_cases husable : isUsable s = true
  · rw [List.filter_cons_of_pos husable, List.filter_nil] at h
    rw [← ofSegments_segments path.toList, h]
    exact List.append_nil s
  · rw [List.filter_cons_of_neg husable, List.filter_nil] at h
    exact absurd h (segments_ne_nil _)

/-- Where some segments lead from a place below the root, if no step leads out of the root: empty
segments and single dots stay, two dots go up, and all others go down. -/
def descend : List (List Char) → List (List Char) → Option (List (List Char))
  | here, [] => some here
  | here, s :: rest =>
    if s = [] ∨ s = ['.'] then descend here rest
    else if s = ['.', '.'] then
      if here = [] then none else descend here.dropLast rest
    else descend (here ++ [s]) rest

private theorem descend_of_isUsable {here ss : List (List Char)} (h : ∀ s ∈ ss, isUsable s = true) :
    descend here ss = some (here ++ ss) := by
  induction ss generalizing here with
  | nil => rw [descend, List.append_nil]
  | cons s ss ih =>
    rw [List.forall_mem_cons] at h
    obtain ⟨hempty, hdot, hdots⟩ := isUsable_iff.1 h.1
    have hstay : ¬ (s = [] ∨ s = ['.']) := not_or.2 ⟨hempty, hdot⟩
    rw [descend, if_neg hstay, if_neg hdots, ih h.2, List.append_assoc, List.singleton_append]

theorem IsNormal.descend_take (h : IsNormal cs) (k : Nat) :
    descend [] ((segments cs).take k) = some ((segments cs).take k) := by
  apply descend_of_isUsable
  intro s hs
  exact h.usable s (List.mem_of_mem_take hs)

-- a path that is not in normal form may lead out of the root
example : descend [] (segments ['a', '/', '.', '.', '/', '.', '.']) = none := by decide

end Deposit.PackagePath
