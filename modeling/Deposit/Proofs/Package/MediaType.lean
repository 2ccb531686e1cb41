import Deposit.Package.MediaType
import Deposit.Proofs.Package.Segments

set_option autoImplicit false
set_option relaxedAutoImplicit false

/-!
The type of a path by its extension. Only the last segment of a path counts, and of that its
extension and, when this tells of a compression, the extension before it. Main statement: a scheme
in front of a path does not matter to the type that the extension tells, unless all that follows it
is a segment with a leading dot.
-/

namespace Deposit.MediaType

open PackagePath (splitSegment splitExtension baseChars dirChars)

variable {cs stem extension : List Char}

private theorem exists_of_lookup_abbreviations {key long : String}
    (h : abbreviations.lookup key = some long) :
    ∃ inner outer, long.toList = '.' :: inner ++ '.' :: outer ∧
      '.' :: inner = long.toList.take 4 ∧ '.' ∉ inner ∧ '.' ∉ outer ∧ '/' ∉ long.toList ∧
      abbreviations.lookup (smallText ('.' :: outer)) = none ∧
      compressions.contains (String.ofList ('.' :: outer)) = true := by
  have hall : ∀ a ∈ abbreviations, a.2.toList =
        '.' :: (a.2.toList.take 4).tail ++ '.' :: a.2.toList.drop 5 ∧
      '.' :: (a.2.toList.take 4).tail = a.2.toList.take 4 ∧
      '.' ∉ (a.2.toList.take 4).tail ∧ '.' ∉ a.2.toList.drop 5 ∧ '/' ∉ a.2.toList ∧
      abbreviations.lookup (smallText ('.' :: a.2.toList.drop 5)) = none ∧
      compressions.contains (String.ofList ('.' :: a.2.toList.drop 5)) = true := by
    decide +kernel
  obtain ⟨before, after, hentries, -⟩ := List.lookup_eq_some_iff.1 h
  have hmem : (key, long) ∈ abbreviations := by
    rw [hentries]
    exact List.mem_append_right before List.mem_cons_self
  exact ⟨_, _, hall (key, long) hmem⟩

private theorem lookup_abbreviations_nil : abbreviations.lookup (smallText []) = none := by
  decide +kernel

/-- The type that the extension of a segment tells, and, where this tells of a compression only, the
extension before it. -/
def ofExtensions? (inner outer : List Char) : Option String :=
  match abbreviations.lookup (smallText outer) with
  | some long => types.lookup (smallText (long.toList.take 4))
  | none =>
    types.lookup (smallText (if compressions.contains (String.ofList outer) then inner else outer))

private theorem spellOut_of_lookup_eq_none {base : List Char} (fuel : Nat)
    (h : abbreviations.lookup (smallText extension) = none) :
    spellOut fuel (base, extension) = (base, extension) := by
  cases fuel with
  | zero => rfl
  | succ fuel => rw [spellOut, h]

private theorem spellOut_of_lookup {long : String} (cs : List Char) (hstem : '/' ∉ stem)
    (hdots : stem.all (· = '.') = false)
    (h : abbreviations.lookup (smallText extension) = some long) :
    ∃ inner outer, '.' ∉ inner ∧ '.' :: inner = long.toList.take 4 ∧
      compressions.contains (String.ofList ('.' :: outer)) = true ∧ '/' ∉ stem ++ '.' :: inner ∧
      spellOut abbreviations.length (dirChars cs ++ stem, extension) =
        (dirChars cs ++ (stem ++ '.' :: inner), '.' :: outer) := by
  obtain ⟨inner, outer, hlong, htake, hinner, houter, hslash, hnone, hcompression⟩ :=
    exists_of_lookup_abbreviations h
  have hplain : '/' ∉ stem ++ long.toList := by
    rw [List.mem_append, not_or]
    exact ⟨hstem, hslash⟩
  have hmore : (stem ++ '.' :: inner).all (· = '.') = false := by
    rw [List.all_append, hdots, Bool.false_and]
  have hspelled : splitExtension (dirChars cs ++ stem ++ long.toList) =
      (dirChars cs ++ (stem ++ '.' :: inner), '.' :: outer) := by
    rw [List.append_assoc, PackagePath.splitExtension_dirChars_append cs hplain, hlong,
      ← List.append_assoc, PackagePath.splitSegment_of_dot hmore houter]
  rw [hlong, ← List.append_assoc] at hplain
  refine ⟨inner, outer, hinner, htake, hcompression,
    fun hmem => hplain (List.mem_append_left _ hmem), ?_⟩
  rw [show abbreviations.length = 5 + 1 from rfl, spellOut, h]
  dsimp only
  rw [hspelled, spellOut_of_lookup_eq_none 5 hnone]

theorem ofExtension?_eq (cs : List Char) :
    ofExtension? cs = ofExtensions? (splitSegment (splitSegment (baseChars cs)).1).2
      (splitSegment (baseChars cs)).2 := by
  have hsplit : splitExtension cs =
      (dirChars cs ++ (splitSegment (baseChars cs)).1, (splitSegment (baseChars cs)).2) := rfl
  have hplain := (PackagePath.slash_not_mem_splitSegment
    (PackagePath.slash_not_mem_baseChars cs)).1
  unfold ofExtension? ofExtensions?
  rw [hsplit]
  cases hlookup : abbreviations.lookup (smallText (splitSegment (baseChars cs)).2) with
  | none =>
    rw [spellOut_of_lookup_eq_none _ hlookup]
    dsimp only
    rw [PackagePath.splitExtension_dirChars_append cs hplain]
  | some long =>
    -- there is an extension, so what stands before it is not dots only
    obtain hbare | ⟨stem, e, hstem, hdots, he⟩ := PackagePath.isBare_or_exists_dot (baseChars cs)
    · rw [PackagePath.splitSegment_of_isBare hbare] at hlookup
      cases lookup_abbreviations_nil.symm.trans hlookup
    · have hfirst : (splitSegment (baseChars cs)).1 = stem := by
        rw [hstem, PackagePath.splitSegment_of_dot hdots he]
      rw [hfirst] at hplain ⊢
      obtain ⟨inner, outer, hinner, htake, hcompression, hslash, hspelled⟩ :=
        spellOut_of_lookup cs hplain hdots hlookup
      rw [hspelled]
      dsimp only
      rw [if_pos hcompression, PackagePath.splitExtension_dirChars_append cs hslash,
        PackagePath.splitSegment_of_dot hdots hinner, htake]

theorem ofExtension?_congr {xs ys : List Char} (h : baseChars xs = baseChars ys) :
    ofExtension? xs = ofExtension? ys := by
  rw [ofExtension?_eq, ofExtension?_eq ys, h]

theorem lookup_smallText_eq_none {table : List (String × String)} {c : Char}
    (hkeys : ∀ e ∈ table, c ∉ e.1.toList) (hsmall : small c = c) (hmem : c ∈ extension) :
    table.lookup (smallText extension) = none := by
  rw [List.lookup_eq_none_iff]
  intro e he
  rw [bne_iff_ne]
  intro hkey
  apply hkeys e he
  rw [← hkey, smallText, String.toList_ofList]
  exact List.mem_map.2 ⟨c, hmem, hsmall⟩

theorem lookup_types_nil : types.lookup (smallText []) = none := by
  decide +kernel

private theorem lookup_types_of_colon (h : ':' ∈ extension) :
    types.lookup (smallText extension) = none := by
  have htypes : ∀ e ∈ types, ':' ∉ e.1.toList := by decide +kernel
  exact lookup_smallText_eq_none htypes rfl h

private theorem ofExtensions?_nil (inner : List Char) : ofExtensions? inner [] = none := by
  have hcompression : ¬ compressions.contains (String.ofList []) = true := by decide
  rw [ofExtensions?, lookup_abbreviations_nil, if_neg hcompression, lookup_types_nil]

theorem ofExtensions?_of_compression {inner outer : List Char}
    (h : compressions.contains (String.ofList outer) = true) :
    ofExtensions? inner outer = types.lookup (smallText inner) := by
  have hall : ∀ e ∈ compressions, abbreviations.lookup (smallText e.toList) = none := by
    decide +kernel
  have hnone := hall _ (List.contains_iff_mem.1 h)
  rw [String.toList_ofList] at hnone
  rw [ofExtensions?, hnone, if_pos h]

theorem ofExtensions?_of_not_compression {outer : List Char}
    (h : ¬ compressions.contains (String.ofList outer) = true) (inner other : List Char) :
    ofExtensions? inner outer = ofExtensions? other outer := by
  rw [ofExtensions?, ofExtensions?, if_neg h, if_neg h]

private theorem ofExtensions?_of_colon {outer : List Char} (h : ':' ∈ outer) (inner : List Char) :
    ofExtensions? inner outer = none := by
  have habbreviations : ∀ e ∈ abbreviations, ':' ∉ e.1.toList := by decide +kernel
  have hcompressions : ∀ e ∈ compressions, ':' ∉ e.toList := by decide
  have hplain : ¬ compressions.contains (String.ofList outer) = true := by
    intro hmem
    apply hcompressions _ (List.contains_iff_mem.1 hmem)
    rwa [String.toList_ofList]
  rw [ofExtensions?, lookup_smallText_eq_none habbreviations rfl h, if_neg hplain,
    lookup_types_of_colon h]

private theorem splitSegment_colon_append {s : List Char} (p : List Char)
    (hs : s.head? ≠ some '.') :
    (∃ stem e, stem.head? ≠ some '.' ∧ splitSegment s = (stem, e) ∧
        splitSegment (p ++ ':' :: s) = (p ++ ':' :: stem, e)) ∨
      (splitSegment s).2 = [] ∧
        ((splitSegment (p ++ ':' :: s)).2 = [] ∨ ':' ∈ (splitSegment (p ++ ':' :: s)).2) := by
  rcases PackagePath.isBare_or_exists_dot s with hbare | ⟨stem, e, rfl, hdots, he⟩
  · right
    refine ⟨PackagePath.splitSegment_snd_eq_nil_iff.2 hbare, ?_⟩
    obtain ⟨dots, rest, rfl, hdots, hrest⟩ := hbare
    have hplain : '.' ∉ ':' :: (dots ++ rest) := by
      cases dots with
      | nil => simpa using hrest
      | cons d dots =>
        rw [List.all_cons, Bool.and_eq_true, decide_eq_true_iff] at hdots
        rw [hdots.1] at hs
        exact absurd rfl hs
    rw [PackagePath.splitSegment_append_plain p hplain]
    split
    · exact Or.inl rfl
    · exact Or.inr (List.mem_append_right _ List.mem_cons_self)
  · left
    have hwhole : (p ++ ':' :: stem).all (· = '.') = false := by
      rw [List.all_append, List.all_cons]
      exact Bool.and_false _
    refine ⟨stem, '.' :: e, ?_, PackagePath.splitSegment_of_dot hdots he, ?_⟩
    · cases stem with
      | nil => cases hdots
      | cons c stem => exact hs
    · rw [← PackagePath.splitSegment_of_dot hwhole he, List.append_assoc, List.cons_append]

private theorem ofExtensions?_colon_append {s : List Char} (p : List Char)
    (hs : s.head? ≠ some '.') :
    ofExtensions? (splitSegment (splitSegment (p ++ ':' :: s)).1).2
        (splitSegment (p ++ ':' :: s)).2 =
      ofExtensions? (splitSegment (splitSegment s).1).2 (splitSegment s).2 := by
  rcases splitSegment_colon_append p hs with ⟨stem, e, hstem, hbare, hwhole⟩ | ⟨hbare, hwhole⟩
  · rw [hbare, hwhole]
    dsimp only
    by_cases hcompression : compressions.contains (String.ofList e) = true
    · -- the extension before it is that of the stem, and the same holds there
      rw [ofExtensions?_of_compression hcompression, ofExtensions?_of_compression hcompression]
      rcases splitSegment_colon_append p hstem with ⟨_, _, -, hinner, hfull⟩ | ⟨hinner, hfull⟩
      · rw [hinner, hfull]
      · rw [hinner, lookup_types_nil]
        rcases hfull with hnil | hmem
        · rw [hnil, lookup_types_nil]
        · exact lookup_types_of_colon hmem
    · exact ofExtensions?_of_not_compression hcompression _ _
  · rw [hbare, ofExtensions?_nil]
    rcases hwhole with hnil | hmem
    · rw [hnil, ofExtensions?_nil]
    · exact ofExtensions?_of_colon hmem _

private theorem splitScheme_eq_some {scheme rest : List Char}
    (h : splitScheme cs = some (scheme, rest)) :
    cs = scheme ++ ':' :: rest ∧ '/' ∉ scheme ∧ scheme ≠ [] := by
  unfold splitScheme at h
  dsimp only at h
  split at h
  · rename_i others hothers
    split at h
    · cases h
    · rename_i hne
      obtain ⟨rfl, rfl⟩ := Prod.mk.inj (Option.some.inj h)
      rw [List.isEmpty_iff] at hne
      refine ⟨?_, ?_, hne⟩
      · rw [← hothers, List.prefix_iff_eq_append.1 (List.takeWhile_prefix _)]
      · intro hmem
        have hpassed := List.mem_takeWhile_imp hmem
        simp at hpassed
  · cases h

/-- A path begins like a URI with another type than its extension tells: a data URI, or a scheme in
front of a single segment with a leading dot. -/
def IsUriLike (cs : List Char) : Prop :=
  ∃ scheme rest, splitScheme cs = some (scheme, rest) ∧
    (smallText scheme = "data" ∨ rest.head? = some '.' ∧ '/' ∉ rest)

private theorem ofExtension?_of_splitScheme {scheme rest : List Char}
    (h : splitScheme cs = some (scheme, rest)) (hrest : ¬ (rest.head? = some '.' ∧ '/' ∉ rest)) :
    ofExtension? rest = ofExtension? cs := by
  obtain ⟨rfl, hscheme, -⟩ := splitScheme_eq_some h
  by_cases hslash : '/' ∈ rest
  · obtain ⟨xs, ys, rfl, -⟩ := List.eq_append_cons_of_mem hslash
    apply ofExtension?_congr
    rw [← List.cons_append, ← List.append_assoc, PackagePath.baseChars_append_slash,
      PackagePath.baseChars_append_slash]
  · have hhead : rest.head? ≠ some '.' := fun hdot => hrest ⟨hdot, hslash⟩
    have hwhole : '/' ∉ scheme ++ ':' :: rest := by
      rw [List.mem_append, List.mem_cons]
      rintro (hmem | hcolon | hmem)
      · exact hscheme hmem
      · cases hcolon
      · exact hslash hmem
    rw [ofExtension?_eq, ofExtension?_eq (scheme ++ ':' :: rest),
      PackagePath.baseChars_of_slash_not_mem hslash, PackagePath.baseChars_of_slash_not_mem hwhole,
      ofExtensions?_colon_append scheme hhead]

theorem guess?_of_not_isUriLike {path : String} (h : ¬ IsUriLike path.toList) :
    guess? path = ofExtension? path.toList := by
  unfold guess?
  split
  · rename_i scheme rest hsplit
    have hdata : ¬ smallText scheme = "data" := fun hdata => h ⟨scheme, rest, hsplit, Or.inl hdata⟩
    rw [if_neg hdata]
    exact ofExtension?_of_splitScheme hsplit fun hdot => h ⟨scheme, rest, hsplit, Or.inr hdot⟩
  · rfl

end Deposit.MediaType
