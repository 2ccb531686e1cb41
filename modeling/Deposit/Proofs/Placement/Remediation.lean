import Mathlib.Data.List.Nodup
import Mathlib.Data.List.Perm.Subperm
import Deposit.Placement
import Deposit.Proofs.Package.Segments

set_option autoImplicit false
set_option relaxedAutoImplicit false

/-!
Finding another path for a file whose proposed path is taken. An index of taken paths knows the
folded forms of some paths and of the directories that these need; each path that is entered keeps
this, and a path collides with the index exactly when it clashes with one entered. When every number
that fails the test of a bounded search has an occupied value of its own, a search with as many
steps as there are occupied values succeeds, and it finds the least number that passes. A number
changes the last segment of a path only, so what needs no file as a directory keeps that property,
and different numbers give paths that differ also without regard to case. Main statement: whichever
route is taken, the path that a file is assigned does not collide with the index.
-/

namespace Deposit.Placement.Index

open PackagePath (parents folded folded_inj folded_ne_nil exists_parent_iff Clash clash_iff)

/-- The files of the index are the folded forms of some paths, and its directories are the folded
forms of the directories that those paths need. -/
structure Represents (i : Index) (paths : List (List Char)) : Prop where
  mem_files : ∀ k, k ∈ i.files ↔ ∃ p ∈ paths, Text.caseFold p = k
  mem_directories : ∀ k, k ∈ i.directories ↔ ∃ p ∈ paths, ∃ d ∈ parents p, Text.caseFold d = k

theorem represents_empty : empty.Represents [] :=
  ⟨by simp [empty], by simp [empty]⟩

theorem Represents.add {i : Index} {paths : List (List Char)} (h : i.Represents paths)
    (p : List Char) : (i.add p).Represents (p :: paths) := by
  constructor
  · intro k
    simp only [Index.add, List.mem_cons, h.mem_files, exists_eq_or_imp]
    exact or_congr_left eq_comm
  · intro k
    simp only [Index.add, List.mem_append, List.mem_map, h.mem_directories, List.mem_cons,
      exists_eq_or_imp]

variable {i : Index} {paths : List (List Char)}

theorem Represents.isFile_iff (h : i.Represents paths) {p : List Char} :
    i.isFile p = true ↔ ∃ q ∈ paths, folded q = folded p := by
  simp only [isFile, List.contains_iff_mem, h.mem_files, folded_inj]

theorem Represents.isDirectory_iff (h : i.Represents paths) {p : List Char} :
    i.directories.contains (Text.caseFold p) = true ↔
      ∃ q ∈ paths, folded p <+: folded q ∧ folded p ≠ folded q := by
  simp only [List.contains_iff_mem, h.mem_directories, ← folded_inj, exists_parent_iff,
    ne_eq, folded_ne_nil, not_false_eq_true, true_and]

private theorem Represents.isBlocked_iff (h : i.Represents paths) {p : List Char} :
    i.isBlocked p = true ↔ ∃ q ∈ paths, folded q <+: folded p ∧ folded q ≠ folded p := by
  simp only [isBlocked, List.any_eq_true, h.isFile_iff]
  constructor
  · rintro ⟨d, hd, q, hq, he⟩
    exact ⟨q, hq, (exists_parent_iff.1 ⟨d, hd, he.symm⟩).2⟩
  · rintro ⟨q, hq, hp⟩
    obtain ⟨d, hd, he⟩ := exists_parent_iff.2 ⟨folded_ne_nil q, hp⟩
    exact ⟨d, hd, q, hq, he.symm⟩

theorem Represents.collides_iff (h : i.Represents paths) {p : List Char} :
    i.collides p = true ↔ ∃ q ∈ paths, Clash p q := by
  simp only [collides, Bool.or_eq_true, h.isFile_iff, h.isDirectory_iff, h.isBlocked_iff, clash_iff]
  constructor
  · rintro ((⟨q, hq, he⟩ | ⟨q, hq, hp, -⟩) | ⟨q, hq, hp, -⟩)
    · exact ⟨q, hq, .inl (he ▸ List.prefix_refl _)⟩
    · exact ⟨q, hq, .inl hp⟩
    · exact ⟨q, hq, .inr hp⟩
  · rintro ⟨q, hq, hp⟩
    by_cases he : folded q = folded p
    · exact .inl (.inl ⟨q, hq, he⟩)
    · rcases hp with hp | hp
      · exact .inl (.inr ⟨q, hq, hp, Ne.symm he⟩)
      · exact .inr ⟨q, hq, hp, he⟩

end Deposit.Placement.Index

namespace Deposit.Placement

open PackagePath (parents dirChars baseChars splitSegment)

theorem not_test_of_lt_search {test : Nat → Bool} (bound : Nat) {start n : Nat} (hs : start ≤ n)
    (hn : n < search test bound start) : test n = false := by
  induction bound generalizing start with
  | zero =>
    simp only [search] at hn
    omega
  | succ bound ih =>
    unfold search at hn
    split at hn
    · omega
    · rename_i ht
      rcases Nat.eq_or_lt_of_le hs with rfl | hlt
      · simpa using ht
      · exact ih hlt hn

private theorem search_eq_of_not_test {test : Nat → Bool} {bound start : Nat}
    (h : test (search test bound start) = false) : search test bound start = start + bound := by
  induction bound generalizing start with
  | zero => rfl
  | succ bound ih =>
    unfold search at h ⊢
    split at h
    · rename_i ht
      exact absurd h (by simp [ht])
    · rename_i ht
      rw [if_neg ht, ih h]
      omega

private theorem test_search {α : Type} {test : Nat → Bool} (bound start : Nat) {value : Nat → α}
    (occupied : List α) (hv : Function.Injective value)
    (ho : ∀ n, test n = false → value n ∈ occupied) (hb : occupied.length ≤ bound) :
    test (search test bound start) = true := by
  rcases Bool.eq_false_or_eq_true (test (search test bound start)) with h | h
  · exact h
  -- Otherwise all `bound + 1` numbers from the start on fail: too many for the occupied values.
  have he := search_eq_of_not_test h
  have fails : ∀ k ∈ List.range (bound + 1), value (start + k) ∈ occupied := by
    intro k hk
    apply ho
    rcases Nat.eq_or_lt_of_le (Nat.le_of_lt_succ (List.mem_range.1 hk)) with rfl | hlt
    · rwa [← he]
    · exact not_test_of_lt_search bound (Nat.le_add_right start k) (by omega)
  have nodup : ((List.range (bound + 1)).map fun k => value (start + k)).Nodup :=
    List.Nodup.map (fun i j hij => Nat.add_left_cancel (hv hij)) List.nodup_range
  have sub : ((List.range (bound + 1)).map fun k => value (start + k)) ⊆ occupied := by
    intro a ha
    obtain ⟨k, hk, rfl⟩ := List.mem_map.1 ha
    exact fails k hk
  have hl := (List.subperm_of_subset nodup sub).length_le
  rw [List.length_map, List.length_range] at hl
  omega

theorem numbered_eq (path : List Char) (n : Nat) :
    numbered path n = dirChars path ++ (splitSegment (baseChars path)).1 ++
      '-' :: Nat.toDigits 10 n ++ (splitSegment (baseChars path)).2 :=
  rfl

theorem caseFold_numbered_inj (path : List Char) :
    Function.Injective fun n => Text.caseFold (numbered path n) := by
  intro m n h
  simp only [numbered_eq] at h
  exact Text.caseFold_numbered_injective _ _ h

theorem slash_not_mem_toDigits (n : Nat) : '/' ∉ Nat.toDigits 10 n := fun h =>
  absurd (Text.isDigit_of_mem_digits h) (by decide)

theorem exists_numbered_eq (path : List Char) (n : Nat) :
    ∃ last, numbered path n = dirChars path ++ last ∧ '/' ∉ last ∧ '-' ∈ last ∧
      ∀ c ∈ last, c ∈ baseChars path ∨ c = '-' ∨ c.isDigit = true := by
  refine ⟨(splitSegment (baseChars path)).1 ++ '-' :: Nat.toDigits 10 n ++
    (splitSegment (baseChars path)).2, by simp [numbered_eq], ?_, by simp, ?_⟩
  · have hs := PackagePath.slash_not_mem_splitSegment (PackagePath.slash_not_mem_baseChars path)
    simp [hs.1, hs.2, slash_not_mem_toDigits]
  · intro c hc
    have hbase : c ∈ (splitSegment (baseChars path)).1 ∨ c ∈ (splitSegment (baseChars path)).2 →
        c ∈ baseChars path := by
      intro hmem
      rwa [← List.mem_append, PackagePath.splitSegment_append] at hmem
    simp only [List.mem_append, List.mem_cons] at hc
    rcases hc with (hstem | hdash | hdigit) | hextension
    · exact Or.inl (hbase (Or.inl hstem))
    · exact Or.inr (Or.inl hdash)
    · exact Or.inr (Or.inr (Text.isDigit_of_mem_digits hdigit))
    · exact Or.inl (hbase (Or.inr hextension))

private theorem parents_numbered (path : List Char) (n : Nat) :
    parents (numbered path n) = parents path := by
  obtain ⟨last, hlast, hplain, -⟩ := exists_numbered_eq path n
  rw [hlast, PackagePath.parents_dirChars_append path hplain
    (PackagePath.slash_not_mem_baseChars path), PackagePath.dirChars_append_baseChars]

theorem isBlocked_numbered (i : Index) (path : List Char) (n : Nat) :
    i.isBlocked (numbered path n) = i.isBlocked path := by
  simp only [Index.isBlocked, parents_numbered]

theorem slash_not_mem_value (role : Role) : '/' ∉ role.value.toList := by
  cases role <;> decide

theorem slash_not_mem_roleDirectory (role : Role) (n : Nat) : '/' ∉ roleDirectory role n := by
  cases n with
  | zero => exact slash_not_mem_value role
  | succ n => simp [roleDirectory, slash_not_mem_value, slash_not_mem_toDigits]

theorem caseFold_roleDirectory_injective (role : Role) :
    Function.Injective fun n => Text.caseFold (roleDirectory role n) := by
  intro m n h
  match m, n with
  | 0, 0 => rfl
  | 0, n + 1 => simp [roleDirectory] at h
  | m + 1, 0 => simp [roleDirectory] at h
  | m + 1, n + 1 =>
    refine Text.caseFold_numbered_injective role.value.toList [] ?_
    simpa [roleDirectory] using h

theorem isFile_freeDirectory (i : Index) (role : Role) :
    i.isFile (freeDirectory i role) = false := by
  have occupied : ∀ n, (!i.isFile (roleDirectory role n)) = false →
      Text.caseFold (roleDirectory role n) ∈ i.files := by
    intro n hn
    simpa [Index.isFile] using hn
  have h := test_search i.files.length 0 i.files (caseFold_roleDirectory_injective role) occupied
    (Nat.le_refl _)
  simpa [freeDirectory] using h

private theorem slash_not_mem_freeDirectory (i : Index) (role : Role) :
    '/' ∉ freeDirectory i role :=
  slash_not_mem_roleDirectory role _

theorem collides_freeNumbered {i : Index} {path : List Char} (h : i.isBlocked path = false) :
    i.collides (freeNumbered i path) = false := by
  have occupied : ∀ n, (!i.collides (numbered path n)) = false →
      Text.caseFold (numbered path n) ∈ i.files ++ i.directories := by
    intro n hn
    have hc : i.collides (numbered path n) = true := by simpa using hn
    simp only [Index.collides, isBlocked_numbered, h, Bool.or_false, Bool.or_eq_true, Index.isFile,
      List.contains_iff_mem] at hc
    exact List.mem_append.2 hc
  have hs := test_search (i.files.length + i.directories.length) 1 (i.files ++ i.directories)
    (caseFold_numbered_inj path) occupied (Nat.le_of_eq List.length_append)
  simpa [freeNumbered] using hs

theorem isBlocked_flat (i : Index) (role : Role) {base : List Char} (hb : '/' ∉ base) :
    i.isBlocked (freeDirectory i role ++ '/' :: base) = false := by
  have hd := PackagePath.segments_of_slash_not_mem (slash_not_mem_freeDirectory i role)
  have hp : parents (freeDirectory i role ++ '/' :: base) = [freeDirectory i role] := by
    simp only [parents, PackagePath.segments_append_slash, hd,
      PackagePath.segments_of_slash_not_mem hb]
    simp [PackagePath.properPrefixes, PackagePath.ofSegments]
  simp [Index.isBlocked, hp, isFile_freeDirectory]

private theorem collides_remediate (i : Index) (role : Role) (proposed : List Char) :
    i.collides (remediate i role proposed) = false := by
  unfold remediate
  dsimp only
  split
  · rename_i hn
    simpa using hn
  · split
    · have hf := isBlocked_flat i role (PackagePath.slash_not_mem_baseChars proposed)
      split
      · rename_i hc
        simpa using hc
      · exact collides_freeNumbered hf
    · rename_i hb
      exact collides_freeNumbered (by simpa using hb)

theorem collides_assign (i : Index) (role : Role) (proposed : List Char) :
    i.collides (assign i role proposed) = false := by
  unfold assign
  split
  · exact collides_remediate i role proposed
  · rename_i h
    simpa using h

end Deposit.Placement
