import Mathlib.Data.List.DropRight
import Mathlib.Order.Interval.Finset.Nat
import Deposit.Proofs.Placement.Confinement
import Deposit.Proofs.Placement.Order

set_option autoImplicit false
set_option relaxedAutoImplicit false

/-!
How long it takes to find another path for a file. Both searches count up from a number until one
passes a test, and nothing but the test ends them. They end because every number that fails has an
occupied folded path of its own: a directory of the role at which a file sits, or a numbered path
that is a file or a directory. For numbered paths this needs that no file sits above them, and this
does not depend on the number. Main statement: a directory is found with at most one test more than
there are files, and a number that is at most one more than there are files and directories.
-/

namespace Deposit

namespace PackagePath

variable {cs s d : List Char}

/-- The directory of a path, without slashes at its end unless it consists of slashes. -/
def directory (cs : List Char) : List Char :=
  let before := (dirChars cs).rdropWhile (· = '/')
  if before = [] then dirChars cs else before

/-- A segment joined to a directory. -/
def join (directory s : List Char) : List Char :=
  if directory = [] ∨ directory.getLast? = some '/' then directory ++ s
  else directory ++ '/' :: s

private theorem exists_dirChars_eq (h : dirChars cs ≠ []) :
    ∃ before, dirChars cs = before ++ ['/'] := by
  rw [dirChars, ne_eq, List.reverse_eq_nil_iff] at h
  obtain ⟨c, rest, hrest⟩ := List.exists_cons_of_ne_nil h
  have hslash := List.head?_dropWhile_not (fun c : Char => decide (c ≠ '/')) cs.reverse
  rw [hrest, List.head?_cons] at hslash
  refine ⟨rest.reverse, ?_⟩
  rw [dirChars, hrest, List.reverse_cons, show c = '/' by simpa using hslash]

private theorem dirChars_of_slash_not_mem (hs : '/' ∉ s) : dirChars s = [] := by
  have hwhole := dirChars_append_baseChars s
  rwa [baseChars_of_slash_not_mem hs, List.append_left_eq_self] at hwhole

private theorem exists_join_eq (d : List Char) : ∃ front, ∀ s, join d s = front ++ s := by
  by_cases hplain : d = [] ∨ d.getLast? = some '/'
  · exact ⟨d, fun s => if_pos hplain⟩
  · refine ⟨d ++ ['/'], fun s => ?_⟩
    rw [join, if_neg hplain, List.append_assoc, List.singleton_append]

private theorem join_of_slash_not_suffix (hne : d ≠ []) (h : ¬ ['/'] <:+ d) (s : List Char) :
    join d s = d ++ '/' :: s := by
  rw [join, if_neg]
  rintro (hempty | hlast)
  · exact hne hempty
  · obtain ⟨before, hbefore⟩ := List.getLast?_eq_some_iff.1 hlast
    exact h ⟨before, hbefore.symm⟩

private theorem join_directory_cases (cs : List Char) :
    (∀ s, join (directory cs) s = dirChars cs ++ s) ∨
      ∃ before slashes, cs = before ++ '/' :: (slashes ++ baseChars cs) ∧
        (∀ c ∈ slashes, c = '/') ∧ ∀ s, join (directory cs) s = before ++ '/' :: s := by
  by_cases hempty : dirChars cs = []
  · left
    intro s
    simp [directory, join, hempty]
  obtain ⟨xs, hxs⟩ := exists_dirChars_eq hempty
  have hlast : (dirChars cs).getLast? = some '/' := by rw [hxs, List.getLast?_concat]
  set before := (dirChars cs).rdropWhile (· = '/') with hbefore
  by_cases hslashes : before = []
  · left
    intro s
    rw [directory, ← hbefore, if_pos hslashes, join, if_pos (Or.inr hlast)]
  · right
    have hend : ¬ ['/'] <:+ before := by
      rintro ⟨ys, hys⟩
      have hnot := List.rdropWhile_last_not (· = '/') (dirChars cs) hslashes
      simp only [← hbefore, ← hys, List.getLast_append_singleton] at hnot
      simp at hnot
    have hparts : before ++ (dirChars cs).rtakeWhile (· = '/') = dirChars cs :=
      List.rdropWhile_append_rtakeWhile
    cases hrest : (dirChars cs).rtakeWhile (· = '/') with
    | nil =>
      rw [hrest, List.append_nil] at hparts
      exact absurd ⟨xs, (hparts.trans hxs).symm⟩ hend
    | cons c slashes =>
      have hslash : ∀ x ∈ c :: slashes, x = '/' := by
        intro x hx
        rw [← hrest] at hx
        simpa using List.mem_rtakeWhile_imp hx
      refine ⟨before, slashes, ?_, fun x hx => hslash x (List.mem_cons_of_mem c hx), fun s => ?_⟩
      · conv_lhs => rw [← dirChars_append_baseChars cs, ← hparts, hrest,
          hslash c List.mem_cons_self]
        simp
      · rw [directory, ← hbefore, if_neg hslashes, join_of_slash_not_suffix hslashes hend]

private theorem mem_parents_iff_prefix :
    d ∈ parents cs ↔ segments d <+: (segments cs).dropLast := by
  rw [mem_parents]
  conv_lhs => rw [← List.dropLast_append_getLast (segments_ne_nil cs), List.prefix_concat_iff]
  constructor
  · rintro ⟨hbegins, hne⟩
    exact hbegins.resolve_left hne
  · intro hbegins
    refine ⟨Or.inr hbegins, fun hsame => ?_⟩
    have hle := hbegins.length_le
    rw [hsame, List.length_append, List.length_singleton] at hle
    omega

private theorem dropLast_segments_join (cs : List Char) (hs : '/' ∉ s) :
    (segments (join (directory cs) s)).dropLast <+: (segments cs).dropLast := by
  rcases join_directory_cases cs with hjoin | ⟨before, slashes, hcs, -, hjoin⟩
  · obtain ⟨first, hfirst⟩ := exists_segments_dirChars cs
    conv_rhs => rw [← dirChars_append_baseChars cs, hfirst _ (slash_not_mem_baseChars cs)]
    rw [hjoin, hfirst s hs, List.dropLast_concat, List.dropLast_concat]
  · rw [hjoin, hcs, segments_append_slash, segments_append_slash, segments_of_slash_not_mem hs,
      List.dropLast_concat, List.dropLast_append_of_ne_nil (segments_ne_nil _)]
    exact List.prefix_append _ _

private theorem dropLast_segments_slashes {slashes : List Char} (hslashes : ∀ c ∈ slashes, c = '/')
    (hs : '/' ∉ s) : (segments (slashes ++ s)).dropLast = List.replicate slashes.length [] := by
  induction slashes with
  | nil =>
    rw [List.nil_append, segments_of_slash_not_mem hs]
    rfl
  | cons c slashes ih =>
    have hsplit : segments (c :: slashes ++ s) = [[]] ++ segments (slashes ++ s) := by
      rw [hslashes c List.mem_cons_self, ← segments_of_slash_not_mem (List.not_mem_nil (a := '/')),
        ← segments_append_slash]
      rfl
    rw [hsplit, List.dropLast_append_of_ne_nil (segments_ne_nil _),
      ih fun x hx => hslashes x (List.mem_cons_of_mem c hx)]
    rfl

private theorem filter_dropLast_segments_join (cs : List Char) (hs : '/' ∉ s) :
    (segments (join (directory cs) s)).dropLast.filter (· ≠ []) =
      (segments cs).dropLast.filter (· ≠ []) := by
  rcases join_directory_cases cs with hjoin | ⟨before, slashes, hcs, hslashes, hjoin⟩
  · obtain ⟨first, hfirst⟩ := exists_segments_dirChars cs
    conv_rhs => rw [← dirChars_append_baseChars cs, hfirst _ (slash_not_mem_baseChars cs)]
    rw [hjoin, hfirst s hs, List.dropLast_concat, List.dropLast_concat]
  · rw [hjoin]
    conv_rhs => rw [hcs]
    rw [segments_append_slash, segments_append_slash, segments_of_slash_not_mem hs,
      List.dropLast_concat, List.dropLast_append_of_ne_nil (segments_ne_nil _),
      dropLast_segments_slashes hslashes (slash_not_mem_baseChars cs), List.filter_append]
    simp

private theorem IsNormal.join_directory (h : IsNormal cs) (s : List Char) :
    join (directory cs) s = dirChars cs ++ s := by
  by_cases hslash : '/' ∈ cs
  · obtain ⟨xs, ys, rfl, hys⟩ := exists_eq_append_last hslash
    have hxs : IsNormal xs := by
      refine ⟨fun hback => h.backslash (List.mem_append_left _ hback), fun t ht => h.usable t ?_⟩
      rw [segments_append_slash]
      exact List.mem_append_left _ ht
    have hdirectory : dirChars (xs ++ '/' :: ys) = xs ++ ['/'] := by
      rw [dirChars_append_slash, dirChars_of_slash_not_mem hys]
    have hself : (xs ++ ['/']).rdropWhile (· = '/') = xs := by
      rw [List.rdropWhile_concat_pos _ _ _ (by decide), List.rdropWhile_eq_self_iff]
      intro hne hlast
      apply hxs.not_slash_suffix
      refine ⟨xs.dropLast, ?_⟩
      rw [← of_decide_eq_true hlast, List.dropLast_append_getLast]
    rw [directory, hdirectory, hself, if_neg hxs.ne_nil,
      join_of_slash_not_suffix hxs.ne_nil hxs.not_slash_suffix]
    simp
  · simp [directory, join, dirChars_of_slash_not_mem hslash]

end PackagePath

namespace Placement

open PackagePath (directory join parents segments baseChars dirChars splitSegment IsNormal)

/-- Counting up from a number until one passes a test ends at a number, after some tests. -/
inductive CountsUp (test : Nat → Bool) : Nat → Nat → Nat → Prop where
  | stop {n : Nat} : test n = true → CountsUp test n n 1
  | step {n last tests : Nat} :
      test n = false → CountsUp test (n + 1) last tests → CountsUp test n last (tests + 1)

namespace CountsUp

variable {test : Nat → Bool} {start last tests : Nat}

private theorem start_add_tests (h : CountsUp test start last tests) :
    start + tests = last + 1 := by
  induction h with
  | stop _ => rfl
  | step _ _ ih => omega

private theorem not_test_of_lt (h : CountsUp test start last tests) {n : Nat} (hstart : start ≤ n)
    (hlast : n < last) : test n = false := by
  induction h with
  | stop _ => omega
  | step hfailed _ ih =>
    rcases Nat.eq_or_lt_of_le hstart with rfl | hlt
    · exact hfailed
    · exact ih hlt hlast

private theorem of_search {bound : Nat} (h : test (search test bound start) = true) :
    ∃ tests, CountsUp test start (search test bound start) tests := by
  induction bound generalizing start with
  | zero => exact ⟨1, .stop h⟩
  | succ bound ih =>
    unfold search at h ⊢
    split at h
    · rename_i hpassed
      rw [if_pos hpassed]
      exact ⟨1, .stop hpassed⟩
    · rename_i hfailed
      rw [if_neg hfailed]
      obtain ⟨tests, hcounts⟩ := ih h
      exact ⟨tests + 1, .step (Bool.eq_false_of_not_eq_true hfailed) hcounts⟩

private theorem tests_le {α : Type} [DecidableEq α] (h : CountsUp test start last tests)
    (occupied : Finset α) {value : Nat → α} (hvalue : Function.Injective value)
    (hoccupied : ∀ n, test n = false → value n ∈ occupied) : tests ≤ occupied.card + 1 := by
  have hfailed : (Finset.Ico start last).image value ⊆ occupied := by
    intro a ha
    obtain ⟨n, hn, rfl⟩ := Finset.mem_image.1 ha
    obtain ⟨hstart, hlast⟩ := Finset.mem_Ico.1 hn
    exact hoccupied n (h.not_test_of_lt hstart hlast)
  have hcard := Finset.card_le_card hfailed
  rw [Finset.card_image_of_injective _ hvalue, Nat.card_Ico] at hcard
  have hcount := h.start_add_tests
  omega

end CountsUp

/-- How many folded paths of files there are. -/
def Index.fileCount (i : Index) : Nat :=
  i.files.toFinset.card

/-- How many folded paths of directories there are. -/
def Index.directoryCount (i : Index) : Nat :=
  i.directories.toFinset.card

/-- A path taken apart, and joined again with a number before the extension of its last segment. -/
def withNumber (path : List Char) (n : Nat) : List Char :=
  let (stem, extension) := splitSegment (baseChars path)
  join (directory path) (stem ++ '-' :: Nat.toDigits 10 n ++ extension)

variable {i : Index} {path : List Char}

/-- The last segment of a path with a number. -/
def numberedSegment (path : List Char) (n : Nat) : List Char :=
  (splitSegment (baseChars path)).1 ++ '-' :: Nat.toDigits 10 n ++ (splitSegment (baseChars path)).2

private theorem slash_not_mem_numberedSegment (path : List Char) (n : Nat) :
    '/' ∉ numberedSegment path n := by
  have hparts := PackagePath.slash_not_mem_splitSegment (PackagePath.slash_not_mem_baseChars path)
  simp [numberedSegment, hparts.1, hparts.2, slash_not_mem_toDigits]

private theorem withNumber_eq_join (path : List Char) (n : Nat) :
    withNumber path n = join (directory path) (numberedSegment path n) :=
  rfl

private theorem withNumber_eq_numbered (h : IsNormal path) (n : Nat) :
    withNumber path n = numbered path n := by
  rw [withNumber_eq_join, h.join_directory, numberedSegment, numbered_eq]
  simp only [List.append_assoc]

-- where the path is not in normal form, slashes in front of the last segment become one
example : withNumber "a//b.txt".toList 1 = "a/b-1.txt".toList := by decide

private theorem isBlocked_withNumber (h : i.isBlocked path = false) (n : Nat) :
    i.isBlocked (withNumber path n) = false := by
  simp only [Index.isBlocked, List.any_eq_false] at h ⊢
  intro d hd
  apply h d
  rw [PackagePath.mem_parents_iff_prefix] at hd ⊢
  exact hd.trans (PackagePath.dropLast_segments_join path (slash_not_mem_numberedSegment path n))

private theorem caseFold_withNumber_injective (path : List Char) :
    Function.Injective fun n => Text.caseFold (withNumber path n) := by
  obtain ⟨front, hfront⟩ := PackagePath.exists_join_eq (directory path)
  intro m n h
  simp only [withNumber_eq_join, hfront, numberedSegment, ← List.append_assoc] at h
  exact Text.caseFold_numbered_injective _ _ h

private theorem exists_countsUp_freeDirectory (i : Index) (role : Role) :
    ∃ n tests, CountsUp (fun n => !i.isFile (roleDirectory role n)) 0 n tests ∧
      tests ≤ i.fileCount + 1 ∧ freeDirectory i role = roleDirectory role n := by
  have hfound : (!i.isFile (freeDirectory i role)) = true := by
    rw [isFile_freeDirectory, Bool.not_false]
  obtain ⟨tests, hcounts⟩ :=
    @CountsUp.of_search (fun n => !i.isFile (roleDirectory role n)) 0 i.files.length hfound
  refine ⟨_, tests, hcounts, ?_, rfl⟩
  apply hcounts.tests_le i.files.toFinset (caseFold_roleDirectory_injective role)
  intro n hn
  simpa [Index.isFile] using hn

private theorem exists_countsUp_freeNumbered (hnormal : IsNormal path)
    (h : i.isBlocked path = false) :
    ∃ n, CountsUp (fun n => !i.collides (withNumber path n)) 1 n n ∧
      n ≤ i.fileCount + i.directoryCount + 1 ∧ freeNumbered i path = withNumber path n := by
  have hsame : withNumber path = numbered path := funext (withNumber_eq_numbered hnormal)
  have hfound : (!i.collides (freeNumbered i path)) = true := by
    rw [collides_freeNumbered h, Bool.not_false]
  obtain ⟨tests, hcounts⟩ := @CountsUp.of_search (fun n => !i.collides (numbered path n)) 1
    (i.files.length + i.directories.length) hfound
  rw [hsame]
  -- every number that fails names a file or a directory, since no number is below a file
  have hle : tests ≤ (i.files.toFinset ∪ i.directories.toFinset).card + 1 := by
    apply hcounts.tests_le _ (caseFold_numbered_inj path)
    intro n hn
    have htaken : i.collides (numbered path n) = true := by simpa using hn
    rw [Index.collides, isBlocked_numbered, h, Bool.or_false, Bool.or_eq_true] at htaken
    simpa [Index.isFile] using htaken
  have hcard : (i.files.toFinset ∪ i.directories.toFinset).card ≤
      i.fileCount + i.directoryCount := Finset.card_union_le _ _
  have hlast := hcounts.start_add_tests
  obtain rfl : tests = _ := Nat.add_left_cancel (hlast.trans (Nat.add_comm _ 1))
  exact ⟨_, hcounts, by omega, rfl⟩

/-- How another path is found for a proposed one below a directory: it is the proposed path there,
or its last segment if a file sits above that, or the first of these two that no file sits above,
with the first number that is free. -/
inductive Finds (i : Index) (folder proposed : List Char) : List Char → Prop where
  | nested : i.collides (folder ++ '/' :: proposed) = false →
      Finds i folder proposed (folder ++ '/' :: proposed)
  | flat : i.isBlocked (folder ++ '/' :: proposed) = true →
      i.collides (folder ++ '/' :: baseChars proposed) = false →
      Finds i folder proposed (folder ++ '/' :: baseChars proposed)
  | counted {path : List Char} {n : Nat} :
      (if i.isBlocked (folder ++ '/' :: proposed) then path = folder ++ '/' :: baseChars proposed
        else path = folder ++ '/' :: proposed) →
      i.isBlocked path = false → i.collides path = true →
      CountsUp (fun n => !i.collides (withNumber path n)) 1 n n →
      n ≤ i.fileCount + i.directoryCount + 1 →
      Finds i folder proposed (withNumber path n)

private theorem finds_remediate (i : Index) (role : Role) {proposed : List Char}
    (h : IsNormal proposed) :
    Finds i (freeDirectory i role) proposed (remediate i role proposed) := by
  set folder := freeDirectory i role with hfolder
  have hnormal : IsNormal folder := isNormal_roleDirectory role _
  have hflat := isBlocked_flat i role (PackagePath.slash_not_mem_baseChars proposed)
  rw [← hfolder] at hflat
  rw [remediate, ← hfolder]
  dsimp only
  cases hnested : i.collides (folder ++ '/' :: proposed) with
  | false => exact .nested hnested
  | true =>
    cases hblocked : i.isBlocked (folder ++ '/' :: proposed) with
    | false =>
      obtain ⟨n, hcounts, hle, hfree⟩ :=
        exists_countsUp_freeNumbered (hnormal.append_slash h) hblocked
      rw [if_neg (by decide), if_neg (by decide), hfree]
      exact .counted (by rw [hblocked, if_neg Bool.false_ne_true]) hblocked hnested hcounts hle
    | true =>
      rw [if_neg (by decide), if_pos rfl]
      cases hbase : i.collides (folder ++ '/' :: baseChars proposed) with
      | false => exact .flat hblocked hbase
      | true =>
        obtain ⟨n, hcounts, hle, hfree⟩ :=
          exists_countsUp_freeNumbered (hnormal.append_slash h.baseChars) hflat
        rw [if_neg (by decide), hfree]
        exact .counted (by rw [if_pos hblocked]) hflat hbase hcounts hle

/-- Both searches for another path end, whatever the index holds: that for a directory of the role
with at most one test more than there are files, at a directory where no file sits, and that for a
number with one that is at most one more than there are files and directories. A number changes only
the last segment of a path, apart from empty segments in front of it, so no file comes to sit above
it, and different numbers give paths that differ also without regard to case. -/
theorem searches_end :
    (∀ (i : Index) (role : Role),
      (∃ n tests, CountsUp (fun n => !i.isFile (roleDirectory role n)) 0 n tests ∧
        tests ≤ i.fileCount + 1 ∧ freeDirectory i role = roleDirectory role n ∧
        i.isFile (roleDirectory role n) = false) ∧
      ∀ proposed, IsNormal proposed →
        Finds i (freeDirectory i role) proposed (remediate i role proposed)) ∧
    (∀ path n,
      (segments (withNumber path n)).dropLast <+: (segments path).dropLast ∧
      (segments (withNumber path n)).dropLast.filter (· ≠ []) =
        (segments path).dropLast.filter (· ≠ []) ∧
      (IsNormal path → (segments (withNumber path n)).dropLast = (segments path).dropLast) ∧
      ∀ i : Index, i.isBlocked path = false → i.isBlocked (withNumber path n) = false) ∧
    ∀ path, Function.Injective fun n => Text.caseFold (withNumber path n) := by
  refine ⟨fun i role => ⟨?directory, fun proposed => finds_remediate i role⟩, ?segments,
    caseFold_withNumber_injective⟩
  case directory =>
    obtain ⟨n, tests, hcounts, hle, hdirectory⟩ := exists_countsUp_freeDirectory i role
    exact ⟨n, tests, hcounts, hle, hdirectory, hdirectory ▸ isFile_freeDirectory i role⟩
  case segments =>
    intro path n
    have hslash := slash_not_mem_numberedSegment path n
    refine ⟨PackagePath.dropLast_segments_join path hslash,
      PackagePath.filter_dropLast_segments_join path hslash, fun hnormal => ?_,
      fun i hblocked => isBlocked_withNumber hblocked n⟩
    obtain ⟨before, hbefore⟩ := PackagePath.exists_segments_dirChars path
    have hlast := hbefore (baseChars path) (PackagePath.slash_not_mem_baseChars path)
    rw [PackagePath.dirChars_append_baseChars] at hlast
    rw [withNumber_eq_join, hnormal.join_directory, hbefore _ hslash, hlast, List.dropLast_concat,
      List.dropLast_concat]

/-- A file sits at the role's name, and two in the first numbered directory of the role. -/
def crowdedIndex : Index :=
  ["manuscript", "manuscript-1/a.txt", "MANUSCRIPT-1/A-1.TXT"].foldl
    (fun i path => i.add path.toList) .empty

theorem searches_end_crowded :
    remediate crowdedIndex .manuscript "a.txt".toList = "manuscript-1/a-2.txt".toList ∧
      Finds crowdedIndex "manuscript-1".toList "a.txt".toList "manuscript-1/a-2.txt".toList ∧
      (segments (withNumber "manuscript-1/a.txt".toList 2)).dropLast = ["manuscript-1".toList] ∧
      crowdedIndex.isBlocked (withNumber "manuscript-1/a.txt".toList 2) = false := by
  have hfile : IsNormal "a.txt".toList := PackagePath.normalize?_eq_self_iff.1 (by decide)
  have hnested : IsNormal "manuscript-1/a.txt".toList :=
    PackagePath.normalize?_eq_self_iff.1 (by decide)
  have hfolder : freeDirectory crowdedIndex .manuscript = "manuscript-1".toList := by
    decide +kernel
  have hpath : remediate crowdedIndex .manuscript "a.txt".toList =
      "manuscript-1/a-2.txt".toList := by
    decide +kernel
  obtain ⟨hends, hnumber, -⟩ := searches_end
  have hfinds := (hends crowdedIndex .manuscript).2 "a.txt".toList hfile
  obtain ⟨-, -, hsegments, hblocked⟩ := hnumber "manuscript-1/a.txt".toList 2
  rw [hfolder, hpath] at hfinds
  exact ⟨hpath, hfinds, (hsegments hnested).trans (by decide), hblocked crowdedIndex (by decide)⟩

end Placement

end Deposit
