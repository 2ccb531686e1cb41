import Deposit.Proofs.Placement.Resolution

set_option autoImplicit false
set_option relaxedAutoImplicit false

/-!
Which path a file gets. A file keeps the path proposed for it whenever that path is free. Otherwise
paths are tried below the first directory of its role at which no file sits, in a fixed order, and
the file gets the first of them that is free. Main statement: along a whole list of files, what is
taken when a file gets its path are the reserved paths and the paths of the files before it, and
each of them comes by one of a few routes from the path proposed for it.
-/

namespace Deposit.Placement

open PackagePath (Clash parents baseChars normalize?)

section Taken

variable (taken : List (List Char)) (path : List Char)

/-- No taken path clashes with a path. -/
def IsFree : Prop :=
  ∀ q ∈ taken, ¬ Clash path q

/-- A file sits at a path, without regard to case. -/
def HasFileAt : Prop :=
  ∃ q ∈ taken, Text.caseFold q = Text.caseFold path

/-- A file sits at a directory that a path needs. -/
def IsBelowFile : Prop :=
  ∃ d ∈ parents path, HasFileAt taken d

instance : Decidable (IsFree taken path) :=
  inferInstanceAs (Decidable (∀ q ∈ taken, ¬ Clash path q))

instance : Decidable (HasFileAt taken path) :=
  inferInstanceAs (Decidable (∃ q ∈ taken, Text.caseFold q = Text.caseFold path))

instance : Decidable (IsBelowFile taken path) :=
  inferInstanceAs (Decidable (∃ d ∈ parents path, HasFileAt taken d))

end Taken

namespace Index

variable {i : Index} {taken : List (List Char)}

private theorem Represents.collides_eq_false_iff (h : i.Represents taken) {path : List Char} :
    i.collides path = false ↔ IsFree taken path := by
  rw [← Bool.not_eq_true, h.collides_iff, IsFree]
  simp only [not_exists, not_and]

private theorem Represents.isFile_eq_true_iff (h : i.Represents taken) {path : List Char} :
    i.isFile path = true ↔ HasFileAt taken path := by
  simp only [h.isFile_iff, PackagePath.folded_inj, HasFileAt]

private theorem Represents.isBlocked_eq_true_iff (h : i.Represents taken) {path : List Char} :
    i.isBlocked path = true ↔ IsBelowFile taken path := by
  simp only [isBlocked, List.any_eq_true, h.isFile_eq_true_iff, IsBelowFile]

theorem Represents.congr {others : List (List Char)} (h : i.Represents taken)
    (hmem : ∀ q, q ∈ taken ↔ q ∈ others) : i.Represents others :=
  ⟨by simpa only [hmem] using h.mem_files, by simpa only [hmem] using h.mem_directories⟩

end Index

/-- A value is the first of a sequence that has a property. -/
def IsFirst {α : Type} (holds : α → Prop) (sequence : Nat → α) (a : α) : Prop :=
  ∃ n, sequence n = a ∧ holds a ∧ ∀ m < n, ¬ holds (sequence m)

private theorem isFirst_zero {α : Type} {holds : α → Prop} {sequence : Nat → α}
    (h : holds (sequence 0)) : IsFirst holds sequence (sequence 0) :=
  ⟨0, rfl, h, fun m hm => absurd hm (Nat.not_lt_zero m)⟩

private theorem IsFirst.of_tail {α : Type} {holds : α → Prop} {sequence : Nat → α} {a : α}
    (h : IsFirst holds (fun n => sequence (n + 1)) a) (hzero : ¬ holds (sequence 0)) :
    IsFirst holds sequence a := by
  obtain ⟨n, hn, ha, hbefore⟩ := h
  refine ⟨n + 1, hn, ha, ?_⟩
  intro m hm
  cases m with
  | zero => exact hzero
  | succ m => exact hbefore m (Nat.lt_of_succ_lt_succ hm)

private theorem le_search (test : Nat → Bool) (bound start : Nat) :
    start ≤ search test bound start := by
  induction bound generalizing start with
  | zero => exact Nat.le_refl start
  | succ bound ih =>
    unfold search
    split
    · exact Nat.le_refl start
    · exact Nat.le_of_succ_le (ih (start + 1))

private theorem isFirst_search {α : Type} {holds : α → Prop} {sequence : Nat → α}
    {test : Nat → Bool} {bound start : Nat} (htest : ∀ n, test n = true ↔ holds (sequence n))
    (hfound : test (search test bound start) = true) :
    IsFirst holds (fun n => sequence (start + n)) (sequence (search test bound start)) := by
  have hle := le_search test bound start
  refine ⟨search test bound start - start, ?_, (htest _).1 hfound, ?_⟩
  · dsimp only
    rw [Nat.add_sub_cancel' hle]
  · intro m hm hholds
    have hpassed : test (start + m) = false :=
      not_test_of_lt_search bound (Nat.le_add_right start m) (by omega)
    rw [(htest _).2 hholds] at hpassed
    cases hpassed

/-- A path, and after it the path with the numbers from one on. -/
def countedFrom (path : List Char) : Nat → List Char
  | 0 => path
  | n + 1 => numbered path (n + 1)

/-- The paths tried below a directory for a proposed one. Where a file sits at a directory of it,
all directories proposed are dropped before numbers are tried. -/
def tries (taken : List (List Char)) (directory proposed : List Char) : Nat → List Char :=
  let nested := directory ++ '/' :: proposed
  if IsBelowFile taken nested then
    fun
      | 0 => nested
      | n + 1 => countedFrom (directory ++ '/' :: baseChars proposed) n
  else countedFrom nested

/-- The path that a file gets is the one proposed for it exactly when that is free. Otherwise it is
the first free one of those tried below the first directory of the role at which no file sits. -/
structure IsMinimal (taken : List (List Char)) (role : Role) (proposed path : List Char) :
    Prop where
  kept : path = proposed ↔ IsFree taken proposed
  moved : ¬ IsFree taken proposed →
    ∃ directory, IsFirst (¬ HasFileAt taken ·) (roleDirectory role) directory ∧
      IsFirst (IsFree taken) (tries taken directory proposed) path

variable {i : Index} {taken : List (List Char)}

private theorem isFirst_freeDirectory (hi : i.Represents taken) (role : Role) :
    IsFirst (¬ HasFileAt taken ·) (roleDirectory role) (freeDirectory i role) := by
  have htest : ∀ n, (!i.isFile (roleDirectory role n)) = true ↔
      ¬ HasFileAt taken (roleDirectory role n) := by
    intro n
    rw [Bool.not_eq_true', ← hi.isFile_eq_true_iff, Bool.not_eq_true]
  have hfound : (!i.isFile (freeDirectory i role)) = true := by
    rw [isFile_freeDirectory, Bool.not_false]
  have hfirst : IsFirst (¬ HasFileAt taken ·) (fun n => roleDirectory role (0 + n))
      (freeDirectory i role) := isFirst_search htest hfound
  simp only [Nat.zero_add] at hfirst
  exact hfirst

private theorem isFirst_freeNumbered (hi : i.Represents taken) {path : List Char}
    (hblocked : i.isBlocked path = false) (hcollides : i.collides path = true) :
    IsFirst (IsFree taken) (countedFrom path) (freeNumbered i path) := by
  have htest : ∀ n, (!i.collides (numbered path n)) = true ↔ IsFree taken (numbered path n) := by
    intro n
    rw [Bool.not_eq_true', hi.collides_eq_false_iff]
  have hfound : (!i.collides (freeNumbered i path)) = true := by
    rw [collides_freeNumbered hblocked, Bool.not_false]
  have hfirst := isFirst_search htest hfound
  have htaken : ¬ IsFree taken path := by
    rw [← hi.collides_eq_false_iff, hcollides]
    exact Bool.noConfusion
  simp only [Nat.add_comm 1] at hfirst
  exact IsFirst.of_tail hfirst htaken

private theorem isFirst_remediate (hi : i.Represents taken) (role : Role) (proposed : List Char) :
    IsFirst (IsFree taken) (tries taken (freeDirectory i role) proposed)
      (remediate i role proposed) := by
  set directory := freeDirectory i role with hdirectory
  have hbelow := @Index.Represents.isBlocked_eq_true_iff i taken hi (directory ++ '/' :: proposed)
  cases hnested : i.collides (directory ++ '/' :: proposed) with
  | false =>
    -- a free path has no file above it
    have hblocked : i.isBlocked (directory ++ '/' :: proposed) = false := by
      rw [Index.collides, Bool.or_eq_false_iff] at hnested
      exact hnested.2
    have hopen : ¬ IsBelowFile taken (directory ++ '/' :: proposed) := by
      rw [← hbelow, hblocked]
      exact Bool.false_ne_true
    rw [remediate, tries, if_neg hopen, ← hdirectory, hnested]
    exact isFirst_zero (hi.collides_eq_false_iff.1 hnested)
  | true =>
    have htaken : ¬ IsFree taken (directory ++ '/' :: proposed) := by
      rw [← hi.collides_eq_false_iff, hnested]
      exact Bool.noConfusion
    cases hblocked : i.isBlocked (directory ++ '/' :: proposed) with
    | false =>
      have hopen : ¬ IsBelowFile taken (directory ++ '/' :: proposed) := by
        rw [← hbelow, hblocked]
        exact Bool.false_ne_true
      rw [remediate, tries, if_neg hopen, ← hdirectory, hnested, hblocked]
      exact isFirst_freeNumbered hi hblocked hnested
    | true =>
      have hflat := isBlocked_flat i role (PackagePath.slash_not_mem_baseChars proposed)
      rw [remediate, tries, if_pos (hbelow.1 hblocked), ← hdirectory, hnested, hblocked]
      refine IsFirst.of_tail ?_ htaken
      set flat := directory ++ '/' :: baseChars proposed
      show IsFirst (IsFree taken) (countedFrom flat)
        (if !i.collides flat then flat else freeNumbered i flat)
      cases hfree : i.collides flat with
      | false => exact isFirst_zero (hi.collides_eq_false_iff.1 hfree)
      | true => exact isFirst_freeNumbered hi hflat hfree

theorem isMinimal_assign (hi : i.Represents taken) (role : Role) (proposed : List Char) :
    IsMinimal taken role proposed (assign i role proposed) := by
  constructor
  · constructor
    · intro hsame
      have hfree := collides_assign i role proposed
      rwa [hsame, hi.collides_eq_false_iff] at hfree
    · intro hfree
      rw [assign, hi.collides_eq_false_iff.2 hfree, if_neg Bool.false_ne_true]
  · intro htaken
    rw [← hi.collides_eq_false_iff, Bool.not_eq_false] at htaken
    rw [assign, if_pos htaken]
    exact ⟨freeDirectory i role, isFirst_freeDirectory hi role, isFirst_remediate hi role proposed⟩

/-- The paths of some placed files. -/
def placedPaths (placed : List Placed) : List (List Char) :=
  placed.map (·.path.toList)

private theorem isMinimal_of_placeFrom {policy : PlacementPolicy} {files : List (String × Role)}
    {used : List String} (hi : i.Represents taken) {earlier later : List Placed} {p : Placed}
    (h : (placeFrom policy i used files).placed = earlier ++ p :: later) :
    ∃ role, files[earlier.length]? = some (p.name, role) ∧
      normalize? (policy.place p.name role) = some p.proposed ∧
      IsMinimal (taken ++ placedPaths earlier) role p.proposed.toList p.path.toList := by
  induction files generalizing i used taken earlier with
  | nil => simp [placeFrom] at h
  | cons f files ih =>
    obtain ⟨name, role⟩ := f
    unfold placeFrom at h
    split at h
    · simp at h
    · split at h
      · simp at h
      · rename_i proposed hproposed
        cases earlier with
        | nil =>
          obtain ⟨rfl, -⟩ := List.cons.inj h
          refine ⟨role, rfl, hproposed, ?_⟩
          rw [placedPaths, List.map_nil, List.append_nil, String.toList_ofList]
          exact isMinimal_assign hi role proposed.toList
        | cons q earlier =>
          obtain ⟨rfl, hrest⟩ := List.cons.inj h
          -- what the first file takes is taken for all files behind it
          have hadd : (i.add (assign i role proposed.toList)).Represents
              (taken ++ [assign i role proposed.toList]) := by
            apply (hi.add _).congr
            intro q
            rw [List.mem_cons, List.mem_append, List.mem_singleton, or_comm]
          obtain ⟨r, hfile, hnormal, hminimal⟩ := ih hadd hrest
          refine ⟨r, hfile, hnormal, ?_⟩
          rw [placedPaths, List.map_cons, String.toList_ofList]
          rwa [List.append_assoc] at hminimal

/-- Whether or not all files are placed, those that are get minimal paths, each for the reserved
paths and the paths of the files before it. -/
theorem isMinimal_of_run {policy : PlacementPolicy} {files : List (String × Role)}
    {earlier later : List Placed} {p : Placed}
    (h : (run policy files).placed = earlier ++ p :: later) :
    ∃ role, files[earlier.length]? = some (p.name, role) ∧
      normalize? (policy.place p.name role) = some p.proposed ∧
      IsMinimal (reservedPaths policy.reserved ++ placedPaths earlier) role p.proposed.toList
        p.path.toList := by
  unfold run at h
  split at h
  · simp at h
  · rename_i i hreserve
    have hi : i.Represents (reservedPaths policy.reserved) := by
      apply (represents_of_reserve Index.represents_empty hreserve).congr
      intro q
      rw [List.append_nil, List.mem_reverse]
    exact isMinimal_of_placeFrom hi h

section Routes

variable {role : Role} {cs : List Char}

theorem numbered_append_slash (xs ys : List Char) (n : Nat) :
    numbered (xs ++ '/' :: ys) n = xs ++ '/' :: numbered ys n := by
  simp only [numbered, PackagePath.splitExtension, PackagePath.baseChars_append_slash,
    PackagePath.dirChars_append_slash, List.append_assoc, List.cons_append]

/-- How a file comes from the path proposed for it to the one it gets. -/
inductive Route where
  | kept
  | moved (directory : Nat) (isFlat : Bool)
  | counted (directory : Nat) (isFlat : Bool) (number : Nat)
deriving DecidableEq, Repr

namespace Route

/-- Where a proposed path goes below a directory of a role. -/
def moving (role : Role) (cs : List Char) (directory : Nat) (isFlat : Bool) : List Char :=
  roleDirectory role directory ++ '/' :: if isFlat then baseChars cs else cs

/-- Where a route leads from a proposed path. -/
def path (role : Role) (cs : List Char) : Route → List Char
  | kept => cs
  | moved directory isFlat => moving role cs directory isFlat
  | counted directory isFlat number => numbered (moving role cs directory isFlat) number

/-- Whether a route gives a number to the file. -/
def isCounted : Route → Bool
  | counted _ _ _ => true
  | _ => false

private theorem exists_moved_or_counted (cs : List Char) (directory : Nat) (isFlat : Bool)
    (n : Nat) :
    ∃ route, route ≠ kept ∧
      path role cs route = countedFrom (moving role cs directory isFlat) n := by
  cases n with
  | zero => exact ⟨moved directory isFlat, nofun, rfl⟩
  | succ n => exact ⟨counted directory isFlat (n + 1), nofun, rfl⟩

private theorem exists_tries (taken : List (List Char)) (cs : List Char) (directory n : Nat) :
    ∃ route, route ≠ kept ∧
      path role cs route = tries taken (roleDirectory role directory) cs n := by
  unfold tries
  split
  · cases n with
    | zero => exact exists_moved_or_counted cs directory false 0
    | succ n => exact exists_moved_or_counted cs directory true n
  · exact exists_moved_or_counted cs directory false n

end Route

private theorem IsMinimal.exists_route {taken : List (List Char)} {path : List Char}
    (h : IsMinimal taken role cs path) :
    ∃ route : Route, path = route.path role cs ∧ (route = .kept ↔ path = cs) := by
  by_cases hfree : IsFree taken cs
  · have hkept := h.kept.2 hfree
    exact ⟨.kept, hkept, iff_of_true rfl hkept⟩
  · obtain ⟨_, ⟨directory, rfl, -⟩, n, rfl, -⟩ := h.moved hfree
    obtain ⟨route, hmoved, hroute⟩ := Route.exists_tries taken cs directory n
    exact ⟨route, hroute.symm, iff_of_false hmoved (mt h.kept.1 hfree)⟩

theorem exists_route_of_resolve {policy : PlacementPolicy} {files : List (String × Role)}
    {table : List Placed} (h : resolve policy files = .ok table) {k : Nat} {p : Placed}
    (hp : table[k]? = some p) :
    ∃ role, files[k]? = some (p.name, role) ∧
      normalize? (policy.place p.name role) = some p.proposed ∧
      ∃ route : Route, p.path.toList = route.path role p.proposed.toList ∧
        (route = .kept ↔ p.path = p.proposed) := by
  have hplaced : (run policy files).placed = table := by
    rw [Outcome.table_eq_ok_iff.1 h]
  obtain ⟨hk, rfl⟩ := List.getElem?_eq_some_iff.1 hp
  have hsplit : (run policy files).placed = table.take k ++ table[k] :: table.drop (k + 1) := by
    rw [hplaced, List.getElem_cons_drop, List.take_append_drop]
  obtain ⟨role, hfile, hnormal, hminimal⟩ := isMinimal_of_run hsplit
  obtain ⟨route, hroute, hkept⟩ := hminimal.exists_route
  rw [List.length_take_of_le hk.le] at hfile
  exact ⟨role, hfile, hnormal, route, hroute, hkept.trans String.toList_inj⟩

end Routes

end Deposit.Placement
