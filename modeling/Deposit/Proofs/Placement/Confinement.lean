import Deposit.Proofs.Placement.Resolution

set_option autoImplicit false
set_option relaxedAutoImplicit false

/-!
Placed files stay inside the package. The paths proposed for files are normalized, and every way of
finding another path, below the directory of a role, without the directories proposed or with a
number before the extension, leads from a normal form to a normal form. Main statement: whatever
files are called, each placed path is its own normal form, and no step along it leads out of the
root of the package. Its characters are those that were proposed for it, and besides only such as
separate segments, name roles and write numbers.
-/

namespace Deposit.Placement

open PackagePath (normalize? segments isSeparator descend IsNormal)

variable {i : Index} {role : Role} {cs : List Char}

private theorem isNormal_numbered (h : IsNormal cs) (n : Nat) : IsNormal (numbered cs n) := by
  obtain ⟨last, hlast, hslash, hdash, hchars⟩ := exists_numbered_eq cs n
  have hback : '\\' ∉ last := by
    intro hmem
    rcases hchars _ hmem with hbase | heq | hdigit
    · exact h.baseChars.backslash hbase
    · cases heq
    · cases hdigit
  rw [hlast]
  exact h.dirChars_append hslash hback (PackagePath.isUsable_of_mem hdash (by decide))

private theorem isNormal_value (role : Role) : IsNormal role.value.toList := by
  apply IsNormal.of_isUsable (slash_not_mem_value role)
  · cases role <;> decide
  · cases role <;> decide

theorem isNormal_roleDirectory (role : Role) (n : Nat) : IsNormal (roleDirectory role n) := by
  cases n with
  | zero => exact isNormal_value role
  | succ n =>
    apply IsNormal.of_isUsable (slash_not_mem_roleDirectory role (n + 1))
    · intro hback
      rw [roleDirectory, List.mem_append, List.mem_cons] at hback
      rcases hback with hvalue | hdash | hdigit
      · exact (isNormal_value role).backslash hvalue
      · cases hdash
      · exact absurd (Text.isDigit_of_mem_digits hdigit) (by decide)
    · have hdash : '-' ∈ roleDirectory role (n + 1) :=
        List.mem_append_right _ List.mem_cons_self
      exact PackagePath.isUsable_of_mem hdash (by decide)

private theorem isNormal_remediate (h : IsNormal cs) : IsNormal (remediate i role cs) := by
  have hdirectory : IsNormal (freeDirectory i role) := isNormal_roleDirectory role _
  have hnested := hdirectory.append_slash h
  have hflat := hdirectory.append_slash h.baseChars
  unfold remediate
  dsimp only
  split
  · exact hnested
  · split
    · split
      · exact hflat
      · exact isNormal_numbered hflat _
    · exact isNormal_numbered hnested _

private theorem isNormal_assign (h : IsNormal cs) : IsNormal (assign i role cs) := by
  unfold assign
  split
  · exact isNormal_remediate h
  · exact h

private theorem isNormal_of_placeFrom {policy : PlacementPolicy} {files : List (String × Role)}
    {used : List String} :
    ∀ p ∈ (placeFrom policy i used files).placed, IsNormal p.path.toList := by
  induction files generalizing i used with
  | nil =>
    intro p hp
    cases hp
  | cons f files ih =>
    obtain ⟨name, role⟩ := f
    intro p hp
    unfold placeFrom at hp
    split at hp
    · cases hp
    · split at hp
      · cases hp
      · rename_i proposed hproposed
        rcases List.mem_cons.1 hp with rfl | hp
        · rw [String.toList_ofList]
          exact isNormal_assign (PackagePath.isNormal_of_normalize? hproposed)
        · exact ih p hp

theorem isNormal_of_resolve {policy : PlacementPolicy} {files : List (String × Role)}
    {table : List Placed} (h : resolve policy files = .ok table) :
    ∀ p ∈ table, IsNormal p.path.toList := by
  obtain ⟨i, -, hplaced⟩ := resolve_eq_ok_iff.1 h
  have hnormal := @isNormal_of_placeFrom i policy files []
  rwa [hplaced] at hnormal

/-- A path that stays inside a package: it is its own normal form, not empty and relative, has no
backslash, no empty segment, none of one or two dots and no slash at its end, and each of its
beginnings leads from the root to a place below it. -/
structure IsConfined (path : String) : Prop where
  normal : normalize? path = some path
  ne_empty : path ≠ ""
  backslash : '\\' ∉ path.toList
  segment : ∀ s ∈ segments path.toList, s ≠ [] ∧ s ≠ ['.'] ∧ s ≠ ['.', '.']
  relative : ¬ ['/'] <+: path.toList
  closed : ¬ ['/'] <:+ path.toList
  inside : ∀ k, descend [] ((segments path.toList).take k) = some ((segments path.toList).take k)

private theorem isConfined_of_isNormal {path : String} (h : IsNormal path.toList) :
    IsConfined path where
  normal := PackagePath.normalize?_eq_self_iff.2 h
  ne_empty := by
    rintro rfl
    exact h.ne_nil rfl
  backslash := h.backslash
  segment s hs := PackagePath.isUsable_iff.1 (h.usable s hs)
  relative := h.not_slash_prefix
  closed := h.not_slash_suffix
  inside := h.descend_take

/-- All placed paths stay inside the package. Normalizing a name twice is normalizing it once; it
keeps the usable segments between slashes of either kind, in their order, and does not depend on
which kind they are; it commutes with joining names by a slash; and it fails exactly when no segment
is usable. -/
theorem resolve_confined :
    (∀ policy files table, resolve policy files = .ok table → ∀ p ∈ table, IsConfined p.path) ∧
    (∀ name path, normalize? name = some path →
      normalize? path = some path ∧
      segments path.toList = (name.toList.splitOnP isSeparator).filter
        fun s => s ≠ [] ∧ s ≠ ['.'] ∧ s ≠ ['.', '.']) ∧
    (∀ left right : String,
      List.Forall₂ (fun c d => c = d ∨ isSeparator c = true ∧ isSeparator d = true)
        left.toList right.toList → normalize? left = normalize? right) ∧
    (∀ left right x y, normalize? left = some x → normalize? right = some y →
      normalize? (left ++ "/" ++ right) = some (x ++ "/" ++ y)) ∧
    (∀ name, normalize? name = none ↔
      ∀ s ∈ name.toList.splitOnP isSeparator, s = [] ∨ s = ['.'] ∨ s = ['.', '.']) := by
  refine ⟨?_, ?_, fun _ _ => PackagePath.normalize?_congr,
    fun _ _ _ _ => PackagePath.normalize?_append_slash, ?_⟩
  · intro policy files table htable p hp
    exact isConfined_of_isNormal (isNormal_of_resolve htable p hp)
  · intro name path hpath
    refine ⟨PackagePath.normalize?_eq_self_iff.2 (PackagePath.isNormal_of_normalize? hpath), ?_⟩
    rw [PackagePath.normalize?_eq_some_iff.1 hpath, PackagePath.usableSegments_eq]
    apply List.filter_congr
    intro s _
    rw [Bool.eq_iff_iff, PackagePath.isUsable_iff, decide_eq_true_iff]
  · intro name
    rw [PackagePath.normalize?_eq_none_iff, PackagePath.usableSegments_eq, List.filter_eq_nil_iff]
    apply forall₂_congr
    intro s _
    rw [PackagePath.isUsable_iff]
    tauto

/-- Files named after places above the root stay below it, some of them under the role's directory
and one of these with a number. -/
theorem resolve_confined_climbers :
    ∃ table, resolve ⟨[], fun name _ => name⟩
        [("..\\../etc/./passwd", .table), ("etc\\passwd", .table), ("/table/etc", .table),
          ("ETC/../passwd/", .table)] = .ok table ∧
      table.map Placed.path = ["etc/passwd", "table/etc/passwd", "table/table/etc",
        "table/ETC/passwd-1"] ∧
      (∀ p ∈ table, IsConfined p.path) ∧
      normalize? "etc/passwd" = some "etc/passwd" ∧
      normalize? "..\\../etc" = normalize? "../..\\etc" ∧
      normalize? ("..\\../etc" ++ "/" ++ "./passwd") = some ("etc" ++ "/" ++ "passwd") := by
  have hpaths : (resolve ⟨[], fun name _ => name⟩
      [("..\\../etc/./passwd", .table), ("etc\\passwd", .table), ("/table/etc", .table),
        ("ETC/../passwd/", .table)]).map (·.map Placed.path) =
        .ok ["etc/passwd", "table/etc/passwd", "table/table/etc", "table/ETC/passwd-1"] := by
    decide +kernel
  obtain ⟨hconfined, hnormal, hslashes, hjoin, -⟩ := resolve_confined
  have hpasswd : normalize? "..\\../etc/./passwd" = some "etc/passwd" := by decide
  have hslashed := hslashes "..\\../etc" "../..\\etc" (by simp [isSeparator])
  have hjoined := hjoin "..\\../etc" "./passwd" "etc" "passwd" (by decide) (by decide)
  cases hresolve : resolve ⟨[], fun name _ => name⟩
      [("..\\../etc/./passwd", .table), ("etc\\passwd", .table), ("/table/etc", .table),
        ("ETC/../passwd/", .table)] with
  | error cause =>
    rw [hresolve] at hpaths
    cases hpaths
  | ok table =>
    rw [hresolve] at hpaths
    exact ⟨table, rfl, Except.ok.inj hpaths, hconfined _ _ table hresolve,
      (hnormal _ _ hpasswd).1, hslashed, hjoined⟩

end Deposit.Placement

namespace Deposit

namespace PackagePath

variable {cs : List Char} {c : Char}

theorem mem_of_mem_map_slash (h : c ∈ cs.map slash) : c ∈ cs ∨ c = '/' := by
  obtain ⟨d, hd, rfl⟩ := List.mem_map.1 h
  unfold slash
  split
  · exact Or.inr rfl
  · exact Or.inl hd

private theorem mem_of_normalize? {name path : String} (h : normalize? name = some path)
    (hc : c ∈ path.toList) : c ∈ name.toList ∨ c = '/' := by
  unfold normalize? at h
  split at h
  · cases h
  · rename_i s ss hsegments
    obtain rfl := Option.some.inj h
    rw [String.toList_ofList, ← hsegments] at hc
    rcases mem_of_mem_intercalate hc with rfl | ⟨segment, hsegment, hmem⟩
    · exact Or.inr rfl
    · exact mem_of_mem_map_slash (mem_of_mem_splitOn (List.mem_of_mem_filter hsegment) hmem)

end PackagePath

namespace Placement

open PackagePath (baseChars mem_of_mem_baseChars mem_of_mem_dirChars)

/-- A character that separates segments, names roles or writes numbers. -/
def IsRouteChar (c : Char) : Prop :=
  c = '/' ∨ c = '-' ∨ c.isDigit = true ∨ ∃ role : Role, c ∈ role.value.toList

variable {i : Index} {role : Role} {cs : List Char} {c : Char}

private theorem mem_of_mem_numbered {n : Nat} (h : c ∈ numbered cs n) : c ∈ cs ∨ IsRouteChar c := by
  obtain ⟨last, hlast, -, -, hchars⟩ := exists_numbered_eq cs n
  rw [hlast, List.mem_append] at h
  rcases h with hdirectory | h
  · exact Or.inl (mem_of_mem_dirChars hdirectory)
  · rcases hchars c h with hbase | hdash | hdigit
    · exact Or.inl (mem_of_mem_baseChars hbase)
    · exact Or.inr (Or.inr (Or.inl hdash))
    · exact Or.inr (Or.inr (Or.inr (Or.inl hdigit)))

theorem isRouteChar_of_mem_roleDirectory {n : Nat} (h : c ∈ roleDirectory role n) :
    IsRouteChar c := by
  cases n with
  | zero => exact Or.inr (Or.inr (Or.inr ⟨role, h⟩))
  | succ n =>
    rw [roleDirectory, List.mem_append, List.mem_cons] at h
    rcases h with h | h | h
    · exact Or.inr (Or.inr (Or.inr ⟨role, h⟩))
    · exact Or.inr (Or.inl h)
    · exact Or.inr (Or.inr (Or.inl (Text.isDigit_of_mem_digits h)))

private theorem mem_of_mem_below {below : List Char}
    (h : c ∈ freeDirectory i role ++ '/' :: below) :
    c ∈ below ∨ IsRouteChar c := by
  rw [List.mem_append, List.mem_cons] at h
  rcases h with h | h | h
  · exact Or.inr (isRouteChar_of_mem_roleDirectory h)
  · exact Or.inr (Or.inl h)
  · exact Or.inl h

private theorem mem_of_mem_remediate (h : c ∈ remediate i role cs) : c ∈ cs ∨ IsRouteChar c := by
  have hnested : c ∈ freeDirectory i role ++ '/' :: cs → c ∈ cs ∨ IsRouteChar c :=
    mem_of_mem_below
  have hflat : c ∈ freeDirectory i role ++ '/' :: baseChars cs → c ∈ cs ∨ IsRouteChar c :=
    fun hmem => (mem_of_mem_below hmem).imp_left mem_of_mem_baseChars
  have hnumbered : ∀ path n, (c ∈ path → c ∈ cs ∨ IsRouteChar c) → c ∈ numbered path n →
      c ∈ cs ∨ IsRouteChar c :=
    fun path n hpath hmem => (mem_of_mem_numbered hmem).elim hpath Or.inr
  unfold remediate at h
  dsimp only at h
  split at h
  · exact hnested h
  · split at h
    · split at h
      · exact hflat h
      · exact hnumbered _ _ hflat h
    · exact hnumbered _ _ hnested h

private theorem mem_of_mem_assign (h : c ∈ assign i role cs) : c ∈ cs ∨ IsRouteChar c := by
  unfold assign at h
  split at h
  · exact mem_of_mem_remediate h
  · exact Or.inl h

private theorem mem_of_placeFrom {policy : PlacementPolicy} {files : List (String × Role)}
    {used : List String} :
    ∀ p ∈ (placeFrom policy i used files).placed, ∀ c ∈ p.path.toList,
      (∃ f ∈ files, c ∈ (policy.place f.1 f.2).toList) ∨ IsRouteChar c := by
  induction files generalizing i used with
  | nil =>
    intro p hp
    cases hp
  | cons f files ih =>
    obtain ⟨name, role⟩ := f
    intro p hp c hc
    unfold placeFrom at hp
    split at hp
    · cases hp
    · split at hp
      · cases hp
      · rename_i proposed hproposed
        rcases List.mem_cons.1 hp with rfl | hp
        · rw [String.toList_ofList] at hc
          rcases mem_of_mem_assign hc with hmem | hroute
          · rcases PackagePath.mem_of_normalize? hproposed hmem with hplace | hslash
            · exact Or.inl ⟨_, List.mem_cons_self, hplace⟩
            · exact Or.inr (Or.inl hslash)
          · exact Or.inr hroute
        · exact (ih p hp c hc).imp_left fun ⟨f, hf, hmem⟩ => ⟨f, List.mem_cons_of_mem _ hf, hmem⟩

theorem mem_of_resolve {policy : PlacementPolicy} {files : List (String × Role)}
    {table : List Placed} (h : resolve policy files = .ok table) :
    ∀ p ∈ table, ∀ c ∈ p.path.toList,
      (∃ f ∈ files, c ∈ (policy.place f.1 f.2).toList) ∨ IsRouteChar c := by
  obtain ⟨i, -, hplaced⟩ := resolve_eq_ok_iff.1 h
  have hmem := @mem_of_placeFrom i policy files []
  rwa [hplaced] at hmem

end Placement

end Deposit
