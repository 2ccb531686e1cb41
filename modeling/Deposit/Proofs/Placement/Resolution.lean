import Deposit.Proofs.Package.NormalForm
import Deposit.Proofs.Placement.Remediation

set_option autoImplicit false
set_option relaxedAutoImplicit false

/-!
Placing a whole list of files. Along the list the index represents what is reserved and what has
been placed so far, and no file is placed where it clashes with that. Main statement: the files are
placed without a clash between any two of them or with a reserved path, and they are refused exactly
when a name occurs twice or nothing usable is left of a path.
-/

namespace Deposit.Placement

open PackagePath (normalize? normalize?_eq_none_iff usableSegments Clash)

/-- The normal forms of the reserved paths. -/
def reservedPaths (reserved : List String) : List (List Char) :=
  (reserved.filterMap normalize?).map String.toList

theorem mem_reservedPaths {reserved : List String} {cs : List Char} :
    cs ∈ reservedPaths reserved ↔ ∃ r ∈ reserved, ∃ n, normalize? r = some n ∧ n.toList = cs := by
  simp only [reservedPaths, List.mem_map, List.mem_filterMap]
  constructor
  · rintro ⟨n, ⟨r, hr, hn⟩, rfl⟩
    exact ⟨r, hr, n, hn, rfl⟩
  · rintro ⟨r, hr, n, hn, rfl⟩
    exact ⟨n, ⟨r, hr, hn⟩, rfl⟩

theorem represents_of_reserve {reserved : List String} {i j : Index} {paths : List (List Char)}
    (hi : i.Represents paths) (h : reserve i reserved = .ok j) :
    j.Represents ((reservedPaths reserved).reverse ++ paths) := by
  induction reserved generalizing i paths with
  | nil =>
    cases h
    exact hi
  | cons r rs ih =>
    unfold reserve at h
    split at h
    · cases h
    · rename_i path hr
      have := ih (hi.add path.toList) h
      simpa [reservedPaths, hr] using this

private theorem reserve_eq_error_iff {reserved : List String} {i : Index} :
    (∃ e, reserve i reserved = .error e) ↔ ∃ r ∈ reserved, usableSegments r.toList = [] := by
  induction reserved generalizing i with
  | nil => simp [reserve]
  | cons r rs ih =>
    unfold reserve
    split
    · rename_i hr
      have hu := normalize?_eq_none_iff.1 hr
      simp [hu]
    · rename_i path hr
      have hu : usableSegments r.toList ≠ [] := fun h => by
        rw [normalize?_eq_none_iff.2 h] at hr
        cases hr
      simp [ih, hu]

/-- All files are placed exactly when their names are new and different and something usable is left
of every proposed path. -/
theorem placeFrom_error_eq_none_iff (policy : PlacementPolicy) (files : List (String × Role))
    (i : Index) (used : List String) :
    (placeFrom policy i used files).error = none ↔
      (files.map Prod.fst).Nodup ∧ (∀ f ∈ files, f.1 ∉ used) ∧
        ∀ f ∈ files, usableSegments (policy.place f.1 f.2).toList ≠ [] := by
  induction files generalizing i used with
  | nil => simp [placeFrom]
  | cons f files ih =>
    obtain ⟨name, role⟩ := f
    unfold placeFrom
    split
    · rename_i hu
      have : name ∈ used := by simpa using hu
      simp [this]
    · rename_i hu
      have hname : name ∉ used := by simpa using hu
      split
      · rename_i hn
        have := normalize?_eq_none_iff.1 hn
        simp [this]
      · rename_i proposed hn
        have hs : usableSegments (policy.place name role).toList ≠ [] := fun h => by
          rw [normalize?_eq_none_iff.2 h] at hn
          cases hn
        -- A later name is new to the list `name :: used` when it is new to `used` and not `name`.
        have later : (∀ f ∈ files, f.1 ∉ name :: used) ↔
            name ∉ files.map Prod.fst ∧ ∀ f ∈ files, f.1 ∉ used := by
          simp only [List.mem_cons, not_or, List.mem_map, not_exists, not_and]
          constructor
          · intro h
            exact ⟨fun f hf he => (h f hf).1 he, fun f hf => (h f hf).2⟩
          · rintro ⟨hl, hr⟩ f hf
            exact ⟨hl f hf, hr f hf⟩
        simp only [ih, later, List.map_cons, List.nodup_cons, List.forall_mem_cons]
        tauto

private theorem placeFrom_clear (policy : PlacementPolicy) (files : List (String × Role))
    (used : List String) {i : Index} {paths : List (List Char)} (hi : i.Represents paths) :
    let o := placeFrom policy i used files
    o.placed.Pairwise (fun p q => ¬ Clash p.path.toList q.path.toList) ∧
      ∀ p ∈ o.placed, ∀ q ∈ paths, ¬ Clash p.path.toList q := by
  induction files generalizing i used paths with
  | nil => simp [placeFrom]
  | cons f files ih =>
    obtain ⟨name, role⟩ := f
    unfold placeFrom
    split
    · simp
    · split
      · simp
      · rename_i proposed hn
        have free : ∀ q ∈ paths, ¬ Clash (assign i role proposed.toList) q := by
          intro q hq hc
          have := hi.collides_iff.2 ⟨q, hq, hc⟩
          rw [collides_assign] at this
          cases this
        obtain ⟨apart, clear⟩ := ih (name :: used) (hi.add (assign i role proposed.toList))
        simp only [List.pairwise_cons, List.forall_mem_cons, String.toList_ofList]
        refine ⟨⟨fun p hp hc => ?_, apart⟩, free, fun p hp q hq => ?_⟩
        · exact clear p hp _ (by simp) hc.symm
        · exact clear p hp q (by simp [hq])

private theorem map_name_placeFrom {policy : PlacementPolicy} {files : List (String × Role)}
    {i : Index} {used : List String} (h : (placeFrom policy i used files).error = none) :
    (placeFrom policy i used files).placed.map Placed.name = files.map Prod.fst := by
  induction files generalizing i used with
  | nil => rfl
  | cons f files ih =>
    obtain ⟨name, role⟩ := f
    unfold placeFrom at h ⊢
    split at h
    · cases h
    · rename_i hu
      rw [if_neg hu]
      split at h
      · cases h
      · simp only [List.map_cons, ih h]

theorem Outcome.table_eq_ok_iff {o : Outcome} {table : List Placed} :
    o.table = .ok table ↔ o = ⟨table, none⟩ := by
  rcases o with ⟨placed, _ | e⟩ <;> simp [Outcome.table]

private theorem Outcome.table_eq_error_iff {o : Outcome} {e : PlacementError} :
    o.table = .error e ↔ o.error = some e := by
  rcases o with ⟨placed, _ | e⟩ <;> simp [Outcome.table]

theorem resolve_eq_ok_iff {policy : PlacementPolicy} {files : List (String × Role)}
    {table : List Placed} :
    resolve policy files = .ok table ↔
      ∃ i, reserve .empty policy.reserved = .ok i ∧
        placeFrom policy i [] files = ⟨table, none⟩ := by
  unfold resolve run
  cases reserve .empty policy.reserved with
  | error e => simp [Outcome.table_eq_ok_iff]
  | ok i => simp [Outcome.table_eq_ok_iff]

theorem map_name_of_resolve {policy : PlacementPolicy} {files : List (String × Role)}
    {table : List Placed} (h : resolve policy files = .ok table) :
    table.map Placed.name = files.map Prod.fst := by
  obtain ⟨i, -, hp⟩ := resolve_eq_ok_iff.1 h
  have hn : (placeFrom policy i [] files).error = none := by rw [hp]
  have := map_name_placeFrom hn
  rwa [hp] at this

theorem clear_of_resolve {policy : PlacementPolicy} {files : List (String × Role)}
    {table : List Placed} (h : resolve policy files = .ok table) :
    table.Pairwise (fun p q => ¬ Clash p.path.toList q.path.toList) ∧
      ∀ p ∈ table, ∀ q ∈ reservedPaths policy.reserved, ¬ Clash p.path.toList q := by
  obtain ⟨i, hr, hp⟩ := resolve_eq_ok_iff.1 h
  have hc := placeFrom_clear policy files [] (represents_of_reserve Index.represents_empty hr)
  rw [hp] at hc
  exact ⟨hc.1, fun p hp q hq => hc.2 p hp q (by simpa using hq)⟩

theorem resolve_eq_error_iff {policy : PlacementPolicy} {files : List (String × Role)} :
    (∃ e, resolve policy files = .error e) ↔
      ¬ (files.map Prod.fst).Nodup ∨
      (∃ f ∈ files, usableSegments (policy.place f.1 f.2).toList = []) ∨
      ∃ r ∈ policy.reserved, usableSegments r.toList = [] := by
  unfold resolve run
  rw [← reserve_eq_error_iff (i := .empty)]
  cases reserve .empty policy.reserved with
  | error e => simp [Outcome.table]
  | ok i =>
    have hn := placeFrom_error_eq_none_iff policy files i []
    simp only [Outcome.table_eq_error_iff]
    rw [← Option.ne_none_iff_exists', ne_eq, hn]
    simp only [reduceCtorEq, exists_false, or_false, List.not_mem_nil, not_false_eq_true,
      implies_true, true_and, not_and_or, not_forall, ne_eq, not_not, exists_prop]

theorem nodup_of_resolve {policy : PlacementPolicy} {files : List (String × Role)}
    {table : List Placed} (h : resolve policy files = .ok table) :
    (files.map Prod.fst).Nodup := by
  by_contra hrepeated
  obtain ⟨e, he⟩ := resolve_eq_error_iff.2 (Or.inl hrepeated)
  cases he.symm.trans h

/-- Files get one path each, in their order, and no two of the paths clash, nor does one of them
with the normal form of a reserved path. Files cannot be placed exactly when two of them share a
name, or when nothing usable is left of a proposed or a reserved path. -/
theorem resolve_clear (policy : PlacementPolicy) (files : List (String × Role)) :
    (∀ table, resolve policy files = .ok table →
      table.map Placed.name = files.map Prod.fst ∧
      table.Pairwise (fun p q => ¬ Clash p.path.toList q.path.toList) ∧
      ∀ p ∈ table, ∀ r ∈ policy.reserved, ∀ n, normalize? r = some n →
        ¬ Clash p.path.toList n.toList) ∧
    ((∃ e, resolve policy files = .error e) ↔
      ¬ (files.map Prod.fst).Nodup ∨
      (∃ f ∈ files, usableSegments (policy.place f.1 f.2).toList = []) ∨
      ∃ r ∈ policy.reserved, usableSegments r.toList = []) := by
  refine ⟨fun table h => ?_, resolve_eq_error_iff⟩
  obtain ⟨apart, clear⟩ := clear_of_resolve h
  refine ⟨map_name_of_resolve h, apart, fun p hp r hr n hn => ?_⟩
  exact clear p hp n.toList (mem_reservedPaths.2 ⟨r, hr, n, hn, rfl⟩)

/-- A file named like a reserved path but for case, and one at a directory of another, are moved. -/
theorem resolve_reserved_and_nested :
    ∃ table, resolve ⟨["mets.xml"], fun name _ => name⟩
        [("METS.xml", .figure), ("a/b", .table), ("A", .table)] = .ok table ∧
      table.map Placed.path = ["figure/METS.xml", "a/b", "table/A"] ∧
      table.Pairwise fun p q => ¬ Clash p.path.toList q.path.toList := by
  have hpaths : (resolve ⟨["mets.xml"], fun name _ => name⟩
      [("METS.xml", .figure), ("a/b", .table), ("A", .table)]).map (·.map Placed.path) =
        .ok ["figure/METS.xml", "a/b", "table/A"] := by
    decide +kernel
  cases hresolve : resolve ⟨["mets.xml"], fun name _ => name⟩
      [("METS.xml", .figure), ("a/b", .table), ("A", .table)] with
  | error cause =>
    rw [hresolve] at hpaths
    cases hpaths
  | ok table =>
    rw [hresolve] at hpaths
    exact ⟨table, rfl, Except.ok.inj hpaths, ((resolve_clear _ _).1 table hresolve).2.1⟩

end Deposit.Placement
