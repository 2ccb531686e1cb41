import Deposit.Proofs.Assembly.Failure
import Deposit.Proofs.Assembly.Paths
import Deposit.Proofs.Placement.Order

set_option autoImplicit false
set_option relaxedAutoImplicit false

/-!
Which files of a submission are moved, and what is said about it. All notices about moved files are
given before a package is built, and neither the notices before and after building nor those of
composing can be taken for one of them. Main statement: a file is moved only when its proposed path
is taken, in a fixed order of attempts, and assembling logs one line for each moved file.
-/

namespace Deposit

namespace Assembler

variable {a : Assembler} {s : Submission}

/-- The notice that a file has been moved. -/
def movedNotice (p : Placed) : Notice where
  level := .info
  text := "Placed " ++ p.name ++ " at " ++ p.path ++ ": " ++ p.proposed ++ " is already taken"

/-- Whether a notice is told apart from those about moved files. -/
def IsOther (n : Notice) : Prop :=
  n.level = .info → ¬ "Placed ".toList <+: n.text.toList

private theorem isOther_of_head? {n : Notice} (h : n.text.toList.head? = some 'A') : IsOther n := by
  rintro - ⟨rest, hrest⟩
  have hplaced : n.text.toList.head? = some 'P' := by
    rw [← hrest]
    rfl
  rw [h] at hplaced
  cases hplaced

private theorem isOther_startNotice (a : Assembler) (s : Submission) :
    IsOther ⟨.info, a.startNotice s⟩ := by
  have hstart : "Assembling submission ".toList.head? = some 'A' := by decide +kernel
  have hhead : (a.startNotice s).toList.head? = some 'A' := by
    unfold startNotice
    simp only [String.toList_append, List.append_assoc, List.head?_append, hstart,
      Option.some_or]
  exact isOther_of_head? hhead

private theorem isOther_finishNotice (s : Submission) (p : PackageStream) :
    IsOther ⟨.info, finishNotice s p⟩ := by
  have hstart : "Assembled ".toList.head? = some 'A' := by decide +kernel
  have hhead : (finishNotice s p).toList.head? = some 'A' := by
    unfold finishNotice
    simp only [String.toList_append, List.append_assoc, List.head?_append, hstart,
      Option.some_or]
  exact isOther_of_head? hhead

private theorem exists_log_build (a : Assembler) (s : Submission) (placed : List Placed)
    (before : Surroundings) :
    ∃ rest, ((a.build s placed : StateM Surroundings _).run before).2.log = rest ++ before.log ∧
      ∀ n ∈ rest, IsOther n :=
  a.adds_build s placed (fun _ hlevel => nomatch hlevel) (isOther_finishNotice s) before

private theorem exists_log_assemble (hr : a.refusal? s = none) (before : Surroundings) :
    ∃ rest, ((a.assemble s : StateM Surroundings _).run before).2.log =
        rest ++ (((Placement.run a.specification.policy s.placements).placed.filter
          Placed.isRemediated).map movedNotice).reverse ++ before.log ∧
      ∀ n ∈ rest, IsOther n := by
  have hnotices : (Placement.run a.specification.policy s.placements).notices.map
      (Notice.mk .info) = ((Placement.run a.specification.policy s.placements).placed.filter
        Placed.isRemediated).map movedNotice := by
    rw [Placement.Outcome.notices, List.map_map]
    rfl
  cases hp : Placement.resolve a.specification.policy s.placements with
  | error cause =>
    rw [assemble_of_unplaceable hr hp,
      Surroundings.run_bind_of_run (Surroundings.run_notices before .info _), hnotices]
    exact ⟨[], rfl, fun n hn => absurd hn List.not_mem_nil⟩
  | ok placed =>
    rw [run_assemble_of_placed hr hp]
    obtain ⟨rest, hlog, hother⟩ :=
      a.exists_log_build s placed { before with log := a.openingNotices s ++ before.log }
    refine ⟨rest ++ [⟨.info, a.startNotice s⟩], ?_, ?_⟩
    · rw [hlog, openingNotices, hnotices]
      simp only [List.append_assoc, List.cons_append, List.nil_append]
    · intro n hn
      rcases List.mem_append.1 hn with hn | hn
      · exact hother n hn
      · rw [List.mem_singleton.1 hn]
        exact isOther_startNotice a s

/-- Files are placed in their order. A file gets the normal form of the path proposed for it exactly
when this is free of clashes with the reserved paths and the paths of the files before it, and
otherwise the first free path of those tried for it. In the log of an assembly there is one line for
each file that did not get the path proposed, in the order of the files. -/
theorem placement_minimal :
    (∀ (policy : PlacementPolicy) (files : List (String × Role)),
      (∀ table, Placement.resolve policy files = .ok table →
        (Placement.run policy files).placed = table ∧
          table.map Placed.name = files.map Prod.fst) ∧
      ∀ earlier p later, (Placement.run policy files).placed = earlier ++ p :: later →
        ∃ role, files[earlier.length]? = some (p.name, role) ∧
          PackagePath.normalize? (policy.place p.name role) = some p.proposed ∧
          Placement.IsMinimal
            (Placement.reservedPaths policy.reserved ++ Placement.placedPaths earlier) role
            p.proposed.toList p.path.toList) ∧
    ∀ (a : Assembler) (s : Submission) (before : Surroundings), a.refusal? s = none →
      ∃ rest, ((a.assemble s : StateM Surroundings _).run before).2.log =
          rest ++ (((Placement.run a.specification.policy s.placements).placed.filter
            fun p => p.path ≠ p.proposed).map movedNotice).reverse ++ before.log ∧
        ∀ n ∈ rest, IsOther n := by
  refine ⟨fun policy files => ⟨?_, fun earlier p later => Placement.isMinimal_of_run⟩, ?_⟩
  · intro table htable
    refine ⟨?_, Placement.map_name_of_resolve htable⟩
    rw [Placement.resolve, Placement.Outcome.table_eq_ok_iff] at htable
    rw [htable]
  · intro a s before hr
    have hfilter : Placed.isRemediated = fun p : Placed => decide (p.path ≠ p.proposed) := by
      funext p
      rw [Placed.isRemediated, Bool.eq_iff_iff, bne_iff_ne, decide_eq_true_iff]
    rw [← hfilter]
    exact exists_log_assemble hr before

/-- Two files of the crowd are moved, the first of them beside a file that has the name of its role,
and both are in the log. In another list a file loses its directory and gets a number. -/
theorem placement_minimal_crowd :
    (∃ rest, ((bulkAssembler.assemble crowd : StateM Surroundings _).run emptyDesk).2.log =
        rest ++ [movedNotice ⟨"old/Bulk_Meta.xml", "Bulk_Meta.xml", "table/Bulk_Meta.xml"⟩,
          movedNotice ⟨"Manifest.TXT", "Manifest.TXT", "manuscript-1/Manifest.TXT"⟩] ∧
      ∀ n ∈ rest, IsOther n) ∧
    Placement.IsMinimal (["manifest.txt", "bulk_meta.xml", "manuscript"].map String.toList)
      .manuscript "Manifest.TXT".toList "manuscript-1/Manifest.TXT".toList ∧
    Placement.IsMinimal (["mets.xml", "a", "table/a", "table/b"].map String.toList) .table
      "a/b".toList "table/b-1".toList := by
  have hcrowd : (Placement.run bulkAssembler.specification.policy crowd.placements).placed =
      [⟨"manuscript", "manuscript", "manuscript"⟩] ++
        ⟨"Manifest.TXT", "Manifest.TXT", "manuscript-1/Manifest.TXT"⟩ ::
          [⟨"old/Bulk_Meta.xml", "Bulk_Meta.xml", "table/Bulk_Meta.xml"⟩] := by
    decide +kernel
  have hnested : (Placement.run ⟨["mets.xml"], fun name _ => name⟩
      [("a", .table), ("table/a", .table), ("table/b", .table), ("a/b", .table)]).placed =
        [⟨"a", "a", "a"⟩, ⟨"table/a", "table/a", "table/a"⟩, ⟨"table/b", "table/b", "table/b"⟩] ++
          ⟨"a/b", "a/b", "table/b-1"⟩ :: [] := by
    decide +kernel
  obtain ⟨hplaces, hlogs⟩ := placement_minimal
  refine ⟨?log, ?crowd, ?nested⟩
  case log =>
    obtain ⟨rest, hlog, hother⟩ := hlogs bulkAssembler crowd emptyDesk rfl
    refine ⟨rest, ?_, hother⟩
    rw [hlog, hcrowd, List.append_assoc]
    rfl
  case crowd =>
    obtain ⟨role, hfile, -, hminimal⟩ := (hplaces _ crowd.placements).2 _ _ _ hcrowd
    obtain rfl : Role.manuscript = role := (Prod.mk.inj (Option.some.inj hfile)).2
    exact hminimal
  case nested =>
    obtain ⟨role, hfile, -, hminimal⟩ := (hplaces _ _).2 _ _ _ hnested
    obtain rfl : Role.table = role := (Prod.mk.inj (Option.some.inj hfile)).2
    exact hminimal

end Assembler

end Deposit
