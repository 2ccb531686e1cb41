import Deposit.Proofs.Placement.Confinement
import Deposit.Proofs.Placement.Order
import Deposit.Specification.Registry

set_option autoImplicit false
set_option relaxedAutoImplicit false

/-!
How much of a placement depends on the other files. Files are placed one after the other, so further
files change nothing for those before them; and where the proposed paths and the reserved ones are
free of clashes, the index never gets in the way of a file, whatever comes before it. Main
statements: placing is stable under further files, it keeps all proposed paths that are free of
clashes in whatever order they come, and files that have been renamed to their places keep these
names.
-/

namespace Deposit.Placement

open PackagePath (Clash normalize? IsNormal)

variable {policy : PlacementPolicy} {files others xs ys : List (String × Role)} {i : Index}
  {used : List String} {table : List Placed}

private theorem placed_placeFrom_append (policy : PlacementPolicy) (i : Index) (used : List String)
    (xs ys : List (String × Role)) :
    (placeFrom policy i used xs).placed =
      (placeFrom policy i used (xs ++ ys)).placed.take xs.length := by
  induction xs generalizing i used with
  | nil => rw [List.length_nil, List.take_zero, placeFrom]
  | cons f xs ih =>
    obtain ⟨name, role⟩ := f
    rw [List.cons_append, placeFrom, placeFrom]
    split
    · rw [List.take_nil]
    · split
      · rw [List.take_nil]
      · rw [List.length_cons, List.take_succ_cons, ← ih]

private theorem error_placeFrom_of_append (h : (placeFrom policy i used (xs ++ ys)).error = none) :
    (placeFrom policy i used xs).error = none := by
  rw [placeFrom_error_eq_none_iff] at h ⊢
  obtain ⟨hnames, hnew, husable⟩ := h
  rw [List.map_append] at hnames
  exact ⟨(List.nodup_append.1 hnames).1, fun f hf => hnew f (List.mem_append_left _ hf),
    fun f hf => husable f (List.mem_append_left _ hf)⟩

private theorem resolve_of_append (h : resolve policy (xs ++ ys) = .ok table) :
    resolve policy xs = .ok (table.take xs.length) := by
  obtain ⟨i, hreserve, hplaced⟩ := resolve_eq_ok_iff.1 h
  have hall : (placeFrom policy i [] (xs ++ ys)).error = none := by rw [hplaced]
  have herror : (placeFrom policy i [] xs).error = none := error_placeFrom_of_append hall
  have hfirst := placed_placeFrom_append policy i [] xs ys
  rw [hplaced] at hfirst
  refine resolve_eq_ok_iff.2 ⟨i, hreserve, ?_⟩
  rw [← hfirst, ← herror]

private theorem take_eq_filter {α β : Type} [DecidableEq β] {value : α → β} {as : List α}
    (h : (as.map value).Nodup) (n : Nat) :
    as.take n = as.filter fun a => value a ∈ (as.take n).map value := by
  have hfirst : (as.take n).filter (fun a => value a ∈ (as.take n).map value) = as.take n := by
    rw [List.filter_eq_self]
    intro a ha
    exact decide_eq_true (List.mem_map_of_mem ha)
  have hlater : (as.drop n).filter (fun a => value a ∈ (as.take n).map value) = [] := by
    rw [List.filter_eq_nil_iff]
    intro a ha hvalue
    rw [← List.take_append_drop n as, List.map_append] at h
    exact List.disjoint_of_nodup_append h (of_decide_eq_true hvalue) (List.mem_map_of_mem ha)
  conv_rhs =>
    arg 2
    rw [← List.take_append_drop n as]
  rw [List.filter_append, hfirst, hlater, List.append_nil]

/-- The paths that are proposed for files, in normal form. -/
def proposals (policy : PlacementPolicy) (files : List (String × Role)) : List (List Char) :=
  (files.filterMap fun f => normalize? (policy.place f.1 f.2)).map String.toList

private theorem proposals_cons {name path : String} {role : Role}
    (h : normalize? (policy.place name role) = some path) :
    proposals policy ((name, role) :: files) = path.toList :: proposals policy files := by
  rw [proposals, List.filterMap_cons, h, List.map_cons, proposals]

/-- No two of the proposed paths clash, nor does one of them with a reserved path. -/
structure IsClear (policy : PlacementPolicy) (files : List (String × Role)) : Prop where
  apart : (proposals policy files).Pairwise fun p q => ¬ Clash p q
  unreserved : ∀ path ∈ proposals policy files, IsFree (reservedPaths policy.reserved) path

private theorem IsClear.perm (h : IsClear policy files)
    (hperm : (proposals policy others).Perm (proposals policy files)) : IsClear policy others where
  apart := (hperm.pairwise_iff fun hclear hclash => hclear hclash.symm).2 h.apart
  unreserved path hpath := h.unreserved path (hperm.mem_iff.1 hpath)

/-- The entry of a file that gets the normal form of the path proposed for it. -/
def kept (policy : PlacementPolicy) (file : String × Role) : Option Placed :=
  (normalize? (policy.place file.1 file.2)).map fun path => ⟨file.1, path, path⟩

private theorem map_kept_of_placeFrom {taken : List (List Char)} (hi : i.Represents taken)
    (hapart : (proposals policy files).Pairwise fun p q => ¬ Clash p q)
    (hfree : ∀ path ∈ proposals policy files, IsFree taken path)
    (h : (placeFrom policy i used files).error = none) :
    files.map (kept policy) = (placeFrom policy i used files).placed.map some := by
  induction files generalizing i used taken with
  | nil => rfl
  | cons f files ih =>
    obtain ⟨name, role⟩ := f
    unfold placeFrom at h ⊢
    split at h
    · cases h
    · rename_i hused
      rw [if_neg hused]
      split at h
      · cases h
      · rename_i proposed hproposed
        rw [proposals_cons hproposed] at hapart hfree
        obtain ⟨hfirst, hrest⟩ := List.pairwise_cons.1 hapart
        have hassign : assign i role proposed.toList = proposed.toList :=
          (isMinimal_assign hi role proposed.toList).kept.2 (hfree _ List.mem_cons_self)
        have hkept : kept policy (name, role) = some ⟨name, proposed, proposed⟩ := by
          rw [kept, hproposed, Option.map_some]
        -- the paths behind the first one are free of it too
        have hlater : ∀ path ∈ proposals policy files, IsFree (proposed.toList :: taken) path := by
          intro path hpath
          rw [IsFree, List.forall_mem_cons]
          exact ⟨fun hclash => hfirst path hpath hclash.symm,
            hfree path (List.mem_cons_of_mem _ hpath)⟩
        simp only [hassign, String.ofList_toList] at h ⊢
        rw [List.map_cons, List.map_cons, hkept, ih (hi.add proposed.toList) hrest hlater h]

/-- Files whose proposed paths are free of clashes keep them whenever they can be placed at all:
when their names are distinct and something usable is left of every path. -/
theorem IsClear.resolve_eq_ok_iff (h : IsClear policy files) :
    resolve policy files = .ok table ↔
      (files.map Prod.fst).Nodup ∧ (∀ r ∈ policy.reserved, normalize? r ≠ none) ∧
        files.map (kept policy) = table.map some := by
  have hkept : ∀ table, resolve policy files = .ok table →
      files.map (kept policy) = table.map some := by
    intro table htable
    obtain ⟨i, hreserve, hplaced⟩ := Placement.resolve_eq_ok_iff.1 htable
    have hi : i.Represents (reservedPaths policy.reserved) := by
      apply (represents_of_reserve Index.represents_empty hreserve).congr
      intro path
      rw [List.append_nil, List.mem_reverse]
    have herror : (placeFrom policy i [] files).error = none := by rw [hplaced]
    have hall := map_kept_of_placeFrom hi h.apart h.unreserved herror
    rwa [hplaced] at hall
  constructor
  · intro htable
    have hplaceable : ¬ ∃ e, resolve policy files = .error e := by
      rintro ⟨e, he⟩
      rw [htable] at he
      cases he
    rw [resolve_eq_error_iff, not_or, not_or, not_not] at hplaceable
    obtain ⟨hnames, -, hreserved⟩ := hplaceable
    refine ⟨hnames, fun r hr hnone => ?_, hkept table htable⟩
    exact hreserved ⟨r, hr, PackagePath.normalize?_eq_none_iff.1 hnone⟩
  · rintro ⟨hnames, hreserved, htable⟩
    cases hresolve : resolve policy files with
    | ok found =>
      have hsame := (hkept found hresolve).symm.trans htable
      rw [List.map_injective_iff.2 (fun _ _ => Option.some.inj) hsame]
    | error e =>
      exfalso
      rcases resolve_eq_error_iff.1 ⟨e, hresolve⟩ with hrepeated | ⟨f, hf, hnone⟩ | ⟨r, hr, hnone⟩
      · exact hrepeated hnames
      · have hmem : kept policy f ∈ table.map some := htable ▸ List.mem_map_of_mem hf
        rw [kept, PackagePath.normalize?_eq_none_iff.2 hnone, Option.map_none] at hmem
        obtain ⟨p, -, hp⟩ := List.mem_map.1 hmem
        cases hp
      · exact hreserved r hr (PackagePath.normalize?_eq_none_iff.2 hnone)

/-- Where files can be placed together with further ones, they can be placed alone, and each gets
the same path. Where the normal forms of the paths proposed for files clash neither with each other
nor with that of a reserved path, all files for which the same paths are proposed, in whatever order
and for whatever roles, get just these paths; such files cannot be placed only if a name occurs
twice or nothing usable is left of a path. -/
theorem resolve_stable (policy : PlacementPolicy) :
    (∀ xs ys table, resolve policy (xs ++ ys) = .ok table →
      resolve policy xs = .ok (table.take xs.length) ∧
        table.take xs.length = table.filter fun p => p.name ∈ xs.map Prod.fst) ∧
    ∀ files, IsClear policy files →
      ∀ others, (proposals policy others).Perm (proposals policy files) →
        ∀ table, resolve policy others = .ok table ↔
          (others.map Prod.fst).Nodup ∧ (∀ r ∈ policy.reserved, normalize? r ≠ none) ∧
            others.map (kept policy) = table.map some := by
  refine ⟨fun xs ys table h => ⟨resolve_of_append h, ?_⟩,
    fun files hclear others hperm table => (hclear.perm hperm).resolve_eq_ok_iff⟩
  have hnames := map_name_of_resolve h
  have hnodup : (table.map Placed.name).Nodup := by
    rw [hnames]
    by_contra hrepeated
    obtain ⟨e, he⟩ := resolve_eq_error_iff.2 (Or.inl hrepeated)
    rw [h] at he
    cases he
  have hfirst : (table.take xs.length).map Placed.name = xs.map Prod.fst := by
    rw [List.map_take, hnames, List.map_append]
    exact List.take_left' (List.length_map _)
  rw [take_eq_filter hnodup, hfirst]

/-- Files that are moved for each other stay where they are when a file follows that would be a
directory of one of them, and files without a clash are not moved in another order and with other
roles. -/
theorem resolve_stable_letters :
    resolve Specification.mets.policy
        ([("a.txt", .table), ("A.txt", .figure)] ++ [("figure", .table), ("METS.xml", .figure)]) =
      .ok [⟨"a.txt", "a.txt", "a.txt"⟩, ⟨"A.txt", "A.txt", "figure/A.txt"⟩,
        ⟨"figure", "figure", "table/figure"⟩, ⟨"METS.xml", "METS.xml", "figure/METS.xml"⟩] ∧
    resolve Specification.mets.policy [("a.txt", .table), ("A.txt", .figure)] =
      .ok [⟨"a.txt", "a.txt", "a.txt"⟩, ⟨"A.txt", "A.txt", "figure/A.txt"⟩] ∧
    IsClear Specification.mets.policy [("a/b.txt", .table), ("c\\d", .figure), ("./e", .table)] ∧
    resolve Specification.mets.policy
        [("./e", .manuscript), ("c\\d", .table), ("a/b.txt", .supplement)] =
      .ok [⟨"./e", "e", "e"⟩, ⟨"c\\d", "c/d", "c/d"⟩, ⟨"a/b.txt", "a/b.txt", "a/b.txt"⟩] := by
  obtain ⟨hfurther, hkept⟩ := resolve_stable Specification.mets.policy
  have hall : resolve Specification.mets.policy
      ([("a.txt", .table), ("A.txt", .figure)] ++ [("figure", .table), ("METS.xml", .figure)]) =
        .ok [⟨"a.txt", "a.txt", "a.txt"⟩, ⟨"A.txt", "A.txt", "figure/A.txt"⟩,
          ⟨"figure", "figure", "table/figure"⟩, ⟨"METS.xml", "METS.xml", "figure/METS.xml"⟩] := by
    decide +kernel
  have hclear : IsClear Specification.mets.policy
      [("a/b.txt", .table), ("c\\d", .figure), ("./e", .table)] :=
    ⟨by decide +kernel, by decide +kernel⟩
  have hperm : (proposals Specification.mets.policy
      [("./e", .manuscript), ("c\\d", .table), ("a/b.txt", .supplement)]).Perm
        (proposals Specification.mets.policy
          [("a/b.txt", .table), ("c\\d", .figure), ("./e", .table)]) := by
    decide +kernel
  refine ⟨hall, (hfurther _ _ _ hall).1, hclear, (hkept _ hclear _ hperm _).2 ⟨?_, ?_, ?_⟩⟩
  · decide
  · decide
  · decide

/-- Whether a policy proposes for every file its own name. -/
def ProposesNames (policy : PlacementPolicy) : Prop :=
  ∀ name role, policy.place name role = name

private theorem proposals_of_isNormal (hpolicy : ProposesNames policy)
    (h : ∀ f ∈ files, IsNormal f.1.toList) :
    proposals policy files = (files.map Prod.fst).map String.toList := by
  have hnormal : files.filterMap (fun f => normalize? (policy.place f.1 f.2)) =
      files.filterMap (some ∘ Prod.fst) := by
    apply List.filterMap_congr
    intro f hf
    rw [hpolicy, PackagePath.normalize?_eq_self_iff.2 (h f hf), Function.comp_apply]
  rw [proposals, hnormal, List.filterMap_eq_map]

private theorem isClear_of_resolve (hpolicy : ProposesNames policy)
    (h : resolve policy files = .ok table) (hnormal : ∀ f ∈ others, IsNormal f.1.toList)
    (hperm : (others.map Prod.fst).Perm (table.map Placed.path)) : IsClear policy others := by
  obtain ⟨hapart, hclear⟩ := clear_of_resolve h
  have hproposals : (proposals policy others).Perm (placedPaths table) := by
    rw [proposals_of_isNormal hpolicy hnormal, placedPaths]
    exact (hperm.map String.toList).trans (by rw [List.map_map]; rfl)
  refine ⟨(hproposals.pairwise_iff fun hpq hqp => hpq hqp.symm).2 ?_, fun path hpath => ?_⟩
  · rw [placedPaths, List.pairwise_map]
    exact hapart
  · obtain ⟨p, hp, rfl⟩ := List.mem_map.1 (hproposals.mem_iff.1 hpath)
    exact hclear p hp

/-- Placed files, once they are named after their places, stay there and keep these names, in
whatever order and with whatever roles they come; no file is moved. This is so for every policy that
proposes for each file its own name, as two of the registered specifications do. -/
theorem resolve_renamed :
    (∀ policy, ProposesNames policy → ∀ files table, resolve policy files = .ok table →
      ∀ renamed : List (String × Role), (renamed.map Prod.fst).Perm (table.map Placed.path) →
        resolve policy renamed = .ok (renamed.map fun f => ⟨f.1, f.1, f.1⟩) ∧
          (run policy renamed).notices = []) ∧
    ProposesNames Specification.simpleZip.policy ∧ ProposesNames Specification.mets.policy := by
  refine ⟨?_, fun _ _ => rfl, fun _ _ => rfl⟩
  intro policy hpolicy files table h renamed hperm
  have hnormal : ∀ f ∈ renamed, IsNormal f.1.toList := by
    intro f hf
    obtain ⟨p, hp, hpath⟩ := List.mem_map.1 (hperm.mem_iff.1 (List.mem_map_of_mem hf))
    rw [← hpath]
    exact isNormal_of_resolve h p hp
  have hnames : (renamed.map Prod.fst).Nodup := by
    rw [hperm.nodup_iff, List.Nodup, List.pairwise_map]
    refine (clear_of_resolve h).1.imp fun hclear hsame => hclear ?_
    rw [hsame]
    exact Or.inl (List.prefix_refl _)
  have hreserved : ∀ r ∈ policy.reserved, normalize? r ≠ none := by
    intro r hr hnone
    obtain ⟨e, he⟩ : ∃ e, resolve policy files = .error e :=
      resolve_eq_error_iff.2 (Or.inr (Or.inr ⟨r, hr, PackagePath.normalize?_eq_none_iff.1 hnone⟩))
    rw [h] at he
    cases he
  have hkept : renamed.map (kept policy) =
      (renamed.map fun f => (⟨f.1, f.1, f.1⟩ : Placed)).map some := by
    rw [List.map_map]
    refine List.map_congr_left fun f hf => ?_
    rw [kept, hpolicy, PackagePath.normalize?_eq_self_iff.2 (hnormal f hf), Option.map_some]
    rfl
  have hresolve : resolve policy renamed = .ok (renamed.map fun f => ⟨f.1, f.1, f.1⟩) :=
    (isClear_of_resolve hpolicy h hnormal hperm).resolve_eq_ok_iff.2 ⟨hnames, hreserved, hkept⟩
  refine ⟨hresolve, ?_⟩
  rw [resolve, Outcome.table_eq_ok_iff] at hresolve
  rw [hresolve, Outcome.notices, List.map_eq_nil_iff, List.filter_eq_nil_iff]
  intro p hp
  obtain ⟨f, -, rfl⟩ := List.mem_map.1 hp
  simp [Placed.isRemediated]

/-- Files that were moved under their roles, one of them with a number, keep their new names in
another order and with other roles. -/
theorem resolve_renamed_crowd :
    resolve Specification.mets.policy
        [("mets.xml", .figure), ("a", .table), ("A/b", .table), ("table/b", .figure),
          ("a/B", .table)] =
      .ok [⟨"mets.xml", "mets.xml", "figure/mets.xml"⟩, ⟨"a", "a", "a"⟩,
        ⟨"A/b", "A/b", "table/A/b"⟩, ⟨"table/b", "table/b", "table/b"⟩,
        ⟨"a/B", "a/B", "table/a/B-1"⟩] ∧
    resolve Specification.mets.policy
        [("table/a/B-1", .manuscript), ("table/b", .table), ("table/A/b", .figure), ("a", .figure),
          ("figure/mets.xml", .table)] =
      .ok [⟨"table/a/B-1", "table/a/B-1", "table/a/B-1"⟩, ⟨"table/b", "table/b", "table/b"⟩,
        ⟨"table/A/b", "table/A/b", "table/A/b"⟩, ⟨"a", "a", "a"⟩,
        ⟨"figure/mets.xml", "figure/mets.xml", "figure/mets.xml"⟩] := by
  have hmoved : resolve Specification.mets.policy
      [("mets.xml", .figure), ("a", .table), ("A/b", .table), ("table/b", .figure),
        ("a/B", .table)] =
        .ok [⟨"mets.xml", "mets.xml", "figure/mets.xml"⟩, ⟨"a", "a", "a"⟩,
          ⟨"A/b", "A/b", "table/A/b"⟩, ⟨"table/b", "table/b", "table/b"⟩,
          ⟨"a/B", "a/B", "table/a/B-1"⟩] := by
    decide +kernel
  obtain ⟨hrenamed, -, hnames⟩ := resolve_renamed
  exact ⟨hmoved, (hrenamed _ hnames _ _ hmoved _ (by decide +kernel)).1⟩

end Deposit.Placement
