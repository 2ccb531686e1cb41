import Deposit.Proofs.Assembly.Package
import Deposit.Specification.Registry

set_option autoImplicit false
set_option relaxedAutoImplicit false

/-!
Where the files of a package stand. Placement keeps the content files clear of all reserved paths,
so a specification that generates files at reserved paths only finds these free, and nothing has to
be compared when the generated files are written. Main statement: no two files of such a package
clash, and every file stands where it belongs.
-/

namespace Deposit

open PackagePath (Clash normalize?)

namespace Specification

/-- A specification that generates files at reserved paths only; these are in normal form and do
not clash with one another. -/
structure KeepsToReserved (spec : Specification) : Prop where
  reserved : ∀ {s rs generated}, spec.generate s rs = .ok generated →
    ∀ f ∈ generated.files, f.1 ∈ spec.policy.reserved
  normal : ∀ {s rs generated}, spec.generate s rs = .ok generated →
    ∀ f ∈ generated.files, normalize? f.1 = some f.1
  apart : ∀ {s rs generated}, spec.generate s rs = .ok generated →
    generated.files.Pairwise fun f g => ¬ Clash f.1.toList g.1.toList

/-- A specification that generates one file at each reserved path, in the order of these. -/
def FillsReserved (spec : Specification) : Prop :=
  ∀ s rs generated, spec.generate s rs = .ok generated →
    generated.files.map Prod.fst = spec.policy.reserved

private theorem FillsReserved.keepsToReserved {spec : Specification} (h : spec.FillsReserved)
    (hn : ∀ r ∈ spec.policy.reserved, normalize? r = some r)
    (hc : spec.policy.reserved.Pairwise fun p q => ¬ Clash p.toList q.toList) :
    spec.KeepsToReserved where
  reserved hg f hf := by
    rw [← h _ _ _ hg]
    exact List.mem_map_of_mem hf
  normal hg f hf := by
    apply hn
    rw [← h _ _ _ hg]
    exact List.mem_map_of_mem hf
  apart hg := by
    rw [← h _ _ _ hg, List.pairwise_map] at hc
    exact hc

theorem fillsReserved_of_registered {spec : Specification} (h : spec ∈ registered) :
    spec.FillsReserved := by
  intro s rs generated hg
  simp only [registered, List.mem_cons, List.not_mem_nil, or_false] at h
  rcases h with rfl | rfl | rfl
  · obtain rfl := Except.ok.inj hg
    rfl
  · simp only [mets, Mets.generate] at hg
    split at hg
    · obtain rfl := Except.ok.inj hg
      rfl
    · cases hg
  · simp only [nihms, Nihms.generate] at hg
    split at hg
    · cases hg
    · split at hg
      · obtain rfl := Except.ok.inj hg
        rfl
      · cases hg

private theorem keepsToReserved_of_registered {spec : Specification} (h : spec ∈ registered) :
    spec.KeepsToReserved := by
  refine (fillsReserved_of_registered h).keepsToReserved ?_ ?_
  · have hnormal : ∀ spec ∈ registered, ∀ r ∈ spec.policy.reserved, normalize? r = some r := by
      decide +kernel
    exact hnormal spec h
  · have hapart : ∀ spec ∈ registered,
        spec.policy.reserved.Pairwise fun p q => ¬ Clash p.toList q.toList := by
      decide +kernel
    exact hapart spec h

theorem name_ne_empty_of_registered {spec : Specification} (hspec : spec ∈ registered)
    {files : List (String × Role)} {placed : List Placed}
    (h : Placement.resolve spec.policy files = .ok placed) : ∀ f ∈ files, f.1 ≠ "" := by
  have hnothing : ∀ spec ∈ registered, ∀ role : Role,
      PackagePath.usableSegments (spec.policy.place "" role).toList = [] := by
    intro spec hspec role
    cases role <;> revert spec <;> decide
  intro f hf hempty
  have hfails : ∃ e, Placement.resolve spec.policy files = .error e :=
    Placement.resolve_eq_error_iff.2
      (Or.inr (Or.inl ⟨f, hf, by rw [hempty]; exact hnothing spec hspec f.2⟩))
  obtain ⟨e, he⟩ := hfails
  rw [he] at h
  cases h

end Specification

namespace Assembler

variable {a : Assembler} {s : Submission} {placed : List Placed} {before after : Disk}
  {directory : List String} {name : String} {sink : Recorder} {p : PackageStream}

theorem Built.paths (h : a.Built s placed before after directory name sink p)
    (hplaced : Placement.resolve a.specification.policy s.placements = .ok placed) :
    ∃ generated, a.specification.generate s (p.resources.take s.files.length) = .ok generated ∧
      List.Forall₂ Composition.Lists (p.resources.take s.files.length)
        (s.files.zip (placed.map Placed.path)) ∧
      (p.resources.drop s.files.length).map Resource.packagePath =
        generated.files.map Prod.fst := by
  obtain ⟨c, d, generated, -, hgenerate, hall, htake, hlists, -, hresources, -⟩ := h.parts hplaced
  refine ⟨generated, by rw [← htake]; exact hgenerate, by rw [← htake]; exact hlists, ?_⟩
  have hmap := Composition.map_packagePath_addAllGenerated hall
  dsimp only at hmap
  rw [hresources, ← List.take_append_drop s.files.length p.resources, List.map_append,
    ← htake] at hmap
  exact List.append_cancel_left hmap

theorem getElem?_zip_placed {k : Nat} {f : ContentFile} {q : Placed} (hf : s.files[k]? = some f)
    (hq : placed[k]? = some q) : (s.files.zip (placed.map Placed.path))[k]? = some (f, q.path) := by
  rw [List.getElem?_zip_eq_some, hf, List.getElem?_map, hq]
  exact ⟨rfl, rfl⟩

theorem Built.exists_listed (h : a.Built s placed before after directory name sink p)
    (hplaced : Placement.resolve a.specification.policy s.placements = .ok placed) {k : Nat}
    {f : ContentFile} {q : Placed} (hf : s.files[k]? = some f) (hq : placed[k]? = some q) :
    ∃ r, p.resources[k]? = some r ∧ Composition.Lists r (f, q.path) := by
  obtain ⟨generated, -, hlists, -⟩ := h.paths hplaced
  obtain ⟨hlength, hall⟩ := List.forall₂_iff_get.1 hlists
  obtain ⟨hk, hget⟩ := List.getElem?_eq_some_iff.1 (getElem?_zip_placed hf hq)
  have hlisted := hall k (hlength ▸ hk) hk
  rw [List.get_eq_getElem, List.get_eq_getElem, hget, List.getElem_take] at hlisted
  exact ⟨_, List.getElem?_eq_getElem _, hlisted⟩

/-- The registered specifications generate exactly the files whose paths they reserve, and these are
in normal form and do not clash. Under every specification that keeps to reserved paths, a package
holds no two files that clash, be they content or generated: every content file stands at the path
that was found for it, under its name and role, and every generated file stands at its reserved
path, however the content files are named. -/
theorem package_paths_clear :
    (∀ spec ∈ Specification.registered, spec.KeepsToReserved ∧ spec.FillsReserved) ∧
    ∀ {a : Assembler} {s : Submission} {before after : Surroundings} {p : PackageStream},
      a.specification.KeepsToReserved →
      (a.assemble s : StateM Surroundings _).run before = (.ok p, after) →
      ∃ placed generated,
        Placement.resolve a.specification.policy s.placements = .ok placed ∧
        a.specification.generate s (p.resources.take s.files.length) = .ok generated ∧
        p.resources.Pairwise (fun q r => ¬ Clash q.packagePath.toList r.packagePath.toList) ∧
        placed.map Placed.name = s.files.map ContentFile.name ∧
        List.Forall₂ Composition.Lists (p.resources.take s.files.length)
          (s.files.zip (placed.map Placed.path)) ∧
        (p.resources.drop s.files.length).map Resource.packagePath =
          generated.files.map Prod.fst ∧
        ∀ r ∈ p.resources.drop s.files.length,
          r.packagePath ∈ a.specification.policy.reserved := by
  refine ⟨fun spec hspec => ⟨Specification.keepsToReserved_of_registered hspec,
    Specification.fillsReserved_of_registered hspec⟩, ?_⟩
  intro a s before after p hkeeps h
  rcases a.assemble_cases s before with ⟨failure, later, hrun, -⟩ |
    ⟨placed, q, later, directory, name, sink, hrun, -, hplaced, -, hbuilt⟩
  · cases h.symm.trans hrun
  · cases h.symm.trans hrun
    obtain ⟨generated, hgenerate, hlists, hdrop⟩ := hbuilt.paths hplaced
    obtain ⟨apart, clear⟩ := Placement.clear_of_resolve hplaced
    have htake : (p.resources.take s.files.length).map Resource.packagePath =
        placed.map Placed.path := by
      rw [Composition.packagePath_eq_of_lists hlists, map_snd_zip_placed hplaced]
    have hnames : placed.map Placed.name = s.files.map ContentFile.name := by
      rw [Placement.map_name_of_resolve hplaced, Submission.placements, List.map_map]
      rfl
    refine ⟨placed, generated, hplaced, hgenerate, ?_, hnames, hlists, hdrop, ?_⟩
    · -- content files among themselves, generated files among themselves, and across
      rw [← List.pairwise_map (f := Resource.packagePath)
          (R := fun q r => ¬ Clash q.toList r.toList),
        ← List.take_append_drop s.files.length p.resources, List.map_append, htake, hdrop,
        List.pairwise_append]
      refine ⟨List.pairwise_map.2 apart, List.pairwise_map.2 (hkeeps.apart hgenerate), ?_⟩
      intro path hpath other hother
      obtain ⟨place, hplace, rfl⟩ := List.mem_map.1 hpath
      obtain ⟨f, hf, rfl⟩ := List.mem_map.1 hother
      exact clear place hplace _ (Placement.mem_reservedPaths.2
        ⟨f.1, hkeeps.reserved hgenerate f hf, f.1, hkeeps.normal hgenerate f hf, rfl⟩)
    · intro r hr
      have hpath : r.packagePath ∈ generated.files.map Prod.fst := by
        rw [← hdrop]
        exact List.mem_map_of_mem hr
      obtain ⟨f, hf, heq⟩ := List.mem_map.1 hpath
      rw [← heq]
      exact hkeeps.reserved hgenerate f hf

theorem supportedAlgorithms_usual :
    supportedAlgorithms {} ["sha256", "md5"] = .ok [.sha256, .md5] := rfl

def bulkAssembler : Assembler where
  specification := Specification.nihms
  options := {}
  algorithms := [.sha256, .md5]
  supported := supportedAlgorithms_usual

def crowd : Submission where
  id := "crowd"
  files :=
    [{ name := "manuscript", role := .figure, opened := .ok { bytes := [1] }, size := some 1 },
     { name := "Manifest.TXT", role := .manuscript, opened := .ok { bytes := [2] }, size := none },
     { name := "old/Bulk_Meta.xml", role := .table, opened := .ok { bytes := [] }, size := some 0 }]
  metadata := [("title", "A crowd")]

theorem package_paths_clear_crowd :
    ∃ p after, (bulkAssembler.assemble crowd : StateM Surroundings _).run emptyDesk =
        (.ok p, after) ∧
      p.resources.map Resource.packagePath =
        ["manuscript", "manuscript-1/Manifest.TXT", "table/Bulk_Meta.xml", "manifest.txt",
          "bulk_meta.xml"] ∧
      p.resources.Pairwise (fun q r => ¬ Clash q.packagePath.toList r.packagePath.toList) ∧
      ∀ r ∈ p.resources.drop 3, r.packagePath ∈ ["manifest.txt", "bulk_meta.xml"] := by
  have hreturns : Surroundings.returns (bulkAssembler.assemble crowd) emptyDesk (fun p =>
      decide (p.resources.map Resource.packagePath =
        ["manuscript", "manuscript-1/Manifest.TXT", "table/Bulk_Meta.xml", "manifest.txt",
          "bulk_meta.xml"])) = true := by
    decide +kernel
  obtain ⟨p, after, hrun, hpaths⟩ := Surroundings.run_of_returns hreturns
  obtain ⟨hregistered, hclear⟩ := package_paths_clear
  have hkeeps := (hregistered Specification.nihms (by simp [Specification.registered])).1
  obtain ⟨placed, generated, -, -, hapart, -, -, -, hreserved⟩ := hclear hkeeps hrun
  exact ⟨p, after, hrun, of_decide_eq_true hpaths, hapart, hreserved⟩

end Assembler

end Deposit
