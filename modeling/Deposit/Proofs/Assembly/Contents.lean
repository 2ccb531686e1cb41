import Deposit.Proofs.Assembly.Failure
import Deposit.Proofs.Assembly.FileList
import Deposit.Proofs.Assembly.Names
import Deposit.Proofs.Package.Stream

set_option autoImplicit false
set_option relaxedAutoImplicit false

/-!
The files of a package in the order of its archive: the content files under their names and roles,
and behind them what the specification has generated, each described by its bytes. Assembling them
gives notices, but warns of nothing. No two content files share a name, and generated files go by
their paths; so a content file is found under its name even if a generated file or another content
file lies at a path that reads the same, and nothing is found only for names that no file goes by.
-/

namespace Deposit

namespace Composition

variable {plan : PackagingPlan} {submission : String} {c d : Composition}

private theorem exists_of_addAllGenerated {files : List (String × Bytes)}
    (h : addAllGenerated plan submission c files = (d, none)) :
    ∃ rs, d.resources = c.resources ++ rs ∧
      ∀ r ∈ rs, r.role = none ∧ r.originalName = r.packagePath := by
  induction files generalizing c with
  | nil =>
    obtain rfl : c = d := congrArg Prod.fst h
    exact ⟨[], (List.append_nil _).symm, by simp⟩
  | cons file files ih =>
    unfold addAllGenerated at h
    split at h
    · cases h
    · rename_i e heq
      obtain ⟨-, -, hresources⟩ := addGenerated_eq_none heq
      obtain ⟨rs, hrs, hall⟩ := ih h
      rw [hresources, List.append_assoc, List.singleton_append] at hrs
      exact ⟨_, hrs, List.forall_mem_cons.2 ⟨⟨rfl, rfl⟩, hall⟩⟩

private theorem originalName_eq_of_lists {rs : List Resource}
    {items : List (ContentFile × String)} (h : List.Forall₂ Lists rs items)
    (hnames : ∀ i ∈ items, i.1.name ≠ "") :
    rs.map Resource.originalName = items.map fun i => i.1.name := by
  induction h with
  | nil => rfl
  | cons first _ ih =>
    rw [List.forall_mem_cons] at hnames
    rw [List.map_cons, List.map_cons, ih hnames.2, first.name_eq, if_neg hnames.1]

end Composition

namespace Assembler

open Specification (Nihms.listPath Nihms.metadataPath)

/-- What a package of a submission holds, given the bytes of its content files: these files and
then those that the specification has generated, in the order of the archive, each under its
description. -/
structure Packages (a : Assembler) (s : Submission) (p : PackageStream) (bytes : Bytes)
    (contents : List Bytes) (generated : Generated) : Prop where
  generates : a.specification.generate s (p.resources.take s.files.length) = .ok generated
  content : List.Forall₂ (fun r (f : ContentFile) => r.originalName = f.name ∧ r.role = some f.role)
    (p.resources.take s.files.length) s.files
  added : (p.resources.drop s.files.length).map Resource.packagePath =
      generated.files.map Prod.fst ∧
    ∀ r ∈ p.resources.drop s.files.length, r.role = none ∧ r.originalName = r.packagePath
  described : List.Forall₂ (fun r content => r.sizeBytes = (content.length : Int) ∧
      a.library.Describes a.options.algorithms r.checksums content)
    p.resources (contents ++ generated.files.map Prod.snd)
  archived : ∃ archived, bytes = a.compression.encode archived ∧
    Archive.read? a.archive archived =
      some ((p.resources.zip (contents ++ generated.files.map Prod.snd)).map fun e =>
        (Archive.storedName? a.archive e.1.packagePath, e.2))

variable {a : Assembler} {s : Submission} {placed : List Placed} {directory : List String}
  {sink : Recorder} {p : PackageStream}

private theorem Built.exists_added {before after : Disk} {name : String}
    (h : a.Built s placed before after directory name sink p)
    (hplaced : Placement.resolve a.specification.policy s.placements = .ok placed) :
    ∀ r ∈ p.resources.drop s.files.length, r.role = none ∧ r.originalName = r.packagePath := by
  obtain ⟨c, d, generated, -, -, hall, htake, -, -, hresources, -⟩ := h.parts hplaced
  obtain ⟨rs, hrs, hadded⟩ := Composition.exists_of_addAllGenerated hall
  dsimp only at hrs
  rw [hresources, htake] at hrs
  have hdrop : rs = p.resources.drop s.files.length :=
    List.append_cancel_left (hrs.symm.trans (List.take_append_drop _ _).symm)
  rwa [← hdrop]

/-- The files of a package that has been built, when each content file has a name and its declared
size is not negative. -/
theorem Built.packages {before after : Disk} {name : String}
    (h : a.Built s placed before after directory name sink p)
    (hrefusal : a.refusal? s = none)
    (hplaced : Placement.resolve a.specification.policy s.placements = .ok placed)
    (hnames : ∀ f ∈ s.files, f.name ≠ "") (hsizes : SizesNonneg s) :
    ∃ (sources : List Source) (generated : Generated),
      s.files.map ContentFile.opened = sources.map Except.ok ∧
      a.Packages s p sink.output (sources.map Source.bytes) generated := by
  obtain ⟨generated', hgenerate', hlists, hdrop⟩ := h.paths hplaced
  obtain ⟨d, hfollows, hclose, hresources, hsink, hpacks⟩ := h.layers hplaced
  obtain ⟨sources, generated, hopened, hgenerate, hd⟩ := hpacks hsizes
  obtain rfl : generated' = generated := Except.ok.inj (hgenerate'.symm.trans hgenerate)
  have hlength : placed.length = sources.length := by
    rw [length_placed hplaced]
    simpa using congrArg List.length hopened
  have hcontents : ((placed.map Placed.path).zip (sources.map Source.bytes) ++
      generated'.files).map Prod.snd =
        sources.map Source.bytes ++ generated'.files.map Prod.snd := by
    rw [List.map_append, List.map_snd_zip (by simp [hlength])]
  have hne : (placed.map Placed.path).zip (sources.map Source.bytes) ++ generated'.files ≠ [] := by
    intro hnil
    have hcount := congrArg List.length (List.append_eq_nil_iff.1 hnil).1
    rw [List.length_zip, List.length_map, List.length_map, ← hlength, Nat.min_self,
      length_placed hplaced] at hcount
    exact files_ne_nil_of_refusal hrefusal (List.length_eq_zero_iff.1 hcount)
  have hdepicted := a.depicts_of_supported hd.depicted
  rw [hresources] at hdepicted
  obtain ⟨hout, -⟩ := hfollows.sound.close
  rw [hsink, hfollows.compression_eq] at hout
  have hread := hd.holds.read?_close_stored hne hclose
  rw [hfollows.format_eq] at hread
  refine ⟨sources, generated', hopened, hgenerate, ?_, ⟨hdrop, h.exists_added hplaced⟩, ?_, _,
    hout, ?_⟩
  · have hfiles := map_fst_zip_placed hplaced
    have hnamed : ∀ i ∈ s.files.zip (placed.map Placed.path), i.1.name ≠ "" := fun i hi =>
      hnames i.1 (by rw [← hfiles]; exact List.mem_map_of_mem hi)
    have hcontent : List.Forall₂ (fun r (f : ContentFile) => r.originalName = f.name ∧
        r.role = some f.role) (p.resources.take s.files.length)
          ((s.files.zip (placed.map Placed.path)).map Prod.fst) := by
      rw [List.forall₂_map_right_iff]
      exact ((List.forall₂_and_left _ _).2 ⟨hnamed, hlists.flip⟩).flip.imp fun r i hr =>
        ⟨hr.2.name_eq.trans (if_neg hr.1), hr.2.role_eq⟩
    rwa [hfiles] at hcontent
  · rw [← hcontents, List.forall₂_map_right_iff]
    exact hdepicted.imp fun r e hr => ⟨hr.size_eq, hr.checksums⟩
  · rw [← hcontents, Composition.zip_of_depicts hdepicted]
    exact hread

/-- The directory for the temporary file of a package. -/
def HasTemporaryDirectory (a : Assembler) (before : Surroundings) (directory : List String) :
    Prop :=
  before.disk.find (Location.resolve before.disk.workingDirectory
    (a.options.temporaryDirectory.getD before.temporaryDirectory)) = .ok (directory, .directory)

private theorem Built.temporary_of_run_build {before after : Surroundings} {name : String}
    (hbuilt : a.Built s placed before.disk after.disk directory name sink p)
    (h : (a.build s placed : StateM Surroundings _).run before = (.ok p, after)) :
    a.HasTemporaryDirectory before directory ∧ ∃ n, name = Disk.temporaryName n := by
  obtain ⟨c, d, hwrote, -⟩ := hbuilt.composed
  have hcompose := run_compose_of_wrote hwrote
  cases hcreate : before.disk.createTemporary
      (a.options.temporaryDirectory.getD before.temporaryDirectory) with
  | error fault =>
    unfold build at h
    rw [Surroundings.run_bind_of_run (Surroundings.run_createTemporary_of_error hcreate)] at h
    cases h
  | ok created =>
    obtain ⟨place, disk⟩ := created
    obtain ⟨folder, n, hfind, hfresh, rfl⟩ := Disk.createTemporary_eq_ok hcreate
    rw [a.run_build s placed hcreate hfresh (hcompose _)] at h
    split at h
    · cases h
    · cases h
      -- the package lies where the temporary file was created
      have hkey := Except.ok.inj (hbuilt.fresh.locate_eq.symm.trans hfresh.locate_eq)
      obtain ⟨rfl, hname⟩ := List.append_inj' hkey rfl
      exact ⟨hfind, n, List.singleton_inj.1 hname⟩

/-- What a run of the assembler that returns a package has done: the package has been built, beside
notices that warn of nothing. -/
theorem run_assemble_eq_ok {before after : Surroundings}
    (h : (a.assemble s : StateM Surroundings _).run before = (.ok p, after)) :
    ∃ placed directory n sink notices, a.refusal? s = none ∧
      Placement.resolve a.specification.policy s.placements = .ok placed ∧
      a.HasTemporaryDirectory before directory ∧
      a.Built s placed before.disk after.disk directory (Disk.temporaryName n) sink p ∧
      after.log = notices ++ before.log ∧ ∀ x ∈ notices, x.level ≠ .warning := by
  obtain ⟨placed, directory, name, sink, hrefusal, hplaced, hbuilt⟩ := built_of_run h
  obtain ⟨notices, hlog, hquiet⟩ :
      ∃ notices, ((a.assemble s : StateM Surroundings _).run before).2.log =
        notices ++ before.log ∧ ∀ x ∈ notices, x.level ≠ .warning :=
    a.adds_assemble s (fun _ => nofun) (fun _ => nofun) before
  rw [h] at hlog
  rw [run_assemble_of_placed hrefusal hplaced] at h
  have hopened : a.Built s placed
      { before with log := a.openingNotices s ++ before.log }.disk after.disk directory name sink
      p := hbuilt
  obtain ⟨htemporary, n, rfl⟩ := hopened.temporary_of_run_build h
  exact ⟨placed, directory, n, sink, notices, hrefusal, hplaced, htemporary, hbuilt, hlog, hquiet⟩

private theorem Built.map_originalName {placed : List Placed} {before after : Disk}
    {directory : List String} {name : String} {sink : Recorder}
    (h : a.Built s placed before after directory name sink p)
    (hplaced : Placement.resolve a.specification.policy s.placements = .ok placed)
    (hnames : ∀ f ∈ s.files, f.name ≠ "") :
    ∃ generated, a.specification.generate s (p.resources.take s.files.length) = .ok generated ∧
      (p.resources.take s.files.length).map Resource.originalName =
        s.files.map ContentFile.name ∧
      (p.resources.drop s.files.length).map Resource.originalName =
        generated.files.map Prod.fst := by
  obtain ⟨generated, hgenerate, hlists, hdrop⟩ := h.paths hplaced
  have hfiles := map_fst_zip_placed hplaced
  have hnamed : ∀ i ∈ s.files.zip (placed.map Placed.path), i.1.name ≠ "" := fun i hi =>
    hnames i.1 (List.of_mem_zip hi).1
  refine ⟨generated, hgenerate, ?_, ?_⟩
  · rw [Composition.originalName_eq_of_lists hlists hnamed]
    conv_rhs => rw [← hfiles, List.map_map]
    rfl
  · rw [← hdrop]
    exact List.map_congr_left fun r hr => (h.exists_added hplaced r hr).2

/-- In every package of a submission whose files have names, whatever the specification, each
content file is found under its name, with its role and at the path that was found for it. Looking
up a name fails, and says which, exactly if it is neither the name of a content file nor the path of
a generated one; and what is found under any other name is the generated file with this path. -/
theorem lookup_finds_content {before after : Surroundings}
    (h : (a.assemble s : StateM Surroundings _).run before = (.ok p, after))
    (hnames : ∀ f ∈ s.files, f.name ≠ "") :
    ∃ (placed : List Placed) (generated : Generated),
      Placement.resolve a.specification.policy s.placements = .ok placed ∧
      a.specification.generate s (p.resources.take s.files.length) = .ok generated ∧
      (∀ (k : Nat) (f : ContentFile), s.files[k]? = some f → ∃ q r,
        placed[k]? = some q ∧ q.name = f.name ∧ p.resources[k]? = some r ∧
        p.resource f.name = .ok r ∧ r.originalName = f.name ∧ r.role = some f.role ∧
        r.packagePath = q.path) ∧
      (∀ name fault, p.resource name = .error fault ↔ fault = .unknownResource name ∧
        name ∉ s.files.map ContentFile.name ∧ name ∉ generated.files.map Prod.fst) ∧
      ∀ name r, p.resource name = .ok r → name ∉ s.files.map ContentFile.name →
        r.role = none ∧ r.packagePath = name := by
  obtain ⟨placed, directory, name, sink, hrefusal, hplaced, hbuilt⟩ := built_of_run h
  obtain ⟨generated, hgenerate, hcontents, hadded⟩ := hbuilt.map_originalName hplaced hnames
  have hnamed : p.resources.map Resource.originalName =
      s.files.map ContentFile.name ++ generated.files.map Prod.fst := by
    rw [← hcontents, ← hadded, ← List.map_append, List.take_append_drop]
  have hplacements : s.placements.map Prod.fst = s.files.map ContentFile.name := by
    rw [Submission.placements, List.map_map]
    rfl
  have hnodup : (s.files.map ContentFile.name).Nodup := by
    rw [← hplacements]
    exact Placement.nodup_of_resolve hplaced
  refine ⟨placed, generated, hplaced, hgenerate, ?content, ?missing, ?other⟩
  case content =>
    intro k f hf
    obtain ⟨hk, -⟩ := List.getElem?_eq_some_iff.1 hf
    rw [← length_placed hplaced] at hk
    have hq : placed[k]? = some placed[k] := List.getElem?_eq_getElem hk
    have hname : (s.files.map ContentFile.name)[k]? = some f.name := by
      rw [List.getElem?_map, hf]
      rfl
    have hsame : placed[k].name = f.name := by
      have hplace := congrArg (·[k]?) (Placement.map_name_of_resolve hplaced)
      rw [hplacements, hname, List.getElem?_map, hq] at hplace
      exact Option.some.inj hplace
    obtain ⟨r, hr, hlisted⟩ := hbuilt.exists_listed hplaced hf hq
    have horiginal : r.originalName = f.name :=
      hlisted.name_eq.trans (if_neg (hnames f (List.mem_of_getElem? hf)))
    exact ⟨_, r, hq, hsame, hr, PackageStream.resource_of_nodup hnamed hnodup hname hr, horiginal,
      hlisted.role_eq, hlisted.path_eq⟩
  case missing =>
    intro name fault
    rw [PackageStream.resource_eq_error_iff, hnamed, List.mem_append, not_or]
  case other =>
    intro name r hr hother
    obtain ⟨hfound, earlier, later, hsplit, -⟩ := PackageStream.resource_eq_ok_iff.1 hr
    have hmem : r ∈ p.resources := by
      rw [hsplit]
      exact List.mem_append_right _ List.mem_cons_self
    rw [← List.take_append_drop s.files.length p.resources, List.mem_append] at hmem
    rcases hmem with hcontent | hgenerated
    · rw [← hcontents, ← hfound] at hother
      exact absurd (List.mem_map_of_mem hcontent) hother
    · obtain ⟨hrole, hpath⟩ := hbuilt.exists_added hplaced r hgenerated
      exact ⟨hrole, hpath.symm.trans hfound⟩

def namesakes : Submission where
  id := "namesakes"
  files :=
    [{ name := "manifest.txt", role := .table, opened := .ok { bytes := [1] }, size := some 1 },
     { name := "table/manifest.txt", role := .manuscript, opened := .ok { bytes := [2] },
       size := some 1 }]
  metadata := [("title", "Namesakes")]

theorem lookup_finds_namesakes :
    ∃ p after first second,
      (plainBulkAssembler.assemble namesakes : StateM Surroundings _).run emptyDesk =
        (.ok p, after) ∧
      p.resource "manifest.txt" = .ok first ∧ first.role = some .table ∧
      first.packagePath = "table/manifest.txt" ∧
      p.resource "table/manifest.txt" = .ok second ∧ second.role = some .manuscript ∧
      second.packagePath = "manuscript/manifest.txt" ∧
      p.resource "manuscript/manifest.txt" =
        .error (.unknownResource "manuscript/manifest.txt") := by
  have hreturns : Surroundings.returns (plainBulkAssembler.assemble namesakes) emptyDesk
      (fun _ => true) = true := by
    decide +kernel
  have hplaced : Placement.resolve plainBulkAssembler.specification.policy namesakes.placements =
      .ok [⟨"manifest.txt", "manifest.txt", "table/manifest.txt"⟩,
        ⟨"table/manifest.txt", "manifest.txt", "manuscript/manifest.txt"⟩] := by
    decide +kernel
  obtain ⟨p, after, hrun, -⟩ := Surroundings.run_of_returns hreturns
  obtain ⟨placed, generated, hresolved, hgenerate, hcontent, hmissing, -⟩ :=
    lookup_finds_content hrun (by decide)
  obtain rfl := Except.ok.inj (hresolved.symm.trans hplaced)
  obtain ⟨q, first, hq, -, -, hfirst, -, hrole, hpath⟩ := hcontent 0 _ rfl
  obtain ⟨q', second, hq', -, -, hsecond, -, hrole', hpath'⟩ := hcontent 1 _ rfl
  obtain rfl := Option.some.inj hq
  obtain rfl := Option.some.inj hq'
  have hlist : Specification.Nihms.generate namesakes (p.resources.take 2) = .ok generated :=
    hgenerate
  obtain ⟨metadata, hfiles⟩ := Specification.Nihms.generate_eq_ok hlist
  refine ⟨p, after, first, second, hrun, hfirst, hrole, hpath, hsecond, hrole', hpath',
    (hmissing _ _).2 ⟨rfl, by decide, ?_⟩⟩
  rw [hfiles]
  simp [Nihms.listPath, Nihms.metadataPath]

end Assembler

end Deposit
