import Deposit.Proofs.Assembly.Depiction
import Deposit.Proofs.Package.NormalForm
import Deposit.Proofs.Placement.Confinement
import Deposit.Proofs.Placement.Order
import Deposit.Proofs.Specification.Listing

set_option autoImplicit false
set_option relaxedAutoImplicit false

/-!
The file list of a package for bulk submission against the package itself. Its lines are made from
the names of the content files and from their paths, as they are; so an importer finds one line for
each content file, with its role, its label and its path, unless a tab or a newline in a name breaks
the line. A label is what stands behind the last slash of a name, but the path proposed for a file
is made from what stands behind the last of either separator: the label is the last segment of that
path exactly if it is not empty and holds no backslash.
-/

namespace Deposit

namespace Specification.Nihms

/-- The fields that the line of a content file is to have. -/
def contentRow (file : ContentFile) (path : String) : List String :=
  [file.role.value, PackagePath.baseName file.name, path]

private theorem map_row_of_lists {rs : List Resource} {items : List (ContentFile × String)}
    (h : List.Forall₂ Composition.Lists rs items) (hnames : ∀ i ∈ items, i.1.name ≠ "") :
    rs.map row = items.map fun i => contentRow i.1 i.2 := by
  induction h with
  | nil => rfl
  | @cons r item rs items first others ih =>
    have hname : r.originalName = item.1.name :=
      first.name_eq.trans (if_neg (hnames item List.mem_cons_self))
    rw [List.map_cons, List.map_cons, ih fun i hi => hnames i (List.mem_cons_of_mem _ hi), row,
      first.role_eq, first.path_eq, hname]
    rfl

private theorem isField_baseName {name : String} (h : IsField name) :
    IsField (PackagePath.baseName name) := by
  rw [IsField, PackagePath.baseName, String.toList_ofList]
  exact ⟨fun hmem => h.1 (PackagePath.mem_of_mem_baseChars hmem),
    fun hmem => h.2 (PackagePath.mem_of_mem_baseChars hmem)⟩

private theorem mem_of_mem_place {name : String} {c : Char} (h : c ∈ (place name).toList) :
    c ∈ name.toList ∨ c = '/' := by
  unfold place at h
  dsimp only at h
  split at h
  · exact Or.inl h
  · rw [String.toList_ofList] at h
    exact PackagePath.mem_of_mem_map_slash (PackagePath.mem_of_mem_baseChars h)

private theorem isField_value (role : Role) : IsField role.value := by
  cases role <;> decide

private theorem isField_of_resolve {files : List (String × Role)} {placed : List Placed}
    (h : Placement.resolve nihms.policy files = .ok placed) (hnames : ∀ f ∈ files, IsField f.1) :
    ∀ p ∈ placed, IsField p.path := by
  have hroute : ∀ c, c = '\t' ∨ c = '\n' → ¬ Placement.IsRouteChar c := by
    rintro c hc (rfl | rfl | hdigit | ⟨role, hrole⟩)
    · simp at hc
    · simp at hc
    · rcases hc with rfl | rfl <;> cases hdigit
    · rcases hc with rfl | rfl
      · exact (isField_value role).1 hrole
      · exact (isField_value role).2 hrole
  have hfree : ∀ p ∈ placed, ∀ c, c = '\t' ∨ c = '\n' → (∀ f ∈ files, c ∉ f.1.toList) →
      c ∉ p.path.toList := by
    intro p hp c hc hfiles hmem
    rcases Placement.mem_of_resolve h p hp c hmem with ⟨f, hf, hplace⟩ | hr
    · rcases mem_of_mem_place hplace with hname | rfl
      · exact hfiles f hf hname
      · simp at hc
    · exact hroute c hc hr
  intro p hp
  exact ⟨hfree p hp '\t' (Or.inl rfl) fun f hf => (hnames f hf).1,
    hfree p hp '\n' (Or.inr rfl) fun f hf => (hnames f hf).2⟩

private theorem name_ne_empty_of_resolve {files : List (String × Role)} {placed : List Placed}
    (h : Placement.resolve nihms.policy files = .ok placed) : ∀ f ∈ files, f.1 ≠ "" :=
  name_ne_empty_of_registered (by simp [registered]) h

private theorem isField_contentRow {s : Submission} {placed : List Placed}
    (h : Placement.resolve nihms.policy s.placements = .ok placed)
    (hnames : ∀ f ∈ s.files, IsField f.name) :
    ∀ i ∈ s.files.zip (placed.map Placed.path), ∀ field ∈ contentRow i.1 i.2, IsField field := by
  intro i hi field hfield
  obtain ⟨hfile, hpath⟩ := List.of_mem_zip hi
  obtain ⟨q, hq, hpath⟩ := List.mem_map.1 hpath
  simp only [contentRow, List.mem_cons, List.not_mem_nil, or_false] at hfield
  rcases hfield with rfl | rfl | rfl
  · exact isField_value i.1.role
  · exact isField_baseName (hnames i.1 hfile)
  · rw [← hpath]
    refine isField_of_resolve h ?_ q hq
    intro f hf
    obtain ⟨file, hmem, rfl⟩ := List.mem_map.1 hf
    exact hnames file hmem

theorem generate_eq_ok {s : Submission} {rs : List Resource} {generated : Generated}
    (h : generate s rs = .ok generated) :
    ∃ metadata, generated.files = [(listPath, fileList rs), (metadataPath, metadata)] := by
  unfold generate at h
  split at h
  · cases h
  · split at h
    · obtain rfl := Except.ok.inj h
      exact ⟨_, rfl⟩
    · cases h

open PackagePath (baseChars baseName normalize?)

variable {name proposed : String}

private theorem baseName_eq_iff (h : normalize? (place name) = some proposed) :
    baseName proposed ≠ "" ∧
      (baseName name = baseName proposed ↔
        baseName name ≠ "" ∧ '\\' ∉ (baseName name).toList) := by
  have hnormal := PackagePath.isNormal_of_normalize? h
  have hempty : baseName proposed ≠ "" := by
    intro hempty
    have husable := hnormal.isUsable_baseChars
    rw [← String.toList_ofList (l := baseChars proposed.toList)] at husable
    rw [show String.ofList (baseChars proposed.toList) = "" from hempty] at husable
    cases husable
  refine ⟨hempty, fun hsame => ?_, fun ⟨hlabel, hback⟩ => ?_⟩
  · refine ⟨hsame ▸ hempty, ?_⟩
    rw [hsame, baseName, String.toList_ofList]
    exact hnormal.baseChars.backslash
  · -- nothing but the label is placed
    rw [baseName, String.toList_ofList] at hback
    have hbase := PackagePath.baseChars_map_slash_eq_iff.2 hback
    have hfound : place name = String.ofList (baseChars name.toList) := by
      unfold place
      dsimp only
      rw [hbase]
      exact if_neg fun hnil => hlabel (by rw [baseName, hnil])
    rw [hfound] at h
    have hproposed := PackagePath.toList_of_normalize?_ofList
      (PackagePath.slash_not_mem_baseChars _) hback h
    rw [baseName, baseName, hproposed,
      PackagePath.baseChars_of_slash_not_mem (PackagePath.slash_not_mem_baseChars _)]

end Specification.Nihms

namespace Assembler

open PackagePath (baseName normalize?)
open Placement (Route)
open Specification (Nihms.place Nihms.listPath Nihms.metadataPath Nihms.fileList Nihms.contentRow
  Nihms.rows? Nihms.IsField)

variable {a : Assembler} {s : Submission} {p : PackageStream} {before after : Surroundings}

private theorem list_in_archive (hspec : a.specification = Specification.nihms)
    (h : (a.assemble s : StateM Surroundings _).run before = (.ok p, after))
    {decompress : Bytes → Option Bytes}
    (hdecompress : ∀ bs, decompress (a.compression.encode bs) = some bs) :
    ∃ (bytes archived metadata : Bytes) (placed : List Placed) (sources : List Source)
        (files : List (String × Bytes)),
      Placement.resolve a.specification.policy s.placements = .ok placed ∧
      s.files.map ContentFile.opened = sources.map Except.ok ∧
      files = (placed.map Placed.path).zip (sources.map Source.bytes) ∧
      files.map Prod.fst = placed.map Placed.path ∧
      List.Forall₂ Composition.Lists (p.resources.take s.files.length)
        (s.files.zip (files.map Prod.fst)) ∧
      p.resources.map Resource.packagePath =
        files.map Prod.fst ++ [Nihms.listPath, Nihms.metadataPath] ∧
      (p.open : StateM Surroundings _).run after = (.ok (.start bytes), after) ∧
      decompress bytes = some archived ∧
      (a.archive = .tar → ∃ body k, archived = body ++ Bytes.zeros k ∧
        Archive.Tar.Laid (files ++
          [(Nihms.listPath, Nihms.fileList (p.resources.take s.files.length)),
           (Nihms.metadataPath, metadata)]) body) ∧
      ((a.archive = .tar → SizesNonneg s) → Archive.read? a.archive archived =
        some ((files ++ [(Nihms.listPath, Nihms.fileList (p.resources.take s.files.length)),
            (Nihms.metadataPath, metadata)]).map
          fun e => (Archive.storedName? a.archive e.1, e.2))) := by
  obtain ⟨placed, directory, name, sink, hrefusal, hplaced, hbuilt⟩ := built_of_run h
  obtain ⟨archived, sources, generated, hdecoded, hopened, hgenerate, hpaths, -, hlaid, hread⟩ :=
    hbuilt.carries hrefusal hplaced hdecompress
  obtain ⟨-, -, hlists, -⟩ := hbuilt.paths hplaced
  rw [hspec] at hgenerate
  obtain ⟨metadata, hfiles⟩ := Specification.Nihms.generate_eq_ok hgenerate
  rw [hfiles] at hlaid hread hpaths
  have hfirst := map_fst_zip_opened hplaced hopened
  refine ⟨sink.output, archived, metadata, placed, sources, _, hplaced, hopened, rfl, hfirst,
    hfirst.symm ▸ hlists, hfirst.symm ▸ hpaths, hbuilt.run_open, hdecoded, hlaid, hread⟩

/-- Whatever the archive and the compression, a package for bulk submission is found to hold the
content files with all their bytes, under the paths found for them, and behind them a list of them.
A reader who takes the list apart at newlines and tabs finds one line for each content file, in the
order of the submission, with its role, its label and its path, exactly if none of these texts holds
a tab or a newline; and if no file name holds one, this is always so. -/
theorem list_names_content_files (hspec : a.specification = Specification.nihms)
    (h : (a.assemble s : StateM Surroundings _).run before = (.ok p, after))
    {decompress : Bytes → Option Bytes}
    (hdecompress : ∀ bs, decompress (a.compression.encode bs) = some bs) :
    ∃ (bytes archived list metadata : Bytes) (placed : List Placed) (sources : List Source)
        (files : List (String × Bytes)) (rows : List (List String)),
      Placement.resolve a.specification.policy s.placements = .ok placed ∧
      s.files.map ContentFile.opened = sources.map Except.ok ∧
      files = (placed.map Placed.path).zip (sources.map Source.bytes) ∧
      p.resources.map Resource.packagePath =
        files.map Prod.fst ++ [Nihms.listPath, Nihms.metadataPath] ∧
      (p.open : StateM Surroundings _).run after = (.ok (.start bytes), after) ∧
      decompress bytes = some archived ∧
      (a.archive = .tar → ∃ body k, archived = body ++ Bytes.zeros k ∧
        Archive.Tar.Laid
          (files ++ [(Nihms.listPath, list), (Nihms.metadataPath, metadata)]) body) ∧
      ((a.archive = .tar → SizesNonneg s) → Archive.read? a.archive archived =
        some ((files ++ [(Nihms.listPath, list), (Nihms.metadataPath, metadata)]).map
          fun e => (Archive.storedName? a.archive e.1, e.2))) ∧
      (∀ e ∈ files, '\x00' ∉ e.1.toList → Archive.storedName? a.archive e.1 = some e.1) ∧
      rows = (s.files.zip (files.map Prod.fst)).map (fun i => Nihms.contentRow i.1 i.2) ∧
      rows.length = s.files.length ∧
      (Nihms.rows? list = some rows ↔ ∀ row ∈ rows, ∀ field ∈ row, Nihms.IsField field) ∧
      ((∀ f ∈ s.files, Nihms.IsField f.name) → Nihms.rows? list = some rows) := by
  obtain ⟨bytes, archived, metadata, placed, sources, files, hplaced, hopened, hfiles, hpaths,
    hlists, hresources, hopen, hdecoded, hlaid, hread⟩ := list_in_archive hspec h hdecompress
  rw [hspec] at hplaced
  have harchive : a.archive ≠ .none := by
    intro hnone
    have htar : ¬ a.archive = .tar := by
      rw [hnone]
      decide
    exact Archive.ne_none_of_read? (hread fun h => absurd h htar) (by simp) hnone
  have hcount : (s.files.zip (files.map Prod.fst)).length = s.files.length := by
    rw [hpaths]
    simp [← length_placed (a := a) (hspec ▸ hplaced)]
  have hnames : ∀ i ∈ s.files.zip (files.map Prod.fst), i.1.name ≠ "" := by
    intro i hi
    exact Specification.Nihms.name_ne_empty_of_resolve hplaced (i.1.name, i.1.role)
      (List.mem_map_of_mem (List.of_mem_zip hi).1)
  have hrows := Specification.Nihms.map_row_of_lists hlists hnames
  have hiff := Specification.Nihms.rows?_fileList_iff (p.resources.take s.files.length)
  rw [hrows] at hiff
  have hforall : (∀ r ∈ p.resources.take s.files.length,
      ∀ field ∈ Specification.Nihms.row r, Nihms.IsField field) ↔
      ∀ row ∈ (s.files.zip (files.map Prod.fst)).map (fun i => Nihms.contentRow i.1 i.2),
        ∀ field ∈ row, Nihms.IsField field := by
    rw [← hrows, List.forall_mem_map]
  rw [hforall] at hiff
  refine ⟨bytes, archived, _, metadata, placed, sources, files, _, hspec ▸ hplaced, hopened, hfiles,
    hresources, hopen, hdecoded, hlaid, hread, ?_, rfl, by rw [List.length_map, hcount], hiff,
    fun hfields => hiff.2 ?_⟩
  · intro e _ hplain
    exact (Archive.storedName?_eq_some_iff harchive).2 (Or.inl hplain)
  · intro row hrow
    obtain ⟨i, hi, rfl⟩ := List.mem_map.1 hrow
    rw [hpaths] at hi
    exact Specification.Nihms.isField_contentRow hplaced hfields i hi

/-- An assembler for bulk submission without compression. -/
def plainBulkAssembler : Assembler where
  specification := Specification.nihms
  options := { archive := some .tar, compression := some .none }
  algorithms := [.sha256, .md5]
  supported := supportedAlgorithms_usual

/-- A manuscript whose table goes by the name of the list. -/
def paper : Submission where
  id := "paper"
  files :=
    [{ name := "paper.pdf", role := .manuscript, opened := .ok { bytes := [1] }, size := some 1 },
     { name := "old/manifest.txt", role := .table, opened := .ok { bytes := [] }, size := none }]
  metadata := [("title", "A paper")]

theorem list_names_paper :
    ∃ p after bytes list metadata,
      (plainBulkAssembler.assemble paper : StateM Surroundings _).run emptyDesk = (.ok p, after) ∧
      (p.open : StateM Surroundings _).run after = (.ok (.start bytes), after) ∧
      Archive.read? .tar bytes =
        some [(some "paper.pdf", [1]), (some "table/manifest.txt", []),
          (some "manifest.txt", list), (some "bulk_meta.xml", metadata)] ∧
      Nihms.rows? list =
        some [["manuscript", "paper.pdf", "paper.pdf"],
          ["table", "manifest.txt", "table/manifest.txt"]] := by
  have hreturns : Surroundings.returns (plainBulkAssembler.assemble paper) emptyDesk
      (fun _ => true) = true := by
    decide +kernel
  have hplaced : Placement.resolve plainBulkAssembler.specification.policy paper.placements =
      .ok [⟨"paper.pdf", "paper.pdf", "paper.pdf"⟩,
        ⟨"old/manifest.txt", "manifest.txt", "table/manifest.txt"⟩] := by
    decide +kernel
  have hsizes : SizesNonneg paper := by decide
  have hfields : ∀ f ∈ paper.files, Nihms.IsField f.name := by decide
  obtain ⟨p, after, hrun, -⟩ := Surroundings.run_of_returns hreturns
  obtain ⟨bytes, archived, list, metadata, placed, sources, files, rows, hresolved, hopened, hfiles,
    -, hopen, hdecoded, -, hread, -, hrows, -, -, hlist⟩ :=
    list_names_content_files rfl hrun fun bs => Eq.refl (some bs)
  obtain rfl := Except.ok.inj (hresolved.symm.trans hplaced)
  obtain rfl : [{ bytes := [1] }, { bytes := [] }] = sources :=
    List.map_injective_iff.2 (fun _ _ => Except.ok.inj) hopened
  obtain rfl := Option.some.inj hdecoded
  subst hfiles hrows
  have hstored : ∀ name ∈ ["paper.pdf", "table/manifest.txt", "manifest.txt", "bulk_meta.xml"],
      Archive.storedName? .tar name = some name := by
    decide +kernel
  have hentries : Archive.read? .tar bytes =
      some [(Archive.storedName? .tar "paper.pdf", [1]),
        (Archive.storedName? .tar "table/manifest.txt", []),
        (Archive.storedName? .tar "manifest.txt", list),
        (Archive.storedName? .tar "bulk_meta.xml", metadata)] := hread fun _ => hsizes
  rw [hstored _ (by simp), hstored _ (by simp), hstored _ (by simp), hstored _ (by simp)]
    at hentries
  exact ⟨p, after, bytes, list, metadata, hrun, hopen, hentries, hlist hfields⟩

def tabbed : Submission where
  id := "sub-1"
  files :=
    [{ name := "a\tb.txt"
       role := .manuscript
       opened := .ok { bytes := Bytes.ofText "abcdef" }
       size := some 6 }]
  metadata := [("title", "T")]

/-- The line of the file has five fields, none of them its label or its path. -/
theorem tab_breaks_line :
    ∃ p after bytes list metadata,
      (plainBulkAssembler.assemble tabbed : StateM Surroundings _).run emptyDesk = (.ok p, after) ∧
      (p.open : StateM Surroundings _).run after = (.ok (.start bytes), after) ∧
      Archive.read? .tar bytes =
        some [(some "a\tb.txt", Bytes.ofText "abcdef"), (some "manifest.txt", list),
          (some "bulk_meta.xml", metadata)] ∧
      Nihms.rows? list = some [["manuscript", "a", "b.txt", "a", "b.txt"]] := by
  have hreturns : Surroundings.returns (plainBulkAssembler.assemble tabbed) emptyDesk
      (fun _ => true) = true := by
    decide +kernel
  have hplaced : Placement.resolve plainBulkAssembler.specification.policy tabbed.placements =
      .ok [⟨"a\tb.txt", "a\tb.txt", "a\tb.txt"⟩] := by
    decide +kernel
  have hsizes : SizesNonneg tabbed := by decide
  obtain ⟨p, after, hrun, -⟩ := Surroundings.run_of_returns hreturns
  obtain ⟨bytes, archived, metadata, placed, sources, files, hresolved, hopened, hfiles, -, hlists,
    -, hopen, hdecoded, -, hread⟩ :=
    list_in_archive rfl hrun fun bs => Eq.refl (some bs)
  obtain rfl := Except.ok.inj (hresolved.symm.trans hplaced)
  obtain rfl : [{ bytes := Bytes.ofText "abcdef" }] = sources :=
    List.map_injective_iff.2 (fun _ _ => Except.ok.inj) hopened
  obtain rfl := Option.some.inj hdecoded
  subst hfiles
  have hstored : ∀ name ∈ ["a\tb.txt", "manifest.txt", "bulk_meta.xml"],
      Archive.storedName? .tar name = some name := by
    decide +kernel
  have hentries : Archive.read? .tar bytes =
      some [(Archive.storedName? .tar "a\tb.txt", Bytes.ofText "abcdef"),
        (Archive.storedName? .tar "manifest.txt", Nihms.fileList (p.resources.take 1)),
        (Archive.storedName? .tar "bulk_meta.xml", metadata)] := hread fun _ => hsizes
  have hlisted : List.Forall₂ Composition.Lists (p.resources.take 1)
      [(tabbed.files[0], "a\tb.txt")] := hlists
  generalize p.resources.take 1 = listed at hlisted hentries
  cases hlisted with
  | @cons r _ _ _ hr hnil =>
    cases hnil
    have hname : r.originalName = "a\tb.txt" := hr.name_eq
    have hline : Nihms.fileList [r] = Bytes.ofText "manuscript\ta\tb.txt\ta\tb.txt\n" := by
      rw [Nihms.fileList, List.map_singleton, Specification.Nihms.line, hr.role_eq, hr.path_eq,
        hname]
      decide +kernel
    rw [hstored _ (by simp), hstored _ (by simp), hstored _ (by simp), hline] at hentries
    refine ⟨p, after, bytes, _, metadata, hrun, hopen, hentries, ?_⟩
    decide +kernel

variable {decompress : Bytes → Option Bytes}

/-- Whether a list is the one that a package for bulk submission is delivered with: the package
opens to an archive whose last entries, under their own paths, are the list and the metadata. A tar
archive has them at their places, but a reader finds them there only if no negative size misleads
it. -/
def DeliversList (a : Assembler) (s : Submission) (decompress : Bytes → Option Bytes)
    (p : PackageStream) (after : Surroundings) (list : Bytes) : Prop :=
  ∃ (bytes archived metadata : Bytes) (contents : List (String × Bytes)),
    (p.open : StateM Surroundings _).run after = (.ok (.start bytes), after) ∧
    decompress bytes = some archived ∧
    (a.archive = .tar → ∃ body k, archived = body ++ Bytes.zeros k ∧ Archive.Tar.Laid
      (contents ++ [(Nihms.listPath, list), (Nihms.metadataPath, metadata)]) body) ∧
    ((a.archive = .tar → SizesNonneg s) → ∃ entries, Archive.read? a.archive archived = some
      (entries ++ [(some Nihms.listPath, list), (some Nihms.metadataPath, metadata)]))

private theorem delivers_list (hspec : a.specification = Specification.nihms)
    (h : (a.assemble s : StateM Surroundings _).run before = (.ok p, after))
    (hdecompress : ∀ bs, decompress (a.compression.encode bs) = some bs)
    (hnames : ∀ f ∈ s.files, Nihms.IsField f.name) :
    ∃ (list : Bytes) (placed : List Placed), a.DeliversList s decompress p after list ∧
      Placement.resolve a.specification.policy s.placements = .ok placed ∧
      Nihms.rows? list = some ((s.files.zip (placed.map Placed.path)).map fun i =>
        Nihms.contentRow i.1 i.2) := by
  obtain ⟨bytes, archived, metadata, placed, sources, files, hplaced, -, -, hpaths, hlists, -,
    hopen, hdecoded, hlaid, hread⟩ := list_in_archive hspec h hdecompress
  refine ⟨_, placed, ⟨bytes, archived, metadata, files, hopen, hdecoded, hlaid, fun hsizes => ?_⟩,
    hplaced, ?_⟩
  · have harchive : a.archive ≠ .none := Archive.ne_none_of_read? (hread hsizes) (by simp)
    have hstored : ∀ path ∈ [Nihms.listPath, Nihms.metadataPath],
        Archive.storedName? a.archive path = some path := by
      intro path hpath
      refine (Archive.storedName?_eq_some_iff harchive).2 (Or.inl ?_)
      revert path
      decide
    have hentries := hread hsizes
    simp only [List.map_append, List.map_cons, List.map_nil, hstored _ List.mem_cons_self,
      hstored _ (List.mem_cons_of_mem _ List.mem_cons_self)] at hentries
    exact ⟨_, hentries⟩
  · rw [hspec] at hplaced
    rw [hpaths] at hlists
    have hnamed : ∀ i ∈ s.files.zip (placed.map Placed.path), i.1.name ≠ "" := by
      intro i hi
      exact Specification.Nihms.name_ne_empty_of_resolve hplaced (i.1.name, i.1.role)
        (List.mem_map_of_mem (List.of_mem_zip hi).1)
    rw [← Specification.Nihms.map_row_of_lists hlists hnamed,
      Specification.Nihms.rows?_fileList_iff]
    intro r hr field hfield
    have hrow : Specification.Nihms.row r ∈ (s.files.zip (placed.map Placed.path)).map fun i =>
        Nihms.contentRow i.1 i.2 := by
      rw [← Specification.Nihms.map_row_of_lists hlists hnamed]
      exact List.mem_map_of_mem hr
    obtain ⟨i, hi, hcontent⟩ := List.mem_map.1 hrow
    rw [← hcontent] at hfield
    exact Specification.Nihms.isField_contentRow hplaced hnames i hi field hfield

/-- Every package for bulk submission whose files have no tabs and newlines in their names is
delivered with a list that has one line for each file, in their order, with its role, its label and
its path. The path has come by a route from the one proposed, whose last segment is not empty, and
is the label exactly if the label is not empty either and holds no backslash. -/
theorem labels_in_list (hspec : a.specification = Specification.nihms)
    (h : (a.assemble s : StateM Surroundings _).run before = (.ok p, after))
    (hdecompress : ∀ bs, decompress (a.compression.encode bs) = some bs)
    (hnames : ∀ f ∈ s.files, Nihms.IsField f.name) :
    ∃ (list : Bytes) (rows : List (List String)) (placed : List Placed),
      a.DeliversList s decompress p after list ∧ Nihms.rows? list = some rows ∧
      Placement.resolve a.specification.policy s.placements = .ok placed ∧
      rows.length = s.files.length ∧ placed.length = s.files.length ∧
      ∀ (k : Nat) (f : ContentFile) (q : Placed), s.files[k]? = some f → placed[k]? = some q →
        rows[k]? = some [f.role.value, baseName f.name, q.path] ∧
        normalize? (Nihms.place f.name) = some q.proposed ∧
        (∃ route : Route, q.path.toList = route.path f.role q.proposed.toList) ∧
        baseName q.proposed ≠ "" ∧
        (baseName f.name = baseName q.proposed ↔
          baseName f.name ≠ "" ∧ '\\' ∉ (baseName f.name).toList) := by
  obtain ⟨list, placed, hdelivers, hplaced, hrows⟩ := delivers_list hspec h hdecompress hnames
  have hlength := length_placed hplaced
  refine ⟨list, _, placed, hdelivers, hrows, hplaced, ?_, hlength, ?_⟩
  · rw [List.length_map, List.length_zip, List.length_map, hlength, Nat.min_self]
  · intro k f q hf hq
    obtain ⟨role, hfile, hnormal, route, hroute, -⟩ :=
      Placement.exists_route_of_resolve hplaced hq
    rw [Submission.placements, List.getElem?_map, hf] at hfile
    obtain ⟨hname, rfl⟩ := Prod.mk.inj (Option.some.inj hfile)
    rw [hspec, ← hname] at hnormal
    refine ⟨?_, hnormal, ⟨route, hroute⟩, Specification.Nihms.baseName_eq_iff hnormal⟩
    rw [List.getElem?_map, getElem?_zip_placed hf hq]
    rfl

/-- The table of the paper is moved, and keeps the label that it would have had. -/
theorem labels_of_paper :
    baseName "old/manifest.txt" = baseName "manifest.txt" ∧
    ∃ p after list rows,
      (plainBulkAssembler.assemble paper : StateM Surroundings _).run emptyDesk = (.ok p, after) ∧
      plainBulkAssembler.DeliversList paper some p after list ∧ Nihms.rows? list = some rows ∧
      rows[1]? = some ["table", "manifest.txt", "table/manifest.txt"] := by
  have hreturns : Surroundings.returns (plainBulkAssembler.assemble paper) emptyDesk
      (fun _ => true) = true := by
    decide +kernel
  have hplaced : Placement.resolve plainBulkAssembler.specification.policy paper.placements =
      .ok [⟨"paper.pdf", "paper.pdf", "paper.pdf"⟩,
        ⟨"old/manifest.txt", "manifest.txt", "table/manifest.txt"⟩] := by
    decide +kernel
  have hfields : ∀ f ∈ paper.files, Nihms.IsField f.name := by decide
  obtain ⟨p, after, hrun, -⟩ := Surroundings.run_of_returns hreturns
  obtain ⟨list, rows, placed, hdelivers, hrows, hresolved, -, -, hlines⟩ :=
    labels_in_list rfl hrun (fun bs => Eq.refl (some bs)) hfields
  obtain rfl := Except.ok.inj (hresolved.symm.trans hplaced)
  obtain ⟨hline, -, -, -, hlabel⟩ := hlines 1 _ _ rfl rfl
  refine ⟨hlabel.2 (by decide +kernel), p, after, list, rows, hrun, hdelivers, hrows,
    hline.trans ?_⟩
  decide +kernel

/-- A figure from a directory of another system, and one whose name ends in a slash. -/
def figures : Submission where
  id := "sub-1"
  files :=
    [{ name := "figs\\one.png", role := .figure, opened := .ok { bytes := [1] }, size := some 1 },
     { name := "two.png/", role := .figure, opened := .ok { bytes := [2] }, size := some 1 }]
  metadata := [("title", "T")]

/-- Both figures are placed under their last segments, but the label of the first has its directory
and the second has no label. -/
theorem labels_of_figures :
    (∀ f ∈ figures.files, Nihms.IsField f.name) ∧
    ∃ p after list,
      (plainBulkAssembler.assemble figures : StateM Surroundings _).run emptyDesk =
        (.ok p, after) ∧
      plainBulkAssembler.DeliversList figures some p after list ∧
      Placement.resolve plainBulkAssembler.specification.policy figures.placements =
        .ok [⟨"figs\\one.png", "one.png", "one.png"⟩, ⟨"two.png/", "two.png", "two.png"⟩] ∧
      Nihms.rows? list =
        some [["figure", "figs\\one.png", "one.png"], ["figure", "", "two.png"]] := by
  have hreturns : Surroundings.returns (plainBulkAssembler.assemble figures) emptyDesk
      (fun _ => true) = true := by
    decide +kernel
  have hplaced : Placement.resolve plainBulkAssembler.specification.policy figures.placements =
      .ok [⟨"figs\\one.png", "one.png", "one.png"⟩, ⟨"two.png/", "two.png", "two.png"⟩] := by
    decide +kernel
  have hfields : ∀ f ∈ figures.files, Nihms.IsField f.name := by decide
  obtain ⟨p, after, hrun, -⟩ := Surroundings.run_of_returns hreturns
  obtain ⟨list, placed, hdelivers, hresolved, hrows⟩ :=
    delivers_list rfl hrun (fun bs => Eq.refl (some bs)) hfields
  obtain rfl := Except.ok.inj (hresolved.symm.trans hplaced)
  refine ⟨hfields, p, after, list, hrun, hdelivers, hplaced, hrows.trans ?_⟩
  decide +kernel

end Assembler

end Deposit
