import Deposit.Proofs.Assembly.Guard
import Deposit.Proofs.Assembly.Paths
import Deposit.Proofs.Specification.Listing

set_option autoImplicit false
set_option relaxedAutoImplicit false

/-!
The names under which a reader finds the files of a package. Their paths are distinct, and the
manifests record them as they are; but an archive does not keep every name whole, since a zero
character ends a name in a zip archive and in the name field of a tar archive. Two files whose paths
differ only behind such a character are found under one name.
-/

namespace Deposit

namespace Archive

private theorem nonneg_of_sizeFault? {path : String} {r : Reader} {n : Int}
    (h : sizeFault? path r (some n) = none) : 0 ≤ n := by
  unfold sizeFault? at h
  dsimp only at h
  split at h
  · omega
  · cases h

private theorem Raw.Writer.nonneg_of_add {w : Raw.Writer} {path : String} {r : Reader} {n : Int}
    (h : (w.add path r (some n)).fault = none) : 0 ≤ n := by
  unfold Raw.Writer.add at h
  split at h
  · cases h
  · exact nonneg_of_sizeFault? (Option.or_eq_none_iff.1 h).2

private theorem Zip.Writer.nonneg_of_add {w : Zip.Writer} {path : String} {r : Reader} {n : Int}
    (h : (w.add path r (some n)).fault = none) : 0 ≤ n := by
  unfold Zip.Writer.add at h
  split at h
  · cases h
  · split at h
    · cases h
    · dsimp only at h
      split at h
      · cases h
      · exact nonneg_of_sizeFault?
          (Option.or_eq_none_iff.1 (Option.or_eq_none_iff.1 h).2).2

private theorem Writer.nonneg_of_add {w : Writer} (hformat : w.format ≠ .tar) {path : String}
    {r : Reader} {n : Int} (h : (w.add path r (some n)).fault = none) : 0 ≤ n := by
  cases w with
  | raw w => exact Raw.Writer.nonneg_of_add h
  | tar w => exact absurd rfl hformat
  | zip w => exact Zip.Writer.nonneg_of_add h

end Archive

namespace Composition

variable {plan : PackagingPlan} {submission : String} {c d : Composition}
  {items : List (ContentFile × String)}

theorem Wrote.nonneg (h : Wrote plan submission c items d) (hc : c.Follows plan)
    (harchive : plan.archive ≠ .tar) : ∀ i ∈ items, ∀ n, i.1.size = some n → 0 ≤ n := by
  induction h with
  | nil c =>
    intro i hi
    cases hi
  | @cons c d e file path rest first others ih =>
    intro i hi n hn
    have hd : (addContent plan submission c file path file.opened).1.Follows plan :=
      hc.addContent file path file.opened
    rw [first] at hd
    rcases List.mem_cons.1 hi with rfl | hi
    · obtain ⟨source, -, hfault, -, -⟩ := addContent_eq_none first
      dsimp only at hn
      rw [hn] at hfault
      exact Archive.Writer.nonneg_of_add (hc.format_eq ▸ harchive) hfault
    · exact ih hd i hi n hn

end Composition

namespace Assembler

variable {a : Assembler} {s : Submission} {placed : List Placed} {before after : Disk}
  {directory : List String} {name : String} {sink : Recorder} {p : PackageStream}

private theorem Built.sizesNonneg (h : a.Built s placed before after directory name sink p)
    (hplaced : Placement.resolve a.specification.policy s.placements = .ok placed)
    (harchive : a.archive ≠ .tar) : SizesNonneg s := by
  obtain ⟨c, d, hwrote, -⟩ := h.composed
  intro f hf n hn
  rw [← map_fst_zip_placed hplaced] at hf
  obtain ⟨item, hitem, rfl⟩ := List.mem_map.1 hf
  exact hwrote.nonneg (Composition.follows_start a.plan) harchive item hitem n hn

/-- The archive in a package holds an entry for every file of the package, in their order, first the
content files with all their bytes and then the generated ones; a reader finds each under what is
stored of its path. -/
theorem Built.stored (h : a.Built s placed before after directory name sink p)
    (hrefusal : a.refusal? s = none)
    (hplaced : Placement.resolve a.specification.policy s.placements = .ok placed)
    (hsizes : a.archive = .tar → SizesNonneg s) :
    ∃ (archived : Bytes) (entries : List (String × Bytes)) (sources : List Source)
        (generated : Generated),
      sink.output = a.compression.encode archived ∧
      Archive.read? a.archive archived =
        some (entries.map fun e => (Archive.storedName? a.archive e.1, e.2)) ∧
      entries.map Prod.fst = p.resources.map Resource.packagePath ∧
      s.files.map ContentFile.opened = sources.map Except.ok ∧
      (entries.take s.files.length).map Prod.snd = sources.map Source.bytes ∧
      a.specification.generate s (p.resources.take s.files.length) = .ok generated ∧
      entries.drop s.files.length = generated.files := by
  have hnonneg : SizesNonneg s := by
    by_cases htar : a.archive = .tar
    · exact hsizes htar
    · exact h.sizesNonneg hplaced htar
  obtain ⟨d, hfollows, hclose, hresources, hsink, hpacks⟩ := h.layers hplaced
  obtain ⟨sources, generated, hopened, hgenerate, hd⟩ := hpacks hnonneg
  obtain ⟨hout, -⟩ := hfollows.sound.close
  rw [hsink, hfollows.compression_eq] at hout
  have hpaths := Composition.packagePath_eq_of_depicts hd.depicted
  rw [hresources] at hpaths
  have hlength : placed.length = sources.length := by
    rw [length_placed hplaced]
    simpa using congrArg List.length hopened
  have hcount : ((placed.map Placed.path).zip (sources.map Source.bytes)).length =
      s.files.length := by
    simp [← length_placed hplaced, hlength]
  have hne : (placed.map Placed.path).zip (sources.map Source.bytes) ++ generated.files ≠ [] := by
    intro hnil
    rw [(List.append_eq_nil_iff.1 hnil).1] at hcount
    exact files_ne_nil_of_refusal hrefusal (List.length_eq_zero_iff.1 hcount.symm)
  have hread := hd.holds.read?_close_stored hne hclose
  rw [hfollows.format_eq] at hread
  refine ⟨d.pipeline.writer.close.written, _, sources, generated, hout, hread, hpaths.symm, hopened,
    ?_, hgenerate, List.drop_left' hcount⟩
  rw [List.take_left' hcount, List.map_snd_zip (by simp [hlength])]

private theorem not_mem_reserved_of_registered {spec : Specification}
    (h : spec ∈ Specification.registered) :
    ∀ r ∈ spec.policy.reserved, '\x00' ∉ r.toList := by
  have hall : ∀ spec ∈ Specification.registered, ∀ r ∈ spec.policy.reserved,
      '\x00' ∉ r.toList := by
    decide +kernel
  exact hall spec h

private theorem exists_stored {before after : Surroundings}
    (h : (a.assemble s : StateM Surroundings _).run before = (.ok p, after))
    {decompress : Bytes → Option Bytes}
    (hdecompress : ∀ bs, decompress (a.compression.encode bs) = some bs)
    (hsizes : a.archive = .tar → SizesNonneg s) :
    ∃ (bytes archived : Bytes) (entries : List (String × Bytes)) (sources : List Source)
        (generated : Generated),
      (p.open : StateM Surroundings _).run after = (.ok (.start bytes), after) ∧
      decompress bytes = some archived ∧
      Archive.read? a.archive archived =
        some (entries.map fun e => (Archive.storedName? a.archive e.1, e.2)) ∧
      entries.map Prod.fst = p.resources.map Resource.packagePath ∧
      (entries.map Prod.fst).Nodup ∧
      s.files.map ContentFile.opened = sources.map Except.ok ∧
      (entries.take s.files.length).map Prod.snd = sources.map Source.bytes ∧
      a.specification.generate s (p.resources.take s.files.length) = .ok generated ∧
      entries.drop s.files.length = generated.files := by
  obtain ⟨placed, directory, name, sink, hrefusal, hplaced, hbuilt⟩ := built_of_run h
  obtain ⟨archived, entries, sources, generated, hout, hread, hpaths, hcontents⟩ :=
    hbuilt.stored hrefusal hplaced hsizes
  refine ⟨sink.output, archived, entries, sources, generated, hbuilt.run_open, ?_, hread, hpaths,
    ?_, hcontents⟩
  · rw [hout]
    exact hdecompress archived
  · rw [hpaths]
    exact hbuilt.nodup_paths hplaced

theorem not_mem_of_mets {generated : Generated} {resources : List Resource} {n : Nat}
    (hg : Specification.mets.generate s (resources.take n) = .ok generated)
    (hdrop : (resources.map Resource.packagePath).drop n = generated.files.map Prod.fst) :
    ∀ r ∈ resources, '\x00' ∉ r.packagePath.toList := by
  have hmets : Specification.mets ∈ Specification.registered := by simp [Specification.registered]
  have hreserved : ∀ path ∈ generated.files.map Prod.fst, '\x00' ∉ path.toList := by
    rw [Specification.fillsReserved_of_registered hmets _ _ _ hg]
    exact not_mem_reserved_of_registered hmets
  intro r hr
  rw [← List.take_append_drop n resources, List.mem_append] at hr
  rcases hr with hcontent | hgenerated
  · intro hzero
    have htext := List.all_eq_true.1
      (Specification.isText_of_generate_mets hg r hcontent) _ hzero
    exact absurd htext (by decide)
  · refine hreserved _ ?_
    rw [← hdrop, ← List.map_drop]
    exact List.mem_map_of_mem hgenerated

/-- The files of a package under a registered specification are all found in it, in their order and
with all their bytes: the content files, whose paths are those that the generated manifests record,
and then the generated ones. Their paths are distinct. Each is found under its own path exactly if
no path has a zero character, but for such that stand in a record of a tar archive; and then the
names that are found are distinct too. With a METS manifest this is always so. -/
theorem entry_names_of_registered {before after : Surroundings}
    (hspec : a.specification ∈ Specification.registered)
    (h : (a.assemble s : StateM Surroundings _).run before = (.ok p, after))
    (harchive : a.archive ≠ .none) {decompress : Bytes → Option Bytes}
    (hdecompress : ∀ bs, decompress (a.compression.encode bs) = some bs)
    (hsizes : a.archive = .tar → SizesNonneg s) :
    ∃ (bytes archived : Bytes) (found : List (Option String × Bytes)) (sources : List Source)
        (generated : Generated),
      (p.open : StateM Surroundings _).run after = (.ok (.start bytes), after) ∧
      decompress bytes = some archived ∧
      Archive.read? a.archive archived = some found ∧
      found.map Prod.fst =
        p.resources.map (fun r => Archive.storedName? a.archive r.packagePath) ∧
      (p.resources.map Resource.packagePath).Nodup ∧
      a.specification.generate s (p.resources.take s.files.length) = .ok generated ∧
      s.files.map ContentFile.opened = sources.map Except.ok ∧
      found.map Prod.snd = sources.map Source.bytes ++ generated.files.map Prod.snd ∧
      (∀ f ∈ generated.files, Specification.RecordsPaths
        ((p.resources.take s.files.length).map Resource.packagePath) f) ∧
      (found.map Prod.fst = p.resources.map (fun r => some r.packagePath) ↔
        ∀ r ∈ p.resources, '\x00' ∈ r.packagePath.toList →
          a.archive = .tar ∧ Archive.Tar.needsPathRecord r.packagePath = true) ∧
      (found.map Prod.fst = p.resources.map (fun r => some r.packagePath) →
        (found.map Prod.fst).Nodup) ∧
      (a.specification = Specification.mets →
        found.map Prod.fst = p.resources.map (fun r => some r.packagePath)) := by
  obtain ⟨bytes, archived, entries, sources, generated, hopen, hdecoded, hread, hpaths, hnodup,
    hopened, htake, hgenerate, hdrop⟩ := exists_stored h hdecompress hsizes
  have hnames : (entries.map fun e => (Archive.storedName? a.archive e.1, e.2)).map Prod.fst =
      p.resources.map (fun r => Archive.storedName? a.archive r.packagePath) := by
    rw [List.map_map]
    have hstored := congrArg (List.map (Archive.storedName? a.archive)) hpaths
    rwa [List.map_map, List.map_map] at hstored
  have hwhole : (entries.map fun e => (Archive.storedName? a.archive e.1, e.2)).map Prod.fst =
      p.resources.map (fun r => some r.packagePath) ↔
        ∀ r ∈ p.resources, '\x00' ∈ r.packagePath.toList →
          a.archive = .tar ∧ Archive.Tar.needsPathRecord r.packagePath = true := by
    rw [hnames, List.map_inj_left]
    refine forall₂_congr fun r _ => ?_
    rw [Archive.storedName?_eq_some_iff harchive, or_iff_not_imp_left, not_not]
  rw [hpaths] at hnodup
  have hcontents : entries.map Prod.snd =
      sources.map Source.bytes ++ generated.files.map Prod.snd := by
    rw [← htake, ← hdrop, ← List.map_append, List.take_append_drop]
  refine ⟨bytes, archived, _, sources, generated, hopen, hdecoded, hread, hnames, hnodup, hgenerate,
    hopened, ?_, Specification.recordsPaths_of_registered hspec hgenerate, hwhole, ?_, ?_⟩
  · rw [← hcontents, List.map_map]
    rfl
  · intro heq
    rw [heq, ← Function.comp_def, ← List.map_map]
    exact hnodup.map fun _ _ => Option.some.inj
  · intro hmets
    rw [hmets] at hgenerate
    have hplain := not_mem_of_mets hgenerate (by rw [← hpaths, ← List.map_drop, hdrop])
    exact hwhole.2 fun r hr hzero => absurd hzero (hplain r hr)

theorem entry_names_of_crowd :
    ∃ p after bytes archived found,
      (bulkAssembler.assemble crowd : StateM Surroundings _).run emptyDesk = (.ok p, after) ∧
      (p.open : StateM Surroundings _).run after = (.ok (.start bytes), after) ∧
      Codec.Gzip.decode bytes = some archived ∧
      Archive.read? .tar archived = some found ∧
      found.map Prod.fst =
        [some "manuscript", some "manuscript-1/Manifest.TXT", some "table/Bulk_Meta.xml",
          some "manifest.txt", some "bulk_meta.xml"] := by
  have hreturns : Surroundings.returns (bulkAssembler.assemble crowd) emptyDesk (fun p =>
      decide (p.resources.map (fun r => Archive.storedName? .tar r.packagePath) =
        [some "manuscript", some "manuscript-1/Manifest.TXT", some "table/Bulk_Meta.xml",
          some "manifest.txt", some "bulk_meta.xml"])) = true := by
    decide +kernel
  have hspec : bulkAssembler.specification ∈ Specification.registered := by
    simp [bulkAssembler, Specification.registered]
  have hsizes : SizesNonneg crowd := by
    have hall : ∀ f ∈ crowd.files, ∀ n ∈ f.size, 0 ≤ n := by decide
    exact hall
  obtain ⟨p, after, hrun, hstored⟩ := Surroundings.run_of_returns hreturns
  obtain ⟨bytes, archived, found, sources, generated, hopen, hdecoded, hread, hnames, -⟩ :=
    entry_names_of_registered hspec hrun (by decide) Codec.Gzip.decode_encode fun _ => hsizes
  exact ⟨p, after, bytes, archived, found, hrun, hopen, hdecoded, hread,
    hnames.trans (of_decide_eq_true hstored)⟩

def zipAssembler : Assembler where
  specification := Specification.simpleZip
  options := {}
  algorithms := [.sha256, .md5]
  supported := supportedAlgorithms_usual

def halves : Submission where
  id := "halves"
  files :=
    [{ name := "a\x00b", role := .supplement, opened := .ok { bytes := [1] }, size := none },
     { name := "a\x00c", role := .supplement, opened := .ok { bytes := [2] }, size := none }]
  metadata := []

/-- The package lists both files under their own paths, and a reader finds two files of one name. -/
theorem halves_share_a_name :
    zipAssembler.specification ∈ Specification.registered ∧ zipAssembler.archive = .zip ∧
    ∃ p after bytes found,
      (zipAssembler.assemble halves : StateM Surroundings _).run emptyDesk = (.ok p, after) ∧
      p.resources.map Resource.packagePath = ["a\x00b", "a\x00c"] ∧
      (p.open : StateM Surroundings _).run after = (.ok (.start bytes), after) ∧
      Archive.read? .zip bytes = some found ∧
      found.map Prod.fst = [some "a", some "a"] := by
  refine ⟨by simp [zipAssembler, Specification.registered], rfl, ?_⟩
  have hreturns : Surroundings.returns (zipAssembler.assemble halves) emptyDesk (fun p =>
      decide (p.resources.map Resource.packagePath = ["a\x00b", "a\x00c"])) = true := by
    decide +kernel
  obtain ⟨p, after, hrun, hpaths⟩ := Surroundings.run_of_returns hreturns
  have hlisted := of_decide_eq_true hpaths
  have hplain : ∀ bs, some (zipAssembler.compression.encode bs) = some bs := fun _ => rfl
  have hnotar : zipAssembler.archive = .tar → SizesNonneg halves := by
    intro htar
    cases htar
  obtain ⟨bytes, archived, entries, sources, generated, hopen, hsame, hread, hentries, -⟩ :=
    exists_stored hrun hplain hnotar
  obtain rfl := Option.some.inj hsame
  refine ⟨p, after, bytes, _, hrun, hlisted, hopen, hread, ?_⟩
  rw [hlisted] at hentries
  have hcut : (["a\x00b", "a\x00c"].map (Archive.storedName? .zip)) = [some "a", some "a"] := by
    decide
  rw [← hcut, ← hentries, List.map_map, List.map_map]
  rfl

end Assembler
end Deposit
