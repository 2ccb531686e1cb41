import Deposit.Proofs.Assembly.Depiction
import Deposit.Proofs.Assembly.Outcome
import Deposit.Proofs.Specification.References

set_option autoImplicit false
set_option relaxedAutoImplicit false

/-!
The METS manifest of a package against the package itself. The manifest is made from descriptions,
and the archive from the content; what ties them together is that every description is one of all
bytes that lie in the archive.
-/

namespace Deposit

open Xml.Node (elementsAt valuesIn)

namespace Specification.Mets

/-- The algorithms that METS has a name for, the preferred one first. -/
def namedAlgorithms : List (Digest.Algorithm × String) :=
  [(.md5, "MD5"), (.sha256, "SHA-256"), (.sha512, "SHA-512"), (.sha1, "SHA-1")]

/-- The first algorithm that METS has a name for and that is asked for. -/
def preferredAlgorithm? (names : List String) : Option (Digest.Algorithm × String) :=
  namedAlgorithms.find? fun t => names.contains t.1.name

variable {l : Digest.Library} {r : Resource} {names : List String} {content : Bytes}

private theorem guaranteed_of_named {t : Digest.Algorithm × String} (h : t ∈ namedAlgorithms) :
    t.1 ∈ Digest.Algorithm.guaranteed := by
  simp only [namedAlgorithms, List.mem_cons, List.not_mem_nil, or_false] at h
  rcases h with rfl | rfl | rfl | rfl <;> simp [Digest.Algorithm.guaranteed]

private theorem lookup_of_describes {checksums : List (String × String)}
    (h : l.Describes names checksums content) {a : Digest.Algorithm}
    (ha : a ∈ Digest.Algorithm.guaranteed) :
    checksums.lookup a.name = if names.contains a.name then some (a.digest content) else none := by
  have hmem : a.name ∈ checksums.map Prod.fst ↔ names.contains a.name = true := by
    rw [h.names_eq, List.mem_eraseDups, List.contains_iff_mem]
  cases hlookup : checksums.lookup a.name with
  | none =>
    rw [if_neg fun hasked => ?_]
    obtain ⟨c, hc, hname⟩ := List.mem_map.1 (hmem.2 hasked)
    simpa [hname] using List.lookup_eq_none_iff.1 hlookup c hc
  | some digest =>
    have hentry := mem_of_lookup_eq_some hlookup
    obtain ⟨b, hb, hdigest⟩ := h.digest_eq _ hentry
    obtain rfl : a = b := Option.some.inj ((l.algorithm?_of_guaranteed ha).symm.trans hb)
    rw [if_pos (hmem.1 (List.mem_map_of_mem hentry))]
    exact congrArg some hdigest

private theorem preferredChecksum_of_describes (h : l.Describes names r.checksums content) :
    preferredChecksum r =
      (preferredAlgorithm? names).map fun t => (t.2, t.1.digest content) := by
  have htypes : checksumTypes = namedAlgorithms.map fun t => (t.1.name, t.2) := rfl
  rw [preferredChecksum, preferredAlgorithm?, htypes]
  have hnamed : ∀ t ∈ namedAlgorithms, t.1 ∈ Digest.Algorithm.guaranteed := fun _ =>
    guaranteed_of_named
  generalize namedAlgorithms = types at hnamed ⊢
  induction types with
  | nil => rfl
  | cons t ts ih =>
    rw [List.forall_mem_cons] at hnamed
    rw [List.map_cons, List.findSome?_cons, List.find?_cons, lookup_of_describes h hnamed.1,
      ih hnamed.2]
    cases names.contains t.1.name <;> rfl

/-- What is to be said about a file with some content, the one of a given number, if some
algorithms are asked for. -/
def FileRecord.ofContent (names : List String) (r : Resource) (content : Bytes) (n : Nat) :
    FileRecord where
  id := some (fileId n)
  paths := [r.packagePath]
  size := some (Text.decimal content.length)
  mediaType := some r.mediaType
  checksumType := (preferredAlgorithm? names).map fun t => t.2
  checksum := (preferredAlgorithm? names).map fun t => t.1.digest content

private theorem FileRecord.ofResource_of_depicts {path : String}
    (h : Composition.Depicts (l.Describes names) r (path, content)) (n : Nat) :
    FileRecord.ofResource r n = .ofContent names r content n := by
  have hsize : Text.decimalInt r.sizeBytes = Text.decimal content.length := by
    rw [h.size_eq, Text.decimalInt, if_neg (by omega), Int.natAbs_natCast]
  have hchecksum := preferredChecksum_of_describes h.checksums
  rw [FileRecord.ofResource, FileRecord.ofContent, hsize, hchecksum, Option.map_map,
    Option.map_map]
  rfl

private theorem records_of_depicts {rs : List Resource} {entries : List (String × Bytes)}
    (h : List.Forall₂ (Composition.Depicts (l.Describes names)) rs entries) (n : Nat) :
    (rs.zipIdx n).map (fun p => FileRecord.ofResource p.1 p.2) =
      ((rs.zip (entries.map Prod.snd)).zipIdx n).map fun e =>
        .ofContent names e.1.1 e.1.2 e.2 := by
  induction h generalizing n with
  | nil => rfl
  | cons first others ih =>
    rw [List.zipIdx_cons, List.map_cons, ih, FileRecord.ofResource_of_depicts first]
    rfl

theorem generate_eq_ok {s : Submission} {rs : List Resource} {generated : Generated}
    (h : generate s rs = .ok generated) :
    (foreignTexts s rs).all Xml.isText = true ∧
      generated.files = [(manifestPath, Bytes.ofText (Xml.document (manifest s rs)))] := by
  unfold generate at h
  split at h
  · rename_i htexts
    obtain rfl := Except.ok.inj h
    exact ⟨htexts, rfl⟩
  · cases h

/-- A manifest that is true of some described files with their contents: it has one record for each
of them, in their order, every identifier is there once, and the logical structure refers to the
files one by one and to the metadata. -/
structure IsFaithful (names : List String) (files : List (Resource × Bytes)) (doc : Xml.Node) :
    Prop where
  records : (elementsAt filePath doc).map FileRecord.ofElement =
    (files.zipIdx 1).map fun e => .ofContent names e.1.1 e.1.2 e.2
  ids_nodup : (valuesIn "" "ID" doc).Nodup
  pointers : (elementsAt pointerPath doc).map (·.attribute? "FILEID") =
    (elementsAt filePath doc).map (·.attribute? "ID")
  metadata : ∃ id, (elementsAt [(metsSpace, "dmdSec")] doc).map (·.attribute? "ID") = [some id] ∧
    (elementsAt [(metsSpace, "structMap"), (metsSpace, "div")] doc).map (·.attribute? "DMDID") =
      [some id]

private theorem isFaithful_onLines {s : Submission} {rs : List Resource}
    {entries : List (String × Bytes)} (htexts : (foreignTexts s rs).all Xml.isText = true)
    (h : List.Forall₂ (Composition.Depicts (l.Describes names)) rs entries) :
    IsFaithful names (rs.zip (entries.map Prod.snd)) ((manifest s rs).onLines 0) where
  records := (files_onLines htexts).trans (records_of_depicts h 1)
  ids_nodup := by
    rw [(sound_manifest 0 htexts).valuesIn_onLines]
    exact nodup_ids_manifest s rs
  pointers := pointers_onLines s rs
  metadata := ⟨_, metadata_onLines s rs⟩

end Specification.Mets

namespace Assembler

open Specification (Mets.IsFaithful Mets.manifestPath)

variable {a : Assembler} {s : Submission} {p : PackageStream}

/-- Whatever the archive, the compression and the algorithms, a package with a METS manifest is
found to hold the content files with all their bytes, under the paths found for them, and behind
them a manifest that is true of them: it has one record for each content file, in the order of the
submission, with its path in the archive, its length there, its media type and, if one was asked for
that METS has a name for, its digest under the first such algorithm. Where a negative size is
declared of a content file, a tar archive still holds all that, but its header misleads a reader. -/
theorem manifest_describes_archive {before after : Surroundings}
    (hspec : a.specification = Specification.mets)
    (h : (a.assemble s : StateM Surroundings _).run before = (.ok p, after))
    {decompress : Bytes → Option Bytes}
    (hdecompress : ∀ bs, decompress (a.compression.encode bs) = some bs) :
    ∃ (bytes archived manifest : Bytes) (doc : Xml.Node) (placed : List Placed)
        (sources : List Source) (files : List (String × Bytes)),
      Placement.resolve a.specification.policy s.placements = .ok placed ∧
      s.files.map ContentFile.opened = sources.map Except.ok ∧
      files = (placed.map Placed.path).zip (sources.map Source.bytes) ∧
      files.length = s.files.length ∧
      p.resources.map Resource.packagePath = files.map Prod.fst ++ [Mets.manifestPath] ∧
      (p.open : StateM Surroundings _).run after = (.ok (.start bytes), after) ∧
      decompress bytes = some archived ∧
      (a.archive = .tar → ∃ body k, archived = body ++ Bytes.zeros k ∧
        Archive.Tar.Laid (files ++ [(Mets.manifestPath, manifest)]) body) ∧
      ((a.archive = .tar → SizesNonneg s) → Archive.read? a.archive archived =
        some ((files ++ [(Mets.manifestPath, manifest)]).map fun e => (some e.1, e.2))) ∧
      Xml.read manifest = some doc ∧
      Mets.IsFaithful a.options.algorithms
        ((p.resources.take s.files.length).zip (files.map Prod.snd)) doc := by
  obtain ⟨placed, directory, name, sink, hrefusal, hplaced, hbuilt⟩ := built_of_run h
  obtain ⟨archived, sources, generated, hdecoded, hopened, hgenerate, hpaths, hdepicts, hlaid,
    hread⟩ := hbuilt.carries hrefusal hplaced hdecompress
  rw [hspec] at hgenerate
  obtain ⟨htexts, hfiles⟩ := Specification.Mets.generate_eq_ok hgenerate
  have hplain : ∀ r ∈ p.resources, '\x00' ∉ r.packagePath.toList := by
    refine not_mem_of_mets hgenerate ?_
    rw [hpaths]
    exact List.drop_left' (by simp [length_placed hplaced])
  have hfirst := map_fst_zip_opened hplaced hopened
  have hcount : ((placed.map Placed.path).zip (sources.map Source.bytes)).length =
      s.files.length := by
    rw [← List.length_map (f := Prod.fst), hfirst, List.length_map, length_placed hplaced]
  rw [← hfirst, hfiles] at hpaths
  rw [hfiles] at hlaid hread
  refine ⟨sink.output, archived, _, _, placed, sources, _, hplaced, hopened, rfl, hcount, hpaths,
    hbuilt.run_open, hdecoded, hlaid, fun hsizes => ?_, Specification.Mets.read_manifest htexts,
    Specification.Mets.isFaithful_onLines htexts hdepicts⟩
  have harchive : a.archive ≠ .none := by
    refine Archive.ne_none_of_read? (hread hsizes) ?_
    have hpos : 0 < s.files.length := List.length_pos_iff.2 (files_ne_nil_of_refusal hrefusal)
    simp only [List.length_map, List.length_append, hcount, List.length_singleton]
    omega
  rw [hread hsizes]
  refine congrArg some (List.map_congr_left fun e he => ?_)
  have hlisted : e.1 ∈ p.resources.map Resource.packagePath := by
    rw [hpaths]
    simpa using List.mem_map_of_mem (f := Prod.fst) he
  obtain ⟨r, hr, hpath⟩ := List.mem_map.1 hlisted
  rw [(Archive.storedName?_eq_some_iff harchive).2 (Or.inl (hpath ▸ hplain r hr))]

def thesisAssembler : Assembler where
  specification := Specification.mets
  options := { archive := some .tar, compression := some .gzip, algorithms := ["sha1", "md5"] }
  algorithms := [.sha1, .md5]
  supported := rfl

/-- A file that goes by the name of the manifest. -/
def ownManifest : ContentFile where
  name := "mets.xml"
  role := .manuscript
  opened := .ok { bytes := [1, 2] }
  size := some 2

def thesis : Submission where
  id := "thesis"
  files := [ownManifest]
  metadata := [("title", "A <thesis>")]

theorem admits_thesis :
    thesisAssembler.Admits thesis [⟨"mets.xml", "mets.xml", "manuscript/mets.xml"⟩] emptyDesk where
  refusal_eq := by decide +kernel
  placed_eq := by decide +kernel
  creates := ⟨_, _, rfl⟩
  digests := rfl

/-- The composition after the only content file. -/
def thesisWritten : Composition :=
  thesisAssembler.left thesis (.start thesisAssembler.plan) ownManifest "manuscript/mets.xml"

private theorem wrote_thesis :
    Composition.Wrote thesisAssembler.plan thesis.id (.start thesisAssembler.plan)
      [(ownManifest, "manuscript/mets.xml")] thesisWritten :=
  wrote_left (by decide +kernel)

/-- With other metadata the thesis is assembled too, if it has a title and its metadata may stand in
a document and are not too long for a tar archive. -/
theorem assemble_retitled {metadata : List (String × String)}
    (hrefusal : thesisAssembler.refusal? { thesis with metadata } = none)
    (hsuits : ¬ Specification.HasUnsuitable { thesis with metadata }
      (thesisWritten.resources.map Resource.packagePath))
    (hrender : (Xml.render true 0 (Specification.Mets.manifest { thesis with metadata }
      thesisWritten.resources)).length < 100000) :
    ∃ p after, (thesisAssembler.assemble { thesis with metadata } : StateM Surroundings _).run
      emptyDesk = (.ok p, after) := by
  have hadmits : thesisAssembler.Admits { thesis with metadata }
      [⟨"mets.xml", "mets.xml", "manuscript/mets.xml"⟩] emptyDesk :=
    { admits_thesis with refusal_eq := hrefusal }
  have hmeasured : ∀ r ∈ thesisWritten.resources, r.IsMeasured :=
    Composition.Wrote.measured wrote_thesis fun r hr => nomatch hr
  have hgenerate : Specification.Mets.generate { thesis with metadata } thesisWritten.resources =
      .ok
        { files := [("mets.xml", Bytes.ofText (Xml.document (Specification.Mets.manifest
            { thesis with metadata } thesisWritten.resources)))]
          notices := ["Built METS for submission thesis"] } :=
    if_pos (List.all_eq_true.2 fun text ht =>
      Specification.Mets.isText_of_mem_foreignTexts hmeasured hsuits ht)
  have hlength : (Bytes.ofText (Xml.document (Specification.Mets.manifest { thesis with metadata }
      thesisWritten.resources))).length < Archive.Tar.sizeLimit := by
    have hdeclaration : Xml.declaration.toList.length < 100000 := by decide +kernel
    refine Nat.lt_of_le_of_lt (Bytes.length_ofText_le _) ?_
    rw [Xml.document, String.toList_append, String.toList_ofList, List.length_append,
      List.length_append, List.length_singleton, Archive.Tar.sizeLimit]
    omega
  have hfollows := wrote_thesis.follows (Composition.follows_start thesisAssembler.plan)
  have hnew : "mets.xml" ∉ thesisWritten.paths := by decide +kernel
  obtain ⟨d, hall, hd⟩ := Composition.addAllGenerated_of_tar hadmits.digests
    (hfollows.noted (thesisWritten.notices ++ ["Built METS for submission thesis"])) rfl thesis.id
    hnew (by
      rw [Archive.Tar.records_of_short (by decide) hlength]
      decide)
  obtain ⟨p, after, hrun, -⟩ :=
    hadmits.run_assemble_of_generate wrote_thesis hgenerate hall (hd.fits (by decide))
  exact ⟨p, after, hrun⟩

theorem assemble_thesis :
    ∃ p after, (thesisAssembler.assemble thesis : StateM Surroundings _).run emptyDesk =
      (.ok p, after) := by
  have hsuits : ¬ Specification.HasUnsuitable thesis
      (thesisWritten.resources.map Resource.packagePath) := by
    unfold Specification.HasUnsuitable
    decide +kernel
  exact assemble_retitled admits_thesis.refusal_eq hsuits (by decide +kernel)

theorem manifest_describes_thesis :
    ∃ p after bytes archived manifest doc,
      (thesisAssembler.assemble thesis : StateM Surroundings _).run emptyDesk = (.ok p, after) ∧
      (p.open : StateM Surroundings _).run after = (.ok (.start bytes), after) ∧
      Codec.Gzip.decode bytes = some archived ∧
      Archive.read? .tar archived =
        some [(some "manuscript/mets.xml", [1, 2]), (some "mets.xml", manifest)] ∧
      Xml.read manifest = some doc ∧
      (elementsAt Specification.Mets.filePath doc).map
          (fun n => let f := Specification.Mets.FileRecord.ofElement n
            (f.paths, f.size, f.checksumType, f.checksum)) =
        [(["manuscript/mets.xml"], some "2", some "MD5",
          some (Digest.Algorithm.md5.digest [1, 2]))] := by
  obtain ⟨p, after, hrun⟩ := assemble_thesis
  have hsizes : SizesNonneg thesis := by decide
  obtain ⟨bytes, archived, manifest, doc, placed, sources, files, hplaced, hopened, hfiles, -,
    hpaths, hopen, hdecoded, -, hread, hparsed, hfaithful⟩ :=
    manifest_describes_archive rfl hrun Codec.Gzip.decode_encode
  obtain rfl := Except.ok.inj (hplaced.symm.trans admits_thesis.placed_eq)
  obtain rfl : [{ bytes := [1, 2] }] = sources :=
    List.map_injective_iff.2 (fun _ _ => Except.ok.inj) hopened
  subst hfiles
  refine ⟨p, after, bytes, archived, manifest, doc, hrun, hopen, hdecoded, hread fun _ => hsizes,
    hparsed, ?_⟩
  obtain ⟨first, rest, hresources, hfirst, -⟩ := List.map_eq_cons_iff.1 hpaths
  have hrecords := congrArg (List.map fun f : Specification.Mets.FileRecord =>
    (f.paths, f.size, f.checksumType, f.checksum)) hfaithful.records
  rw [List.map_map, hresources] at hrecords
  refine hrecords.trans ?_
  show [([first.packagePath], some (Text.decimal 2), some "MD5",
    some (Digest.Algorithm.md5.digest [1, 2]))] = _
  rw [hfirst]
  rfl

end Assembler

end Deposit
