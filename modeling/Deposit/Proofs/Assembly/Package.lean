import Deposit.Proofs.Assembly.Assembler
import Deposit.Proofs.Codec.Deflate
import Deposit.Specification.Registry

set_option autoImplicit false
set_option relaxedAutoImplicit false

/-!
What can be said of a package. Assembling leaves no trace unless it returns, and then it leaves one
file; the metadata describe the bytes of that file, down to the last trailer; and whoever undoes the
compression and reads the archive finds the files that the package lists, each with all its bytes.
-/

namespace Deposit.Assembler

/-- An assembler whose specification adds a note. -/
def letterAssembler : Assembler where
  specification :=
    { Specification.simpleZip with
      generate := fun _ _ => .ok { files := [("about.txt", Bytes.ofText "a sealed letter")] } }
  options := { archive := some .tar, compression := some .gzip, algorithms := ["sha256", "md5"] }
  algorithms := [.sha256, .md5]
  supported := rfl

def letter : Submission where
  id := "letter"
  files :=
    [{ name := "letter.txt"
       role := .supplement
       opened := .ok { bytes := Bytes.ofText "Dear all,", serve := fun _ _ => 3 }
       size := none },
     { name := "seal.bin"
       role := .figure
       opened := .ok { bytes := [1, 2, 3, 4] }
       size := some 4 }]
  metadata := []

/-- An empty file system. -/
def emptyDesk : Surroundings where
  disk := { items := [], workingDirectory := [] }
  temporaryDirectory := ⟨"/", []⟩
  log := []

private theorem sizesNonneg_letter : SizesNonneg letter := by
  intro f hf n hn
  rcases List.mem_pair.1 hf with rfl | rfl
  · cases hn
  · cases hn
    decide

theorem assemble_letter :
    ∃ p after, (letterAssembler.assemble letter : StateM Surroundings _).run emptyDesk =
        (.ok p, after) ∧
      ∀ r ∈ p.resources, '\x00' ∉ r.packagePath.toList := by
  -- this evaluates the paths, and none of the bytes or digests
  have hreturns : Surroundings.returns (letterAssembler.assemble letter) emptyDesk (fun p =>
      decide (∀ r ∈ p.resources, '\x00' ∉ r.packagePath.toList)) = true := by
    decide +kernel
  obtain ⟨p, after, hrun, hpaths⟩ := Surroundings.run_of_returns hreturns
  exact ⟨p, after, hrun, of_decide_eq_true hpaths⟩

/-- A submission whose file breaks off after four bytes. -/
def tornLetter : Submission where
  id := "letter"
  files :=
    [{ name := "letter.txt"
       role := .supplement
       opened := .ok
         { bytes := Bytes.ofText "Dear all,"
           serve := fun _ _ => 3
           fault := some (4, .reported .system "torn") }
       size := none }]
  metadata := []

theorem assemble_tornLetter :
    ∃ failure after,
      (letterAssembler.assemble tornLetter : StateM Surroundings _).run emptyDesk =
        (.error failure, after) := by
  have hfails : Surroundings.fails (letterAssembler.assemble tornLetter) emptyDesk
      (fun _ => true) = true := by
    decide +kernel
  obtain ⟨failure, after, hrun, -⟩ := Surroundings.run_of_fails hfails
  exact ⟨failure, after, hrun⟩

/-- However assembling fails, all files are what they were; when it returns, one file has been
added, in the directory for packages, and it holds the bytes that the package delivers. A submission
that is refused, or whose files cannot be placed, fails before anything is opened or created: in
every host, all that happens is that notices are given. -/
theorem assemble_atomic (a : Assembler) (s : Submission) :
    (∀ before after failure,
      (a.assemble s : StateM Surroundings _).run before = (.error failure, after) →
        after.disk = before.disk) ∧
    (∀ before after p,
      (a.assemble s : StateM Surroundings _).run before = (.ok p, after) →
        ∃ directory name bytes,
          before.disk.find (Location.resolve before.disk.workingDirectory
            (a.options.temporaryDirectory.getD before.temporaryDirectory)) =
              .ok (directory, .directory) ∧
          before.disk.item? (directory ++ [name]) = none ∧
          after.disk = { before.disk with
            items := (directory ++ [name], .file bytes) :: before.disk.items } ∧
          (p.open : StateM Surroundings _).run after = (.ok (.start bytes), after)) ∧
    (∀ e, a.refusal? s = some e →
      ∀ (m : Type → Type) [Host m], (a.assemble s : m _) = pure (.error (.error e))) ∧
    (∀ cause, a.refusal? s = none →
      Placement.resolve a.specification.policy s.placements = .error cause →
      ∀ (m : Type → Type) [Host m], (a.assemble s : m _) = (do
        Host.notices .info (Placement.run a.specification.policy s.placements).notices
        pure (.error (.error (.unplaceable s.id cause))))) := by
  refine ⟨fun before after failure h => ?_, fun before after p h => ?_,
    fun e he m _ => assemble_of_refusal he, fun cause hr hp m _ => assemble_of_unplaceable hr hp⟩
  · rcases a.assemble_cases s before with ⟨cause, later, hrun, hdisk⟩ |
      ⟨placed, q, later, directory, name, sink, hrun, -⟩
    · cases h.symm.trans hrun
      exact hdisk
    · cases h.symm.trans hrun
  · rcases a.assemble_cases s before with ⟨cause, later, hrun, -⟩ |
      ⟨placed, q, later, directory, name, sink, hrun, -, -, hfound, hbuilt⟩
    · cases h.symm.trans hrun
    · cases h.symm.trans hrun
      refine ⟨directory, name, sink.output, hfound, hbuilt.fresh.absent, ?_, hbuilt.run_open⟩
      rw [hbuilt.disk_eq, ← hbuilt.fresh.items_set]
      rfl

theorem atomic_letter :
    (∃ p after directory name bytes,
      (letterAssembler.assemble letter : StateM Surroundings _).run emptyDesk = (.ok p, after) ∧
      after.disk = { emptyDesk.disk with
        items := (directory ++ [name], .file bytes) :: emptyDesk.disk.items } ∧
      (p.open : StateM Surroundings _).run after = (.ok (.start bytes), after)) ∧
    (∃ failure after,
      (letterAssembler.assemble tornLetter : StateM Surroundings _).run emptyDesk =
        (.error failure, after) ∧
      after.disk = emptyDesk.disk) ∧
    (letterAssembler.assemble { letter with files := [] } : StateM Surroundings _) =
      pure (.error (.error (.noFiles "letter"))) := by
  obtain ⟨p, after, hrun, -⟩ := assemble_letter
  obtain ⟨failure, torn, htorn⟩ := assemble_tornLetter
  obtain ⟨hfails, -⟩ := assemble_atomic letterAssembler tornLetter
  obtain ⟨-, hreturns, -⟩ := assemble_atomic letterAssembler letter
  obtain ⟨directory, name, bytes, -, -, hdisk, hopen⟩ := hreturns emptyDesk after p hrun
  have hrefused : letterAssembler.refusal? { letter with files := [] } =
      some (.noFiles "letter") := rfl
  refine ⟨⟨p, after, directory, name, bytes, hrun, hdisk, hopen⟩,
    ⟨failure, torn, htorn, hfails emptyDesk torn failure htorn⟩, ?_⟩
  exact (assemble_atomic letterAssembler { letter with files := [] }).2.2.1 _ hrefused _

private theorem read_start (bytes : Bytes) :
    ∃ rest, (PackageReader.start bytes).read (-1) = .ok (bytes, rest) := by
  have htake : bytes.take (min bytes.length (max 1 bytes.length)) = bytes :=
    List.take_of_length_le (by omega)
  have hread : (PackageReader.start bytes).stream.read
      (PackageReader.start bytes).stream.rest.length =
        .ok (bytes, ⟨Source.ofBytes bytes, [], bytes.length⟩) := by
    show Except.ok (bytes.take (min bytes.length (max 1 bytes.length)), Stream.mk _
      (bytes.drop (bytes.take (min bytes.length (max 1 bytes.length))).length)
      (0 + (bytes.take (min bytes.length (max 1 bytes.length))).length)) = _
    rw [htake, List.drop_length, Nat.zero_add]
    rfl
  have hclosed : ¬ (PackageReader.start bytes).closed = true := Bool.false_ne_true
  refine ⟨⟨⟨Source.ofBytes bytes, [], bytes.length⟩, false⟩, ?_⟩
  unfold PackageReader.read
  rw [if_neg hclosed, if_neg (by decide)]
  simp only [if_true, hread]
  rfl

/-- The metadata of a package describe the stream that it delivers, and not a part of it: the bytes
are the compressed form of the archive as its closed writer has left it, with the end that is only
written then; their number is the size, and their digests are the checksums, one for every algorithm
that was asked for. -/
theorem metadata_describe_stream {a : Assembler} {s : Submission} {before after : Surroundings}
    {p : PackageStream}
    (h : (a.assemble s : StateM Surroundings _).run before = (.ok p, after)) :
    ∃ (bytes : Bytes) (reader rest : PackageReader) (w : Archive.Writer),
      (p.open : StateM Surroundings _).run after = (.ok reader, after) ∧
      reader.read (-1) = .ok (bytes, rest) ∧
      p.metadata.sizeBytes = bytes.length ∧
      a.library.Describes a.options.algorithms p.metadata.checksums bytes ∧
      bytes = a.compression.encode w.close.written ∧
      w.format = a.archive ∧ w.IsOpen ∧ w.EndsIn w.close.written ∧
      (SizesNonneg s → a.archive = .tar → Archive.Tar.recordSize ∣ w.close.written.length) := by
  rcases a.assemble_cases s before with ⟨failure, later, hrun, -⟩ |
    ⟨placed, q, later, directory, name, sink, hrun, -, hplaced, -, hbuilt⟩
  · cases h.symm.trans hrun
  · cases h.symm.trans hrun
    obtain ⟨d, hfollows, -, hresources, hsink, hpacks⟩ := hbuilt.layers hplaced
    obtain ⟨hout, hcounts⟩ := hfollows.sound.close
    rw [hsink, hfollows.compression_eq] at hout
    rw [hsink] at hcounts
    obtain ⟨rest, hread⟩ := read_start sink.output
    refine ⟨sink.output, _, rest, d.pipeline.writer, hbuilt.run_open, hread, ?_, ?_, hout,
      hfollows.format_eq, hfollows.isOpen, hfollows.isOpen.endsIn_close, fun hsizes htar => ?_⟩
    · rw [hbuilt.metadata_eq]
      show (sink.tally.count : Int) = sink.output.length
      rw [hcounts, Digest.Tally.count_update_start]
    · rw [hbuilt.metadata_eq]
      exact a.describes_of_supported (hcounts.describes)
    · obtain ⟨sources, generated, -, -, hd⟩ := hpacks hsizes
      exact hd.holds.recordSize_dvd (hfollows.format_eq.trans htar)

theorem metadata_describe_letter :
    ∃ p after, (letterAssembler.assemble letter : StateM Surroundings _).run emptyDesk =
        (.ok p, after) ∧
      ∃ (bytes : Bytes) (reader rest : PackageReader) (w : Archive.Writer),
        (p.open : StateM Surroundings _).run after = (.ok reader, after) ∧
        reader.read (-1) = .ok (bytes, rest) ∧
        p.metadata.sizeBytes = bytes.length ∧
        letterAssembler.library.Describes ["sha256", "md5"] p.metadata.checksums bytes ∧
        bytes = Codec.Gzip.encode w.close.written ∧
        w.format = .tar ∧ w.IsOpen ∧ w.EndsIn w.close.written ∧
        Archive.Tar.recordSize ∣ w.close.written.length := by
  obtain ⟨p, after, hrun, -⟩ := assemble_letter
  obtain ⟨bytes, reader, rest, w, hopen, hread, hsize, hdigests, hbytes, hformat, hisOpen, hends,
    hrecords⟩ := metadata_describe_stream hrun
  exact ⟨p, after, hrun, bytes, reader, rest, w, hopen, hread, hsize, hdigests, hbytes, hformat,
    hisOpen, hends, hrecords sizesNonneg_letter rfl⟩

/-- A package is read back: when the compression is undone and the archive read, it yields the files
that the package lists, in their order, the content files first and then the generated ones. Each of
them has its path, if the format has names, and all bytes of the content file or of what was
generated, however the sources cut their reads; and it is described by their number and their
digests. -/
theorem assemble_read_back {a : Assembler} {s : Submission} {before after : Surroundings}
    {p : PackageStream}
    (h : (a.assemble s : StateM Surroundings _).run before = (.ok p, after))
    {decompress : Bytes → Option Bytes}
    (hdecompress : ∀ bs, decompress (a.compression.encode bs) = some bs)
    (hnames : ∀ r ∈ p.resources, '\x00' ∉ r.packagePath.toList) (hsizes : SizesNonneg s) :
    ∃ (placed : List Placed) (sources : List Source) (generated : Generated)
        (bytes archived : Bytes) (contents : List Bytes),
      Placement.resolve a.specification.policy s.placements = .ok placed ∧
      s.files.map ContentFile.opened = sources.map Except.ok ∧
      a.specification.generate s (p.resources.take s.files.length) = .ok generated ∧
      contents = sources.map Source.bytes ++ generated.files.map Prod.snd ∧
      (p.open : StateM Surroundings _).run after = (.ok (.start bytes), after) ∧
      decompress bytes = some archived ∧
      Archive.read? a.archive archived = some ((p.resources.zip contents).map fun e =>
        (Archive.entryName? a.archive e.1.packagePath, e.2)) ∧
      p.resources.map Resource.packagePath =
        placed.map Placed.path ++ generated.files.map Prod.fst ∧
      List.Forall₂ (fun r content => r.sizeBytes = (content.length : Int) ∧
        a.library.Describes a.options.algorithms r.checksums content) p.resources contents := by
  rcases a.assemble_cases s before with ⟨failure, later, hrun, -⟩ |
    ⟨placed, q, later, directory, name, sink, hrun, hrefusal, hplaced, -, hbuilt⟩
  · cases h.symm.trans hrun
  · cases h.symm.trans hrun
    obtain ⟨d, hfollows, hclose, hresources, hsink, hpacks⟩ := hbuilt.layers hplaced
    obtain ⟨sources, generated, hopened, hgenerate, hd⟩ := hpacks hsizes
    obtain ⟨hout, -⟩ := hfollows.sound.close
    rw [hsink, hfollows.compression_eq] at hout
    have hlength : placed.length = sources.length := by
      rw [length_placed hplaced]
      simpa using congrArg List.length hopened
    have hpaths : ((placed.map Placed.path).zip (sources.map Source.bytes) ++
        generated.files).map Prod.fst = placed.map Placed.path ++ generated.files.map Prod.fst := by
      rw [List.map_append, List.map_fst_zip (by simp [hlength])]
    have hcontents : ((placed.map Placed.path).zip (sources.map Source.bytes) ++
        generated.files).map Prod.snd = sources.map Source.bytes ++
          generated.files.map Prod.snd := by
      rw [List.map_append, List.map_snd_zip (by simp [hlength])]
    have hdepicted := a.depicts_of_supported hd.depicted
    rw [hresources] at hdepicted
    have hlisted := Composition.packagePath_eq_of_depicts hdepicted
    have hread := hd.holds.read?_close ?_ (fun e he => ?_) hclose
    · refine ⟨placed, sources, generated, sink.output, d.pipeline.writer.close.written, _,
        hplaced, hopened, hgenerate, rfl, hbuilt.run_open, ?_, ?_, hlisted.trans hpaths, ?_⟩
      · rw [hout]
        exact hdecompress _
      · rw [hfollows.format_eq] at hread
        rw [← hcontents, Composition.zip_of_depicts hdepicted]
        exact hread
      · rw [← hcontents, List.forall₂_map_right_iff]
        exact hdepicted.imp fun r e hr => ⟨hr.size_eq, hr.checksums⟩
    · intro hnil
      have hnone : placed.map Placed.path ++ generated.files.map Prod.fst = [] := by
        rw [← hpaths, hnil]
        rfl
      have hempty : placed = [] := List.map_eq_nil_iff.1 (List.append_eq_nil_iff.1 hnone).1
      refine files_ne_nil_of_refusal hrefusal (List.length_eq_zero_iff.1 ?_)
      rw [← length_placed hplaced, hempty]
      rfl
    -- every name in the archive is the path of a resource
    · obtain ⟨r, hr, hpath⟩ := List.mem_map.1 (hlisted ▸ List.mem_map_of_mem he)
      rw [← hpath]
      exact hnames r hr

theorem letter_read_back :
    ∃ p after, (letterAssembler.assemble letter : StateM Surroundings _).run emptyDesk =
        (.ok p, after) ∧
      ∃ (bytes archived : Bytes) (contents : List Bytes),
        (p.open : StateM Surroundings _).run after = (.ok (.start bytes), after) ∧
        Codec.Gzip.decode bytes = some archived ∧
        Archive.read? .tar archived = some ((p.resources.zip contents).map fun e =>
          (some e.1.packagePath, e.2)) ∧
        List.Forall₂ (fun r content => r.sizeBytes = (content.length : Int) ∧
          letterAssembler.library.Describes ["sha256", "md5"] r.checksums content)
        p.resources contents := by
  obtain ⟨p, after, hrun, hnames⟩ := assemble_letter
  obtain ⟨placed, sources, generated, bytes, archived, contents, -, -, -, -, hopen, hdecoded,
    hentries, -, hdescribed⟩ :=
    assemble_read_back hrun Codec.Gzip.decode_encode hnames sizesNonneg_letter
  exact ⟨p, after, hrun, bytes, archived, contents, hopen, hdecoded, hentries, hdescribed⟩

end Deposit.Assembler
