import Deposit.Proofs.Archive.Offered
import Deposit.Proofs.Assembly.Guard
import Deposit.Proofs.Assembly.Sizes

set_option autoImplicit false
set_option relaxedAutoImplicit false

/-!
Packages without an archive hold one file. The first content file fills the package, and whatever
comes next is refused: a second content file with an error that names it, or else the first file
that the specification generates, whether its path is a new one or that of the content file. Main
statement: without an archive, exactly the submissions of one file to which nothing is added are
packaged, each as the bytes of that file.
-/

namespace Deposit

namespace ContentFile

/-- A content file that opens, fails at no read, holds some content, and has that size if one is
declared. -/
def Gives (f : ContentFile) (content : Bytes) : Prop :=
  ∃ source, f.opened = .ok source ∧ source.FaultFree ∧ source.bytes = content ∧
    ∀ n, f.size = some n → n = content.length

/-- The description of a content file all of whose content is packaged at a path. -/
def record (f : ContentFile) (algorithms : List Digest.Algorithm) (path : String)
    (content : Bytes) : Resource where
  originalName := if f.name = "" then path else f.name
  packagePath := path
  role := some f.role
  sizeBytes := content.length
  checksums := ((Digest.Tally.start algorithms).update content).digests
  mediaType := MediaType.ofPath path

end ContentFile

namespace Composition

variable {plan : PackagingPlan} {c : Composition} {file : ContentFile} {path first : String}
  {content : Bytes} {output : Array UInt8}

private theorem contentResource_of_took {r : Reader}
    (h : r.Took plan.algorithms content content) :
    contentResource file path r = file.record plan.algorithms path content := by
  have hcount : r.count = content.length := h.count_eq
  have hdigests : r.digests = ((Digest.Tally.start plan.algorithms).update content).digests := by
    rw [Reader.digests, h.tally_eq]
  rw [contentResource, ContentFile.record, hcount, hdigests]

private theorem exists_addContent_start (hdigests : plan.digestFault? = none)
    (harchive : plan.archive = .none) (h : file.Gives content) (submission path : String) :
    ∃ c, addContent plan submission (.start plan) file path file.opened = (c, none) ∧
      c.resources = [file.record plan.algorithms path content] ∧
      ∃ output : Array UInt8, c.pipeline.writer = .raw ⟨output, some path⟩ ∧
        output.toList = content := by
  obtain ⟨source, hopened, hfree, rfl, hright⟩ := h
  have hstart : (Composition.start plan).pipeline.writer = .raw .empty := by
    rw [writer_start, harchive]
    rfl
  have htook := Reader.took_start plan.algorithms source
  have hempty : Archive.Raw.Writer.Holds .empty [] := Archive.Raw.Writer.holds_empty
  have hfault : (Archive.Raw.Writer.empty.add path (.start plan.algorithms source.open)
      file.size).fault = none :=
    (Archive.Raw.Writer.fault_add_eq_none_iff rfl htook hfree).2 hright
  obtain ⟨⟨-, hwritten⟩, hall⟩ := hempty.add htook hfault
  rcases addContent_cases hdigests submission (.start plan) file path with
    ⟨c, hadd⟩ | ⟨fault, hraises⟩
  · obtain ⟨other, hother, -, hwriter, hresources⟩ := addContent_eq_none hadd
    obtain rfl : source = other := Except.ok.inj (hopened.symm.trans hother)
    rw [hstart] at hwriter hresources
    refine ⟨c, hadd, ?_, _, hwriter, hwritten⟩
    rw [hresources, ← contentResource_of_took hall]
    rfl
  · cases hraises with
    | opening herror => cases hopened.symm.trans herror
    | @adding other _ hother hadd =>
      obtain rfl : source = other := Except.ok.inj (hopened.symm.trans hother)
      rw [hstart] at hadd
      cases hfault.symm.trans hadd

private theorem raises_singleFile (hwriter : c.pipeline.writer = .raw ⟨output, some first⟩)
    (h : file.Gives content) (path : String) :
    Raises plan c file path (.archive (.singleFile path first)) := by
  obtain ⟨source, hopened, -⟩ := h
  refine .adding hopened ?_
  rw [hwriter]
  rfl

/-- How a generated file is refused after a content file. -/
def singleFileError (submission first path : String) : AssemblyError :=
  if path = first then .collision submission path
  else .generated submission path (.archive (.singleFile path first))

private theorem submission_singleFileError (submission first path : String) :
    (singleFileError submission first path).submission = submission := by
  unfold singleFileError
  split <;> rfl

private theorem file?_singleFileError (submission first path : String) :
    (singleFileError submission first path).file? = some path := by
  unfold singleFileError
  split <;> rfl

private theorem addGenerated_of_single (plan : PackagingPlan)
    (hwriter : c.pipeline.writer = .raw ⟨output, some first⟩)
    (hpaths : c.paths = [first]) (submission path : String) (content : Bytes) :
    ∃ d, addGenerated plan submission c path content =
        (d, some (.error (singleFileError submission first path))) ∧
      d.pipeline.writer = c.pipeline.writer := by
  by_cases hpath : path = first
  · have hmem : path ∈ c.paths := by
      rw [hpaths, hpath]
      exact List.mem_singleton_self first
    refine ⟨c, ?_, rfl⟩
    rw [addGenerated_of_mem hmem, singleFileError, if_pos hpath]
  · have hnew : path ∉ c.paths := by
      rwa [hpaths, List.mem_singleton]
    set added := c.pipeline.add path
      (.start plan.algorithms (Source.ofBytes content).open) (some content.length) with hadded
    have hfault : added.fault = some (.archive (.singleFile path first)) := by
      show (c.pipeline.writer.add path _ _).fault = _
      rw [hwriter]
      rfl
    have hsame : added.writer.writer = c.pipeline.writer := by
      rw [hadded, Pipeline.writer_add, hwriter]
      rfl
    refine ⟨{ c with pipeline := added.writer }, ?_, hsame⟩
    unfold addGenerated
    rw [if_neg fun hany => hnew (any_packagePath_iff.1 hany)]
    simp only [← hadded, hfault, singleFileError, if_neg hpath]
    rfl

end Composition

namespace Assembler

variable {a : Assembler} {s : Submission} {placed : List Placed} {before : Surroundings}
  {f g : ContentFile} {others : List ContentFile} {content : Bytes}

private theorem exists_placed_singleton
    (hplaced : Placement.resolve a.specification.policy s.placements = .ok placed)
    (hfiles : s.files = [f]) : ∃ x, placed = [x] := by
  apply List.length_eq_one_iff.1
  rw [length_placed hplaced, hfiles, List.length_singleton]

private theorem exists_placed_cons_cons
    (hplaced : Placement.resolve a.specification.policy s.placements = .ok placed)
    (hfiles : s.files = f :: g :: others) : ∃ x y zs, placed = x :: y :: zs := by
  have hlength := length_placed hplaced
  match placed, hfiles ▸ hlength with
  | [], h => cases h
  | [x], h => cases h
  | x :: y :: zs, _ => exact ⟨x, y, zs, rfl⟩

private theorem firstFault_second (hdigests : a.plan.digestFault? = none)
    (harchive : a.archive = .none) (hfiles : s.files = f :: g :: others)
    {x y : Placed} {zs : List Placed} (hplaced : placed = x :: y :: zs) (hfirst : f.Gives content)
    {second : Bytes} (hsecond : g.Gives second) :
    ∃ c, a.FirstFault s placed c [(f, x.path)] g y.path (others.zip (zs.map Placed.path))
      (.archive (.singleFile y.path x.path)) := by
  have hplan : a.plan.archive = .none := harchive
  obtain ⟨c, hadd, -, output, hwriter, -⟩ :=
    Composition.exists_addContent_start hdigests hplan hfirst s.id x.path
  refine ⟨c, ?_, .cons hadd (.nil c), Composition.raises_singleFile hwriter hsecond y.path⟩
  rw [hfiles, hplaced]
  rfl

private theorem exists_wrote_single (hdigests : a.plan.digestFault? = none)
    (harchive : a.archive = .none) (hfiles : s.files = [f]) {x : Placed}
    (hplaced : placed = [x]) (hgives : f.Gives content) :
    ∃ c, Composition.Wrote a.plan s.id (.start a.plan) (s.files.zip (placed.map Placed.path)) c ∧
      c.resources = [f.record a.algorithms x.path content] ∧
      ∃ output : Array UInt8, c.pipeline.writer = .raw ⟨output, some x.path⟩ ∧
        output.toList = content := by
  have hplan : a.plan.archive = .none := harchive
  obtain ⟨c, hadd, hresources, hwriter⟩ :=
    Composition.exists_addContent_start hdigests hplan hgives s.id x.path
  rw [hfiles, hplaced]
  exact ⟨c, .cons hadd (.nil c), hresources, hwriter⟩

private theorem addAllGenerated_of_single {c : Composition} {output : Array UInt8} {x : Placed}
    (hwriter : c.pipeline.writer = .raw ⟨output, some x.path⟩)
    (hresources : c.resources = [f.record a.algorithms x.path content]) (notices : List String)
    (next : String) (bytes : Bytes) (rest : List (String × Bytes)) :
    ∃ d, Composition.addAllGenerated a.plan s.id { c with notices } ((next, bytes) :: rest) =
        (d, some (.error (Composition.singleFileError s.id x.path next))) ∧
      d.pipeline.writer = c.pipeline.writer := by
  have hpaths : ({ c with notices } : Composition).paths = [x.path] := by
    show c.resources.map Resource.packagePath = _
    rw [hresources]
    rfl
  obtain ⟨d, hadd, hsame⟩ := Composition.addGenerated_of_single (c := { c with notices }) a.plan
    hwriter hpaths s.id next bytes
  refine ⟨d, ?_, hsame⟩
  rw [Composition.addAllGenerated, hadd]

theorem Built.single {disk later : Disk} {directory : List String} {name : String}
    {sink : Recorder} {p : PackageStream} (h : a.Built s placed disk later directory name sink p)
    (hrefusal : a.refusal? s = none)
    (hplaced : Placement.resolve a.specification.policy s.placements = .ok placed)
    (harchive : a.archive = .none) (hgives : ∀ f ∈ s.files, ∃ content, f.Gives content) :
    ∃ f x content notices, s.files = [f] ∧ placed = [x] ∧ f.Gives content ∧
      a.specification.generate s [f.record a.algorithms x.path content] =
        .ok { files := [], notices } ∧
      sink.output = a.compression.encode content := by
  obtain ⟨c, d, generated, hwrote, hgenerate, hall, -, -, -, -, hsink⟩ := h.parts hplaced
  have hdigests : a.plan.digestFault? = none := hwrote.digestFault?_eq fun hnil =>
    files_ne_nil_of_refusal hrefusal (by rw [← map_fst_zip_placed hplaced, hnil, List.map_nil])
  match hfiles : s.files with
  | [] => exact absurd hfiles (files_ne_nil_of_refusal hrefusal)
  | f :: g :: others =>
    -- the second content file would have been refused
    obtain ⟨first, hfirst⟩ := hgives f (hfiles ▸ List.mem_cons_self)
    obtain ⟨second, hsecond⟩ :=
      hgives g (hfiles ▸ List.mem_cons_of_mem f List.mem_cons_self)
    obtain ⟨x, y, zs, hplaces⟩ := exists_placed_cons_cons hplaced hfiles
    obtain ⟨e, hfault⟩ := firstFault_second hdigests harchive hfiles hplaces hfirst hsecond
    rw [hfault.split] at hwrote
    exact absurd hwrote (hfault.wrote.not_wrote_of_raises hfault.raises _)
  | [f] =>
    obtain ⟨content, hcontent⟩ := hgives f (hfiles ▸ List.mem_singleton_self f)
    obtain ⟨x, hplaces⟩ := exists_placed_singleton hplaced hfiles
    obtain ⟨e, hwhole, hresources, output, hwriter, hwritten⟩ :=
      exists_wrote_single hdigests harchive hfiles hplaces hcontent
    obtain rfl := hwrote.unique hwhole
    rw [hresources] at hgenerate
    match hgenerated : generated with
    | ⟨(next, bytes) :: rest, notices⟩ =>
      obtain ⟨e, hrefused, -⟩ := addAllGenerated_of_single (a := a) (s := s) hwriter hresources
        (c.notices ++ notices) next bytes rest
      cases hall.symm.trans hrefused
    | ⟨[], notices⟩ =>
      refine ⟨f, x, content, notices, rfl, hplaces, hcontent, hgenerate, ?_⟩
      obtain rfl : { c with notices := c.notices ++ notices } = d := congrArg Prod.fst hall
      have hfollows := hwrote.follows (Composition.follows_start a.plan)
      obtain ⟨hout, -⟩ := hfollows.sound.close
      rw [hfollows.compression_eq, hwriter] at hout
      rw [← hsink]
      exact hout.trans (congrArg a.compression.encode hwritten)

private theorem fits_of_follows {c : Composition} (harchive : a.archive = .none)
    (h : c.Follows a.plan) :
    c.pipeline.writer.Fits := by
  apply h.fits
  show a.archive ≠ .zip
  rw [harchive]
  exact ArchiveFormat.noConfusion

private theorem Admits.run_assemble_of_second (h : a.Admits s placed before)
    (harchive : a.archive = .none)
    (hgives : ∀ f ∈ s.files, ∃ content, f.Gives content) (hfiles : s.files = f :: g :: others) :
    ∃ x y zs after, placed = x :: y :: zs ∧
      (a.assemble s : StateM Surroundings _).run before =
        (.error (.error (.content s.id g.name (.archive (.singleFile y.path x.path)))), after) := by
  obtain ⟨first, hfirst⟩ := hgives f (hfiles ▸ List.mem_cons_self)
  obtain ⟨second, hsecond⟩ := hgives g (hfiles ▸ List.mem_cons_of_mem f List.mem_cons_self)
  obtain ⟨x, y, zs, hplaces⟩ := exists_placed_cons_cons h.placed_eq hfiles
  obtain ⟨c, hfault⟩ := firstFault_second h.digests harchive hfiles hplaces hfirst hsecond
  obtain ⟨failure, after, hrun, -, hfailure⟩ := hfault.run_assemble h.toStarts
  have hleft : (a.left s c g y.path).Follows a.plan :=
    (hfault.wrote.follows (Composition.follows_start a.plan)).addContent g y.path g.opened
  obtain rfl := hfailure (fits_of_follows harchive hleft)
  exact ⟨x, y, zs, after, hplaces, hrun a.specification.generate⟩

private theorem Admits.run_assemble_of_added (h : a.Admits s placed before)
    (harchive : a.archive = .none)
    {x : Placed} (hfiles : s.files = [f]) (hplaced : placed = [x]) (hgives : f.Gives content)
    {next : String} {bytes : Bytes} {rest : List (String × Bytes)} {notices : List String}
    (hgenerate : a.specification.generate s [f.record a.algorithms x.path content] =
      .ok { files := (next, bytes) :: rest, notices }) :
    ∃ after, (a.assemble s : StateM Surroundings _).run before =
      (.error (.error (Composition.singleFileError s.id x.path next)), after) := by
  obtain ⟨c, hwrote, hresources, output, hwriter, -⟩ :=
    exists_wrote_single h.digests harchive hfiles hplaced hgives
  obtain ⟨d, hrefused, hsame⟩ := addAllGenerated_of_single (a := a) (s := s) hwriter hresources
    (c.notices ++ notices) next bytes rest
  rw [← hresources] at hgenerate
  have hend : d.pipeline.writer.Fits := by
    rw [hsame]
    exact fits_of_follows harchive (hwrote.follows (Composition.follows_start a.plan))
  exact h.run_assemble_of_generate hwrote hgenerate hrefused hend

/-- A package without an archive is one file. Entries offered to a writer without an archive are
written up to the first one, and refused without being read after it. So of the submissions whose
content files open, fail at no read and have the sizes that are declared, exactly those of one file
are packaged, if the specification adds nothing; the package decompresses to the content of that
file. Where there is a second content file, the error names it; where there is none but a generated
file, the error names that. -/
theorem assemble_unarchived :
    (∀ algorithms (e : Archive.Offered) later, ∃ first : Archive.Added Archive.Raw.Writer,
      Archive.Raw.Writer.empty.addEach algorithms (e :: later) =
        first :: later.map (fun f => ⟨first.writer, f.reader algorithms,
          some (.archive (.singleFile f.path e.path))⟩) ∧
      first.writer.output.toList ++ first.reader.stream.rest = e.source.bytes ∧
      (e.source.FaultFree → first.writer.output.toList = e.source.bytes)) ∧
    (∀ path first, (Fault.archive (.singleFile path first)).family = .value) ∧
    ∀ (a : Assembler) (s : Submission) (placed : List Placed) (before : Surroundings),
      a.Admits s placed before → a.archive = .none →
      (∀ f ∈ s.files, ∃ content, f.Gives content) →
      ((∃ p after, (a.assemble s : StateM Surroundings _).run before = (.ok p, after)) ↔
        ∃ f x content notices, s.files = [f] ∧ placed = [x] ∧ f.Gives content ∧
          a.specification.generate s [f.record a.algorithms x.path content] =
            .ok { files := [], notices }) ∧
      (∀ p after, (a.assemble s : StateM Surroundings _).run before = (.ok p, after) →
        ∃ f content bytes, s.files = [f] ∧ f.Gives content ∧
          (p.open : StateM Surroundings _).run after = (.ok (.start bytes), after) ∧
          bytes = a.compression.encode content ∧
          ∀ decompress : Bytes → Option Bytes,
            (∀ bs, decompress (a.compression.encode bs) = some bs) →
            decompress bytes = some content) ∧
      (∀ f g others, s.files = f :: g :: others → ∃ x y zs after, placed = x :: y :: zs ∧
        (a.assemble s : StateM Surroundings _).run before =
          (.error (.error (.content s.id g.name (.archive (.singleFile y.path x.path)))), after)) ∧
      ∀ f x content next bytes others notices, s.files = [f] → placed = [x] → f.Gives content →
        a.specification.generate s [f.record a.algorithms x.path content] =
          .ok { files := (next, bytes) :: others, notices } →
        ∃ e after, (a.assemble s : StateM Surroundings _).run before =
            (.error (.error e), after) ∧
          e.submission = s.id ∧ e.file? = some next ∧
          e = if next = x.path then .collision s.id next
            else .generated s.id next (.archive (.singleFile next x.path)) := by
  refine ⟨Archive.Raw.Writer.addEach_empty, fun _ _ => rfl, ?_⟩
  intro a s placed before hadmits harchive hgives
  refine ⟨⟨?onlyOne, ?oneFile⟩, ?content, ?secondFile, ?generated⟩
  case onlyOne =>
    rintro ⟨p, after, hrun⟩
    obtain ⟨directory, name, sink, h⟩ := hadmits.built_of_run hrun
    obtain ⟨f, x, content, notices, hfiles, hplaced, hcontent, hgenerate, -⟩ :=
      h.single hadmits.refusal_eq hadmits.placed_eq harchive hgives
    exact ⟨f, x, content, notices, hfiles, hplaced, hcontent, hgenerate⟩
  case oneFile =>
    rintro ⟨f, x, content, notices, hfiles, hplaced, hcontent, hgenerate⟩
    obtain ⟨c, hwrote, hresources, -⟩ :=
      exists_wrote_single hadmits.digests harchive hfiles hplaced hcontent
    rw [← hresources] at hgenerate
    exact hadmits.run_assemble_of_wrote hwrote hgenerate
      (fits_of_follows harchive (hwrote.follows (Composition.follows_start a.plan)))
  case content =>
    intro p after hrun
    obtain ⟨directory, name, sink, h⟩ := hadmits.built_of_run hrun
    obtain ⟨f, x, content, notices, hfiles, -, hcontent, -, hout⟩ :=
      h.single hadmits.refusal_eq hadmits.placed_eq harchive hgives
    refine ⟨f, content, sink.output, hfiles, hcontent, h.run_open, hout, ?_⟩
    intro decompress hdecompress
    rw [hout, hdecompress]
  case secondFile =>
    intro f g others hfiles
    exact hadmits.run_assemble_of_second harchive hgives hfiles
  case generated =>
    intro f x content next bytes others notices hfiles hplaced hcontent hgenerate
    obtain ⟨after, hrun⟩ :=
      hadmits.run_assemble_of_added harchive hfiles hplaced hcontent hgenerate
    exact ⟨_, after, hrun, Composition.submission_singleFileError _ _ _,
      Composition.file?_singleFileError _ _ _, rfl⟩

/-- An assembler that packs single files. -/
def packingAssembler : Assembler where
  specification := Specification.simpleZip
  options := { archive := some .none, compression := some .gzip }
  algorithms := [.sha256, .md5]
  supported := supportedAlgorithms_usual

def firstLetter : Submission :=
  { letter with files := [firstPage] }

private theorem gives_firstPage : firstPage.Gives (Bytes.ofText "Dear all,") := by
  refine ⟨_, rfl, rfl, rfl, ?_⟩
  rintro n ⟨⟩
  decide

private theorem gives_letter : ∀ f ∈ letter.files, ∃ content, f.Gives content := by
  intro f hf
  rcases List.mem_pair.1 hf with rfl | rfl
  · refine ⟨_, _, rfl, rfl, rfl, ?_⟩
    rintro n ⟨⟩
  · refine ⟨_, _, rfl, rfl, rfl, ?_⟩
    rintro n ⟨⟩
    decide

private theorem admits_firstLetter :
    packingAssembler.Admits firstLetter (pagePlaces ["first.txt"]) emptyDesk := by
  have hplaced : Placement.resolve packingAssembler.specification.policy firstLetter.placements =
      .ok (pagePlaces ["first.txt"]) := by
    decide +kernel
  exact ⟨⟨rfl, hplaced, _, _, rfl⟩, rfl⟩

private theorem admits_wholeLetter :
    packingAssembler.Admits letter (pagePlaces ["letter.txt", "seal.bin"]) emptyDesk := by
  have hplaced : Placement.resolve packingAssembler.specification.policy letter.placements =
      .ok (pagePlaces ["letter.txt", "seal.bin"]) := by
    decide +kernel
  exact ⟨⟨rfl, hplaced, _, _, rfl⟩, rfl⟩

/-- One page is packaged as it is, two files are too many, and so are one page and a note. -/
theorem assemble_unarchived_letters :
    (∃ p after bytes, (packingAssembler.assemble firstLetter : StateM Surroundings _).run
        emptyDesk = (.ok p, after) ∧
      (p.open : StateM Surroundings _).run after = (.ok (.start bytes), after) ∧
      Codec.Gzip.decode bytes = some (Bytes.ofText "Dear all,")) ∧
    (∃ after, (packingAssembler.assemble letter : StateM Surroundings _).run emptyDesk =
      (.error (.error (.content "letter" "seal.bin"
        (.archive (.singleFile "seal.bin" "letter.txt")))), after)) ∧
    ∃ after, ((packingAssembler.generating fun _ _ => .ok { files := [("about.txt", [])] }).assemble
        firstLetter : StateM Surroundings _).run emptyDesk =
      (.error (.error (.generated "letter" "about.txt"
        (.archive (.singleFile "about.txt" "first.txt")))), after) := by
  obtain ⟨-, -, hunarchived⟩ := assemble_unarchived
  have hfirst : ∀ f ∈ firstLetter.files, ∃ content, f.Gives content := by
    intro f hf
    obtain rfl := List.mem_singleton.1 hf
    exact ⟨_, gives_firstPage⟩
  refine ⟨?page, ?whole, ?note⟩
  case page =>
    obtain ⟨hreturns, hholds, -⟩ := hunarchived _ _ _ _ admits_firstLetter rfl hfirst
    obtain ⟨p, after, hrun⟩ :=
      hreturns.2 ⟨firstPage, _, _, [], rfl, rfl, gives_firstPage, rfl⟩
    obtain ⟨f, content, bytes, hfiles, ⟨source, hopened, -, hcontent, -⟩, hopen, -, hdecoded⟩ :=
      hholds p after hrun
    obtain rfl := List.singleton_inj.1 hfiles
    cases hopened
    obtain rfl : Bytes.ofText "Dear all," = content := hcontent
    exact ⟨p, after, bytes, hrun, hopen, hdecoded _ Codec.Gzip.decode_encode⟩
  case whole =>
    obtain ⟨-, -, hsecond, -⟩ := hunarchived _ _ _ _ admits_wholeLetter rfl gives_letter
    obtain ⟨x, y, zs, after, hplaces, hrun⟩ := hsecond _ _ _ rfl
    cases hplaces
    exact ⟨after, hrun⟩
  case note =>
    obtain ⟨-, -, -, hgenerated⟩ := hunarchived _ _ _ _
      (admits_firstLetter.generating fun _ _ => .ok { files := [("about.txt", [])] }) rfl hfirst
    obtain ⟨e, after, hrun, -, -, rfl⟩ :=
      hgenerated _ _ _ _ _ _ _ rfl rfl gives_firstPage rfl
    exact ⟨after, hrun⟩

end Assembler

end Deposit
