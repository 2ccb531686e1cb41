import Deposit.Proofs.Archive.Offered
import Deposit.Proofs.Assembly.Failure

set_option autoImplicit false
set_option relaxedAutoImplicit false

/-!
Compression does not show through. What the archive writes, which faults it raises and what is read
of the sources does not depend on the layers below it, so two runs of one assembler under different
compressions stay in step: they have opened and written the same files, and differ only in what the
compression makes of the same bytes. Main statement: assembling under a compression fails as it does
without one, and otherwise returns the same package, compressed.
-/

namespace Deposit

/-- A plan under another compression. -/
def PackagingPlan.compressing (plan : PackagingPlan) (k : Compression) : PackagingPlan :=
  { plan with compression := k }

private theorem Pipeline.add_congr {p q : Pipeline} (h : p.writer = q.writer) (path : String)
    (r : Reader) (size : Option Int) :
    (p.add path r size).fault = (q.add path r size).fault ∧
      (p.add path r size).reader = (q.add path r size).reader ∧
      (p.add path r size).writer.writer = (q.add path r size).writer.writer := by
  simp only [Pipeline.writer_add]
  simp only [Pipeline.add, Archive.Added.map, h, and_self]

namespace Composition

/-- Two compositions that have come equally far: what they have written to the archive and described
is the same. -/
structure InStep (c d : Composition) : Prop where
  writer_eq : c.pipeline.writer = d.pipeline.writer
  resources_eq : c.resources = d.resources

/-- Two steps that have come equally far, and have both failed alike or both go on. -/
inductive Together :
    Composition × Option AssemblyFailure → Composition × Option AssemblyFailure → Prop where
  | fails {c d : Composition} (failure : AssemblyFailure) (h : c.InStep d) :
      Together (c, some failure) (d, some failure)
  | goesOn {c d : Composition} (h : c.InStep d) : Together (c, none) (d, none)

variable {c d : Composition} (plan : PackagingPlan) (j k : Compression) (submission : String)

theorem InStep.addContent (h : c.InStep d) (file : ContentFile) (path : String)
    (opened : Except Fault Source) :
    Together (addContent (plan.compressing j) submission c file path opened)
      (addContent (plan.compressing k) submission d file path opened) := by
  cases opened with
  | error fault => exact .fails _ h
  | ok source =>
    obtain ⟨hfault, hreader, hwriter⟩ := Pipeline.add_congr h.writer_eq path
      (.start plan.algorithms source.open) file.size
    have hplan (l : Compression) : (plan.compressing l).digestFault? = plan.digestFault? := rfl
    unfold Composition.addContent
    rw [hplan j, hplan k]
    simp only [PackagingPlan.compressing, hfault, hreader]
    split
    · exact .fails _ ⟨hwriter, h.resources_eq⟩
    · split
      · exact .fails _ ⟨hwriter, h.resources_eq⟩
      · refine .goesOn ⟨hwriter, ?_⟩
        rw [h.resources_eq]

theorem InStep.addGenerated (h : c.InStep d) (path : String) (content : Bytes) :
    Together (addGenerated (plan.compressing j) submission c path content)
      (addGenerated (plan.compressing k) submission d path content) := by
  obtain ⟨hfault, hreader, hwriter⟩ := Pipeline.add_congr h.writer_eq path
    (.start plan.algorithms (Source.ofBytes content).open) (some content.length)
  have hplan (l : Compression) : (plan.compressing l).digestFault? = plan.digestFault? := rfl
  unfold Composition.addGenerated
  rw [hplan j, hplan k]
  simp only [PackagingPlan.compressing, h.resources_eq, hfault, hreader]
  split
  · exact .fails _ h
  · split
    · exact .fails _ ⟨hwriter, rfl⟩
    · split
      · exact .fails _ ⟨hwriter, rfl⟩
      · exact .goesOn ⟨hwriter, rfl⟩

theorem InStep.addAllGenerated (h : c.InStep d) (files : List (String × Bytes)) :
    Together (addAllGenerated (plan.compressing j) submission c files)
      (addAllGenerated (plan.compressing k) submission d files) := by
  induction files generalizing c d with
  | nil => exact .goesOn h
  | cons file files ih =>
    obtain ⟨path, content⟩ := file
    have hstep := h.addGenerated plan j k submission path content
    unfold Composition.addAllGenerated
    generalize Composition.addGenerated (plan.compressing j) submission c path content = x
      at hstep ⊢
    generalize Composition.addGenerated (plan.compressing k) submission d path content = y
      at hstep ⊢
    cases hstep with
    | fails failure hnext => exact .fails failure hnext
    | goesOn hnext => exact ih hnext

theorem InStep.addSupplement (h : c.InStep d) (s : Submission) :
    Together (addSupplement (plan.compressing j) s c) (addSupplement (plan.compressing k) s d) := by
  have hplan (l : Compression) : (plan.compressing l).specification = plan.specification := rfl
  have hgenerate : plan.specification.generate s c.resources =
      plan.specification.generate s d.resources := by
    rw [h.resources_eq]
  unfold Composition.addSupplement
  rw [hplan, hplan, hgenerate]
  split
  · exact .fails _ h
  · rename_i generated _
    have hnoted : ({ c with notices := c.notices ++ generated.notices } : Composition).InStep
        { d with notices := d.notices ++ generated.notices } :=
      ⟨h.writer_eq, h.resources_eq⟩
    exact hnoted.addAllGenerated plan j k s.id generated.files

theorem InStep.run_addContents (h : c.InStep d) (items : List (ContentFile × String))
    (before other : Surroundings) :
    Together
      ((addContents (plan.compressing j) submission c items : StateM Surroundings _).run before).1
      ((addContents (plan.compressing k) submission d items : StateM Surroundings _).run
        other).1 := by
  induction items generalizing c d before other with
  | nil => exact .goesOn h
  | cons item items ih =>
    obtain ⟨file, path⟩ := item
    have hstep := h.addContent plan j k submission file path file.opened
    rw [run_addContents_cons, run_addContents_cons]
    generalize Composition.addContent (plan.compressing j) submission c file path
      file.opened = x at hstep ⊢
    generalize Composition.addContent (plan.compressing k) submission d file path
      file.opened = y at hstep ⊢
    cases hstep with
    | fails failure hnext => exact .fails failure hnext
    | goesOn hnext => exact ih hnext _ _

variable {plan j k}

theorem Follows.run_addContents (h : c.Follows plan) (items : List (ContentFile × String))
    (before : Surroundings) :
    ((addContents plan submission c items : StateM Surroundings _).run before).1.1.Follows
      plan := by
  induction items generalizing c before with
  | nil => exact h
  | cons item items ih =>
    obtain ⟨file, path⟩ := item
    have hstep : (Composition.addContent plan submission c file path file.opened).1.Follows plan :=
      h.addContent file path file.opened
    rw [run_addContents_cons]
    split
    · rename_i hadd
      rwa [hadd] at hstep
    · rename_i hadd
      rw [hadd] at hstep
      exact ih hstep _

theorem InStep.conclude (h : c.InStep d) (failure : Option AssemblyFailure) :
    (c.conclude submission failure).outcome = (d.conclude submission failure).outcome := by
  unfold Composition.conclude
  rw [h.writer_eq, h.resources_eq]

/-- Two composed packages of one plan under two compressions: they end alike, and all that they
have written is one sequence of bytes, as either compression leaves it. -/
structure Twins (algorithms : List Digest.Algorithm) (j k : Compression) (x y : Composed) :
    Prop where
  outcome_eq : x.outcome = y.outcome
  left_counts : x.sink.Counts algorithms
  right_counts : y.sink.Counts algorithms
  output_eq : ∃ bytes, x.sink.output = j.encode bytes ∧ y.sink.output = k.encode bytes

private theorem InStep.twins (h : c.InStep d) (hleft : c.Follows (plan.compressing j))
    (hright : d.Follows (plan.compressing k)) (failure : Option AssemblyFailure) :
    Twins plan.algorithms j k (c.conclude submission failure) (d.conclude submission failure) := by
  obtain ⟨hout, hcounts⟩ := hleft.sound.close
  obtain ⟨hother, hothers⟩ := hright.sound.close
  rw [hleft.compression_eq] at hout
  rw [hright.compression_eq, ← h.writer_eq] at hother
  exact ⟨h.conclude submission failure, hcounts, hothers, _, hout, hother⟩

private theorem twins_compose (plan : PackagingPlan) (j k : Compression) (s : Submission)
    (placed : List Placed) (before other : Surroundings) :
    Twins plan.algorithms j k
      (((plan.compressing j).compose s placed : StateM Surroundings _).run before).1
      (((plan.compressing k).compose s placed : StateM Surroundings _).run other).1 := by
  -- the two archives are written over different streams, which they do not see
  have hstart : (start (plan.compressing j)).InStep (start (plan.compressing k)) :=
    ⟨(writer_start (plan.compressing j)).trans (writer_start (plan.compressing k)).symm, rfl⟩
  have hleft := (follows_start (plan.compressing j)).run_addContents s.id
    (s.files.zip (placed.map Placed.path)) before
  have hright := (follows_start (plan.compressing k)).run_addContents s.id
    (s.files.zip (placed.map Placed.path)) other
  have hstep := hstart.run_addContents plan j k s.id (s.files.zip (placed.map Placed.path))
    before other
  rw [run_compose, run_compose]
  generalize ((addContents (plan.compressing j) s.id (start (plan.compressing j))
    (s.files.zip (placed.map Placed.path)) : StateM Surroundings _).run before).1 = x
    at hleft hstep ⊢
  generalize ((addContents (plan.compressing k) s.id (start (plan.compressing k))
    (s.files.zip (placed.map Placed.path)) : StateM Surroundings _).run other).1 = y
    at hright hstep ⊢
  cases hstep with
  | fails failure hnext => exact hnext.twins s.id hleft hright (some failure)
  | @goesOn c d hnext =>
    have hleftEnd := hleft.addSupplement s
    have hrightEnd := hright.addSupplement s
    have hend := hnext.addSupplement plan j k s
    unfold complete
    dsimp only at hleftEnd hrightEnd ⊢
    generalize addSupplement (plan.compressing j) s c = x at hleftEnd hend ⊢
    generalize addSupplement (plan.compressing k) s d = y at hrightEnd hend ⊢
    cases hend with
    | fails failure hlast => exact hlast.twins s.id hleftEnd hrightEnd (some failure)
    | goesOn hlast => exact hlast.twins s.id hleftEnd hrightEnd none

end Composition

namespace Assembler

variable {a : Assembler} {s : Submission} {placed : List Placed} {before : Surroundings}

/-- An assembler that is asked for another compression. -/
def compressing (a : Assembler) (k : Compression) : Assembler :=
  { a with options := { a.options with compression := some k } }

private theorem Starts.compressing (h : a.Starts s placed before) (k : Compression) :
    (a.compressing k).Starts s placed before :=
  ⟨h.refusal_eq, h.placed_eq, h.creates⟩

private theorem starts_or_fails (a : Assembler) (s : Submission) (before : Surroundings) :
    (∃ placed, a.Starts s placed before) ∨
      ∃ failure, ∀ k, ∃ after, ((a.compressing k).assemble s : StateM Surroundings _).run before =
        (.error failure, after) := by
  cases hrefusal : a.refusal? s with
  | some e =>
    refine Or.inr ⟨.error e, fun k => ⟨before, ?_⟩⟩
    rw [assemble_of_refusal (a := a.compressing k) hrefusal]
    rfl
  | none =>
    cases hplaced : Placement.resolve a.specification.policy s.placements with
    | error cause =>
      refine Or.inr ⟨.error (.unplaceable s.id cause), fun k => ?_⟩
      rw [assemble_of_unplaceable (a := a.compressing k) hrefusal hplaced,
        Surroundings.run_bind_of_run (Surroundings.run_notices before .info _)]
      exact ⟨_, rfl⟩
    | ok placed =>
      cases hcreate : before.disk.createTemporary
          (a.options.temporaryDirectory.getD before.temporaryDirectory) with
      | ok created => exact Or.inl ⟨placed, hrefusal, hplaced, _, _, hcreate⟩
      | error fault =>
        refine Or.inr ⟨.fault (.file fault), fun k => ?_⟩
        have hnoted : ({ before with log := (a.compressing k).openingNotices s ++ before.log } :
            Surroundings).disk.createTemporary
              ((a.compressing k).options.temporaryDirectory.getD
                ({ before with log := (a.compressing k).openingNotices s ++ before.log } :
                  Surroundings).temporaryDirectory) = .error fault := hcreate
        rw [run_assemble_of_placed (a := a.compressing k) hrefusal hplaced]
        unfold build
        rw [Surroundings.run_bind_of_run (Surroundings.run_createTemporary_of_error hnoted)]
        exact ⟨_, rfl⟩

/-- A package that delivers some bytes and lists some files, described as an assembler describes
it. -/
structure Ships (a : Assembler) (s : Submission) (resources : List Resource) (bytes : Bytes)
    (after : Surroundings) (p : PackageStream) : Prop where
  opens : (p.open : StateM Surroundings _).run after = (.ok (.start bytes), after)
  resources_eq : p.resources = resources
  metadata_eq : ∃ checksums, a.library.Describes a.options.algorithms checksums bytes ∧
    p.metadata =
      { name := packageFileName (packageBaseName a.archive s.id resources) a.archive a.compression
        specification := a.specification.identifier
        archive := a.archive
        compression := a.compression
        sizeBytes := bytes.length
        checksums
        mediaType := packageMediaType a.archive a.compression }

theorem Starts.ends (h : a.Starts s placed before) {composed : Composed} {opened : List String}
    (hcompose : ∀ start : Surroundings,
      (a.plan.compose s placed : StateM Surroundings _).run start =
        (composed, { start with opened := opened ++ start.opened }))
    (hcounts : composed.sink.Counts a.algorithms) :
    match composed.outcome with
    | .error failure =>
      ∃ after, (a.assemble s : StateM Surroundings _).run before = (.error failure, after)
    | .ok resources =>
      ∃ p after, (a.assemble s : StateM Surroundings _).run before = (.ok p, after) ∧
        a.Ships s resources composed.sink.output after p := by
  obtain ⟨place, path, hfresh, hrun⟩ := h.run_assemble hcompose
  cases houtcome : composed.outcome with
  | error failure =>
    rw [houtcome] at hrun
    exact ⟨_, hrun⟩
  | ok resources =>
    rw [houtcome] at hrun
    refine ⟨_, _, hrun, ?_, rfl, _, a.describes_of_supported hcounts.describes, ?_⟩
    · exact PackageStream.run_open_of_read rfl (hfresh.read_set composed.sink.output)
    · rw [← hcounts.count_eq]
      rfl

private theorem run_compressing (a : Assembler) (s : Submission) (before : Surroundings)
    (j k : Compression) :
    (∃ failure after later,
      ((a.compressing j).assemble s : StateM Surroundings _).run before = (.error failure, after) ∧
      ((a.compressing k).assemble s : StateM Surroundings _).run before =
        (.error failure, later)) ∨
    ∃ resources bytes p q after later,
      ((a.compressing j).assemble s : StateM Surroundings _).run before = (.ok p, after) ∧
      ((a.compressing k).assemble s : StateM Surroundings _).run before = (.ok q, later) ∧
      (a.compressing j).Ships s resources (j.encode bytes) after p ∧
      (a.compressing k).Ships s resources (k.encode bytes) later q := by
  rcases a.starts_or_fails s before with ⟨placed, hstarts⟩ | ⟨failure, hfails⟩
  · obtain ⟨x, opened, hx⟩ := (a.compressing j).exists_run_compose s placed
    obtain ⟨y, others, hy⟩ := (a.compressing k).exists_run_compose s placed
    have htwins : Composition.Twins a.algorithms j k x y := by
      have htwins := Composition.twins_compose a.plan j k s placed before before
      have hleft : (((a.plan.compressing j).compose s placed :
          StateM Surroundings _).run before).1 = x := congrArg Prod.fst (hx before)
      have hright : (((a.plan.compressing k).compose s placed :
          StateM Surroundings _).run before).1 = y := congrArg Prod.fst (hy before)
      rwa [hleft, hright] at htwins
    have hleft := (hstarts.compressing j).ends hx htwins.left_counts
    have hright := (hstarts.compressing k).ends hy htwins.right_counts
    obtain ⟨bytes, hout, hother⟩ := htwins.output_eq
    rw [htwins.outcome_eq] at hleft
    rw [hout] at hleft
    rw [hother] at hright
    cases houtcome : y.outcome with
    | error failure =>
      rw [houtcome] at hleft hright
      obtain ⟨after, hj⟩ := hleft
      obtain ⟨later, hk⟩ := hright
      exact Or.inl ⟨failure, after, later, hj, hk⟩
    | ok resources =>
      rw [houtcome] at hleft hright
      obtain ⟨p, after, hj, hp⟩ := hleft
      obtain ⟨q, later, hk, hq⟩ := hright
      exact Or.inr ⟨resources, bytes, p, q, after, later, hj, hk, hp, hq⟩
  · obtain ⟨after, hj⟩ := hfails j
    obtain ⟨later, hk⟩ := hfails k
    exact Or.inl ⟨failure, after, later, hj, hk⟩

/-- Compression is transparent. Under a compression a submission fails with the failure it has
without one, and is packaged if it is packaged without one; then the package is the compressed form
of the plain one, so that whoever undoes the compression gets the plain one, both list the same
files, and in their metadata only the name, which gets one more extension, the compression, the
size, the checksums and the media type differ, the size and the checksums being those of the
compressed bytes. For every format, entries are laid out over the compressed stream as they are over
the plain one. -/
theorem compression_transparent (a : Assembler) (k : Compression) (s : Submission)
    (before : Surroundings) :
    (∀ (format : ArchiveFormat) (sink : Archive.Sink) (algorithms : List Digest.Algorithm)
      (offered : List Archive.Offered),
      (Archive.Writer.above format (k.sink sink)).addAll algorithms offered =
        (Archive.Writer.above format (Compression.none.sink sink)).addAll algorithms offered) ∧
    (∀ failure,
      (∃ after, ((a.compressing k).assemble s : StateM Surroundings _).run before =
        (.error failure, after)) ↔
      ∃ after, ((a.compressing .none).assemble s : StateM Surroundings _).run before =
        (.error failure, after)) ∧
    ((∃ q later, ((a.compressing k).assemble s : StateM Surroundings _).run before =
        (.ok q, later)) ↔
      ∃ p after, ((a.compressing .none).assemble s : StateM Surroundings _).run before =
        (.ok p, after)) ∧
    ∀ p q after later,
      ((a.compressing .none).assemble s : StateM Surroundings _).run before = (.ok p, after) →
      ((a.compressing k).assemble s : StateM Surroundings _).run before = (.ok q, later) →
      ∃ bytes packed checksums,
        (p.open : StateM Surroundings _).run after = (.ok (.start bytes), after) ∧
        (q.open : StateM Surroundings _).run later = (.ok (.start packed), later) ∧
        packed = k.encode bytes ∧
        (∀ decompress : Bytes → Option Bytes, (∀ bs, decompress (k.encode bs) = some bs) →
          decompress packed = some bytes) ∧
        q.resources = p.resources ∧
        a.library.Describes a.options.algorithms checksums packed ∧
        q.metadata =
          { p.metadata with
            name := p.metadata.name ++ k.extension
            mediaType := packageMediaType a.archive k
            compression := k
            sizeBytes := packed.length
            checksums } := by
  refine ⟨fun format sink algorithms offered => ?layout, ?assembling⟩
  case layout =>
    rw [Archive.Writer.above_eq_start, Archive.Writer.above_eq_start]
  case assembling =>
    rcases a.run_compressing s before .none k with
      ⟨failure, after, later, hplain, hpacked⟩ |
      ⟨resources, bytes, p, q, after, later, hplain, hpacked, hp, hq⟩
    · rw [hplain, hpacked]
      refine ⟨fun other => ⟨?_, ?_⟩, ⟨?_, ?_⟩, ?_⟩
      · rintro ⟨_, ⟨⟩⟩
        exact ⟨after, rfl⟩
      · rintro ⟨_, ⟨⟩⟩
        exact ⟨later, rfl⟩
      · rintro ⟨_, _, ⟨⟩⟩
      · rintro ⟨_, _, ⟨⟩⟩
      · rintro _ _ _ _ ⟨⟩
    · rw [hplain, hpacked]
      refine ⟨fun other => ⟨?_, ?_⟩, ⟨?_, ?_⟩, ?_⟩
      · rintro ⟨_, ⟨⟩⟩
      · rintro ⟨_, ⟨⟩⟩
      · exact fun _ => ⟨p, after, rfl⟩
      · exact fun _ => ⟨q, later, rfl⟩
      · rintro _ _ _ _ ⟨⟩ ⟨⟩
        obtain ⟨plainChecksums, -, hplainMetadata⟩ := hp.metadata_eq
        obtain ⟨checksums, hchecksums, hmetadata⟩ := hq.metadata_eq
        refine ⟨bytes, k.encode bytes, checksums, hp.opens, hq.opens, rfl, ?_, ?_, hchecksums, ?_⟩
        · exact fun decompress hdecompress => hdecompress bytes
        · rw [hp.resources_eq, hq.resources_eq]
        · have hname :
              packageFileName (packageBaseName (a.compressing .none).archive s.id resources)
                (a.compressing .none).archive (a.compressing .none).compression ++ k.extension =
                packageFileName (packageBaseName a.archive s.id resources) a.archive k := by
            show _ ++ "" ++ k.extension = _
            rw [String.append_empty]
            rfl
          rw [hmetadata, hplainMetadata]
          simp only [hname]
          rfl

/-- The letter is the same package with and without compression, and the torn letter is as torn
under bzip2 as under gzip. -/
theorem compression_transparent_letter :
    (∃ p q after later bytes packed,
      ((letterAssembler.compressing .none).assemble letter : StateM Surroundings _).run emptyDesk =
        (.ok p, after) ∧
      ((letterAssembler.compressing .gzip).assemble letter : StateM Surroundings _).run emptyDesk =
        (.ok q, later) ∧
      (p.open : StateM Surroundings _).run after = (.ok (.start bytes), after) ∧
      (q.open : StateM Surroundings _).run later = (.ok (.start packed), later) ∧
      Codec.Gzip.decode packed = some bytes ∧ q.resources = p.resources ∧
      q.metadata.name = p.metadata.name ++ ".gz") ∧
    ∃ failure after later,
      ((letterAssembler.compressing .gzip).assemble tornLetter :
        StateM Surroundings _).run emptyDesk = (.error failure, after) ∧
      ((letterAssembler.compressing .bzip2).assemble tornLetter :
        StateM Surroundings _).run emptyDesk = (.error failure, later) := by
  have hsame : letterAssembler.compressing .gzip = letterAssembler := rfl
  refine ⟨?letter, ?torn⟩
  case letter =>
    obtain ⟨q, later, hq, -⟩ := assemble_letter
    rw [← hsame] at hq
    obtain ⟨-, -, hreturns, htransparent⟩ :=
      compression_transparent letterAssembler .gzip letter emptyDesk
    obtain ⟨p, after, hp⟩ := hreturns.1 ⟨q, later, hq⟩
    obtain ⟨bytes, packed, checksums, hplain, hpacked, -, hdecode, hresources, -, hmetadata⟩ :=
      htransparent p q after later hp hq
    refine ⟨p, q, after, later, bytes, packed, hp, hq, hplain, hpacked,
      hdecode _ Codec.Gzip.decode_encode, hresources, ?_⟩
    rw [hmetadata]
    rfl
  case torn =>
    obtain ⟨failure, after, hgzip⟩ := assemble_tornLetter
    rw [← hsame] at hgzip
    obtain ⟨-, hfails, -⟩ := compression_transparent letterAssembler .gzip tornLetter emptyDesk
    obtain ⟨plain, hplain⟩ := (hfails failure).1 ⟨after, hgzip⟩
    obtain ⟨-, hfailsToo, -⟩ := compression_transparent letterAssembler .bzip2 tornLetter emptyDesk
    obtain ⟨later, hbzip2⟩ := (hfailsToo failure).2 ⟨plain, hplain⟩
    exact ⟨failure, after, later, hgzip, hbzip2⟩

end Assembler

end Deposit
