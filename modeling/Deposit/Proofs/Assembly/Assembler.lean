import Deposit.Assembly.Assembler
import Deposit.Proofs.Assembly.Composition
import Deposit.Proofs.Disk.Fresh
import Deposit.Proofs.Host.Surroundings
import Deposit.Proofs.Package.Stream
import Deposit.Proofs.Placement.Resolution

set_option autoImplicit false
set_option relaxedAutoImplicit false

/-!
Assembling a submission, from the refusal of what cannot be packaged to the package file.
-/

namespace Deposit

namespace Assembler

/-- A package whose bytes have been written to a new file of a directory. -/
structure Built (a : Assembler) (s : Submission) (placed : List Placed) (before after : Disk)
    (directory : List String) (name : String) (sink : Recorder) (p : PackageStream) : Prop where
  fresh : before.Fresh p.place (directory ++ [name])
  disk_eq : after = before.set (directory ++ [name]) (.file sink.output)
  metadata_eq : p.metadata = a.plan.describe s p.resources sink
  isOpen : p.closed = false
  composed : ∃ c d, Composition.Wrote a.plan s.id (.start a.plan)
      (s.files.zip (placed.map Placed.path)) c ∧
    Composition.addSupplement a.plan s c = (d, none) ∧ d.pipeline.writer.closeFault? = none ∧
    d.resources = p.resources ∧ d.pipeline.close.sink = sink

theorem Built.locate_place {a : Assembler} {s : Submission} {placed : List Placed}
    {before after : Disk} {directory : List String} {name : String} {sink : Recorder}
    {p : PackageStream} (h : a.Built s placed before after directory name sink p) :
    after.locate p.place = .ok (directory ++ [name]) := by
  rw [h.disk_eq]
  exact h.fresh.locate_set _

/-- The notices of a composition, the last one first. -/
def composingNotices (composed : Composed) : List Notice :=
  (composed.notices.map (Notice.mk .debug)).reverse

/-- Building a package, once it has been composed beside its new file: if that went well, the file
takes all bytes at once, and otherwise it is removed. -/
theorem run_build (a : Assembler) (s : Submission) (placed : List Placed)
    {before later : Surroundings} {place : Location} {path : List String} {composed : Composed}
    (hcreate : before.disk.createTemporary
      (a.options.temporaryDirectory.getD before.temporaryDirectory) =
        .ok (place, before.disk.set path (.file [])))
    (hfresh : before.disk.Fresh place path)
    (hcompose : (a.plan.compose s placed : StateM Surroundings _).run
      { before with disk := before.disk.set path (.file []) } = (composed, later)) :
    (a.build s placed : StateM Surroundings _).run before =
      match composed.outcome with
      | .error failure =>
        (.error failure,
          { later with disk := before.disk, log := composingNotices composed ++ later.log })
      | .ok resources =>
        let p : PackageStream :=
          ⟨place, a.plan.describe s resources composed.sink, resources, false⟩
        (.ok p,
          { later with
            disk := before.disk.set path (.file composed.sink.output)
            log := ⟨.info, finishNotice s p⟩ :: (composingNotices composed ++ later.log) }) := by
  have hdisk : later.disk = before.disk.set path (.file []) := by
    have hsame := Composition.disk_compose a.plan s placed
      { before with disk := before.disk.set path (.file []) }
    rwa [hcompose] at hsame
  -- composing finds the new file empty and leaves it so; the bytes are written in one go after it
  have hwrite : ({ later with log := composingNotices composed ++ later.log } :
      Surroundings).disk.write place composed.sink.output =
        .ok (before.disk.set path (.file composed.sink.output)) := by
    show later.disk.write place composed.sink.output = _
    rw [hdisk, hfresh.write_set]
  have hnotices : (Host.notices .debug composed.notices : StateM Surroundings Unit).run later =
      ((), { later with log := composingNotices composed ++ later.log }) :=
    Surroundings.run_notices later .debug composed.notices
  unfold build
  rw [Surroundings.run_bind_of_run (Surroundings.run_createTemporary_of_ok hcreate)]
  dsimp only
  rw [Surroundings.run_bind_of_run hcompose, Surroundings.run_bind_of_run hnotices,
    Surroundings.run_bind_of_run (Surroundings.run_write_of_ok hwrite)]
  cases composed.outcome with
  | error failure =>
    -- the file goes again, and nothing else had changed
    dsimp only
    rw [Surroundings.run_bind_of_run (Surroundings.run_remove_of_ok
      (hfresh.remove_set composed.sink.output))]
    rfl
  | ok resources => rfl

theorem adds_build {kind : Notice → Prop} (a : Assembler) (s : Submission) (placed : List Placed)
    (hfiles : ∀ text, kind ⟨.debug, text⟩) (hfinish : ∀ p, kind ⟨.info, finishNotice s p⟩) :
    Surroundings.Adds kind (a.build s placed) := by
  refine (Surroundings.adds_createTemporary _).bind fun created => ?_
  cases created with
  | error fault => exact Surroundings.adds_pure _
  | ok place =>
    refine (Composition.adds_compose a.plan s placed).bind fun composed => ?_
    refine (Surroundings.adds_notices hfiles _).bind fun _ => ?_
    refine (Surroundings.adds_write _ _).bind fun written => ?_
    split
    · exact (Surroundings.adds_remove _).bind fun _ => Surroundings.adds_pure _
    · exact (Surroundings.adds_remove _).bind fun _ => Surroundings.adds_pure _
    · exact (Surroundings.adds_notice (hfinish _)).bind fun _ => Surroundings.adds_pure _

private theorem build_cases (a : Assembler) (s : Submission) (placed : List Placed)
    (before : Surroundings) :
    (∃ failure after, (a.build s placed : StateM Surroundings _).run before =
        (.error failure, after) ∧ after.disk = before.disk) ∨
      ∃ p after directory name sink, (a.build s placed : StateM Surroundings _).run before =
          (.ok p, after) ∧
        before.disk.find (Location.resolve before.disk.workingDirectory
          (a.options.temporaryDirectory.getD before.temporaryDirectory)) =
            .ok (directory, .directory) ∧
        a.Built s placed before.disk after.disk directory name sink p := by
  cases hcreate : before.disk.createTemporary
      (a.options.temporaryDirectory.getD before.temporaryDirectory) with
  | error fault =>
    unfold build
    rw [Surroundings.run_bind_of_run (Surroundings.run_createTemporary_of_error hcreate)]
    exact Or.inl ⟨_, _, rfl, rfl⟩
  | ok created =>
    obtain ⟨place, disk⟩ := created
    obtain ⟨directory, n, hdirectory, hfresh, rfl⟩ := Disk.createTemporary_eq_ok hcreate
    cases hcompose : (a.plan.compose s placed : StateM Surroundings _).run
        { before with
          disk := before.disk.set (directory ++ [Disk.temporaryName n]) (.file []) } with
    | mk composed later =>
    rw [a.run_build s placed hcreate hfresh hcompose]
    cases houtcome : composed.outcome with
    | error failure => exact Or.inl ⟨_, _, rfl, rfl⟩
    | ok resources =>
      obtain ⟨c, d, hwrote, hadded, hclose, hresources, hsink⟩ :=
        Composition.compose_eq_ok hcompose houtcome
      exact Or.inr ⟨_, _, directory, _, composed.sink, rfl, hdirectory, hfresh, rfl, rfl, rfl,
        c, d, hwrote, hadded, hclose, hresources, hsink⟩

theorem assemble_of_refusal {m : Type → Type} [Host m] {a : Assembler} {s : Submission}
    {e : AssemblyError} (h : a.refusal? s = some e) :
    (a.assemble s : m _) = pure (.error (.error e)) := by
  unfold assemble
  rw [h]

theorem assemble_of_unplaceable {m : Type → Type} [Host m] {a : Assembler} {s : Submission}
    {cause : PlacementError} (hr : a.refusal? s = none)
    (hp : Placement.resolve a.specification.policy s.placements = .error cause) :
    (a.assemble s : m _) = (do
      Host.notices .info (Placement.run a.specification.policy s.placements).notices
      pure (.error (.error (.unplaceable s.id cause)))) := by
  unfold Placement.resolve at hp
  unfold assemble
  simp only [hr, hp]

/-- The notices of a submission up to the composition of its package, the last one first. -/
def openingNotices (a : Assembler) (s : Submission) : List Notice :=
  ⟨.info, a.startNotice s⟩ ::
    ((Placement.run a.specification.policy s.placements).notices.map (Notice.mk .info)).reverse

theorem run_assemble_of_placed {a : Assembler} {s : Submission} {placed : List Placed}
    (hr : a.refusal? s = none)
    (hp : Placement.resolve a.specification.policy s.placements = .ok placed)
    (before : Surroundings) :
    (a.assemble s : StateM Surroundings _).run before =
      (a.build s placed : StateM Surroundings _).run
        { before with log := a.openingNotices s ++ before.log } := by
  unfold Placement.resolve at hp
  unfold assemble
  simp only [hr, hp]
  rw [Surroundings.run_bind_of_run (Surroundings.run_notices before .info _)]
  rfl

theorem adds_assemble {kind : Notice → Prop} (a : Assembler) (s : Submission)
    (hinfo : ∀ text, kind ⟨.info, text⟩) (hdebug : ∀ text, kind ⟨.debug, text⟩) :
    Surroundings.Adds kind (a.assemble s) := by
  unfold assemble
  cases a.refusal? s with
  | some e => exact Surroundings.adds_pure _
  | none =>
    refine (Surroundings.adds_notices hinfo _).bind fun _ => ?_
    cases (Placement.run a.specification.policy s.placements).table with
    | error cause => exact Surroundings.adds_pure _
    | ok placed =>
      refine (Surroundings.adds_notice (hinfo _)).bind fun _ => ?_
      exact a.adds_build s placed hdebug fun p => hinfo _

theorem assemble_cases (a : Assembler) (s : Submission) (before : Surroundings) :
    (∃ failure after, (a.assemble s : StateM Surroundings _).run before =
        (.error failure, after) ∧ after.disk = before.disk) ∨
      ∃ placed p after directory name sink, (a.assemble s : StateM Surroundings _).run before =
          (.ok p, after) ∧ a.refusal? s = none ∧
        Placement.resolve a.specification.policy s.placements = .ok placed ∧
        before.disk.find (Location.resolve before.disk.workingDirectory
          (a.options.temporaryDirectory.getD before.temporaryDirectory)) =
            .ok (directory, .directory) ∧
        a.Built s placed before.disk after.disk directory name sink p := by
  cases hr : a.refusal? s with
  | some e =>
    rw [assemble_of_refusal hr]
    exact Or.inl ⟨_, _, rfl, rfl⟩
  | none =>
    cases hp : Placement.resolve a.specification.policy s.placements with
    | error cause =>
      rw [assemble_of_unplaceable hr hp,
        Surroundings.run_bind_of_run (Surroundings.run_notices before .info _)]
      exact Or.inl ⟨_, _, rfl, rfl⟩
    | ok placed =>
      rw [run_assemble_of_placed hr hp]
      rcases a.build_cases s placed { before with log := a.openingNotices s ++ before.log } with
        ⟨failure, after, hbuild, hdisk⟩ | ⟨p, after, directory, name, sink, hbuild, hfound, hbuilt⟩
      · exact Or.inl ⟨failure, after, hbuild, hdisk⟩
      · exact Or.inr ⟨placed, p, after, directory, name, sink, hbuild, rfl, rfl, hfound, hbuilt⟩

theorem built_of_run {a : Assembler} {s : Submission} {before after : Surroundings}
    {p : PackageStream}
    (h : (a.assemble s : StateM Surroundings _).run before = (.ok p, after)) :
    ∃ placed directory name sink, a.refusal? s = none ∧
      Placement.resolve a.specification.policy s.placements = .ok placed ∧
      a.Built s placed before.disk after.disk directory name sink p := by
  rcases a.assemble_cases s before with ⟨failure, later, hrun, -⟩ |
    ⟨placed, q, later, directory, name, sink, hrun, hrefusal, hplaced, -, hbuilt⟩
  · cases h.symm.trans hrun
  · cases h.symm.trans hrun
    exact ⟨placed, directory, name, sink, hrefusal, hplaced, hbuilt⟩

theorem files_ne_nil_of_refusal {a : Assembler} {s : Submission} (h : a.refusal? s = none) :
    s.files ≠ [] := by
  intro hnil
  simp [refusal?, hnil] at h

theorem Built.run_open {a : Assembler} {s : Submission} {placed : List Placed} {before : Disk}
    {after : Surroundings} {directory : List String} {name : String} {sink : Recorder}
    {p : PackageStream} (h : a.Built s placed before after.disk directory name sink p) :
    (p.open : StateM Surroundings _).run after = (.ok (.start sink.output), after) := by
  have hread : after.disk.read p.place = .ok sink.output := by
    rw [h.disk_eq]
    exact h.fresh.read_set sink.output
  exact PackageStream.run_open_of_read h.isOpen hread

private theorem algorithm?_of_supported {library : Digest.Library} {names : List String}
    {algorithms : List Digest.Algorithm}
    (h : supportedAlgorithms library names = .ok algorithms) :
    algorithms.map Digest.Algorithm.name = names ∧
      ∀ x ∈ algorithms, library.algorithm? x.name = some x := by
  induction names generalizing algorithms with
  | nil =>
    obtain rfl := Except.ok.inj h
    exact ⟨rfl, fun x hx => nomatch hx⟩
  | cons name names ih =>
    unfold supportedAlgorithms at h
    split at h
    · simp at h
    · rename_i first hfirst
      cases hrest : supportedAlgorithms library names with
      | error e => simp [hrest, Except.map] at h
      | ok rest =>
        rw [hrest] at h
        obtain rfl := Except.ok.inj h
        obtain ⟨hnames, hall⟩ := ih hrest
        have hname : first.name = name := Digest.Library.name_of_algorithm? hfirst
        rw [List.map_cons, hnames, hname, List.forall_mem_cons, hname]
        exact ⟨rfl, hfirst, hall⟩

theorem describes_of_supported (a : Assembler) {checksums : List (String × String)} {bs : Bytes}
    (h : Digest.Describes a.algorithms checksums bs) :
    a.library.Describes a.options.algorithms checksums bs :=
  let ⟨hnames, hall⟩ := algorithm?_of_supported a.supported
  Digest.Library.describes_of_forall hnames hall h

theorem depicts_of_supported (a : Assembler) {rs : List Resource} {entries : List (String × Bytes)}
    (h : List.Forall₂ (Composition.Depicts (Digest.Describes a.algorithms)) rs entries) :
    List.Forall₂ (Composition.Depicts (a.library.Describes a.options.algorithms)) rs entries :=
  h.imp fun _ _ hr => ⟨hr.path_eq, hr.size_eq, a.describes_of_supported hr.checksums⟩

/-- No size that is declared for a content file is negative. -/
def SizesNonneg (s : Submission) : Prop :=
  ∀ f ∈ s.files, ∀ n, f.size = some n → 0 ≤ n

instance (s : Submission) : Decidable (SizesNonneg s) :=
  inferInstanceAs (Decidable (∀ f ∈ s.files, ∀ n ∈ f.size, 0 ≤ n))

variable {a : Assembler} {s : Submission} {placed : List Placed} {before after : Disk}
  {directory : List String} {name : String} {sink : Recorder} {p : PackageStream}

theorem length_placed (h : Placement.resolve a.specification.policy s.placements =
    .ok placed) : placed.length = s.files.length := by
  have hnames := congrArg List.length (Placement.map_name_of_resolve h)
  simpa [Submission.placements] using hnames

theorem map_fst_zip_placed (h : Placement.resolve a.specification.policy s.placements =
    .ok placed) : (s.files.zip (placed.map Placed.path)).map Prod.fst = s.files :=
  List.map_fst_zip (by simp [length_placed h])

theorem map_snd_zip_placed (h : Placement.resolve a.specification.policy s.placements =
    .ok placed) :
    (s.files.zip (placed.map Placed.path)).map Prod.snd = placed.map Placed.path :=
  List.map_snd_zip (by simp [length_placed h])

/-- A package lists the content files at the places found for them, and behind them what has been
generated from these descriptions. -/
theorem Built.parts (h : a.Built s placed before after directory name sink p)
    (hplaced : Placement.resolve a.specification.policy s.placements = .ok placed) :
    ∃ (c d : Composition) (generated : Generated),
      Composition.Wrote a.plan s.id (.start a.plan) (s.files.zip (placed.map Placed.path)) c ∧
      a.specification.generate s c.resources = .ok generated ∧
      Composition.addAllGenerated a.plan s.id
        { c with notices := c.notices ++ generated.notices } generated.files = (d, none) ∧
      c.resources = p.resources.take s.files.length ∧
      List.Forall₂ Composition.Lists c.resources (s.files.zip (placed.map Placed.path)) ∧
      d.pipeline.writer.closeFault? = none ∧ d.resources = p.resources ∧
      d.pipeline.close.sink = sink := by
  obtain ⟨c, d, hwrote, hadded, hclose, hresources, hsink⟩ := h.composed
  obtain ⟨generated, hgenerate, hall⟩ := Composition.addSupplement_eq_none hadded
  obtain ⟨rs, hrs, hlists⟩ := hwrote.lists
  obtain rfl : c.resources = rs := hrs
  have hcount : c.resources.length = s.files.length := by
    rw [hlists.length_eq, ← List.length_map (f := Prod.fst), map_fst_zip_placed hplaced]
  -- what is generated stands behind the descriptions of the content files
  have htake : c.resources = p.resources.take s.files.length := by
    have hprefix := Composition.prefix_addAllGenerated hall
    dsimp only at hprefix
    rw [← hresources, ← hcount]
    exact List.prefix_iff_eq_take.1 hprefix
  exact ⟨c, d, generated, hwrote, hgenerate, hall, htake, hlists, hclose, hresources, hsink⟩

/-- The layers of a package as the last entry has left them: closing them has filled the sink, and
where no declared size is negative, they hold all content and all that was generated. -/
theorem Built.layers (h : a.Built s placed before after directory name sink p)
    (hplaced : Placement.resolve a.specification.policy s.placements = .ok placed) :
    ∃ d : Composition, d.Follows a.plan ∧ d.pipeline.writer.closeFault? = none ∧
      d.resources = p.resources ∧ d.pipeline.close.sink = sink ∧
      (SizesNonneg s → ∃ (sources : List Source) (generated : Generated),
        s.files.map ContentFile.opened = sources.map Except.ok ∧
        a.specification.generate s (p.resources.take s.files.length) = .ok generated ∧
        d.Packs a.plan ((placed.map Placed.path).zip (sources.map Source.bytes) ++
          generated.files)) := by
  obtain ⟨c, d, generated, hwrote, hgenerate, hall, htake, -, hclose, hresources, hsink⟩ :=
    h.parts hplaced
  have hfiles := map_fst_zip_placed hplaced
  have hstart := hwrote.follows (Composition.follows_start a.plan)
  have hfollows : (Composition.addAllGenerated a.plan s.id
      { c with notices := c.notices ++ generated.notices } generated.files).1.Follows a.plan :=
    (hstart.noted _).addAllGenerated generated.files
  rw [hall] at hfollows
  refine ⟨d, hfollows, hclose, hresources, hsink, fun hsizes => ?_⟩
  obtain ⟨sources, hopened, hpacks⟩ := hwrote.packs (Composition.packs_start a.plan) fun i hi =>
    hsizes i.1 (by rw [← hfiles]; exact List.mem_map_of_mem hi)
  have hsources : s.files.map ContentFile.opened = sources.map Except.ok := by
    rw [← hopened, ← hfiles, List.map_map, hfiles]
    rfl
  refine ⟨sources, generated, hsources, by rw [← htake]; exact hgenerate, ?_⟩
  rw [map_snd_zip_placed hplaced, List.nil_append] at hpacks
  have hnoted : ({ c with notices := c.notices ++ generated.notices } : Composition).Packs a.plan
      ((placed.map Placed.path).zip (sources.map Source.bytes)) :=
    ⟨hpacks.holds, hpacks.depicted⟩
  exact hnoted.addAllGenerated hall

theorem Built.describes (h : a.Built s placed before after directory name sink p)
    (hplaced : Placement.resolve a.specification.policy s.placements = .ok placed) :
    p.metadata.sizeBytes = sink.output.length ∧
      a.library.Describes a.options.algorithms p.metadata.checksums sink.output := by
  obtain ⟨d, hfollows, -, -, hsink, -⟩ := h.layers hplaced
  obtain ⟨-, hcounts⟩ := hfollows.sound.close
  rw [hsink] at hcounts
  rw [h.metadata_eq]
  refine ⟨?_, a.describes_of_supported hcounts.describes⟩
  show (sink.tally.count : Int) = sink.output.length
  rw [hcounts.count_eq]

end Assembler

end Deposit
