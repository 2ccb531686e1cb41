import Deposit.Proofs.Archive.Faults
import Deposit.Proofs.Assembly.Package

set_option autoImplicit false
set_option relaxedAutoImplicit false

/-!
Who is to blame when assembling fails. Content files are opened and written one after the other, so
the first that raises a fault ends it: the error names that file, or the fault is passed on, and
neither the files behind it nor the specification are asked for anything. The layers of the package
are closed all the same, and closing them does not replace the failure.
-/

namespace Deposit

namespace Composition

variable {plan : PackagingPlan} {submission : String} {c d : Composition} {file : ContentFile}
  {path : String} {fault : Fault} {items earlier later : List (ContentFile × String)}

/-- What a content file raises after what has been composed so far: opening it fails, or reading and
archiving it does. -/
inductive Raises (plan : PackagingPlan) (c : Composition) (file : ContentFile) (path : String) :
    Fault → Prop where
  | opening {fault : Fault} (h : file.opened = .error fault) : Raises plan c file path fault
  | adding {source : Source} {fault : Fault} (opened : file.opened = .ok source)
      (h : (c.pipeline.writer.add path (.start plan.algorithms source.open) file.size).fault =
        some fault) : Raises plan c file path fault

/-- What a content file raises comes from opening it, from reading its source, or from the
archive. -/
theorem Raises.origin (h : Raises plan c file path fault) (hc : c.Follows plan) :
    file.opened = .error fault ∨ ∃ source, file.opened = .ok source ∧
      (source.Raises fault ∨ ∃ e, fault = .archive e) := by
  cases h with
  | opening h => exact Or.inl h
  | @adding source _ opened h =>
    refine Or.inr ⟨source, opened, ?_⟩
    rcases Archive.Writer.fault_add hc.isOpen h with hsource | ⟨e, he, -⟩ | ⟨-, e, -, he, -⟩
    · exact Or.inl hsource
    · exact Or.inr ⟨e, he⟩
    · exact Or.inr ⟨e, he⟩

theorem Raises.addContent (h : Raises plan c file path fault) (submission : String) :
    (Composition.addContent plan submission c file path file.opened).2 =
      some (contentFailure submission file.name fault) := by
  cases h with
  | opening h => rw [h, Composition.addContent]
  | @adding source _ opened h =>
    have hadd : (c.pipeline.add path (.start plan.algorithms source.open) file.size).fault =
      some fault := h
    rw [opened, Composition.addContent]
    simp only [hadd]

theorem addContent_eq_some {failure : AssemblyFailure}
    (h : (addContent plan submission c file path file.opened).2 = some failure) :
    (∃ fault, Raises plan c file path fault ∧
      failure = contentFailure submission file.name fault) ∨
    ∃ fault, plan.digestFault? = some fault ∧ failure = packageFailure submission fault := by
  cases hopened : file.opened with
  | error fault =>
    rw [hopened] at h
    exact Or.inl ⟨fault, .opening hopened, (Option.some.inj h).symm⟩
  | ok source =>
    rw [hopened, addContent] at h
    simp only at h
    split at h
    · rename_i fault hfault
      exact Or.inl ⟨fault, .adding hopened hfault, (Option.some.inj h).symm⟩
    · split at h
      · rename_i fault hfault
        exact Or.inr ⟨fault, hfault, (Option.some.inj h).symm⟩
      · cases h

theorem addContent_cases (hdigests : plan.digestFault? = none) (submission : String)
    (c : Composition) (file : ContentFile) (path : String) :
    (∃ d, addContent plan submission c file path file.opened = (d, none)) ∨
      ∃ fault, Raises plan c file path fault := by
  cases hadd : (addContent plan submission c file path file.opened).2 with
  | none => exact Or.inl ⟨_, Prod.ext rfl hadd⟩
  | some failure =>
    rcases addContent_eq_some hadd with ⟨fault, hraises, -⟩ | ⟨fault, hfault, -⟩
    · exact Or.inr ⟨fault, hraises⟩
    · cases hdigests.symm.trans hfault

theorem wrote_or_fails (plan : PackagingPlan) (submission : String) (c : Composition)
    (items : List (ContentFile × String)) :
    (∃ d, Wrote plan submission c items d) ∨
      ∃ earlier file path later d failure, items = earlier ++ (file, path) :: later ∧
        Wrote plan submission c earlier d ∧
        (addContent plan submission d file path file.opened).2 = some failure := by
  induction items generalizing c with
  | nil => exact Or.inl ⟨c, .nil c⟩
  | cons item items ih =>
    obtain ⟨file, path⟩ := item
    cases hadd : (addContent plan submission c file path file.opened).2 with
    | none =>
      rcases ih (addContent plan submission c file path file.opened).1 with
        ⟨e, others⟩ | ⟨earlier, f, p, later, e, failure, rfl, hwrote, hfails⟩
      · exact Or.inl ⟨e, .cons (Prod.ext rfl hadd) others⟩
      · exact Or.inr ⟨(file, path) :: earlier, f, p, later, e, failure, rfl,
          .cons (Prod.ext rfl hadd) hwrote, hfails⟩
    | some failure => exact Or.inr ⟨[], file, path, items, c, failure, rfl, .nil c, hadd⟩

/-- Where all digests can be given, either all content files are written, or there is a first one
that raises a fault. -/
theorem wrote_or_raises (hdigests : plan.digestFault? = none) (submission : String)
    (c : Composition) (items : List (ContentFile × String)) :
    (∃ d, Wrote plan submission c items d) ∨
      ∃ earlier file path later d fault, items = earlier ++ (file, path) :: later ∧
        Wrote plan submission c earlier d ∧ Raises plan d file path fault := by
  rcases wrote_or_fails plan submission c items with
    hall | ⟨earlier, file, path, later, d, failure, hsplit, hwrote, hfails⟩
  · exact Or.inl hall
  · rcases addContent_eq_some hfails with ⟨fault, hraises, -⟩ | ⟨fault, hfault, -⟩
    · exact Or.inr ⟨earlier, file, path, later, d, fault, hsplit, hwrote, hraises⟩
    · cases hdigests.symm.trans hfault

theorem Wrote.unique {e : Composition} (h : Wrote plan submission c items d)
    (hother : Wrote plan submission c items e) : d = e := by
  induction h with
  | nil c =>
    cases hother
    rfl
  | @cons c d last file path rest first others ih =>
    cases hother with
    | cons second later =>
      obtain ⟨rfl, -⟩ := Prod.mk.inj (first.symm.trans second)
      exact ih later

theorem Wrote.not_wrote_of_raises {e : Composition} (h : Wrote plan submission c earlier d)
    (hraises : Raises plan d file path fault) (later : List (ContentFile × String)) :
    ¬ Wrote plan submission c (earlier ++ (file, path) :: later) e := by
  induction h with
  | nil c =>
    intro hall
    cases hall with
    | cons first others =>
      have hfailed := hraises.addContent submission
      rw [first] at hfailed
      cases hfailed
  | @cons c d last f p rest first others ih =>
    intro hall
    cases hall with
    | cons second others =>
      obtain ⟨rfl, -⟩ := Prod.mk.inj (first.symm.trans second)
      exact ih hraises others

theorem Wrote.run_addContents (h : Wrote plan submission c earlier d)
    (items : List (ContentFile × String)) (before : Surroundings) :
    (addContents plan submission c (earlier ++ items) : StateM Surroundings _).run before =
      (addContents plan submission d items : StateM Surroundings _).run
        { before with opened := (earlier.map (·.1.name)).reverse ++ before.opened } := by
  induction h generalizing before with
  | nil c => rfl
  | @cons c d e file path rest first others ih =>
    rw [List.cons_append, run_addContents_cons, first]
    dsimp only
    rw [ih, List.map_cons, List.reverse_cons, List.append_assoc]
    rfl

private theorem Wrote.run_addContents_of_fails (h : Wrote plan submission c earlier d)
    {failure : AssemblyFailure}
    (hfails : (addContent plan submission d file path file.opened).2 = some failure)
    (later : List (ContentFile × String)) (before : Surroundings) :
    (addContents plan submission c (earlier ++ (file, path) :: later) :
        StateM Surroundings _).run before =
      (((addContent plan submission d file path file.opened).1, some failure),
        { before with
          opened := (earlier.map (·.1.name) ++ [file.name]).reverse ++ before.opened }) := by
  have hadd : addContent plan submission d file path file.opened =
      ((addContent plan submission d file path file.opened).1, some failure) :=
    Prod.ext rfl hfails
  rw [h.run_addContents, run_addContents_cons, hadd, List.reverse_append]
  rfl

theorem contentFailure_of_ne_other (file : String) (h : fault.family ≠ .other) :
    contentFailure submission file fault = .error (.content submission file fault) := by
  unfold contentFailure
  split
  · contradiction
  · rfl

/-- A failure stays a failure when the layers are closed, and the same one if the archive can be
ended. -/
theorem Follows.conclude_of_failure (h : c.Follows plan) (submission : String)
    (failure : AssemblyFailure) :
    ∃ final, (c.conclude submission (some failure)).outcome = .error final ∧
      (c.pipeline.writer.Fits → final = failure) := by
  unfold conclude
  cases hclose : c.pipeline.writer.closeFault? with
  | some fault =>
    refine ⟨packageFailure submission fault, rfl, fun hfits => ?_⟩
    cases hclose.symm.trans (hfits.closeFault?_eq_none h.isOpen)
  | none => exact ⟨failure, rfl, fun _ => rfl⟩

theorem Follows.fits (h : c.Follows plan) (hne : plan.archive ≠ .zip) :
    c.pipeline.writer.Fits :=
  fun hzip => absurd (h.format_eq.symm.trans hzip) hne

end Composition

/-- A plan under which other files are generated. -/
def PackagingPlan.generating (plan : PackagingPlan)
    (generate : Submission → List Resource → Except Fault Generated) : PackagingPlan :=
  { plan with specification := { plan.specification with generate } }

private theorem Composition.addContents_generating {m : Type → Type} [Host m] (plan : PackagingPlan)
    (generate : Submission → List Resource → Except Fault Generated) (submission : String)
    (c : Composition) (items : List (ContentFile × String)) :
    (addContents (plan.generating generate) submission c items : m _) =
      addContents plan submission c items := by
  induction items generalizing c with
  | nil => rfl
  | cons item items ih =>
    have hadd : addContent (plan.generating generate) = addContent plan := rfl
    simp only [addContents, ih, hadd]

namespace Assembler

/-- An assembler whose specification generates other files. -/
def generating (a : Assembler)
    (generate : Submission → List Resource → Except Fault Generated) : Assembler :=
  { a with specification := { a.specification with generate } }

/-- A submission that is not refused, whose files are placed, and for whose package a temporary file
can be created. -/
structure Starts (a : Assembler) (s : Submission) (placed : List Placed) (before : Surroundings) :
    Prop where
  refusal_eq : a.refusal? s = none
  placed_eq : Placement.resolve a.specification.policy s.placements = .ok placed
  creates : ∃ place disk, before.disk.createTemporary
    (a.options.temporaryDirectory.getD before.temporaryDirectory) = .ok (place, disk)

/-- A submission that is started on by an assembler whose digests can all be given. -/
structure Admits (a : Assembler) (s : Submission) (placed : List Placed) (before : Surroundings) :
    Prop extends a.Starts s placed before where
  digests : a.plan.digestFault? = none

theorem Starts.built_of_run {a : Assembler} {s : Submission} {placed : List Placed}
    {before after : Surroundings} {p : PackageStream} (h : a.Starts s placed before)
    (hrun : (a.assemble s : StateM Surroundings _).run before = (.ok p, after)) :
    ∃ directory name sink, a.Built s placed before.disk after.disk directory name sink p := by
  obtain ⟨places, directory, name, sink, -, hplaced, hbuilt⟩ := Assembler.built_of_run hrun
  obtain rfl : placed = places := Except.ok.inj (h.placed_eq.symm.trans hplaced)
  exact ⟨directory, name, sink, hbuilt⟩

theorem Starts.run_assemble {a : Assembler} {s : Submission} {placed : List Placed}
    {composed : Composed} {opened : List String} {before : Surroundings}
    (h : a.Starts s placed before)
    (hcompose : ∀ start : Surroundings,
      (a.plan.compose s placed : StateM Surroundings _).run start =
        (composed, { start with opened := opened ++ start.opened })) :
    ∃ place path, before.disk.Fresh place path ∧
      (a.assemble s : StateM Surroundings _).run before =
        match composed.outcome with
        | .error failure =>
          (.error failure,
            { before with
              log := composingNotices composed ++ (a.openingNotices s ++ before.log)
              opened := opened ++ before.opened })
        | .ok resources =>
          let p : PackageStream :=
            ⟨place, a.plan.describe s resources composed.sink, resources, false⟩
          (.ok p,
            { before with
              disk := before.disk.set path (.file composed.sink.output)
              log := ⟨.info, finishNotice s p⟩ ::
                (composingNotices composed ++ (a.openingNotices s ++ before.log))
              opened := opened ++ before.opened }) := by
  obtain ⟨place, disk, hcreate⟩ := h.creates
  obtain ⟨directory, n, -, hfresh, rfl⟩ := Disk.createTemporary_eq_ok hcreate
  have hnoted : ({ before with log := a.openingNotices s ++ before.log } :
      Surroundings).disk.createTemporary (a.options.temporaryDirectory.getD
        ({ before with log := a.openingNotices s ++ before.log } :
          Surroundings).temporaryDirectory) =
      .ok (place, before.disk.set (directory ++ [Disk.temporaryName n]) (.file [])) := hcreate
  have hbuild := a.run_build s placed hnoted hfresh (hcompose _)
  refine ⟨place, directory ++ [Disk.temporaryName n], hfresh,
    ((run_assemble_of_placed h.refusal_eq h.placed_eq before).trans hbuild).trans ?_⟩
  cases composed.outcome with
  | error failure => rfl
  | ok resources => rfl

theorem Starts.run_assemble_of_failure {a : Assembler} {s : Submission} {placed : List Placed}
    {composed : Composed} {opened : List String} {failure : AssemblyFailure}
    {before : Surroundings} (h : a.Starts s placed before)
    (hcompose : ∀ start : Surroundings,
      (a.plan.compose s placed : StateM Surroundings _).run start =
        (composed, { start with opened := opened ++ start.opened }))
    (houtcome : composed.outcome = .error failure) :
    (a.assemble s : StateM Surroundings _).run before =
      (.error failure,
        { before with
          log := composingNotices composed ++ (a.openingNotices s ++ before.log)
          opened := opened ++ before.opened }) := by
  obtain ⟨place, path, -, hrun⟩ := h.run_assemble hcompose
  rw [hrun, houtcome]

/-- The first content file that raises a fault: those before it have been written. -/
structure FirstFault (a : Assembler) (s : Submission) (placed : List Placed) (c : Composition)
    (earlier : List (ContentFile × String)) (file : ContentFile) (path : String)
    (later : List (ContentFile × String)) (fault : Fault) : Prop where
  split : s.files.zip (placed.map Placed.path) = earlier ++ (file, path) :: later
  wrote : Composition.Wrote a.plan s.id (.start a.plan) earlier c
  raises : Composition.Raises a.plan c file path fault

/-- The composition as a content file leaves it, whether or not it is written. -/
def left (a : Assembler) (s : Submission) (c : Composition) (file : ContentFile) (path : String) :
    Composition :=
  (Composition.addContent a.plan s.id c file path file.opened).1

variable {a : Assembler} {s : Submission} {placed : List Placed} {c : Composition}
  {earlier later : List (ContentFile × String)} {file : ContentFile} {path : String}
  {fault : Fault} {before : Surroundings}

theorem Starts.generating (h : a.Starts s placed before)
    (generate : Submission → List Resource → Except Fault Generated) :
    (a.generating generate).Starts s placed before :=
  ⟨h.refusal_eq, h.placed_eq, h.creates⟩

theorem Admits.generating (h : a.Admits s placed before)
    (generate : Submission → List Resource → Except Fault Generated) :
    (a.generating generate).Admits s placed before :=
  ⟨h.toStarts.generating generate, h.digests⟩

theorem wrote_left
    (h : (Composition.addContent a.plan s.id c file path file.opened).2 = none) :
    Composition.Wrote a.plan s.id c [(file, path)] (a.left s c file path) :=
  .cons (Prod.ext rfl h) (.nil _)

/-- The first content file that fails, for whatever reason: those before it have been written. -/
structure FirstFailure (a : Assembler) (s : Submission) (placed : List Placed) (c : Composition)
    (earlier : List (ContentFile × String)) (file : ContentFile) (path : String)
    (later : List (ContentFile × String)) (failure : AssemblyFailure) : Prop where
  split : s.files.zip (placed.map Placed.path) = earlier ++ (file, path) :: later
  wrote : Composition.Wrote a.plan s.id (.start a.plan) earlier c
  fails : (Composition.addContent a.plan s.id c file path file.opened).2 = some failure

private theorem FirstFault.firstFailure
    (h : a.FirstFault s placed c earlier file path later fault) :
    a.FirstFailure s placed c earlier file path later
      (Composition.contentFailure s.id file.name fault) :=
  ⟨h.split, h.wrote, h.raises.addContent s.id⟩

/-- Composing ends with the first content file that fails, whatever the specification would
generate. -/
theorem FirstFailure.run_compose {failure : AssemblyFailure}
    (h : a.FirstFailure s placed c earlier file path later failure)
    (generate : Submission → List Resource → Except Fault Generated) (before : Surroundings) :
    ((a.generating generate).plan.compose s placed : StateM Surroundings _).run before =
      ((a.left s c file path).conclude s.id (some failure),
        { before with
          opened := (earlier.map (·.1.name) ++ [file.name]).reverse ++ before.opened }) := by
  have hplan : (a.generating generate).plan = a.plan.generating generate := rfl
  have hstart : Composition.start (a.plan.generating generate) = .start a.plan := rfl
  rw [hplan, Composition.run_compose, Composition.addContents_generating, hstart, h.split,
    h.wrote.run_addContents_of_fails h.fails later before]
  rfl

/-- Assembling ends with the first content file that raises a fault, whatever the specification
would generate, and fails with it if the archive can be ended. -/
theorem FirstFault.run_assemble (h : a.FirstFault s placed c earlier file path later fault)
    (hstarts : a.Starts s placed before) :
    ∃ failure after,
      (∀ generate, ((a.generating generate).assemble s : StateM Surroundings _).run before =
        (.error failure, after)) ∧
      after.opened = (earlier.map (·.1.name) ++ [file.name]).reverse ++ before.opened ∧
      ((a.left s c file path).pipeline.writer.Fits →
        failure = Composition.contentFailure s.id file.name fault) := by
  have hleft : (a.left s c file path).Follows a.plan :=
    (h.wrote.follows (Composition.follows_start a.plan)).addContent _ _ _
  obtain ⟨failure, houtcome, hfits⟩ := hleft.conclude_of_failure s.id
    (Composition.contentFailure s.id file.name fault)
  have hrun (generate : Submission → List Resource → Except Fault Generated) :
      ((a.generating generate).assemble s : StateM Surroundings _).run before =
        (.error failure,
          { before with
            log := composingNotices ((a.left s c file path).conclude s.id
              (some (Composition.contentFailure s.id file.name fault))) ++
                (a.openingNotices s ++ before.log)
            opened := (earlier.map (·.1.name) ++ [file.name]).reverse ++ before.opened }) :=
    (hstarts.generating generate).run_assemble_of_failure (h.firstFailure.run_compose generate)
      houtcome
  exact ⟨failure, _, hrun, rfl, hfits⟩

theorem run_compose_of_wrote
    (h : Composition.Wrote a.plan s.id (.start a.plan) (s.files.zip (placed.map Placed.path)) c)
    (before : Surroundings) :
    (a.plan.compose s placed : StateM Surroundings _).run before =
      ((Composition.addSupplement a.plan s c).1.conclude s.id
          (Composition.addSupplement a.plan s c).2,
        { before with
          opened := ((s.files.zip (placed.map Placed.path)).map (·.1.name)).reverse ++
            before.opened }) := by
  have hrun := h.run_addContents [] before
  rw [List.append_nil] at hrun
  rw [Composition.run_compose, hrun]
  rfl

/-- What composing comes to is the same in all surroundings, of which it changes only which content
files have been opened. -/
theorem exists_run_compose (a : Assembler) (s : Submission) (placed : List Placed) :
    ∃ composed opened, ∀ before : Surroundings,
      (a.plan.compose s placed : StateM Surroundings _).run before =
        (composed, { before with opened := opened ++ before.opened }) := by
  rcases Composition.wrote_or_fails a.plan s.id (.start a.plan)
      (s.files.zip (placed.map Placed.path)) with
    ⟨c, hwrote⟩ | ⟨earlier, file, path, later, c, failure, hsplit, hwrote, hfails⟩
  · exact ⟨_, _, run_compose_of_wrote hwrote⟩
  · have hfirst : a.FirstFailure s placed c earlier file path later failure :=
      ⟨hsplit, hwrote, hfails⟩
    exact ⟨_, _, hfirst.run_compose a.specification.generate⟩

/-- When all content files have been written and the others cannot be generated, assembling fails as
the package does. -/
theorem Starts.run_assemble_of_generate_error (h : a.Starts s placed before)
    (hwrote : Composition.Wrote a.plan s.id (.start a.plan)
      (s.files.zip (placed.map Placed.path)) c)
    (hgenerate : a.specification.generate s c.resources = .error fault)
    (hfit : c.pipeline.writer.Fits) :
    ∃ after, (a.assemble s : StateM Surroundings _).run before =
      (.error (Composition.packageFailure s.id fault), after) := by
  have hadd : Composition.addSupplement a.plan s c =
      (c, some (Composition.packageFailure s.id fault)) := by
    have hplan : a.plan.specification.generate s c.resources = .error fault := hgenerate
    rw [Composition.addSupplement, hplan]
  have hcompose := run_compose_of_wrote hwrote
  rw [hadd] at hcompose
  have hfollows : c.Follows a.plan := hwrote.follows (Composition.follows_start a.plan)
  obtain ⟨failure, houtcome, hfits⟩ := hfollows.conclude_of_failure s.id
    (Composition.packageFailure s.id fault)
  rw [hfits hfit] at houtcome
  exact ⟨_, h.run_assemble_of_failure hcompose houtcome⟩

/-- Of a submission that is admitted, its files validated and placed, either all content files are
written, or there is a first one that raises a fault. That file is the last one opened, the
specification is not asked for anything, and if closing the archive does not fail as well, the
error names the submission and the file and gives the fault as its cause, or the fault is passed on
if it is neither of the system nor of a value. If all content files are written and generating the
others fails with a fault of the system, the error names the submission and no file. -/
theorem assemble_blames_first_fault (h : a.Admits s placed before) :
    ((∃ c, Composition.Wrote a.plan s.id (.start a.plan) (s.files.zip (placed.map Placed.path)) c) ∨
      ∃ c earlier file path later fault,
        a.FirstFault s placed c earlier file path later fault) ∧
    (∀ c earlier file path later fault, a.FirstFault s placed c earlier file path later fault →
      (file.opened = .error fault ∨ ∃ source, file.opened = .ok source ∧
        (source.Raises fault ∨ ∃ e, fault = .archive e)) ∧
      ∃ failure after,
        (a.assemble s : StateM Surroundings _).run before = (.error failure, after) ∧
        after.opened = (earlier.map (·.1.name) ++ [file.name]).reverse ++ before.opened ∧
        (∀ generate, ((a.generating generate).assemble s : StateM Surroundings _).run before =
          (.error failure, after)) ∧
        ((a.left s c file path).pipeline.writer.Fits →
          (fault.family ≠ .other → failure = .error (.content s.id file.name fault)) ∧
          (fault.family = .other → failure = .fault fault))) ∧
    (∀ c fault,
      Composition.Wrote a.plan s.id (.start a.plan) (s.files.zip (placed.map Placed.path)) c →
      a.specification.generate s c.resources = .error fault → fault.family = .system →
      c.pipeline.writer.Fits →
      ∃ after, (a.assemble s : StateM Surroundings _).run before =
        (.error (.error (.package s.id fault)), after)) := by
  refine ⟨?someFault, ?firstFault, ?generating⟩
  case someFault =>
    rcases Composition.wrote_or_raises h.digests s.id (.start a.plan)
        (s.files.zip (placed.map Placed.path)) with
      hall | ⟨earlier, file, path, later, c, fault, hsplit, hwrote, hraises⟩
    · exact Or.inl hall
    · exact Or.inr ⟨c, earlier, file, path, later, fault, hsplit, hwrote, hraises⟩
  case firstFault =>
    intro c earlier file path later fault hfirst
    obtain ⟨failure, after, hrun, hopened, hfits⟩ := hfirst.run_assemble h.toStarts
    have hfollows : c.Follows a.plan := hfirst.wrote.follows (Composition.follows_start a.plan)
    refine ⟨hfirst.raises.origin hfollows, failure, after, hrun a.specification.generate, hopened,
      hrun, fun hfit => ⟨fun hfamily => ?_, fun hfamily => ?_⟩⟩
    · rw [hfits hfit, Composition.contentFailure_of_ne_other file.name hfamily]
    · rw [hfits hfit, Composition.contentFailure, hfamily]
  case generating =>
    intro c fault hwrote hgenerate hfamily hfit
    obtain ⟨after, hrun⟩ := h.run_assemble_of_generate_error hwrote hgenerate hfit
    refine ⟨after, hrun.trans ?_⟩
    rw [Composition.packageFailure, hfamily]

def firstPage : ContentFile where
  name := "first.txt"
  role := .manuscript
  opened := .ok { bytes := Bytes.ofText "Dear all," }
  size := some 9

/-- A page that breaks off with a fault. -/
def tornPage (fault : Fault) : ContentFile where
  name := "second.txt"
  role := .manuscript
  opened := .ok
    { bytes := Bytes.ofText "the rest", serve := fun _ _ => 3, fault := some (4, fault) }
  size := none

def lostPage : ContentFile where
  name := "third.txt"
  role := .manuscript
  opened := .error (.reported .missing "lost")
  size := none

def wornLetter (fault : Fault) : Submission where
  id := "letter"
  files := [firstPage, tornPage fault, lostPage]
  metadata := []

def pagePlaces (names : List String) : List Placed :=
  names.map fun name => ⟨name, name, name⟩

/-- The composition after the first page. -/
def firstPageWritten : Composition :=
  letterAssembler.left { letter with files := [firstPage] } (.start letterAssembler.plan)
    firstPage "first.txt"

private theorem wrote_firstPage :
    Composition.Wrote letterAssembler.plan "letter" (.start letterAssembler.plan)
      [(firstPage, "first.txt")] firstPageWritten :=
  wrote_left (a := letterAssembler) (s := { letter with files := [firstPage] }) (by decide +kernel)

private theorem firstFault_wornLetter {fault : Fault}
    (h : fault = .reported .system "torn" ∨ fault = .reported .runtime "jammed") :
    letterAssembler.FirstFault (wornLetter fault)
      (pagePlaces ["first.txt", "second.txt", "third.txt"]) firstPageWritten
      [(firstPage, "first.txt")] (tornPage fault) "second.txt" [(lostPage, "third.txt")] fault where
  split := rfl
  wrote := wrote_firstPage
  raises := by
    refine .adding rfl ?_
    rcases h with rfl | rfl
    · decide +kernel
    · decide +kernel

private theorem resolve_wornLetter (fault : Fault) :
    Placement.resolve letterAssembler.specification.policy (wornLetter fault).placements =
      .ok (pagePlaces ["first.txt", "second.txt", "third.txt"]) := by
  have hplacements : (wornLetter fault).placements =
      ["first.txt", "second.txt", "third.txt"].map (·, Role.manuscript) := rfl
  rw [hplacements]
  decide +kernel

/-- The assembler of letters, but its specification fails. -/
def penlessAssembler : Assembler :=
  letterAssembler.generating fun _ _ => .error (.reported .permission "no pen")

theorem assemble_blames_torn_page :
    (∃ after, (letterAssembler.assemble (wornLetter (.reported .system "torn")) :
        StateM Surroundings _).run emptyDesk =
        (.error (.error (.content "letter" "second.txt" (.reported .system "torn"))), after) ∧
      after.opened = ["second.txt", "first.txt"]) ∧
    (∃ after, (letterAssembler.assemble (wornLetter (.reported .runtime "jammed")) :
        StateM Surroundings _).run emptyDesk =
        (.error (.fault (.reported .runtime "jammed")), after) ∧
      after.opened = ["second.txt", "first.txt"]) ∧
    (∃ after, (penlessAssembler.assemble { letter with files := [firstPage] } :
        StateM Surroundings _).run emptyDesk =
        (.error (.error (.package "letter" (.reported .permission "no pen"))), after)) := by
  have hfits (fault : Fault) : (letterAssembler.left (wornLetter fault) firstPageWritten
      (tornPage fault) "second.txt").pipeline.writer.Fits :=
    ((wrote_firstPage.follows (Composition.follows_start _)).addContent _ _ _).fits (by decide)
  have hadmits (fault : Fault) : letterAssembler.Admits (wornLetter fault)
      (pagePlaces ["first.txt", "second.txt", "third.txt"]) emptyDesk :=
    ⟨⟨rfl, resolve_wornLetter fault, _, _, rfl⟩, rfl⟩
  refine ⟨?torn, ?jammed, ?penless⟩
  case torn =>
    obtain ⟨-, hblames, -⟩ :=
      assemble_blames_first_fault (hadmits (.reported .system "torn"))
    obtain ⟨-, failure, after, hrun, hopened, -, hfailure⟩ :=
      hblames _ _ _ _ _ _ (firstFault_wornLetter (.inl rfl))
    obtain rfl := (hfailure (hfits _)).1 (by decide)
    exact ⟨after, hrun, hopened⟩
  case jammed =>
    obtain ⟨-, hblames, -⟩ :=
      assemble_blames_first_fault (hadmits (.reported .runtime "jammed"))
    obtain ⟨-, failure, after, hrun, hopened, -, hfailure⟩ :=
      hblames _ _ _ _ _ _ (firstFault_wornLetter (.inr rfl))
    obtain rfl := (hfailure (hfits _)).2 rfl
    exact ⟨after, hrun, hopened⟩
  case penless =>
    have hplaced : Placement.resolve penlessAssembler.specification.policy
        ({ letter with files := [firstPage] } : Submission).placements =
          .ok (pagePlaces ["first.txt"]) := by
      decide +kernel
    have hwrote : Composition.Wrote penlessAssembler.plan "letter"
        (.start penlessAssembler.plan) [(firstPage, "first.txt")] firstPageWritten := by
      refine .cons (Prod.ext rfl ?_) (.nil _)
      decide +kernel
    have hpenless : penlessAssembler.Admits { letter with files := [firstPage] }
        (pagePlaces ["first.txt"]) emptyDesk := ⟨⟨rfl, hplaced, _, _, rfl⟩, rfl⟩
    obtain ⟨-, -, hgenerating⟩ := assemble_blames_first_fault hpenless
    exact hgenerating _ _ hwrote rfl rfl
      ((hwrote.follows (Composition.follows_start _)).fits (by decide))

end Assembler

end Deposit
