import Deposit.Proofs.Assembly.Failure
import Deposit.Proofs.Specification.Generation

set_option autoImplicit false
set_option relaxedAutoImplicit false

/-!
How assembling can end under a registered specification, when no content file raises anything but
faults of the system and of values: with a package, with an error that names the submission, or with
one of few faults that are passed on. A text that no document may hold is among these, since what
is generated is generated where only faults of the system are expected.
-/

namespace Deposit

/-- A failure that names a submission, or passes on a fault of some kind. -/
def AssemblyFailure.Names (submission : String) (Passed : Fault → Prop) : AssemblyFailure → Prop
  | .error e => e.submission = submission
  | .fault f => Passed f

/-- A content file that raises nothing but faults of the system and of values. -/
def ContentFile.IsTame (file : ContentFile) : Prop :=
  ∀ fault, (file.opened = .error fault ∨
    ∃ source, file.opened = .ok source ∧ source.Raises fault) → fault.family ≠ .other

namespace Composition

variable {plan : PackagingPlan} {submission : String} {c d : Composition}
  {items : List (ContentFile × String)} {Passed : Fault → Prop}

private theorem names_contentFailure {fault : Fault} (file : String)
    (h : fault.family = .other → Passed fault) :
    (contentFailure submission file fault).Names submission Passed := by
  unfold contentFailure
  split
  · exact h ‹_›
  · rfl

private theorem names_generatedFailure {fault : Fault} (path : String)
    (h : fault.family = .other → Passed fault) :
    (generatedFailure submission path fault).Names submission Passed := by
  unfold generatedFailure
  split
  · rfl
  · rfl
  · exact h ‹_›

private theorem names_packageFailure {fault : Fault} (h : fault.family ≠ .system → Passed fault) :
    (packageFailure submission fault).Names submission Passed := by
  unfold packageFailure
  split
  · rfl
  · exact h ‹_›

private theorem names_conclude {failure : Option AssemblyFailure} {final : AssemblyFailure}
    (hfailure : ∀ f, failure = some f → f.Names submission Passed)
    (hclose : ∀ fault, c.pipeline.writer.closeFault? = some fault → Passed fault)
    (h : (c.conclude submission failure).outcome = .error final) :
    final.Names submission Passed := by
  unfold conclude at h
  cases hc : c.pipeline.writer.closeFault? with
  | some fault =>
    simp only [hc, Except.error.injEq] at h
    rw [← h]
    exact names_packageFailure fun _ => hclose fault hc
  | none =>
    cases failure with
    | some f =>
      simp only [hc, Except.error.injEq] at h
      rw [← h]
      exact hfailure f rfl
    | none => simp [hc] at h

theorem Wrote.measured (h : Wrote plan submission c items d)
    (hc : ∀ r ∈ c.resources, r.IsMeasured) : ∀ r ∈ d.resources, r.IsMeasured := by
  induction h with
  | nil c => exact hc
  | @cons c d e file path rest first others ih =>
    obtain ⟨source, -, -, -, hresources⟩ := addContent_eq_none first
    refine ih fun r hr => ?_
    rw [hresources] at hr
    rcases List.mem_append.1 hr with hold | hnew
    · exact hc r hold
    · rw [List.mem_singleton.1 hnew]
      exact ⟨rfl, _, rfl⟩

private theorem Raises.exceeds {file : ContentFile} {path : String} {fault : Fault}
    (h : Raises plan c file path fault) (htame : file.IsTame) (hc : c.Follows plan)
    (hother : fault.family = .other) :
    plan.archive = .zip ∧ ∃ source e done, file.opened = .ok source ∧ fault = .archive e ∧
      done <+: source.bytes ∧ Archive.Zip.Exceeds path file.size done e := by
  cases h with
  | opening h => exact absurd hother (htame fault (.inl h))
  | @adding source _ opened h =>
    rcases Archive.Writer.fault_add hc.isOpen h with
      hsource | ⟨e, rfl, he⟩ | ⟨hzip, e, done, he, hdone, hx⟩
    · exact absurd hother (htame fault (.inr ⟨source, opened, hsource⟩))
    · exact absurd hother he
    · exact ⟨hc.format_eq.symm.trans hzip, source, e, done, opened, he, hdone, hx⟩

private theorem names_addGenerated {path : String} {content : Bytes} {failure : AssemblyFailure}
    (hc : c.Follows plan)
    (hexceeds : plan.archive = .zip → ∀ e done, done <+: content →
      Archive.Zip.Exceeds path (some content.length) done e → Passed (.archive e))
    (hdigest : ∀ fault, plan.digestFault? = some fault → Passed fault)
    (h : addGenerated plan submission c path content = (d, some failure)) :
    failure.Names submission Passed := by
  unfold addGenerated at h
  split at h
  · obtain rfl := Option.some.inj (congrArg Prod.snd h)
    rfl
  · simp only at h
    split at h
    · rename_i fault hfault
      obtain rfl := Option.some.inj (congrArg Prod.snd h)
      refine names_generatedFailure path fun hother => ?_
      rcases Archive.Writer.fault_add hc.isOpen hfault with ⟨_, hsource⟩ | ⟨e, rfl, he⟩ |
        ⟨hzip, e, done, rfl, hdone, hx⟩
      · cases hsource
      · exact absurd hother he
      · exact hexceeds (hc.format_eq.symm.trans hzip) e done hdone hx
    · split at h
      · rename_i fault hfault
        obtain rfl := Option.some.inj (congrArg Prod.snd h)
        exact names_packageFailure fun _ => hdigest fault hfault
      · simp at h

private theorem names_addAllGenerated {files : List (String × Bytes)} {failure : AssemblyFailure}
    (hc : c.Follows plan)
    (hexceeds : plan.archive = .zip → ∀ f ∈ files, ∀ e done, done <+: f.2 →
      Archive.Zip.Exceeds f.1 (some f.2.length) done e → Passed (.archive e))
    (hdigest : ∀ fault, plan.digestFault? = some fault → Passed fault)
    (h : addAllGenerated plan submission c files = (d, some failure)) :
    failure.Names submission Passed := by
  induction files generalizing c with
  | nil => cases h
  | cons file files ih =>
    have hstep : (addGenerated plan submission c file.1 file.2).1.Follows plan :=
      hc.addGenerated file.1 file.2
    unfold addAllGenerated at h
    split at h
    · rename_i e first heq
      obtain rfl := Option.some.inj (congrArg Prod.snd h)
      exact names_addGenerated hc (fun hzip => hexceeds hzip file List.mem_cons_self) hdigest heq
    · rename_i e heq
      rw [heq] at hstep
      exact ih hstep (fun hzip f hf => hexceeds hzip f (List.mem_cons_of_mem _ hf)) h

end Composition

open Deposit.Composition

namespace Assembler

/-- The composition that a placed submission ends with: as the first content file that fails has
left it, or as the generated files have. -/
inductive EndsWith (a : Assembler) (s : Submission) (placed : List Placed) :
    Composition → Prop where
  | content {c : Composition} {earlier later : List (ContentFile × String)} {file : ContentFile}
      {path : String} {failure : AssemblyFailure}
      (first : a.FirstFailure s placed c earlier file path later failure) :
      EndsWith a s placed (a.left s c file path)
  | generated {c : Composition}
      (wrote : Wrote a.plan s.id (.start a.plan) (s.files.zip (placed.map Placed.path)) c) :
      EndsWith a s placed (addSupplement a.plan s c).1

/-- The faults that assembling passes on, though no content file raises any of them: the documents
cannot be generated from the metadata and the paths, a digest that is asked for cannot be given
unless a length is asked for, an entry exceeds what a zip archive can express, or the archive as a
whole does. -/
inductive Escapes (a : Assembler) (s : Submission) (placed : List Placed) : Fault → Prop where
  | text (h : Specification.HasUnsuitable s (placed.map Placed.path)) :
      Escapes a s placed .unsuitableText
  | digest {fault : Fault} (h : a.plan.digestFault? = some fault) : Escapes a s placed fault
  | content {file : ContentFile} {path : String} {source : Source} {e : ArchiveFault} {done : Bytes}
      (zip : a.archive = .zip) (mem : (file, path) ∈ s.files.zip (placed.map Placed.path))
      (opened : file.opened = .ok source) (read : done <+: source.bytes)
      (h : Archive.Zip.Exceeds path file.size done e) : Escapes a s placed (.archive e)
  | generated {c : Composition} {added : Generated} {f : String × Bytes} {e : ArchiveFault}
      {done : Bytes} (zip : a.archive = .zip)
      (wrote : Wrote a.plan s.id (.start a.plan) (s.files.zip (placed.map Placed.path)) c)
      (generate : a.specification.generate s c.resources = .ok added) (mem : f ∈ added.files)
      (read : done <+: f.2) (h : Archive.Zip.Exceeds f.1 (some f.2.length) done e) :
      Escapes a s placed (.archive e)
  | ending {c : Composition} (zip : a.archive = .zip) (ends : a.EndsWith s placed c)
      (h : Archive.Zip.wideLimit ≤ c.pipeline.writer.close.written.length) :
      Escapes a s placed (.archive .numberTooLarge)

variable {a : Assembler} {s : Submission} {placed : List Placed} {c : Composition}

private theorem submission_of_refusal {e : AssemblyError} (h : a.refusal? s = some e) :
    e.submission = s.id := by
  unfold refusal? at h
  split at h
  · rw [← Option.some.inj h]
    rfl
  · split at h
    · cases h
    · rw [← Option.some.inj h]
      rfl

theorem value?_ne_none_of_refusal (h : a.refusal? s = none) :
    ∀ key ∈ a.specification.required, s.value? key ≠ none := by
  unfold refusal? at h
  split at h
  · cases h
  · split at h
    · rename_i hmissing
      intro key hkey hnone
      have hmem : key ∈ a.missing s := List.mem_filter.2 ⟨hkey, by rw [hnone]; rfl⟩
      rw [hmissing] at hmem
      cases hmem
    · cases h

theorem EndsWith.follows (h : a.EndsWith s placed c) : c.Follows a.plan := by
  cases h with
  | content first => exact (first.wrote.follows (follows_start a.plan)).addContent _ _ _
  | generated wrote => exact (wrote.follows (follows_start a.plan)).addSupplement s

private theorem EndsWith.escapes (hc : a.EndsWith s placed c) {fault : Fault}
    (h : c.pipeline.writer.closeFault? = some fault) : a.Escapes s placed fault := by
  obtain ⟨rfl, hzip, hlong⟩ := Archive.Writer.closeFault?_eq_some hc.follows.isOpen h
  exact .ending (hc.follows.format_eq.symm.trans hzip) hc hlong

private theorem Starts.outcome_of_run_assemble {composed : Composed} {opened : List String}
    {failure : AssemblyFailure} {before after : Surroundings} (hstarts : a.Starts s placed before)
    (hcompose : ∀ start : Surroundings,
      (a.plan.compose s placed : StateM Surroundings _).run start =
        (composed, { start with opened := opened ++ start.opened }))
    (h : (a.assemble s : StateM Surroundings _).run before = (.error failure, after)) :
    composed.outcome = .error failure := by
  obtain ⟨place, path, -, hrun⟩ := hstarts.run_assemble hcompose
  rw [h] at hrun
  cases houtcome : composed.outcome with
  | error other =>
    rw [houtcome] at hrun
    cases hrun
    rfl
  | ok resources =>
    rw [houtcome] at hrun
    cases hrun

/-- When a content file raises a fault, the failure names the submission, or what is passed on is
that the file exceeds what a zip archive can express. -/
theorem FirstFault.names {earlier later : List (ContentFile × String)} {file : ContentFile}
    {path : String} {fault : Fault}
    (h : a.FirstFault s placed c earlier file path later fault) (htame : file.IsTame) :
    (contentFailure s.id file.name fault).Names s.id (a.Escapes s placed) := by
  refine names_contentFailure file.name fun hother => ?_
  obtain ⟨hzip, source, e, done, hopened, rfl, hdone, hx⟩ :=
    h.raises.exceeds htame (h.wrote.follows (follows_start a.plan)) hother
  exact .content hzip (by rw [h.split]; simp) hopened hdone hx

private theorem Starts.names_addSupplement (hspec : a.specification ∈ Specification.registered)
    {before : Surroundings} (hstarts : a.Starts s placed before)
    (hwrote : Wrote a.plan s.id (.start a.plan) (s.files.zip (placed.map Placed.path)) c)
    {failure : AssemblyFailure} (h : (addSupplement a.plan s c).2 = some failure) :
    failure.Names s.id (a.Escapes s placed) := by
  have hfollows := hwrote.follows (follows_start a.plan)
  unfold addSupplement at h
  split at h
  · rename_i fault hgenerate
    obtain rfl := Option.some.inj h
    obtain ⟨rs, hrs, hlists⟩ := hwrote.lists
    have hpaths : c.resources.map Resource.packagePath = placed.map Placed.path := by
      rw [show c.resources = rs from hrs, packagePath_eq_of_lists hlists,
        map_snd_zip_placed hstarts.placed_eq]
    obtain ⟨rfl, hunsuitable⟩ := Specification.generate_eq_error_of_registered hspec
      (value?_ne_none_of_refusal hstarts.refusal_eq) (hwrote.measured (fun r hr => nomatch hr))
      hgenerate
    rw [hpaths] at hunsuitable
    exact names_packageFailure fun _ => .text hunsuitable
  · rename_i added hgenerate
    refine names_addAllGenerated (hfollows.noted _) (fun hzip f hf e done hdone hx => ?_)
      (fun fault => .digest) (Prod.ext rfl h)
    exact .generated hzip hwrote hgenerate hf hdone hx

private theorem Starts.names_of_run_assemble (hspec : a.specification ∈ Specification.registered)
    (htame : ∀ f ∈ s.files, f.IsTame) {before after : Surroundings} {failure : AssemblyFailure}
    (hstarts : a.Starts s placed before)
    (hrun : (a.assemble s : StateM Surroundings _).run before = (.error failure, after)) :
    failure.Names s.id (a.Escapes s placed) := by
  rcases wrote_or_fails a.plan s.id (.start a.plan) (s.files.zip (placed.map Placed.path)) with
    ⟨c, hwrote⟩ | ⟨earlier, file, path, later, c, first, hsplit, hwrote, hfails⟩
  · exact names_conclude (fun f => hstarts.names_addSupplement hspec hwrote)
      (fun fault => (EndsWith.generated hwrote).escapes)
      (hstarts.outcome_of_run_assemble (run_compose_of_wrote hwrote) hrun)
  · have hfirst : a.FirstFailure s placed c earlier file path later first :=
      ⟨hsplit, hwrote, hfails⟩
    have hmem : file ∈ s.files := by
      rw [← map_fst_zip_placed hstarts.placed_eq, hsplit]
      simp
    refine names_conclude (fun f hf => ?_) (fun fault => (EndsWith.content hfirst).escapes)
      (hstarts.outcome_of_run_assemble (hfirst.run_compose a.specification.generate) hrun)
    obtain rfl := Option.some.inj hf
    rcases addContent_eq_some hfails with ⟨fault, hraises, rfl⟩ | ⟨fault, hfault, rfl⟩
    · exact FirstFault.names ⟨hsplit, hwrote, hraises⟩ (htame file hmem)
    · exact names_packageFailure fun _ => .digest hfault

/-- Under a registered specification, with a directory for packages and content files that raise
nothing but faults of the system and of values, assembling returns a package, or fails with an error
that names the submission, or passes on one of the faults that escape. A text that no document may
hold is always passed on: where all content files have been written and the archive can be ended, a
specification that cannot generate its files has met one, and no error is made of it. -/
theorem assemble_names_submission_or_escapes
    (hspec : a.specification ∈ Specification.registered) (htame : ∀ f ∈ s.files, f.IsTame)
    {before : Surroundings} {place : Location} {disk : Disk}
    (hcreate : before.disk.createTemporary
      (a.options.temporaryDirectory.getD before.temporaryDirectory) = .ok (place, disk)) :
    (∃ outcome after, (a.assemble s : StateM Surroundings _).run before = (outcome, after) ∧
      ((∃ p, outcome = .ok p) ∨ (∃ e, outcome = .error (.error e) ∧ e.submission = s.id) ∨
        ∃ placed fault, outcome = .error (.fault fault) ∧
          Placement.resolve a.specification.policy s.placements = .ok placed ∧
          a.Escapes s placed fault)) ∧
    (∀ placed c fault, a.Admits s placed before →
      Wrote a.plan s.id (.start a.plan) (s.files.zip (placed.map Placed.path)) c →
      a.specification.generate s c.resources = .error fault → c.pipeline.writer.Fits →
      ∃ after, (a.assemble s : StateM Surroundings _).run before =
        (.error (.fault .unsuitableText), after)) := by
  refine ⟨?ends, ?passesOn⟩
  case ends =>
    cases hrun : (a.assemble s : StateM Surroundings _).run before with
    | mk outcome after =>
    refine ⟨outcome, after, rfl, ?_⟩
    cases outcome with
    | ok p => exact .inl ⟨p, rfl⟩
    | error failure =>
    refine .inr ?_
    cases hrefusal : a.refusal? s with
    | some e =>
      rw [assemble_of_refusal hrefusal] at hrun
      cases hrun
      exact .inl ⟨e, rfl, submission_of_refusal hrefusal⟩
    | none =>
    cases hplaced : Placement.resolve a.specification.policy s.placements with
    | error cause =>
      rw [assemble_of_unplaceable hrefusal hplaced,
        Surroundings.run_bind_of_run (Surroundings.run_notices before .info _)] at hrun
      cases hrun
      exact .inl ⟨.unplaceable s.id cause, rfl, rfl⟩
    | ok placed =>
    have hstarts : a.Starts s placed before := ⟨hrefusal, hplaced, place, disk, hcreate⟩
    have hnames := hstarts.names_of_run_assemble hspec htame hrun
    cases failure with
    | error e => exact .inl ⟨e, rfl, hnames⟩
    | fault fault => exact .inr ⟨placed, fault, rfl, rfl, hnames⟩
  case passesOn =>
    intro placed c fault hadmits hwrote hgenerate hfit
    obtain ⟨rfl, -⟩ := Specification.generate_eq_error_of_registered hspec
      (value?_ne_none_of_refusal hadmits.refusal_eq) (hwrote.measured (fun r hr => nomatch hr))
      hgenerate
    exact hadmits.run_assemble_of_generate_error hwrote hgenerate hfit

def manifestAssembler : Assembler where
  specification := Specification.mets
  options := {}
  algorithms := [.sha256, .md5]
  supported := rfl

def smudgedLetter : Submission where
  id := "letter"
  files := [firstPage]
  metadata := [("title", "A\x01B")]

private theorem isTame_smudgedLetter : ∀ f ∈ smudgedLetter.files, f.IsTame := by
  intro f hf fault hraises
  obtain rfl := List.mem_singleton.1 hf
  rcases hraises with hopening | ⟨source, hopened, after, hsource⟩
  · cases hopening
  · cases hopened
    cases hsource

/-- Neither a package nor an error that names the submission. -/
theorem smudgedLetter_escapes :
    manifestAssembler.specification ∈ Specification.registered ∧
    (∀ f ∈ smudgedLetter.files, f.IsTame) ∧
    (∃ place disk, emptyDesk.disk.createTemporary emptyDesk.temporaryDirectory =
      .ok (place, disk)) ∧
    ∃ after, (manifestAssembler.assemble smudgedLetter : StateM Surroundings _).run emptyDesk =
      (.error (.fault .unsuitableText), after) := by
  refine ⟨by simp [manifestAssembler, Specification.registered], isTame_smudgedLetter,
    ⟨_, _, rfl⟩, ?_⟩
  have hfails : Surroundings.fails (manifestAssembler.assemble smudgedLetter) emptyDesk
      (fun failure => decide (failure = .fault .unsuitableText)) = true := by
    decide +kernel
  obtain ⟨failure, after, hrun, hfailure⟩ := Surroundings.run_of_fails hfails
  obtain rfl := of_decide_eq_true hfailure
  exact ⟨after, hrun⟩

/-- The composition after the only file. -/
def smudgedWritten : Composition :=
  manifestAssembler.left smudgedLetter (.start manifestAssembler.plan) firstPage "first.txt"

private theorem wrote_smudgedLetter :
    Wrote manifestAssembler.plan smudgedLetter.id (.start manifestAssembler.plan)
      [(firstPage, "first.txt")] smudgedWritten :=
  wrote_left (a := manifestAssembler) (s := smudgedLetter) (by decide +kernel)

theorem smudgedLetter_names_submission_or_escapes :
    (∃ outcome after, (manifestAssembler.assemble smudgedLetter : StateM Surroundings _).run
        emptyDesk = (outcome, after) ∧
      ((∃ p, outcome = .ok p) ∨ (∃ e, outcome = .error (.error e) ∧ e.submission = "letter") ∨
        ∃ fault, outcome = .error (.fault fault) ∧
          manifestAssembler.Escapes smudgedLetter (pagePlaces ["first.txt"]) fault)) ∧
    ∃ after, (manifestAssembler.assemble smudgedLetter : StateM Surroundings _).run emptyDesk =
      (.error (.fault .unsuitableText), after) := by
  have hplaced : Placement.resolve manifestAssembler.specification.policy
      smudgedLetter.placements = .ok (pagePlaces ["first.txt"]) := by
    decide +kernel
  obtain ⟨place, disk, hcreate⟩ : ∃ place disk,
      emptyDesk.disk.createTemporary emptyDesk.temporaryDirectory = .ok (place, disk) :=
    ⟨_, _, rfl⟩
  have hregistered : manifestAssembler.specification ∈ Specification.registered := by
    simp [manifestAssembler, Specification.registered]
  obtain ⟨⟨outcome, after, hrun, hends⟩, hpasses⟩ :=
    assemble_names_submission_or_escapes hregistered isTame_smudgedLetter hcreate
  refine ⟨⟨outcome, after, hrun, ?_⟩, ?_⟩
  · rcases hends with hok | herror | ⟨placed, fault, hfault, hresolve, hescapes⟩
    · exact .inl hok
    · exact .inr (.inl herror)
    · cases hplaced.symm.trans hresolve
      exact .inr (.inr ⟨fault, hfault, hescapes⟩)
  · have hfit : smudgedWritten.pipeline.writer.close.written.length < Archive.Zip.wideLimit := by
      decide +kernel
    have hfails : (Specification.Mets.generate smudgedLetter smudgedWritten.resources).isOk =
        false := by
      decide +kernel
    cases hgenerate : Specification.Mets.generate smudgedLetter smudgedWritten.resources with
    | ok added =>
      rw [hgenerate] at hfails
      cases hfails
    | error fault =>
      exact hpasses (pagePlaces ["first.txt"]) smudgedWritten fault
        ⟨⟨rfl, hplaced, place, disk, hcreate⟩, rfl⟩ wrote_smudgedLetter hgenerate fun _ => hfit

end Assembler

end Deposit
