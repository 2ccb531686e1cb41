import Deposit.Proofs.Archive.Splitting
import Deposit.Proofs.Assembly.Outcome

set_option autoImplicit false
set_option relaxedAutoImplicit false

/-!
What becomes of a submission when its sources cut their reads differently. Every step of composing a
package leaves the same layers, so assembling comes to the same in every respect, unless a tar
archive copies a content file of a declared size from a source that does not serve whole pieces.
-/

namespace Deposit

/-- Two ways in which opening a content file turned out: with one fault, or with two sources of the
same bytes that never fail. -/
inductive OpenedAlike : Except Fault Source → Except Fault Source → Prop where
  | error (fault : Fault) : OpenedAlike (.error fault) (.error fault)
  | ok {s t : Source} (bytes_eq : s.bytes = t.bytes) (left : s.FaultFree) (right : t.FaultFree) :
      OpenedAlike (.ok s) (.ok t)

/-- Content files that differ at most in the cut of their reads. -/
structure ContentFile.Alike (f g : ContentFile) : Prop where
  name_eq : f.name = g.name
  role_eq : f.role = g.role
  size_eq : f.size = g.size
  opened : OpenedAlike f.opened g.opened

/-- Submissions that differ at most in the cut of the reads of their content files. -/
structure Submission.Alike (s t : Submission) : Prop where
  id_eq : s.id = t.id
  metadata_eq : s.metadata = t.metadata
  files : List.Forall₂ ContentFile.Alike s.files t.files

/-- A content file that has no declared size, or that serves whole pieces of a tar member. -/
def ContentFile.ServesPieces (f : ContentFile) : Prop :=
  f.size ≠ none → ∀ source, f.opened = .ok source → source.ServesPieces

theorem Submission.placements_congr {s t : Submission}
    (h : List.Forall₂ (fun f g : ContentFile => f.name = g.name ∧ f.role = g.role)
      s.files t.files) :
    s.placements = t.placements := by
  have hfiles (files others : List ContentFile)
      (h : List.Forall₂ (fun f g => f.name = g.name ∧ f.role = g.role) files others) :
      (files.map fun f => (f.name, f.role)) = others.map fun f => (f.name, f.role) := by
    induction h with
    | nil => rfl
    | cons first _ ih => rw [List.map_cons, List.map_cons, first.1, first.2, ih]
  exact hfiles s.files t.files h

namespace Specification

/-- A specification whose generated files do not depend on the cut of the reads. -/
def IgnoresCuts (spec : Specification) : Prop :=
  ∀ s t rs, Submission.Alike s t → spec.generate s rs = spec.generate t rs

/-- What a registered specification generates depends on the identifier and the metadata of a
submission, and on the files as they were packaged. -/
theorem generate_eq_of_registered {spec : Specification} (h : spec ∈ registered)
    {s t : Submission} (hid : s.id = t.id) (hmetadata : s.metadata = t.metadata)
    (rs : List Resource) : spec.generate s rs = spec.generate t rs := by
  have hvalue : s.value? = t.value? := by
    unfold Submission.value?
    rw [hmetadata]
  simp only [registered, List.mem_cons, List.not_mem_nil, or_false] at h
  rcases h with rfl | rfl | rfl
  · rfl
  · have hforeign : Mets.foreignTexts s rs = Mets.foreignTexts t rs := by
      unfold Mets.foreignTexts Mets.fields
      rw [hvalue]
    have hmanifest : Mets.manifest s rs = Mets.manifest t rs := by
      unfold Mets.manifest Mets.metadataSection Mets.fields
      rw [hvalue]
    show Mets.generate s rs = Mets.generate t rs
    unfold Mets.generate
    rw [hforeign, hmanifest, hid]
  · have hforeign : Nihms.foreignTexts s = Nihms.foreignTexts t := by
      unfold Nihms.foreignTexts
      rw [hvalue]
    have htree : Nihms.metadataTree s = Nihms.metadataTree t := by
      unfold Nihms.metadataTree Nihms.valueElement
      rw [hvalue]
    show Nihms.generate s rs = Nihms.generate t rs
    unfold Nihms.generate
    rw [hmetadata, hforeign, htree]

private theorem ignoresCuts_of_registered {spec : Specification} (h : spec ∈ registered) :
    spec.IgnoresCuts :=
  fun _ _ rs hst => generate_eq_of_registered h hst.id_eq hst.metadata_eq rs

end Specification

namespace Composition

variable {plan : PackagingPlan} {submission : String} {c : Composition}

private theorem addContent_alike {f g : ContentFile} (h : f.Alike g) (path : String)
    (hpieces : c.pipeline.writer.format = .tar → f.ServesPieces ∧ g.ServesPieces) :
    addContent plan submission c f path f.opened =
      addContent plan submission c g path g.opened := by
  have hopened := h.opened
  cases hf : f.opened with
  | error fault =>
    rw [hf] at hopened
    cases hg : g.opened with
    | error other =>
      rw [hg] at hopened
      cases hopened
      simp only [addContent, h.name_eq]
    | ok source =>
      rw [hg] at hopened
      cases hopened
  | ok source =>
    rw [hf] at hopened
    cases hg : g.opened with
    | error fault =>
      rw [hg] at hopened
      cases hopened
    | ok other =>
      rw [hg] at hopened
      obtain ⟨hbytes, hleft, hright⟩ : source.bytes = other.bytes ∧ source.FaultFree ∧
          other.FaultFree := by
        cases hopened with
        | ok bytes_eq left right => exact ⟨bytes_eq, left, right⟩
      have hadd : (c.pipeline.add path (.start plan.algorithms source.open) f.size).Alike
          (c.pipeline.add path (.start plan.algorithms other.open) f.size) := by
        refine (c.pipeline.writer.add_alike path
          (Reader.alike_start plan.algorithms hbytes hleft hright) f.size ?_).map _
        intro htar hsize
        obtain ⟨hpf, hpg⟩ := hpieces htar
        exact ⟨hpf hsize source hf, hpg (h.size_eq ▸ hsize) other hg⟩
      have htally := hadd.reader_alike.tally_eq
      simp only [addContent, contentResource, Reader.count, Reader.digests, ← h.size_eq,
        ← h.name_eq, ← h.role_eq, hadd.writer_eq, hadd.fault_eq, htally]

private theorem run_addContents_alike {files others : List ContentFile}
    (h : List.Forall₂ ContentFile.Alike files others) (paths : List String)
    (hc : c.Follows plan)
    (hpieces : plan.archive = .tar → ∀ f ∈ files ++ others, f.ServesPieces)
    (before : Surroundings) :
    (addContents plan submission c (files.zip paths) : StateM Surroundings _).run before =
      (addContents plan submission c (others.zip paths) : StateM Surroundings _).run before := by
  induction h generalizing c paths before with
  | nil => rfl
  | @cons f g files others first rest ih =>
    cases paths with
    | nil => rfl
    | cons path paths =>
      have hstep : (addContent plan submission c f path f.opened).1.Follows plan :=
        hc.addContent f path f.opened
      rw [List.zip_cons_cons, List.zip_cons_cons, run_addContents_cons, run_addContents_cons,
        ← addContent_alike first path fun htar => ?pieces, ← first.name_eq]
      case pieces =>
        have hall := hpieces (hc.format_eq.symm.trans htar)
        exact ⟨hall f (by simp), hall g (by simp)⟩
      split
      · rfl
      · rename_i d heq
        rw [heq] at hstep
        refine ih paths hstep (fun htar x hx => hpieces htar x ?_) _
        rcases List.mem_append.1 hx with hx | hx
        · simp [hx]
        · simp [hx]

private theorem run_compose_congr {s t : Submission} (hid : s.id = t.id) (placed : List Placed)
    (hcontents : (addContents plan s.id (start plan) (s.files.zip (placed.map Placed.path)) :
        StateM Surroundings _) =
      addContents plan s.id (start plan) (t.files.zip (placed.map Placed.path)))
    (hgenerate : plan.specification.generate s = plan.specification.generate t)
    (before : Surroundings) :
    (plan.compose s placed : StateM Surroundings _).run before =
      (plan.compose t placed : StateM Surroundings _).run before := by
  have hcomplete : complete plan s = complete plan t := by
    funext result
    obtain ⟨c, failure⟩ := result
    cases failure with
    | some failure => simp only [complete, hid]
    | none => simp only [complete, addSupplement, hgenerate, hid]
  rw [run_compose, run_compose, hcomplete, hcontents, hid]

end Composition

namespace Assembler

variable {a : Assembler} {s t : Submission}

private theorem run_build_congr (hid : s.id = t.id) (placed : List Placed)
    (hcontents : (Composition.addContents a.plan s.id (.start a.plan)
        (s.files.zip (placed.map Placed.path)) : StateM Surroundings _) =
      Composition.addContents a.plan s.id (.start a.plan) (t.files.zip (placed.map Placed.path)))
    (hgenerate : a.specification.generate s = a.specification.generate t)
    (before : Surroundings) :
    (a.build s placed : StateM Surroundings _).run before =
      (a.build t placed : StateM Surroundings _).run before := by
  have hcompose : (a.plan.compose s placed : StateM Surroundings _) = a.plan.compose t placed :=
    funext (Composition.run_compose_congr hid placed hcontents hgenerate)
  have hdescribe : a.plan.describe s = a.plan.describe t := by
    funext resources sink
    simp only [PackagingPlan.describe, packageBaseName, hid]
  have hfinish : finishNotice s = finishNotice t := by
    funext p
    simp only [finishNotice, hid]
  unfold build
  rw [hcompose, hdescribe, hfinish, hid]

/-- Submissions of one identifier and the same metadata, with files of the same names and roles, are
assembled in the same way where their content files come to the same and the specification generates
the same. -/
theorem assemble_congr (hid : s.id = t.id) (hmetadata : s.metadata = t.metadata)
    (hplacements : s.placements = t.placements)
    (hcontents : ∀ paths, (Composition.addContents a.plan s.id (.start a.plan)
        (s.files.zip paths) : StateM Surroundings _) =
      Composition.addContents a.plan s.id (.start a.plan) (t.files.zip paths))
    (hgenerate : a.specification.generate s = a.specification.generate t) :
    (a.assemble s : StateM Surroundings _) = a.assemble t := by
  have hlength : s.files.length = t.files.length := by
    simpa [Submission.placements] using congrArg List.length hplacements
  have hvalue : s.value? = t.value? := by
    unfold Submission.value?
    rw [hmetadata]
  have hrefusal : a.refusal? s = a.refusal? t := by
    have hempty : s.files.isEmpty = t.files.isEmpty := by
      rw [Bool.eq_iff_iff, List.isEmpty_iff_length_eq_zero, List.isEmpty_iff_length_eq_zero,
        hlength]
    unfold refusal? missing
    rw [hempty, hvalue, hid]
  have hnotice : a.startNotice s = a.startNotice t := by
    unfold startNotice
    rw [hid, hlength]
  have hbuild : (a.build s : List Placed → StateM Surroundings _) = a.build t :=
    funext fun placed => funext (run_build_congr hid placed (hcontents _) hgenerate)
  unfold assemble
  rw [hrefusal, hnotice, hplacements, hid, hbuild]

private theorem firstFault_of_short {placed : List Placed} {c : Composition}
    {earlier later : List (ContentFile × String)} {file : ContentFile} {path : String}
    {source : Source} {size : Int} (htar : a.archive = .tar)
    (hsplit : s.files.zip (placed.map Placed.path) = earlier ++ (file, path) :: later)
    (hwrote : Composition.Wrote a.plan s.id (.start a.plan) earlier c)
    (hopened : file.opened = .ok source) (hfree : source.FaultFree)
    (hsize : file.size = some size) (hpos : 0 < size)
    (hshort : source.served 0 (min size.toNat Archive.Tar.copySize) <
      min size.toNat Archive.Tar.copySize) :
    ∃ fault, fault.family ≠ .other ∧ a.FirstFault s placed c earlier file path later fault := by
  have hformat : c.pipeline.writer.format = .tar :=
    (hwrote.follows (Composition.follows_start a.plan)).format_eq.trans htar
  cases hfault : (c.pipeline.writer.add path (.start a.plan.algorithms source.open)
      file.size).fault with
  | none =>
    cases hw : c.pipeline.writer with
    | raw w => simp [hw, Archive.Writer.format] at hformat
    | zip w => simp [hw, Archive.Writer.format] at hformat
    | tar w =>
      rw [hw, hsize] at hfault
      exact absurd hfault (w.fault_addDeclared_of_short path hpos hfree hshort)
  | some fault =>
    refine ⟨fault, ?_, hsplit, hwrote, .adding hopened hfault⟩
    rcases Archive.Writer.fault_add
      (hwrote.follows (Composition.follows_start a.plan)).isOpen hfault with
      ⟨after, hsource⟩ | ⟨e, rfl, he⟩ | ⟨hzip, -⟩
    · cases hfree.symm.trans hsource
    · exact he
    · cases hformat.symm.trans hzip

/-- Under the registered specifications, and under every specification whose generated files do not
depend on the cut of the reads, submissions that differ at most in that cut are assembled in the
same way: with the same outcome, the same resources and metadata, the same file and notices. Only in
a tar archive do content files of a declared size have to come from sources that serve whole pieces:
where the first piece of such a file is cut short, assembling fails on that file. -/
theorem assemble_ignores_cuts (h : s.Alike t)
    (hspec : a.specification ∈ Specification.registered ∨ a.specification.IgnoresCuts) :
    ((a.archive = .tar → ∀ f ∈ s.files ++ t.files, f.ServesPieces) →
      (a.assemble s : StateM Surroundings _) = a.assemble t) ∧
    ∀ {placed : List Placed} {before : Surroundings} {c : Composition}
      {earlier later : List (ContentFile × String)} {file : ContentFile} {path : String}
      {source : Source} {size : Int}, a.archive = .tar → a.Admits s placed before →
      s.files.zip (placed.map Placed.path) = earlier ++ (file, path) :: later →
      Composition.Wrote a.plan s.id (.start a.plan) earlier c →
      file.opened = .ok source → source.FaultFree → file.size = some size → 0 < size →
      source.served 0 (min size.toNat Archive.Tar.copySize) <
        min size.toNat Archive.Tar.copySize →
      ∃ fault after, (a.assemble s : StateM Surroundings _).run before =
        (.error (.error (.content s.id file.name fault)), after) := by
  refine ⟨fun hpieces => ?same, ?short⟩
  case short =>
    intro placed before c earlier later file path source size htar hadmits hsplit hwrote hopened
      hfree hsize hpos hshort
    obtain ⟨fault, hfamily, hfirst⟩ :=
      firstFault_of_short htar hsplit hwrote hopened hfree hsize hpos hshort
    obtain ⟨failure, after, hrun, -, hfits⟩ := hfirst.run_assemble hadmits.toStarts
    have hfollows : (a.left s c file path).Follows a.plan :=
      (hwrote.follows (Composition.follows_start a.plan)).addContent file path file.opened
    have hfit := hfollows.fits (fun hzip => by cases htar.symm.trans hzip)
    rw [hfits hfit, Composition.contentFailure_of_ne_other file.name hfamily] at hrun
    exact ⟨fault, after, hrun a.specification.generate⟩
  case same =>
    have hgenerate : a.specification.IgnoresCuts :=
      hspec.elim Specification.ignoresCuts_of_registered id
    have hplacements : s.placements = t.placements :=
      Submission.placements_congr (h.files.imp fun _ _ hf => ⟨hf.name_eq, hf.role_eq⟩)
    refine assemble_congr h.id_eq h.metadata_eq hplacements (fun paths => ?_)
      (funext fun rs => hgenerate s t rs h)
    exact funext (Composition.run_addContents_alike h.files paths
      (Composition.follows_start a.plan) hpieces)

/-- The letter, but read in other pieces. -/
def hastyLetter : Submission :=
  { letter with
    files :=
      [{ name := "letter.txt"
         role := .supplement
         opened := .ok { bytes := Bytes.ofText "Dear all,", serve := fun _ _ => 5 }
         size := none },
       { name := "seal.bin"
         role := .figure
         opened := .ok { bytes := [1, 2, 3, 4], serve := fun _ asked => asked + 1 }
         size := some 4 }] }

private theorem alike_hastyLetter : letter.Alike hastyLetter where
  id_eq := rfl
  metadata_eq := rfl
  files :=
    .cons ⟨rfl, rfl, rfl, .ok rfl rfl rfl⟩ (.cons ⟨rfl, rfl, rfl, .ok rfl rfl rfl⟩ .nil)

private theorem servesPieces_letters : ∀ f ∈ letter.files ++ hastyLetter.files, f.ServesPieces := by
  intro f hf hsize source hopened
  rcases List.mem_append.1 hf with hf | hf
  · rcases List.mem_pair.1 hf with rfl | rfl
    · exact absurd rfl hsize
    · cases hopened
      exact fun offset asked _ => Nat.le_refl asked
  · rcases List.mem_pair.1 hf with rfl | rfl
    · exact absurd rfl hsize
    · cases hopened
      exact fun offset asked _ => Nat.le_succ asked

/-- An assembler of plain tar archives. -/
def tarAssembler : Assembler where
  specification := Specification.simpleZip
  options := { archive := some .tar }
  algorithms := [.sha256, .md5]
  supported := rfl

/-- A file of six bytes, all of them declared, that is read in pieces of a length. -/
def cutFile (length : Nat) : ContentFile where
  name := "a.txt"
  role := .manuscript
  opened := .ok { bytes := Bytes.ofText "abcdef", serve := fun _ _ => length }
  size := some 6

def cutSubmission (length : Nat) : Submission where
  id := "sub-1"
  files := [cutFile length]
  metadata := []

private theorem alike_cutSubmission (m n : Nat) : (cutSubmission m).Alike (cutSubmission n) :=
  ⟨rfl, rfl, .cons ⟨rfl, rfl, rfl, .ok rfl rfl rfl⟩ .nil⟩

/-- The same bytes, cut in two ways: one submission fails and the other is packaged. -/
theorem cutSubmission_differs :
    (cutSubmission 2).Alike (cutSubmission 6) ∧
    (∃ failure after, (tarAssembler.assemble (cutSubmission 2) : StateM Surroundings _).run
      emptyDesk = (.error failure, after)) ∧
    ∃ p after, (tarAssembler.assemble (cutSubmission 6) : StateM Surroundings _).run emptyDesk =
      (.ok p, after) := by
  have hfails : Surroundings.fails (tarAssembler.assemble (cutSubmission 2)) emptyDesk
      (fun _ => true) = true := by
    decide +kernel
  have hreturns : Surroundings.returns (tarAssembler.assemble (cutSubmission 6)) emptyDesk
      (fun _ => true) = true := by
    decide +kernel
  obtain ⟨failure, torn, hfailed, -⟩ := Surroundings.run_of_fails hfails
  obtain ⟨p, after, hreturned, -⟩ := Surroundings.run_of_returns hreturns
  exact ⟨alike_cutSubmission 2 6, ⟨failure, torn, hfailed⟩, p, after, hreturned⟩

theorem assemble_ignores_cuts_of_letters :
    (letterAssembler.assemble letter : StateM Surroundings _) =
      letterAssembler.assemble hastyLetter ∧
    ∃ fault after, (tarAssembler.assemble (cutSubmission 2) : StateM Surroundings _).run emptyDesk =
      (.error (.error (.content "sub-1" "a.txt" fault)), after) := by
  obtain ⟨hsame, -⟩ := assemble_ignores_cuts (a := letterAssembler) alike_hastyLetter
    (.inr fun _ _ _ _ => rfl)
  obtain ⟨-, hshort⟩ := assemble_ignores_cuts (a := tarAssembler) (alike_cutSubmission 2 6)
    (.inl (by simp [tarAssembler, Specification.registered]))
  refine ⟨hsame fun _ => servesPieces_letters, ?_⟩
  have hplaced : Placement.resolve tarAssembler.specification.policy
      (cutSubmission 2).placements = .ok (pagePlaces ["a.txt"]) := by
    decide +kernel
  have hadmits : tarAssembler.Admits (cutSubmission 2) (pagePlaces ["a.txt"]) emptyDesk :=
    ⟨⟨rfl, hplaced, _, _, rfl⟩, rfl⟩
  have hsplit : (cutSubmission 2).files.zip ((pagePlaces ["a.txt"]).map Placed.path) =
      [] ++ (cutFile 2, "a.txt") :: [] := rfl
  have hopened : (cutFile 2).opened =
      .ok { bytes := Bytes.ofText "abcdef", serve := fun _ _ => 2 } := rfl
  exact hshort rfl hadmits hsplit (.nil _) hopened rfl rfl (by decide) (by decide)

end Assembler

end Deposit
