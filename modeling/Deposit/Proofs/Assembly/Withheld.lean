import Deposit.Proofs.Assembly.Sizes

set_option autoImplicit false
set_option relaxedAutoImplicit false

/-!
Sizes that are withheld. A tar archive copies a file of a declared size from its source, and a file
of unknown size from memory, once it has been read to its end. Both ways leave the archive with the
same bytes and the reader with the same tally, so a submission may withhold the sizes of any of its
files.
-/

namespace Deposit

/-- Content files that differ at most in the size that is declared of them. -/
structure ContentFile.SameContent (f g : ContentFile) : Prop where
  name_eq : f.name = g.name
  role_eq : f.role = g.role
  opened_eq : f.opened = g.opened

/-- Submissions that differ at most in the sizes that are declared of their content files. -/
structure Submission.SameContents (s t : Submission) : Prop where
  id_eq : s.id = t.id
  metadata_eq : s.metadata = t.metadata
  files : List.Forall₂ ContentFile.SameContent s.files t.files

/-- Two ways in which adding an entry ended that leave the same archive, with the same count of what
was read if the entry was taken. -/
structure Archive.Added.Agrees {W : Type} (a b : Archive.Added W) : Prop where
  fault_eq : a.fault = b.fault
  writer_eq : a.writer = b.writer
  tally_eq : a.fault = none → a.reader.tally = b.reader.tally

theorem Archive.Added.Agrees.map {V W : Type} {a b : Archive.Added V} (h : a.Agrees b)
    (f : V → W) : (a.map f).Agrees (b.map f) :=
  ⟨h.fault_eq, congrArg f h.writer_eq, h.tally_eq⟩

namespace Archive.Tar.Writer

variable {w v : Writer} {entries : List (String × Bytes)}

private theorem Holds.eq_of_holds (h : w.Holds entries) (hv : v.Holds entries) : w = v := by
  obtain ⟨output, offset, closed⟩ := w
  obtain ⟨output', offset', closed'⟩ := v
  obtain rfl : output = output' := Array.toList_inj.1 (h.output_eq.trans hv.output_eq.symm)
  obtain rfl : offset = offset' := h.offset_eq.trans hv.offset_eq.symm
  obtain rfl : closed = closed' := h.isOpen.trans hv.isOpen.symm
  rfl

private theorem Holds.add_withheld (h : w.Holds entries) {path : String} {source : Source}
    {m n : Option Int} (hm : Offered.IsFair ⟨path, source, m⟩)
    (hn : Offered.IsFair ⟨path, source, n⟩) (algorithms : List Digest.Algorithm) :
    (w.add path (.start algorithms source.open) m).Agrees
      (w.add path (.start algorithms source.open) n) := by
  by_cases hfits : Fits ⟨path, source, m⟩
  · obtain ⟨hfault, hholds, htook⟩ := h.add_of_fits hm hfits algorithms
    obtain ⟨hfault', hholds', htook'⟩ := h.add_of_fits hn hfits algorithms
    exact ⟨hfault.trans hfault'.symm, hholds.eq_of_holds hholds',
      fun _ => htook.tally_eq.trans htook'.tally_eq.symm⟩
  · obtain ⟨hfault, hwriter⟩ := add_of_not_fits h.isOpen hm hfits algorithms
    obtain ⟨hfault', hwriter'⟩ := add_of_not_fits h.isOpen hn hfits algorithms
    refine ⟨hfault.trans hfault'.symm, hwriter.trans hwriter'.symm, fun hnone => ?_⟩
    cases hfault.symm.trans hnone

end Archive.Tar.Writer

namespace Composition

variable {plan : PackagingPlan} {submission : String} {c : Composition}
  {entries : List (String × Bytes)}

private theorem addContent_withheld (hc : c.Packs plan entries)
    (htar : c.pipeline.writer.format = .tar) {f g : ContentFile} (h : f.SameContent g)
    (hsteady : f.IsSteady) (hf : f.IsRight) (hg : g.IsRight) (path : String) :
    addContent plan submission c f path f.opened =
      addContent plan submission c g path g.opened := by
  obtain ⟨source, hopened, hfree, hserves⟩ := hsteady
  have hother : g.opened = .ok source := h.opened_eq ▸ hopened
  have hagrees : (c.pipeline.writer.add path (.start plan.algorithms source.open) f.size).Agrees
      (c.pipeline.writer.add path (.start plan.algorithms source.open) g.size) := by
    have hholds := hc.holds
    cases hwriter : c.pipeline.writer with
    | raw w => simp [hwriter, Archive.Writer.format] at htar
    | zip w => simp [hwriter, Archive.Writer.format] at htar
    | tar w =>
      rw [hwriter] at hholds
      exact (Archive.Tar.Writer.Holds.add_withheld hholds ⟨hfree, hserves, hf source hopened⟩
        ⟨hfree, hserves, hg source hother⟩ plan.algorithms).map Archive.Writer.tar
  have hadd : (c.pipeline.add path (.start plan.algorithms source.open) f.size).Agrees
      (c.pipeline.add path (.start plan.algorithms source.open) g.size) := hagrees.map _
  rw [hopened, hother]
  unfold addContent
  simp only [← hadd.fault_eq, ← hadd.writer_eq, ← h.name_eq]
  cases hfault : (c.pipeline.add path (.start plan.algorithms source.open) f.size).fault with
  | some fault => rfl
  | none =>
    have htally := hadd.tally_eq hfault
    simp only [contentResource, Reader.count, Reader.digests, ← h.name_eq, ← h.role_eq, htally]

private theorem run_addContents_withheld {files others : List ContentFile}
    (h : List.Forall₂ ContentFile.SameContent files others) (htar : plan.archive = .tar)
    (hgood : ∀ f ∈ files, f.IsSteady ∧ f.IsRight) (hothers : ∀ g ∈ others, g.IsRight)
    (paths : List String) (hc : c.Follows plan) (hpacks : c.Packs plan entries)
    (before : Surroundings) :
    (addContents plan submission c (files.zip paths) : StateM Surroundings _).run before =
      (addContents plan submission c (others.zip paths) : StateM Surroundings _).run before := by
  induction h generalizing c entries paths before with
  | nil => rfl
  | @cons f g files others first rest ih =>
    cases paths with
    | nil => rfl
    | cons path paths =>
      rw [List.forall_mem_cons] at hgood hothers
      have hstep : (addContent plan submission c f path f.opened).1.Follows plan :=
        hc.addContent f path f.opened
      rw [List.zip_cons_cons, List.zip_cons_cons, run_addContents_cons, run_addContents_cons,
        ← addContent_withheld hpacks (hc.format_eq.trans htar) first hgood.1.1 hgood.1.2 hothers.1,
        ← first.name_eq]
      split
      · rfl
      · rename_i d heq
        rw [heq] at hstep
        have hnonneg : ∀ n, f.size = some n → 0 ≤ n := by
          intro n hn
          obtain ⟨source, hopened, -⟩ := hgood.1.1
          rw [hgood.1.2 source hopened n hn]
          exact Int.natCast_nonneg _
        obtain ⟨source, -, hd⟩ := hpacks.addContent hnonneg heq
        exact ih hgood.2 hothers.2 paths hstep hd _

end Composition

namespace Assembler

variable {a : Assembler} {s t : Submission}

/-- Whatever the specification and the compression, a tar archive takes the content files of a
submission in the same way, from which of them soever the sizes are withheld: with the same bytes,
the same descriptions and notices. So the same package comes of it, under the same name, wherever
the specification does not itself look at the sizes; no registered one does. -/
theorem assemble_withheld (h : s.SameContents t) (htar : a.archive = .tar)
    (hgood : ∀ f ∈ s.files, f.IsSteady ∧ f.IsRight) (hothers : ∀ g ∈ t.files, g.IsRight) :
    (∀ paths, (Composition.addContents a.plan s.id (.start a.plan) (s.files.zip paths) :
        StateM Surroundings _) =
      Composition.addContents a.plan t.id (.start a.plan) (t.files.zip paths)) ∧
    (a.specification ∈ Specification.registered ∨
        (∀ rs, a.specification.generate s rs = a.specification.generate t rs) →
      (a.assemble s : StateM Surroundings _) = a.assemble t) := by
  have hcontents (paths : List String) :
      (Composition.addContents a.plan s.id (.start a.plan) (s.files.zip paths) :
        StateM Surroundings _) =
      Composition.addContents a.plan s.id (.start a.plan) (t.files.zip paths) :=
    funext (Composition.run_addContents_withheld h.files htar hgood hothers paths
      (Composition.follows_start a.plan) (Composition.packs_start a.plan))
  refine ⟨fun paths => h.id_eq ▸ hcontents paths, fun hspec => ?_⟩
  have hplacements : s.placements = t.placements :=
    Submission.placements_congr (h.files.imp fun _ _ hf => ⟨hf.name_eq, hf.role_eq⟩)
  refine assemble_congr h.id_eq h.metadata_eq hplacements hcontents (funext fun rs => ?_)
  rcases hspec with hregistered | hgenerate
  · exact Specification.generate_eq_of_registered hregistered h.id_eq h.metadata_eq rs
  · exact hgenerate rs

/-- A submission of a letter and an empty file, with the sizes that are declared of them. -/
def sealedLetter (letter empty : Option Int) : Submission where
  id := "letter"
  files :=
    [{ name := "letter.txt"
       role := .manuscript
       opened := .ok (.ofBytes (Bytes.ofText "Dear all,"))
       size := letter },
     { name := "empty.txt"
       role := .supplement
       opened := .ok (.ofBytes [])
       size := empty }]
  metadata := []

private theorem sameContents_sealedLetter (m n k l : Option Int) :
    (sealedLetter m n).SameContents (sealedLetter k l) :=
  ⟨rfl, rfl, .cons ⟨rfl, rfl, rfl⟩ (.cons ⟨rfl, rfl, rfl⟩ .nil)⟩

private theorem steady_sealedLetter {m n : Option Int} (hm : ∀ k, m = some k → k = 9)
    (hn : ∀ k, n = some k → k = 0) :
    ∀ f ∈ (sealedLetter m n).files, f.IsSteady ∧ f.IsRight := by
  simp only [sealedLetter, List.forall_mem_cons]
  refine ⟨⟨⟨_, rfl, rfl, fun _ _ => rfl⟩, ?_⟩, ⟨⟨_, rfl, rfl, fun _ _ => rfl⟩, ?_⟩, by simp⟩
  · rintro source ⟨⟩ k hk
    rw [hm k hk]
    decide
  · rintro source ⟨⟩ k hk
    rw [hn k hk]
    decide

theorem assemble_sealedLetter :
    (tarAssembler.assemble (sealedLetter (some 9) (some 0)) : StateM Surroundings _) =
      tarAssembler.assemble (sealedLetter none none) ∧
    (tarAssembler.assemble (sealedLetter (some 9) none) : StateM Surroundings _) =
      tarAssembler.assemble (sealedLetter none (some 0)) ∧
    ∃ p after, (tarAssembler.assemble (sealedLetter none none) :
      StateM Surroundings _).run emptyDesk = (.ok p, after) := by
  have hletter : ∀ k, some (9 : Int) = some k → k = 9 := fun k hk => (Option.some.inj hk).symm
  have hempty : ∀ k, some (0 : Int) = some k → k = 0 := fun k hk => (Option.some.inj hk).symm
  have hnone (n : Int) : ∀ k, (none : Option Int) = some k → k = n := by
    rintro k ⟨⟩
  have hregistered : tarAssembler.specification ∈ Specification.registered := by
    simp [tarAssembler, Specification.registered]
  have hreturns : Surroundings.returns (tarAssembler.assemble (sealedLetter none none)) emptyDesk
      (fun _ => true) = true := by
    decide +kernel
  obtain ⟨p, after, hrun, -⟩ := Surroundings.run_of_returns hreturns
  refine ⟨?_, ?_, p, after, hrun⟩
  · exact (assemble_withheld (a := tarAssembler) (sameContents_sealedLetter _ _ _ _) rfl
      (steady_sealedLetter hletter hempty)
      fun g hg => (steady_sealedLetter (hnone 9) (hnone 0) g hg).2).2 (.inl hregistered)
  · exact (assemble_withheld (a := tarAssembler) (sameContents_sealedLetter _ _ _ _) rfl
      (steady_sealedLetter hletter (hnone 0))
      fun g hg => (steady_sealedLetter (hnone 9) hempty g hg).2).2 (.inl hregistered)

/-- A specification that adds a list of the sizes declared of the content files. -/
def sizeList : Specification :=
  { Specification.simpleZip with
    title := "SizeListSpecification"
    identifier := "urn:sizes"
    generate := fun s _ =>
      let shown := s.files.map fun f => (f.size.map Text.decimalInt).getD "None"
      .ok { files := [("sizes.txt", Bytes.ofText (", ".intercalate shown))] } }

def sizeListAssembler : Assembler :=
  { tarAssembler with specification := sizeList }

/-- A specification that looks at the sizes itself makes other packages where they are withheld. -/
theorem assemble_sizeList :
    (sealedLetter (some 9) (some 0)).SameContents (sealedLetter none none) ∧
    (∀ f ∈ (sealedLetter (some 9) (some 0)).files, f.IsSteady ∧ f.IsRight) ∧
    (∀ g ∈ (sealedLetter none none).files, g.IsSteady ∧ g.IsRight) ∧
    ∃ p q after later,
      (sizeListAssembler.assemble (sealedLetter (some 9) (some 0)) :
        StateM Surroundings _).run emptyDesk = (.ok p, after) ∧
      (sizeListAssembler.assemble (sealedLetter none none) :
        StateM Surroundings _).run emptyDesk = (.ok q, later) ∧
      p.resources ≠ q.resources := by
  have hletter : ∀ k, some (9 : Int) = some k → k = 9 := fun k hk => (Option.some.inj hk).symm
  have hempty : ∀ k, some (0 : Int) = some k → k = 0 := fun k hk => (Option.some.inj hk).symm
  have hnone (n : Int) : ∀ k, (none : Option Int) = some k → k = n := by
    rintro k ⟨⟩
  have hdeclared : Surroundings.returns
      (sizeListAssembler.assemble (sealedLetter (some 9) (some 0))) emptyDesk
      (fun p => p.resources.map Resource.sizeBytes = [9, 0, 4]) = true := by
    decide +kernel
  have hwithheld : Surroundings.returns
      (sizeListAssembler.assemble (sealedLetter none none)) emptyDesk
      (fun p => p.resources.map Resource.sizeBytes = [9, 0, 10]) = true := by
    decide +kernel
  obtain ⟨p, after, hrun, hsizes⟩ := Surroundings.run_of_returns hdeclared
  obtain ⟨q, later, hother, hothers⟩ := Surroundings.run_of_returns hwithheld
  refine ⟨sameContents_sealedLetter _ _ _ _, steady_sealedLetter hletter hempty,
    steady_sealedLetter (hnone 9) (hnone 0), p, q, after, later, hrun, hother, fun hsame => ?_⟩
  have hlengths := of_decide_eq_true hothers
  rw [← hsame, of_decide_eq_true hsizes] at hlengths
  cases hlengths

end Assembler

end Deposit
