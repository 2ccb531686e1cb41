import Deposit.Proofs.Assembly.Failure

set_option autoImplicit false
set_option relaxedAutoImplicit false

/-!
What the guard over generated files is worth. It compares paths as texts, so the paths of a package
are distinct texts under every specification, and a generated file is refused exactly if its path
repeats an earlier one. Paths that clash without being the same text pass it.
-/

namespace Deposit

open PackagePath (Clash)

theorem PackagePath.Clash.refl (cs : List Char) : Clash cs cs :=
  .inl List.prefix_rfl

namespace Composition

variable {plan : PackagingPlan} {submission path : String} {content : Bytes} {c d : Composition}
  {files : List (String × Bytes)} {p q : Pipeline}

/-- The paths of the files written so far. -/
def paths (c : Composition) : List String :=
  c.resources.map Resource.packagePath

theorem any_packagePath_iff :
    (c.resources.any fun r => r.packagePath == path) = true ↔ path ∈ c.paths := by
  simp [paths]

private theorem not_mem_paths_of_addGenerated
    (h : addGenerated plan submission c path content = (d, none)) : path ∉ c.paths := by
  intro hmem
  unfold addGenerated at h
  rw [if_pos (any_packagePath_iff.2 hmem)] at h
  cases h

private theorem paths_addGenerated (h : addGenerated plan submission c path content = (d, none)) :
    d.paths = c.paths ++ [path] := by
  obtain ⟨-, -, hresources⟩ := addGenerated_eq_none h
  rw [paths, hresources, List.map_append]
  rfl

private theorem nodup_paths_addAllGenerated (hc : c.paths.Nodup)
    (h : addAllGenerated plan submission c files = (d, none)) : d.paths.Nodup := by
  induction files generalizing c with
  | nil =>
    obtain rfl : c = d := congrArg Prod.fst h
    exact hc
  | cons file files ih =>
    unfold addAllGenerated at h
    split at h
    · cases h
    · rename_i e heq
      refine ih ?_ h
      rw [paths_addGenerated heq]
      refine List.nodup_append.2 ⟨hc, List.nodup_singleton _, ?_⟩
      intro other hother last hlast
      obtain rfl := List.mem_singleton.1 hlast
      rintro rfl
      exact not_mem_paths_of_addGenerated heq hother

/-- The layers take generated files, one after the other. -/
inductive Accepts (algorithms : List Digest.Algorithm) :
    Pipeline → List (String × Bytes) → Pipeline → Prop
  | nil (p : Pipeline) : Accepts algorithms p [] p
  | cons {p q : Pipeline} {path : String} {content : Bytes} {rest : List (String × Bytes)}
      (first : (p.add path (.start algorithms (Source.ofBytes content).open)
        (some content.length)).fault = none)
      (others : Accepts algorithms (p.add path (.start algorithms (Source.ofBytes content).open)
        (some content.length)).writer rest q) :
      Accepts algorithms p ((path, content) :: rest) q

theorem Accepts.format_eq {algorithms : List Digest.Algorithm}
    (h : Accepts algorithms p files q) : q.writer.format = p.writer.format := by
  induction h with
  | nil p => rfl
  | @cons p q path content files first others ih =>
    rw [ih, Pipeline.writer_add, Archive.Writer.format_add]

theorem addGenerated_of_not_mem (hdigests : plan.digestFault? = none) (submission : String)
    (hnew : path ∉ c.paths)
    (hfault : (c.pipeline.add path (.start plan.algorithms (Source.ofBytes content).open)
      (some content.length)).fault = none) :
    ∃ d, addGenerated plan submission c path content = (d, none) ∧
      d.pipeline = (c.pipeline.add path (.start plan.algorithms (Source.ofBytes content).open)
        (some content.length)).writer := by
  unfold addGenerated
  rw [if_neg fun hany => hnew (any_packagePath_iff.1 hany)]
  simp only [hfault, hdigests]
  exact ⟨_, rfl, rfl⟩

theorem addGenerated_of_mem (h : path ∈ c.paths) :
    addGenerated plan submission c path content =
      (c, some (.error (.collision submission path))) := by
  unfold addGenerated
  rw [if_pos (any_packagePath_iff.2 h)]

private theorem addAllGenerated_append (hdigests : plan.digestFault? = none) (submission : String)
    (h : Accepts plan.algorithms c.pipeline files q)
    (hnew : (c.paths ++ files.map Prod.fst).Nodup)
    (rest : List (String × Bytes)) :
    ∃ d, d.pipeline = q ∧ d.paths = c.paths ++ files.map Prod.fst ∧
      addAllGenerated plan submission c (files ++ rest) =
        addAllGenerated plan submission d rest := by
  generalize hp : c.pipeline = p at h
  induction h generalizing c with
  | nil p => exact ⟨c, hp, by simp, rfl⟩
  | @cons p q path content files first others ih =>
    rw [List.map_cons, List.append_cons] at hnew
    have hfresh : path ∉ c.paths := by
      intro hmem
      obtain ⟨-, -, hapart⟩ := List.nodup_append.1 (List.nodup_append.1 hnew).1
      exact hapart path hmem path (List.mem_singleton_self path) rfl
    obtain ⟨d, hadd, hd⟩ := addGenerated_of_not_mem hdigests submission hfresh (hp ▸ first)
    rw [← paths_addGenerated hadd] at hnew
    obtain ⟨e, he, hpaths, hrest⟩ := ih hnew (hd.trans (by rw [hp]))
    refine ⟨e, he, ?_, ?_⟩
    · rw [hpaths, paths_addGenerated hadd, List.append_assoc]
      rfl
    · rw [List.cons_append, addAllGenerated, hadd]
      exact hrest

end Composition

namespace Assembler

variable {a : Assembler} {s : Submission} {placed : List Placed} {c d : Composition}
  {before : Surroundings} {generated : Generated} {q : Pipeline}

private theorem paths_of_wrote (hplaced : Placement.resolve a.specification.policy s.placements =
    .ok placed)
    (hwrote : Composition.Wrote a.plan s.id (.start a.plan) (s.files.zip (placed.map Placed.path))
      c) : c.paths = placed.map Placed.path := by
  obtain ⟨rs, hrs, hlists⟩ := hwrote.lists
  obtain rfl : c.resources = rs := hrs
  rw [Composition.paths, Composition.packagePath_eq_of_lists hlists, map_snd_zip_placed hplaced]

private theorem nodup_placed (hplaced : Placement.resolve a.specification.policy s.placements =
    .ok placed) : (placed.map Placed.path).Nodup := by
  obtain ⟨hapart, -⟩ := Placement.clear_of_resolve hplaced
  refine List.pairwise_map.2 (hapart.imp ?_)
  intro x y hclash heq
  rw [heq] at hclash
  exact hclash (Clash.refl _)

theorem Built.nodup_paths {disk later : Disk} {directory : List String} {name : String}
    {sink : Recorder} {p : PackageStream}
    (h : a.Built s placed disk later directory name sink p)
    (hplaced : Placement.resolve a.specification.policy s.placements = .ok placed) :
    (p.resources.map Resource.packagePath).Nodup := by
  obtain ⟨c, d, generated, hwrote, -, hall, -, -, -, hresources, -⟩ := h.parts hplaced
  have hpaths : c.paths = placed.map Placed.path := paths_of_wrote hplaced hwrote
  rw [← hresources]
  refine Composition.nodup_paths_addAllGenerated ?_ hall
  show c.paths.Nodup
  rw [hpaths]
  exact nodup_placed hplaced

/-- What assembling comes to when all content files have been written and files have been
generated. -/
theorem Admits.run_assemble_of_generate (h : a.Admits s placed before)
    (hwrote : Composition.Wrote a.plan s.id (.start a.plan) (s.files.zip (placed.map Placed.path))
      c)
    (hgenerate : a.specification.generate s c.resources = .ok generated)
    {failure : Option AssemblyFailure}
    (hall : Composition.addAllGenerated a.plan s.id
      { c with notices := c.notices ++ generated.notices } generated.files = (d, failure))
    (hfits : d.pipeline.writer.Fits) :
    match failure with
    | some e => ∃ after, (a.assemble s : StateM Surroundings _).run before = (.error e, after)
    | none => ∃ p after, (a.assemble s : StateM Surroundings _).run before = (.ok p, after) ∧
        p.resources = d.resources := by
  have hadd : Composition.addSupplement a.plan s c = (d, failure) := by
    have hplan : a.plan.specification.generate s c.resources = .ok generated := hgenerate
    rw [Composition.addSupplement, hplan]
    exact hall
  have hfollows : d.Follows a.plan := by
    have hlast := (hwrote.follows (Composition.follows_start a.plan)).addSupplement s
    rwa [hadd] at hlast
  have hcompose := run_compose_of_wrote hwrote
  rw [hadd] at hcompose
  cases failure with
  | some e =>
    obtain ⟨final, houtcome, hsame⟩ := hfollows.conclude_of_failure s.id e
    rw [hsame hfits] at houtcome
    exact ⟨_, h.run_assemble_of_failure hcompose houtcome⟩
  | none =>
    have houtcome : (d.conclude s.id none).outcome = .ok d.resources := by
      simp only [Composition.conclude, hfits.closeFault?_eq_none hfollows.isOpen]
    obtain ⟨place, path, -, hrun⟩ := h.run_assemble hcompose
    rw [houtcome] at hrun
    exact ⟨_, _, hrun, rfl⟩

/-- The files of a package always stand at distinct paths, as texts. When the content files have
been written and others generated, which the layers take as far as they are offered, the assembler
refuses the first generated file whose path is that of a content file or of a generated file before
it, and the error names that path. If no path is the same text as an earlier one, nothing is
refused, however the paths clash otherwise, and the package lists all of them. -/
theorem guard_compares_texts :
    (∀ p after, (a.assemble s : StateM Surroundings _).run before = (.ok p, after) →
      (p.resources.map Resource.packagePath).Nodup) ∧
    ∀ placed c generated, a.Admits s placed before →
      Composition.Wrote a.plan s.id (.start a.plan) (s.files.zip (placed.map Placed.path)) c →
      a.specification.generate s c.resources = .ok generated →
      (∀ earlier path content later q, generated.files = earlier ++ (path, content) :: later →
        Composition.Accepts a.plan.algorithms c.pipeline earlier q → q.writer.Fits →
        (placed.map Placed.path ++ earlier.map Prod.fst).Nodup →
        path ∈ placed.map Placed.path ++ earlier.map Prod.fst →
        ∃ after, (a.assemble s : StateM Surroundings _).run before =
          (.error (.error (.collision s.id path)), after)) ∧
      ∀ q, Composition.Accepts a.plan.algorithms c.pipeline generated.files q → q.writer.Fits →
        (placed.map Placed.path ++ generated.files.map Prod.fst).Nodup →
        ∃ p after, (a.assemble s : StateM Surroundings _).run before = (.ok p, after) ∧
          p.resources.map Resource.packagePath =
            placed.map Placed.path ++ generated.files.map Prod.fst := by
  refine ⟨?returned, ?guarded⟩
  case returned =>
    intro p after h
    obtain ⟨placed, directory, name, sink, -, hplaced, hbuilt⟩ := built_of_run h
    exact hbuilt.nodup_paths hplaced
  case guarded =>
    intro placed c generated hadmits hwrote hgenerate
    have hpaths : c.paths = placed.map Placed.path := paths_of_wrote hadmits.placed_eq hwrote
    -- the notices of generation come first, and the guard does not look at them
    let noted : Composition := { c with notices := c.notices ++ generated.notices }
    have hnoted : noted.paths = placed.map Placed.path := hpaths
    constructor
    · intro earlier path content later q hfiles haccepts hfits hnodup hmem
      rw [← hnoted] at hnodup hmem
      obtain ⟨d, rfl, hd, hall⟩ :=
        Composition.addAllGenerated_append (c := noted) hadmits.digests s.id
        haccepts hnodup ((path, content) :: later)
      rw [← hd] at hmem
      rw [← hfiles, Composition.addAllGenerated, Composition.addGenerated_of_mem hmem] at hall
      exact hadmits.run_assemble_of_generate hwrote hgenerate hall hfits
    · intro q haccepts hfits hnodup
      rw [← hnoted] at hnodup ⊢
      obtain ⟨d, rfl, hd, hall⟩ :=
        Composition.addAllGenerated_append (c := noted) hadmits.digests s.id
        haccepts hnodup []
      rw [List.append_nil] at hall
      obtain ⟨p, after, hrun, hresources⟩ :=
        hadmits.run_assemble_of_generate hwrote hgenerate hall hfits
      refine ⟨p, after, hrun, ?_⟩
      rw [hresources]
      exact hd

/-- An assembler whose specification reserves nothing and generates some files. -/
def notesAssembler (files : List (String × Bytes)) : Assembler :=
  letterAssembler.generating fun _ _ => .ok { files }

def notes : Submission where
  id := "notes"
  files := [{ firstPage with name := "notes.txt" }]
  metadata := []

/-- The notes are packaged together with a generated file of the same name but for case. -/
theorem shouted_notes_pass :
    Clash "notes.txt".toList "NOTES.TXT".toList ∧
      (notesAssembler [("NOTES.TXT", Bytes.ofText "generated")]).specification.policy.reserved =
        [] ∧
      ∃ p after, ((notesAssembler [("NOTES.TXT", Bytes.ofText "generated")]).assemble notes :
          StateM Surroundings _).run emptyDesk = (.ok p, after) ∧
        p.resources.map Resource.packagePath = ["notes.txt", "NOTES.TXT"] := by
  refine ⟨by decide +kernel, rfl, ?_⟩
  have hreturns : Surroundings.returns
      ((notesAssembler [("NOTES.TXT", Bytes.ofText "generated")]).assemble notes) emptyDesk
      (fun p => decide (p.resources.map Resource.packagePath = ["notes.txt", "NOTES.TXT"])) =
        true := by
    decide +kernel
  obtain ⟨p, after, hrun, hpaths⟩ := Surroundings.run_of_returns hreturns
  exact ⟨p, after, hrun, of_decide_eq_true hpaths⟩

/-- The composition after the notes. -/
def notesWritten : Composition :=
  letterAssembler.left notes (.start letterAssembler.plan) { firstPage with name := "notes.txt" }
    "notes.txt"

private theorem wrote_notes (files : List (String × Bytes)) :
    Composition.Wrote (notesAssembler files).plan "notes" (.start (notesAssembler files).plan)
      [({ firstPage with name := "notes.txt" }, "notes.txt")] notesWritten := by
  refine .cons (Prod.ext rfl ?_) (.nil _)
  show (Composition.addContent letterAssembler.plan "notes" (.start letterAssembler.plan)
    { firstPage with name := "notes.txt" } "notes.txt" firstPage.opened).2 = none
  decide +kernel

private theorem admits_notes (files : List (String × Bytes)) :
    (notesAssembler files).Admits notes (pagePlaces ["notes.txt"]) emptyDesk := by
  have hplaced : Placement.resolve letterAssembler.specification.policy notes.placements =
      .ok (pagePlaces ["notes.txt"]) := by
    decide +kernel
  have hadmits : letterAssembler.Admits notes (pagePlaces ["notes.txt"]) emptyDesk :=
    ⟨⟨rfl, hplaced, _, _, rfl⟩, rfl⟩
  exact hadmits.generating _

theorem guard_of_notes :
    (∃ after, ((notesAssembler [("about.txt", []), ("notes.txt", [1]), ("late.txt", [])]).assemble
        notes : StateM Surroundings _).run emptyDesk =
        (.error (.error (.collision "notes" "notes.txt")), after)) ∧
    ∃ p after, ((notesAssembler [("Notes.txt", []), ("notes.txt/late", [1])]).assemble notes :
        StateM Surroundings _).run emptyDesk = (.ok p, after) ∧
      p.resources.map Resource.packagePath = ["notes.txt", "Notes.txt", "notes.txt/late"] := by
  have hfits {taken : List (String × Bytes)} {q : Pipeline}
      (h : Composition.Accepts [.sha256, .md5] notesWritten.pipeline taken q) : q.writer.Fits := by
    intro hzip
    have htar : notesWritten.pipeline.writer.format = .tar := by decide +kernel
    rw [h.format_eq, htar] at hzip
    cases hzip
  constructor
  · obtain ⟨-, hguard⟩ := @guard_compares_texts
      (notesAssembler [("about.txt", []), ("notes.txt", [1]), ("late.txt", [])]) notes emptyDesk
    obtain ⟨hrefused, -⟩ := hguard _ _ _ (admits_notes _) (wrote_notes _) rfl
    have haccepts : Composition.Accepts [.sha256, .md5] notesWritten.pipeline
        [("about.txt", [])] _ :=
      .cons (by decide +kernel) (.nil _)
    exact hrefused [("about.txt", [])] "notes.txt" [1] [("late.txt", [])] _ rfl haccepts
      (hfits haccepts) (by decide) (by decide)
  · obtain ⟨-, hguard⟩ := @guard_compares_texts
      (notesAssembler [("Notes.txt", []), ("notes.txt/late", [1])]) notes emptyDesk
    obtain ⟨-, hpassed⟩ := hguard _ _ _ (admits_notes _) (wrote_notes _) rfl
    have haccepts : Composition.Accepts [.sha256, .md5] notesWritten.pipeline
        [("Notes.txt", []), ("notes.txt/late", [1])] _ :=
      .cons (by decide +kernel) (.cons (by decide +kernel) (.nil _))
    exact hpassed _ haccepts (hfits haccepts) (by decide)

end Assembler
end Deposit
