import Deposit.Assembly.Composition
import Deposit.Proofs.Assembly.Pipeline
import Deposit.Proofs.Host.Surroundings

set_option autoImplicit false
set_option relaxedAutoImplicit false

/-!
What composing a package does, step by step: every step keeps the layers of the package sound, and a
step that goes well adds one entry to the archive and its description to the resources. By induction
over the files, a composition that goes well holds the content files under their places and then the
generated files, in their order, and describes each of them truly.
-/

namespace Deposit

namespace Composition

/-- A composition whose layers are those of a plan and hold nothing back. -/
structure Follows (c : Composition) (plan : PackagingPlan) : Prop where
  sound : c.pipeline.Sound plan.algorithms
  compression_eq : c.pipeline.compressor.compression = plan.compression
  format_eq : c.pipeline.writer.format = plan.archive
  isOpen : c.pipeline.writer.IsOpen

variable {plan : PackagingPlan} {c d : Composition} {submission : String}

theorem writer_start (plan : PackagingPlan) :
    (start plan).pipeline.writer = .start plan.archive :=
  Pipeline.writer_start plan.archive plan.compression plan.algorithms

theorem follows_start (plan : PackagingPlan) : (start plan).Follows plan where
  sound := Pipeline.sound_start plan.archive plan.compression plan.algorithms
  compression_eq := rfl
  format_eq := by
    rw [writer_start, Archive.Writer.format_start]
  isOpen := by
    rw [writer_start]
    exact Archive.Writer.isOpen_start plan.archive

private theorem Follows.add (h : c.Follows plan) (path : String) (r : Reader)
    (size : Option Int) (resources : List Resource) (notices : List String) :
    (⟨(c.pipeline.add path r size).writer, resources, notices⟩ : Composition).Follows plan where
  sound := h.sound.add path r size
  compression_eq := by
    rw [Pipeline.compression_add]
    exact h.compression_eq
  format_eq := by
    rw [Pipeline.writer_add, Archive.Writer.format_add]
    exact h.format_eq
  isOpen := h.isOpen.add path r size

theorem Follows.addContent (h : c.Follows plan) (file : ContentFile) (path : String)
    (opened : Except Fault Source) :
    (addContent plan submission c file path opened).1.Follows plan := by
  unfold Composition.addContent
  split
  · exact h
  · simp only
    split
    · exact h.add _ _ _ _ _
    · split <;> exact h.add _ _ _ _ _

theorem Follows.addGenerated (h : c.Follows plan) (path : String) (content : Bytes) :
    (addGenerated plan submission c path content).1.Follows plan := by
  unfold Composition.addGenerated
  split
  · exact h
  · simp only
    split
    · exact h.add _ _ _ _ _
    · split <;> exact h.add _ _ _ _ _

theorem Follows.addAllGenerated (h : c.Follows plan) (files : List (String × Bytes)) :
    (addAllGenerated plan submission c files).1.Follows plan := by
  induction files generalizing c with
  | nil => exact h
  | cons file files ih =>
    have hstep : (Composition.addGenerated plan submission c file.1 file.2).1.Follows plan :=
      h.addGenerated file.1 file.2
    unfold Composition.addAllGenerated
    split
    · rename_i d failure heq
      rwa [heq] at hstep
    · rename_i d heq
      rw [heq] at hstep
      exact ih hstep

theorem Follows.noted (h : c.Follows plan) (notices : List String) :
    ({ c with notices } : Composition).Follows plan :=
  ⟨h.sound, h.compression_eq, h.format_eq, h.isOpen⟩

theorem Follows.addSupplement (h : c.Follows plan) (s : Submission) :
    (addSupplement plan s c).1.Follows plan := by
  unfold Composition.addSupplement
  split
  · exact h
  · rename_i generated _
    exact (h.noted _).addAllGenerated generated.files

/-- A description that is true of an entry: its path, its length, and checksums that describe its
bytes. -/
structure Depicts (describes : List (String × String) → Bytes → Prop) (r : Resource)
    (e : String × Bytes) : Prop where
  path_eq : r.packagePath = e.1
  size_eq : r.sizeBytes = e.2.length
  checksums : describes r.checksums e.2

section

variable {describes : List (String × String) → Bytes → Prop} {rs : List Resource}
  {entries : List (String × Bytes)}

theorem packagePath_eq_of_depicts (h : List.Forall₂ (Depicts describes) rs entries) :
    rs.map Resource.packagePath = entries.map Prod.fst := by
  induction h with
  | nil => rfl
  | cons first _ ih => rw [List.map_cons, List.map_cons, first.path_eq, ih]

theorem zip_of_depicts (h : List.Forall₂ (Depicts describes) rs entries) {α : Type}
    (f : String → α) :
    (rs.zip (entries.map Prod.snd)).map (fun e => (f e.1.packagePath, e.2)) =
      entries.map fun e => (f e.1, e.2) := by
  induction h with
  | nil => rfl
  | cons first _ ih =>
    rw [List.map_cons, List.zip_cons_cons, List.map_cons, List.map_cons, first.path_eq, ih]

end

/-- A composition that holds some entries, each of them described. -/
structure Packs (c : Composition) (plan : PackagingPlan) (entries : List (String × Bytes)) :
    Prop where
  holds : c.pipeline.writer.Holds entries
  depicted : List.Forall₂ (Depicts (Digest.Describes plan.algorithms)) c.resources entries

theorem packs_start (plan : PackagingPlan) : (start plan).Packs plan [] where
  holds := by
    rw [writer_start]
    exact Archive.Writer.holds_start plan.archive
  depicted := .nil

theorem addContent_eq_none {file : ContentFile} {path : String}
    {opened : Except Fault Source} (h : addContent plan submission c file path opened = (d, none)) :
    ∃ source, opened = .ok source ∧
      (c.pipeline.writer.add path (.start plan.algorithms source.open) file.size).fault = none ∧
      d.pipeline.writer =
        (c.pipeline.writer.add path (.start plan.algorithms source.open) file.size).writer ∧
      d.resources = c.resources ++ [contentResource file path
        (c.pipeline.writer.add path (.start plan.algorithms source.open) file.size).reader] := by
  unfold addContent at h
  split at h
  · simp at h
  · rename_i source
    simp only at h
    split at h
    · simp at h
    · rename_i hfault
      split at h
      · simp at h
      · simp only [Prod.mk.injEq, and_true] at h
        subst h
        exact ⟨source, rfl, hfault, rfl, rfl⟩

private theorem digestFault?_of_addContent {file : ContentFile} {path : String}
    {opened : Except Fault Source} (h : addContent plan submission c file path opened = (d, none)) :
    plan.digestFault? = none := by
  unfold addContent at h
  split at h
  · cases h
  · simp only at h
    split at h
    · cases h
    · split at h
      · cases h
      · assumption

theorem addGenerated_eq_none {path : String} {content : Bytes}
    (h : addGenerated plan submission c path content = (d, none)) :
    (c.pipeline.writer.add path (.start plan.algorithms (Source.ofBytes content).open)
        (some content.length)).fault = none ∧
      d.pipeline.writer = (c.pipeline.writer.add path
        (.start plan.algorithms (Source.ofBytes content).open) (some content.length)).writer ∧
      d.resources = c.resources ++ [generatedResource path content (c.pipeline.writer.add path
        (.start plan.algorithms (Source.ofBytes content).open) (some content.length)).reader] := by
  unfold addGenerated at h
  split at h
  · simp at h
  · simp only at h
    split at h
    · simp at h
    · rename_i hfault
      split at h
      · simp at h
      · simp only [Prod.mk.injEq, and_true] at h
        subst h
        exact ⟨hfault, rfl, rfl⟩

variable {entries : List (String × Bytes)}

theorem Packs.addContent (hp : c.Packs plan entries) {file : ContentFile} {path : String}
    {opened : Except Fault Source} (hsize : ∀ n, file.size = some n → 0 ≤ n)
    (h : Composition.addContent plan submission c file path opened = (d, none)) :
    ∃ source, opened = .ok source ∧ d.Packs plan (entries ++ [(path, source.bytes)]) := by
  obtain ⟨source, hopened, hfault, hwriter, hresources⟩ := addContent_eq_none h
  obtain ⟨hholds, htook⟩ :=
    hp.holds.add (Reader.took_start plan.algorithms source) hsize hfault
  refine ⟨source, hopened, ?_, ?_⟩
  · rw [hwriter]
    exact hholds
  · rw [hresources]
    refine List.rel_append hp.depicted (.cons ⟨rfl, ?_, htook.describes⟩ .nil)
    exact congrArg Int.ofNat htook.count_eq

theorem Packs.addGenerated (hp : c.Packs plan entries) {path : String} {content : Bytes}
    (h : Composition.addGenerated plan submission c path content = (d, none)) :
    d.Packs plan (entries ++ [(path, content)]) := by
  obtain ⟨hfault, hwriter, hresources⟩ := addGenerated_eq_none h
  have hsize : ∀ n, some (content.length : Int) = some n → 0 ≤ n := by
    intro n hn
    have := Option.some.inj hn
    omega
  obtain ⟨hholds, htook⟩ := hp.holds.add
    (Reader.took_start plan.algorithms (Source.ofBytes content)) hsize hfault
  refine ⟨?_, ?_⟩
  · rw [hwriter]
    exact hholds
  · rw [hresources]
    exact List.rel_append hp.depicted (.cons ⟨rfl, rfl, htook.describes⟩ .nil)

theorem Packs.addAllGenerated {files : List (String × Bytes)} (hp : c.Packs plan entries)
    (h : Composition.addAllGenerated plan submission c files = (d, none)) :
    d.Packs plan (entries ++ files) := by
  induction files generalizing c entries with
  | nil =>
    obtain rfl : c = d := congrArg Prod.fst h
    simpa using hp
  | cons file files ih =>
    unfold Composition.addAllGenerated at h
    split at h
    · simp at h
    · rename_i e heq
      have hrest := ih (hp.addGenerated heq) h
      rwa [List.append_assoc] at hrest

theorem prefix_addAllGenerated {files : List (String × Bytes)}
    (h : Composition.addAllGenerated plan submission c files = (d, none)) :
    c.resources <+: d.resources := by
  induction files generalizing c with
  | nil =>
    obtain rfl : c = d := congrArg Prod.fst h
    exact List.prefix_rfl
  | cons file files ih =>
    unfold Composition.addAllGenerated at h
    split at h
    · simp at h
    · rename_i e heq
      obtain ⟨-, -, hresources⟩ := addGenerated_eq_none heq
      refine List.IsPrefix.trans ?_ (ih h)
      rw [hresources]
      exact List.prefix_append _ _

theorem map_packagePath_addAllGenerated {files : List (String × Bytes)}
    (h : Composition.addAllGenerated plan submission c files = (d, none)) :
    d.resources.map Resource.packagePath =
      c.resources.map Resource.packagePath ++ files.map Prod.fst := by
  induction files generalizing c with
  | nil =>
    obtain rfl : c = d := congrArg Prod.fst h
    simp
  | cons file files ih =>
    unfold Composition.addAllGenerated at h
    split at h
    · simp at h
    · rename_i e heq
      obtain ⟨-, -, hresources⟩ := addGenerated_eq_none heq
      rw [ih h, hresources, List.map_append, List.append_assoc]
      rfl

theorem addSupplement_eq_none {s : Submission} (h : addSupplement plan s c = (d, none)) :
    ∃ generated, plan.specification.generate s c.resources = .ok generated ∧
      Composition.addAllGenerated plan s.id { c with notices := c.notices ++ generated.notices }
        generated.files = (d, none) := by
  unfold addSupplement at h
  split at h
  · simp at h
  · rename_i generated hg
    exact ⟨generated, hg, h⟩

/-- Content files that have all been opened and written, each under its path. -/
inductive Wrote (plan : PackagingPlan) (submission : String) :
    Composition → List (ContentFile × String) → Composition → Prop where
  | nil (c : Composition) : Wrote plan submission c [] c
  | cons {c d e : Composition} {file : ContentFile} {path : String}
      {rest : List (ContentFile × String)}
      (first : addContent plan submission c file path file.opened = (d, none))
      (others : Wrote plan submission d rest e) :
      Wrote plan submission c ((file, path) :: rest) e

variable {items : List (ContentFile × String)}

theorem Wrote.follows (h : Wrote plan submission c items d) (hc : c.Follows plan) :
    d.Follows plan := by
  induction h with
  | nil c => exact hc
  | @cons c d e file path rest first others ih =>
    have hstep : (Composition.addContent plan submission _ file path file.opened).1.Follows plan :=
      hc.addContent file path file.opened
    rw [first] at hstep
    exact ih hstep

theorem Wrote.digestFault?_eq (h : Wrote plan submission c items d) (hne : items ≠ []) :
    plan.digestFault? = none := by
  cases h with
  | nil => exact absurd rfl hne
  | cons first _ => exact digestFault?_of_addContent first

/-- A description of a content file at the path it was written under. A file without a name goes by
its path. -/
structure Lists (r : Resource) (item : ContentFile × String) : Prop where
  name_eq : r.originalName = if item.1.name = "" then item.2 else item.1.name
  path_eq : r.packagePath = item.2
  role_eq : r.role = some item.1.role

theorem packagePath_eq_of_lists {rs : List Resource} {items : List (ContentFile × String)}
    (h : List.Forall₂ Lists rs items) : rs.map Resource.packagePath = items.map Prod.snd := by
  induction h with
  | nil => rfl
  | cons first _ ih => rw [List.map_cons, List.map_cons, first.path_eq, ih]

theorem Wrote.lists (h : Wrote plan submission c items d) :
    ∃ rs, d.resources = c.resources ++ rs ∧ List.Forall₂ Lists rs items := by
  induction h with
  | nil c => exact ⟨[], by simp, .nil⟩
  | @cons c d e file path rest first others ih =>
    obtain ⟨source, -, -, -, hresources⟩ := addContent_eq_none first
    obtain ⟨rs, hrs, hlists⟩ := ih
    rw [hresources, List.append_assoc, List.singleton_append] at hrs
    exact ⟨_, hrs, .cons ⟨rfl, rfl, rfl⟩ hlists⟩

theorem Wrote.packs (h : Wrote plan submission c items d) (hp : c.Packs plan entries)
    (hsize : ∀ i ∈ items, ∀ n, i.1.size = some n → 0 ≤ n) :
    ∃ sources : List Source, items.map (·.1.opened) = sources.map .ok ∧
      d.Packs plan (entries ++ (items.map Prod.snd).zip (sources.map Source.bytes)) := by
  induction h generalizing entries with
  | nil c => exact ⟨[], rfl, by simpa using hp⟩
  | @cons c d e file path rest first others ih =>
    obtain ⟨source, hopened, hd⟩ := hp.addContent (hsize _ List.mem_cons_self) first
    obtain ⟨sources, hsources, he⟩ := ih hd fun i hi => hsize i (List.mem_cons_of_mem _ hi)
    refine ⟨source :: sources, by simp [hopened, hsources], ?_⟩
    rwa [List.append_assoc] at he

theorem run_addContents_cons (file : ContentFile) (path : String)
    (before : Surroundings) :
    (addContents plan submission c ((file, path) :: items) : StateM Surroundings _).run before =
      match addContent plan submission c file path file.opened with
      | (d, some failure) =>
        ((d, some failure), { before with opened := file.name :: before.opened })
      | (d, none) => (addContents plan submission d items : StateM Surroundings _).run
          { before with opened := file.name :: before.opened } := by
  rw [addContents]
  change (match addContent plan submission c file path file.opened with
    | (c, some failure) => (pure (c, some failure) : StateM Surroundings _)
    | (c, none) => addContents plan submission c items).run
      { before with opened := file.name :: before.opened } = _
  split <;> rfl

private theorem wrote_of_addContents {before after : Surroundings}
    (h : (addContents plan submission c items : StateM Surroundings _).run before =
      ((d, none), after)) : Wrote plan submission c items d := by
  induction items generalizing c before with
  | nil =>
    obtain rfl : c = d := congrArg (·.1.1) h
    exact .nil c
  | cons item items ih =>
    obtain ⟨file, path⟩ := item
    rw [run_addContents_cons] at h
    split at h
    · cases h
    · rename_i e heq
      exact .cons heq (ih h)

private theorem disk_addContents (plan : PackagingPlan) (submission : String) (c : Composition)
    (items : List (ContentFile × String)) (before : Surroundings) :
    ((addContents plan submission c items : StateM Surroundings _).run before).2.disk =
      before.disk := by
  induction items generalizing c before with
  | nil => rfl
  | cons item items ih =>
    obtain ⟨file, path⟩ := item
    rw [run_addContents_cons]
    split
    · rfl
    · exact ih _ _

/-- What the files written so far make of the whole composition. -/
def complete (plan : PackagingPlan) (s : Submission) :
    Composition × Option AssemblyFailure → Composed
  | (c, some failure) => c.conclude s.id (some failure)
  | (c, none) => (addSupplement plan s c).1.conclude s.id (addSupplement plan s c).2

theorem run_compose (plan : PackagingPlan) (s : Submission) (placed : List Placed)
    (before : Surroundings) :
    (plan.compose s placed : StateM Surroundings _).run before =
      (complete plan s ((addContents plan s.id (start plan)
          (s.files.zip (placed.map Placed.path)) : StateM Surroundings _).run before).1,
        ((addContents plan s.id (start plan)
          (s.files.zip (placed.map Placed.path)) : StateM Surroundings _).run before).2) := by
  cases h : (addContents plan s.id (start plan)
      (s.files.zip (placed.map Placed.path)) : StateM Surroundings _).run before with
  | mk result after =>
    obtain ⟨c, failure⟩ := result
    unfold PackagingPlan.compose run
    rw [StateT.run_bind, StateT.run_bind, h]
    cases failure <;> rfl

theorem adds_compose {kind : Notice → Prop} (plan : PackagingPlan) (s : Submission)
    (placed : List Placed) : Surroundings.Adds kind (plan.compose s placed) := by
  have hadd (items : List (ContentFile × String)) (c : Composition) :
      Surroundings.Adds kind (addContents plan s.id c items) := by
    induction items generalizing c with
    | nil => exact Surroundings.adds_pure _
    | cons item items ih =>
      refine (Surroundings.adds_openContent item.1).bind fun opened => ?_
      split
      · exact Surroundings.adds_pure _
      · exact ih _
  refine Surroundings.Adds.bind ((hadd _ (start plan)).bind ?_) fun _ => Surroundings.adds_pure _
  rintro ⟨c, failure⟩
  cases failure <;> exact Surroundings.adds_pure _

theorem disk_compose (plan : PackagingPlan) (s : Submission) (placed : List Placed)
    (before : Surroundings) :
    ((plan.compose s placed : StateM Surroundings _).run before).2.disk = before.disk := by
  rw [run_compose]
  exact disk_addContents plan s.id (start plan) _ before

private theorem conclude_eq_ok {failure : Option AssemblyFailure} {resources : List Resource}
    (h : (c.conclude submission failure).outcome = .ok resources) :
    failure = none ∧ c.pipeline.writer.closeFault? = none ∧ c.resources = resources := by
  unfold conclude at h
  cases hclose : c.pipeline.writer.closeFault? with
  | some fault => simp [hclose] at h
  | none =>
    cases failure with
    | some failure => simp [hclose] at h
    | none => exact ⟨rfl, rfl, by simpa [hclose] using h⟩

/-- A package that has been composed holds all content files and all that is added, and its layers
have been closed behind them. -/
theorem compose_eq_ok {s : Submission} {placed : List Placed} {before after : Surroundings}
    {composed : Composed} {resources : List Resource}
    (hcompose : (plan.compose s placed : StateM Surroundings _).run before = (composed, after))
    (h : composed.outcome = .ok resources) :
    ∃ c d, Wrote plan s.id (start plan) (s.files.zip (placed.map Placed.path)) c ∧
      addSupplement plan s c = (d, none) ∧ d.pipeline.writer.closeFault? = none ∧
      d.resources = resources ∧ d.pipeline.close.sink = composed.sink := by
  rw [run_compose] at hcompose
  cases hrun : (addContents plan s.id (start plan)
      (s.files.zip (placed.map Placed.path)) : StateM Surroundings _).run before with
  | mk result last =>
    obtain ⟨c, failure⟩ := result
    rw [hrun] at hcompose
    obtain rfl := congrArg Prod.fst hcompose
    cases failure with
    | some failure =>
      obtain ⟨hnone, -, -⟩ := conclude_eq_ok h
      simp at hnone
    | none =>
      cases hs : addSupplement plan s c with
      | mk d failure =>
        simp only [complete, hs] at h ⊢
        obtain ⟨rfl, hclose, hresources⟩ := conclude_eq_ok h
        exact ⟨c, d, wrote_of_addContents hrun, hs, hclose, hresources, rfl⟩

end Composition

end Deposit
