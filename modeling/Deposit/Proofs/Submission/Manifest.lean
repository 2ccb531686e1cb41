import Mathlib.Data.List.Forall2
import Deposit.Package.Resource
import Deposit.Proofs.Host.Surroundings
import Deposit.Submission.Manifest

set_option autoImplicit false
set_option relaxedAutoImplicit false

/-!
The submission of a manifest. Every entry stands for a content file with what lies at its place, and
nothing changes when the files are looked up.
-/

namespace Deposit

/-- The content file that an entry of a manifest stands for, as a file system has it. -/
structure ManifestEntry.Yields (e : ManifestEntry) (d : Disk) (directory : Location)
    (file : ContentFile) : Prop where
  name_eq : file.name = e.contentName directory
  role_eq : file.role = e.role
  opened_eq : file.opened = openedFile (d.read (e.place directory))
  size_eq : ∃ n : Nat, d.size (e.place directory) = .ok n ∧ file.size = some (n : Int)

namespace Manifest

variable {directory : Location} {d : Disk} {es : List ManifestEntry} {files : List ContentFile}

private theorem run_contentFiles (directory : Location) (es : List ManifestEntry)
    (before : Surroundings) :
    (∃ fault, (contentFiles directory es : StateM Surroundings _).run before =
      (.error fault, before)) ∨
    ∃ files, (contentFiles directory es : StateM Surroundings _).run before =
        (.ok files, before) ∧
      List.Forall₂ (fun e file => e.Yields before.disk directory file) es files := by
  induction es with
  | nil => exact Or.inr ⟨[], rfl, .nil⟩
  | cons e es ih =>
    have hsize : (Host.size (e.place directory) : StateM Surroundings _).run before =
        (before.disk.size (e.place directory), before) := rfl
    have hread : (Host.read (e.place directory) : StateM Surroundings _).run before =
        (before.disk.read (e.place directory), before) := rfl
    rw [contentFiles, Surroundings.run_bind_of_run hsize]
    cases hplace : before.disk.size (e.place directory) with
    | error fault => exact Or.inl ⟨fault, rfl⟩
    | ok n =>
      dsimp only
      rw [Surroundings.run_bind_of_run hread]
      rcases ih with ⟨fault, hrest⟩ | ⟨files, hrest, hfiles⟩
      · rw [Surroundings.run_bind_of_run hrest]
        exact Or.inl ⟨fault, rfl⟩
      · rw [Surroundings.run_bind_of_run hrest]
        exact Or.inr ⟨_, rfl, .cons ⟨rfl, rfl, rfl, n, hplace, rfl⟩ hfiles⟩

theorem run_submission (manifest : Manifest) (directory : Location) (before : Surroundings) :
    (∃ fault, (manifest.submission directory : StateM Surroundings _).run before =
      (.error fault, before)) ∨
    ∃ files, (manifest.submission directory : StateM Surroundings _).run before =
        (.ok ⟨manifest.id, files, manifest.metadata⟩, before) ∧
      List.Forall₂ (fun e file => e.Yields before.disk directory file) manifest.files files := by
  unfold submission
  rcases run_contentFiles directory manifest.files before with
    ⟨fault, hrun⟩ | ⟨files, hrun, hfiles⟩
  · rw [Surroundings.run_bind_of_run hrun]
    exact Or.inl ⟨fault, rfl⟩
  · rw [Surroundings.run_bind_of_run hrun]
    exact Or.inr ⟨files, rfl, hfiles⟩

theorem map_read_of_yields (h : List.Forall₂ (fun e file => e.Yields d directory file) es files)
    {sources : List Source} (hopened : files.map ContentFile.opened = sources.map Except.ok) :
    es.map (fun e => d.read (e.place directory)) = (sources.map Source.bytes).map Except.ok := by
  induction h generalizing sources with
  | nil =>
    rw [List.map_nil, eq_comm, List.map_eq_nil_iff] at hopened
    rw [hopened]
    rfl
  | @cons e file es files first _ ih =>
    cases sources with
    | nil => cases hopened
    | cons source sources =>
      rw [List.map_cons, List.map_cons, List.cons.injEq] at hopened
      have hfile := hopened.1
      rw [first.opened_eq] at hfile
      rw [List.map_cons, ih hopened.2]
      cases hread : d.read (e.place directory) with
      | error fault =>
        rw [hread] at hfile
        cases hfile
      | ok bytes =>
        rw [hread] at hfile
        obtain rfl := Except.ok.inj hfile
        rfl

theorem forall₂_of_yields (h : List.Forall₂ (fun e file => e.Yields d directory file) es files)
    {rs : List Resource} (hrs : List.Forall₂ (fun r (file : ContentFile) =>
      r.originalName = file.name ∧ r.role = some file.role) rs files) :
    List.Forall₂ (fun r e => r.originalName = e.contentName directory ∧ r.role = some e.role)
      rs es := by
  induction h generalizing rs with
  | nil =>
    cases hrs
    exact .nil
  | cons first _ ih =>
    cases hrs with
    | cons hr hrs =>
      exact .cons ⟨hr.1.trans first.name_eq, hr.2.trans (congrArg some first.role_eq)⟩ (ih hrs)

theorem nonneg_of_yields (h : List.Forall₂ (fun e file => e.Yields d directory file) es files) :
    ∀ file ∈ files, ∀ n, file.size = some n → 0 ≤ n := by
  induction h with
  | nil =>
    intro file hfile
    cases hfile
  | @cons e file es files first _ ih =>
    refine List.forall_mem_cons.2 ⟨fun n hn => ?_, ih⟩
    obtain ⟨k, -, hsize⟩ := first.size_eq
    rw [hsize] at hn
    obtain rfl := Option.some.inj hn
    exact Int.natCast_nonneg k

end Manifest

end Deposit
