import Deposit.Proofs.Disk.Fresh

set_option autoImplicit false
set_option relaxedAutoImplicit false

/-!
File systems with the same directories. The way to a location leads through directories only, so
such file systems agree on what every location names, whatever their files are; and writing and
removing files leaves the directories as they are. Making directories adds some and leaves all else
as it is.
-/

namespace Deposit.Disk

variable {d e f : Disk} {key : List String} {l : Location} {bytes : Bytes}

/-- The same directories with the same uses, counted from the same working directory. -/
structure SameDirectories (d e : Disk) : Prop where
  workingDirectory_eq : d.workingDirectory = e.workingDirectory
  forbids_eq : d.forbids = e.forbids
  directory_iff : ∀ key, d.item? key = some .directory ↔ e.item? key = some .directory

namespace SameDirectories

theorem refl (d : Disk) : d.SameDirectories d :=
  ⟨rfl, rfl, fun _ => Iff.rfl⟩

theorem symm (h : d.SameDirectories e) : e.SameDirectories d :=
  ⟨h.workingDirectory_eq.symm, h.forbids_eq.symm, fun key => (h.directory_iff key).symm⟩

theorem trans (h : d.SameDirectories e) (k : e.SameDirectories f) : d.SameDirectories f :=
  ⟨h.workingDirectory_eq.trans k.workingDirectory_eq, h.forbids_eq.trans k.forbids_eq,
    fun key => (h.directory_iff key).trans (k.directory_iff key)⟩

private theorem step_of_step (h : d.SameDirectories e) {start next : List String} {p : String}
    (hs : d.step start p = .ok next) : e.step start p = .ok next := by
  rw [step_eq_ok_iff] at hs ⊢
  rwa [← h.directory_iff, ← h.forbids_eq]

theorem locate_of_locate (h : d.SameDirectories e) (hl : d.locate l = .ok key) :
    e.locate l = .ok key := by
  obtain ⟨hnul, hlong, hw⟩ := locate_eq_ok hl
  rw [h.workingDirectory_eq] at hw
  simp [locate, hnul, hlong, walk_mono h.step_of_step hw]

theorem locate_iff (h : d.SameDirectories e) : d.locate l = .ok key ↔ e.locate l = .ok key :=
  ⟨h.locate_of_locate, h.symm.locate_of_locate⟩

end SameDirectories

theorem ne_nil_of_item?_ne_directory (h : d.item? key ≠ some .directory) : key ≠ [] := by
  rintro rfl
  exact h rfl

theorem sameDirectories_set (h : d.item? key ≠ some .directory) :
    (d.set key (.file bytes)).SameDirectories d := by
  refine ⟨rfl, rfl, fun other => ?_⟩
  by_cases hother : other = key
  · rw [hother, item?_set_self d (ne_nil_of_item?_ne_directory h)]
    exact ⟨fun hfile => (by cases hfile), fun hdirectory => absurd hdirectory h⟩
  · rw [item?_set_of_ne d hother]

theorem sameDirectories_erase (h : d.item? key ≠ some .directory) :
    (d.erase key).SameDirectories d := by
  refine ⟨rfl, rfl, fun other => ?_⟩
  by_cases hother : other = key
  · rw [hother, item?_erase_self d (ne_nil_of_item?_ne_directory h)]
    exact ⟨fun hnone => (by cases hnone), fun hdirectory => absurd hdirectory h⟩
  · rw [item?_erase_of_ne d hother]

theorem read_of_item? (hl : d.locate l = .ok key) (hi : d.item? key = some (.file bytes)) :
    d.read l = .ok bytes := by
  rw [read, find, hl]
  simp only [bind, Except.bind, hi]
  rfl

theorem remove_of_item? (hl : d.locate l = .ok key) (hi : d.item? key = some (.file bytes))
    (hchangeable : ¬ d.forbids .change key.dropLast) : d.remove l = .ok (d.erase key) := by
  have hfind : d.find l = .ok (key, .file bytes) := by
    rw [find, hl]
    simp only [bind, Except.bind, hi]
    rfl
  rw [remove, hfind]
  exact if_neg hchangeable

theorem write_eq_ok (h : d.write l bytes = .ok e) :
    ∃ key, d.locate l = .ok key ∧ d.item? key ≠ some .directory ∧
      e = d.set key (.file bytes) := by
  rw [write] at h
  cases hl : d.locate l with
  | error fault => simp [hl, bind, Except.bind] at h
  | ok key =>
    simp only [hl, bind, Except.bind] at h
    split at h
    · cases h
    · rename_i hi
      exact ⟨key, rfl, by simp [hi], (Except.ok.inj h).symm⟩
    · rename_i hi
      split at h
      · cases h
      · exact ⟨key, rfl, by simp [hi], (Except.ok.inj h).symm⟩

theorem write_child_eq_ok {base : Location} {name : String} {directory : List String}
    (hname : Location.IsName name) (hbase : d.locate base = .ok directory)
    (h : d.write (base.child name) bytes = .ok e) :
    e = d.set (directory ++ [name]) (.file bytes) ∧ e.SameDirectories d := by
  obtain ⟨key, hkey, hitem, rfl⟩ := write_eq_ok h
  obtain rfl := locate_child hname hbase hkey
  exact ⟨rfl, sameDirectories_set hitem⟩

/-- A file system with more directories, and otherwise the same. -/
structure AddsDirectories (d e : Disk) : Prop where
  workingDirectory_eq : e.workingDirectory = d.workingDirectory
  forbids_eq : e.forbids = d.forbids
  item?_eq : ∀ key, e.item? key = d.item? key ∨
    d.item? key = none ∧ e.item? key = some .directory

namespace AddsDirectories

theorem refl (d : Disk) : d.AddsDirectories d :=
  ⟨rfl, rfl, fun _ => Or.inl rfl⟩

theorem trans (h : d.AddsDirectories e) (k : e.AddsDirectories f) : d.AddsDirectories f where
  workingDirectory_eq := k.workingDirectory_eq.trans h.workingDirectory_eq
  forbids_eq := k.forbids_eq.trans h.forbids_eq
  item?_eq key := by
    rcases k.item?_eq key with hk | ⟨hnone, hk⟩
    · rw [hk]
      exact h.item?_eq key
    · rcases h.item?_eq key with hh | ⟨-, hh⟩
      · exact Or.inr ⟨hh.symm.trans hnone, hk⟩
      · cases hnone.symm.trans hh

end AddsDirectories

theorem isDirectory_iff :
    d.isDirectory l = true ↔ ∃ key, d.locate l = .ok key ∧ d.item? key = some .directory := by
  constructor
  · intro h
    unfold isDirectory at h
    split at h
    · rename_i key hfind
      exact ⟨key, find_eq_ok hfind⟩
    · cases h
  · rintro ⟨key, hl, hi⟩
    have hfind : d.find l = .ok (key, .directory) := by
      rw [find, hl]
      simp only [bind, Except.bind, hi]
      rfl
    rw [isDirectory, hfind]

private theorem makeDirectory_eq_ok (h : d.makeDirectory l = .ok e) :
    d.AddsDirectories e ∧ e.isDirectory l = true := by
  obtain ⟨key, hfresh, rfl⟩ := create_eq_ok h
  have hne := ne_nil_of_item?_eq_none hfresh.absent
  refine ⟨⟨rfl, rfl, fun other => ?_⟩,
    isDirectory_iff.2 ⟨key, hfresh.locate_set _, item?_set_self d hne _⟩⟩
  by_cases hother : other = key
  · rw [hother]
    exact Or.inr ⟨hfresh.absent, item?_set_self d hne _⟩
  · exact Or.inl (item?_set_of_ne d hother _)

private theorem ensureDirectory_eq_ok (h : d.ensureDirectory l = .ok e) :
    d.AddsDirectories e ∧ e.isDirectory l = true := by
  unfold ensureDirectory at h
  cases hmade : d.makeDirectory l with
  | ok made =>
    rw [hmade] at h
    obtain rfl := Except.ok.inj h
    exact makeDirectory_eq_ok hmade
  | error fault =>
    rw [hmade] at h
    dsimp only at h
    split at h
    · rename_i hdirectory
      obtain rfl := Except.ok.inj h
      exact ⟨AddsDirectories.refl d, hdirectory⟩
    · cases h

private theorem changed_eq_ok {made : Except FileFault Disk} (h : d.changed made = (.ok (), e)) :
    made = .ok e := by
  cases made with
  | ok made => exact congrArg Except.ok (congrArg Prod.snd h)
  | error fault => cases congrArg Prod.fst h

private theorem addsDirectories_changed (d : Disk) (l : Location) :
    d.AddsDirectories (d.changed (d.ensureDirectory l)).2 := by
  cases hmade : d.ensureDirectory l with
  | ok made => exact (ensureDirectory_eq_ok hmade).1
  | error fault => exact AddsDirectories.refl d

private theorem addsDirectories_makeDirectoriesFrom (n : Nat) (d : Disk) (l : Location) :
    d.AddsDirectories (makeDirectoriesFrom n d l).2 := by
  induction n generalizing d l with
  | zero => exact addsDirectories_changed d l
  | succ n ih =>
    unfold makeDirectoriesFrom
    split
    · rename_i made hmade
      exact (ensureDirectory_eq_ok hmade).1
    · split
      · exact AddsDirectories.refl d
      · -- the directories above are made first
        have habove := ih d l.parent
        split
        · rename_i fault above hfailed
          rwa [hfailed] at habove
        · rename_i above hmade
          rw [hmade] at habove
          exact habove.trans (addsDirectories_changed above l)
    · exact AddsDirectories.refl d

theorem addsDirectories_makeDirectories (d : Disk) (l : Location) :
    d.AddsDirectories (d.makeDirectories l).2 :=
  addsDirectories_makeDirectoriesFrom _ d l

theorem makeDirectories_eq_ok (h : d.makeDirectories l = (.ok (), e)) :
    ∃ key, e.locate l = .ok key ∧ e.item? key = some .directory := by
  refine isDirectory_iff.1 ?_
  unfold makeDirectories makeDirectoriesFrom at h
  split at h
  · rename_i made hmade
    cases h
    exact (ensureDirectory_eq_ok hmade).2
  · split at h
    · cases h
    · split at h
      · cases h
      · exact (ensureDirectory_eq_ok (changed_eq_ok h)).2
  · cases h

end Deposit.Disk
