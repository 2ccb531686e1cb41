import Deposit.CommandLine.Assemble
import Deposit.Proofs.Assembly.PackageName
import Deposit.Proofs.Digest.Tally
import Deposit.Proofs.Disk.Directories
import Deposit.Proofs.Json.RoundTrip
import Deposit.Proofs.Package.Stream

set_option autoImplicit false
set_option relaxedAutoImplicit false

/-!
Delivering a package. Its bytes are copied to a file of its name in the directory for packages, a
description is written beside it, and its own temporary file is removed; all other files stay as
they are. The description is read back as it was written.
-/

namespace Deposit

namespace PackageStream

/-- The name of the file that describes the package. -/
def sidecarName (p : PackageStream) : String :=
  p.metadata.name ++ ".metadata.json"

/-- All sizes can be written as integers that are not too long to be read. -/
def HasReadableSizes (p : PackageStream) : Prop :=
  p.metadata.sizeBytes.natAbs < 10 ^ Json.integerLimit ∧
    ∀ r ∈ p.resources, r.sizeBytes.natAbs < 10 ^ Json.integerLimit

end PackageStream

open Json in
private theorem plain_ofText? (n : Nat) (s : Option String) : Plain n (ofText? s) := by
  cases s with
  | none => exact .null n
  | some s => exact .text n s

open Json in
private theorem plain_checksumsJson (n : Nat) {checksums : List (String × String)}
    (h : (checksums.map Prod.fst).Nodup) : Plain (n + 1) (checksumsJson checksums) := by
  refine .object ?_ fun m hm => ?_
  · rwa [List.map_map]
  · obtain ⟨c, -, rfl⟩ := List.mem_map.1 hm
    exact .text n c.2

open Json in
private theorem Resource.plain_toJson (n : Nat) {r : Resource}
    (hsize : r.sizeBytes.natAbs < 10 ^ integerLimit) (hnodup : (r.checksums.map Prod.fst).Nodup) :
    Plain (n + 2) r.toJson := by
  refine .object (by simp) ?_
  simp only [List.forall_mem_cons, List.not_mem_nil, false_implies, implies_true, and_true]
  exact ⟨.text _ _, .text _ _, plain_ofText? _ _, .int _ hsize, plain_checksumsJson n hnodup,
    .text _ _⟩

open Json in
private theorem PackageMetadata.plain_toJson (n : Nat) {m : PackageMetadata}
    (hsize : m.sizeBytes.natAbs < 10 ^ integerLimit) (hnodup : (m.checksums.map Prod.fst).Nodup) :
    Plain (n + 2) m.toJson := by
  refine .object (by simp) ?_
  simp only [List.forall_mem_cons, List.not_mem_nil, false_implies, implies_true, and_true]
  exact ⟨.text _ _, .text _ _, .text _ _, .text _ _, .int _ hsize, plain_checksumsJson n hnodup,
    .text _ _⟩

namespace CommandLine

/-- The description of a package is read back as it was written, if no name of a checksum stands
twice in it. -/
theorem read_packageRecord {p : PackageStream} (hsizes : p.HasReadableSizes)
    (hnames : (p.metadata.checksums.map Prod.fst).Nodup)
    (hresources : ∀ r ∈ p.resources, (r.checksums.map Prod.fst).Nodup) (submission : String) :
    Json.read (packageRecord submission p).pretty.toList = .ok (packageRecord submission p) := by
  have hplain : Json.Plain 4 (packageRecord submission p) := by
    refine .object (by simp) ?_
    simp only [List.forall_mem_cons, List.not_mem_nil, false_implies, implies_true, and_true]
    refine ⟨.text _ _, PackageMetadata.plain_toJson 1 hsizes.1 hnames, .list fun j hj => ?_⟩
    obtain ⟨r, hr, rfl⟩ := List.mem_map.1 hj
    exact Resource.plain_toJson 0 (hsizes.2 r hr) (hresources r hr)
  rw [Json.pretty, String.toList_ofList]
  exact Json.readWithin_render hplain (by decide) _

variable {p : PackageStream} {before after : Surroundings} {bytes : Bytes}
  {folder temporary : List String} {output : Location}

private theorem run_writePackage (hopen : p.closed = false)
    (hread : before.disk.read p.place = .ok bytes) (submission : String) (output : Location) :
    (∃ message later, (writePackage submission p output : StateM Surroundings _).run before =
      (.error message, later)) ∨
    ∃ first second, before.disk.write (output.child p.metadata.name) bytes = .ok first ∧
      first.write (output.child p.sidecarName)
        (Bytes.ofText (packageRecord submission p).pretty) = .ok second ∧
      (writePackage submission p output : StateM Surroundings _).run before =
        (.ok (output.child p.metadata.name), { before with disk := second }) := by
  have hcopy := PackageStream.run_writeTo_of_read hopen hread (output.child p.metadata.name)
  unfold writePackage
  cases hfirst : before.disk.write (output.child p.metadata.name) bytes with
  | error fault =>
    rw [hfirst] at hcopy
    rw [Surroundings.run_bind_of_run hcopy]
    exact Or.inl ⟨_, _, rfl⟩
  | ok first =>
    rw [hfirst] at hcopy
    rw [Surroundings.run_bind_of_run hcopy]
    dsimp only
    cases hsecond : first.write (output.child p.sidecarName)
        (Bytes.ofText (packageRecord submission p).pretty) with
    | error fault =>
      have hwrite : (Host.write (output.child (p.metadata.name ++ ".metadata.json"))
          (Bytes.ofText (packageRecord submission p).pretty) : StateM Surroundings _).run
            { before with disk := first } = (.error fault, { before with disk := first }) :=
        Surroundings.run_write_of_error hsecond
      rw [Surroundings.run_bind_of_run hwrite]
      exact Or.inl ⟨_, _, rfl⟩
    | ok second =>
      have hwrite : (Host.write (output.child (p.metadata.name ++ ".metadata.json"))
          (Bytes.ofText (packageRecord submission p).pretty) : StateM Surroundings _).run
            { before with disk := first } = (.ok (), { before with disk := second }) :=
        Surroundings.run_write_of_ok hsecond
      rw [Surroundings.run_bind_of_run hwrite]
      exact Or.inr ⟨first, second, rfl, hsecond, rfl⟩

private theorem name_ne_sidecarName (p : PackageStream) : p.metadata.name ≠ p.sidecarName := by
  intro h
  have hlength := congrArg (fun s : String => s.toList.length) h
  simp [PackageStream.sidecarName] at hlength

private theorem isName_sidecarName (h : Location.IsName p.metadata.name) :
    Location.IsName p.sidecarName :=
  isName_append h.plain (by decide) (by decide)

theorem sidecarName_ne_temporaryName (p : PackageStream) (n : Nat) :
    p.sidecarName ≠ Disk.temporaryName n :=
  append_ne_temporaryName (by decide) (by decide) p.metadata.name n

/-- The notices about a package that has been delivered, the last one first. -/
def deliveryNotices (p : PackageStream) (output : Location) : List Notice :=
  ⟨.debug, "Removed package file " ++ p.place.text⟩ ::
    (((renamingNotices p).map (Notice.mk .warning)).reverse ++
      ((packageNotices p (output.child p.metadata.name)).map (Notice.mk .info)).reverse)

/-- A package that has been delivered is in the file of its name and its description in the file
beside it, and its own file is gone. -/
theorem run_deliver_eq_ok (hopen : p.closed = false)
    (hplace : before.disk.locate p.place = .ok temporary)
    (hfile : before.disk.item? temporary = some (.file bytes))
    (hchangeable : ¬ before.disk.forbids .change temporary.dropLast)
    (houtput : before.disk.locate output = .ok folder) (hname : Location.IsName p.metadata.name)
    (hsidecar : folder ++ [p.sidecarName] ≠ temporary) {submission : String}
    (h : (deliver submission p output : StateM Surroundings _).run before = (.ok (), after)) :
    after.disk = ((before.disk.set (folder ++ [p.metadata.name]) (.file bytes)).set
        (folder ++ [p.sidecarName])
          (.file (Bytes.ofText (packageRecord submission p).pretty))).erase temporary ∧
      after.log = deliveryNotices p output ++ before.log := by
  unfold deliver at h
  rcases run_writePackage hopen (Disk.read_of_item? hplace hfile) submission output with
    ⟨message, later, hwritten⟩ | ⟨first, second, hfirst, hsecond, hwritten⟩
  · rw [Surroundings.run_bind_of_run hwritten] at h
    cases congrArg Prod.fst h
  · -- both files lie in the directory that the location leads to
    obtain ⟨hset, hdirectories⟩ := Disk.write_child_eq_ok hname houtput hfirst
    obtain ⟨hbeside, hmore⟩ := Disk.write_child_eq_ok (isName_sidecarName hname)
      (hdirectories.locate_iff.2 houtput) hsecond
    have htemporary : second.item? temporary = some (.file bytes) := by
      rw [hbeside, Disk.item?_set_of_ne _ (Ne.symm hsidecar), hset]
      by_cases hsame : temporary = folder ++ [p.metadata.name]
      · rw [hsame, Disk.item?_set_self _ (by simp)]
      · rw [Disk.item?_set_of_ne _ hsame, hfile]
    have hsame := hmore.trans hdirectories
    have hremove := Disk.remove_of_item? (hsame.locate_iff.2 hplace) htemporary
      (hsame.forbids_eq ▸ hchangeable)
    have hclose (log : List Notice) : (p.close : StateM Surroundings _).run
        { before with disk := second, log } = ({ p with closed := true },
          { before with
            disk := second.erase temporary
            log := ⟨.debug, "Removed package file " ++ p.place.text⟩ :: log }) :=
      PackageStream.run_close_of_remove hopen hremove
    rw [Surroundings.run_bind_of_run hwritten] at h
    dsimp only at h
    rw [Surroundings.run_bind_of_run (Surroundings.run_notices _ .info _),
      Surroundings.run_bind_of_run (Surroundings.run_notices _ .warning _),
      Surroundings.run_bind_of_run (hclose _)] at h
    cases h
    refine ⟨by rw [hbeside, hset], ?_⟩
    rw [deliveryNotices, List.cons_append, List.append_assoc]

end CommandLine

/-- A file system that has received a package and its description in a directory, whatever stood
there under their names; all else is as before. Only a temporary file that happened to have the name
of the package takes the package with it when it goes. -/
structure Disk.Receives (before after : Disk) (folder temporary : List String) (p : PackageStream)
    (bytes description : Bytes) : Prop where
  absent : before.item? temporary = none
  package_eq : after.item? (folder ++ [p.metadata.name]) =
    if folder ++ [p.metadata.name] = temporary then none else some (.file bytes)
  sidecar_eq : after.item? (folder ++ [p.sidecarName]) = some (.file description)
  others_eq : ∀ key, key ≠ folder ++ [p.metadata.name] → key ≠ folder ++ [p.sidecarName] →
    after.item? key = before.item? key

theorem Disk.receives_of_erase {before : Disk} {folder temporary : List String} {p : PackageStream}
    (habsent : before.item? temporary = none) (hne : folder ++ [p.sidecarName] ≠ temporary)
    (bytes description : Bytes) :
    before.Receives ((((before.set temporary (.file bytes)).set
        (folder ++ [p.metadata.name]) (.file bytes)).set
          (folder ++ [p.sidecarName]) (.file description)).erase temporary)
      folder temporary p bytes description := by
  have hnames : folder ++ [p.metadata.name] ≠ folder ++ [p.sidecarName] := fun h =>
    CommandLine.name_ne_sidecarName p (List.singleton_inj.1 (List.append_cancel_left h))
  refine ⟨habsent, ?_, ?_, fun key hpackage hsidecar => ?_⟩
  · split
    · rename_i hsame
      rw [hsame]
      exact item?_erase_self _ (ne_nil_of_item?_eq_none habsent)
    · rename_i hother
      rw [item?_erase_of_ne _ hother, item?_set_of_ne _ hnames, item?_set_self _ (by simp)]
  · rw [item?_erase_of_ne _ hne, item?_set_self _ (by simp)]
  · by_cases htemporary : key = temporary
    · rw [htemporary, item?_erase_self _ (ne_nil_of_item?_eq_none habsent), habsent]
    · rw [item?_erase_of_ne _ htemporary, item?_set_of_ne _ hsidecar, item?_set_of_ne _ hpackage,
        item?_set_of_ne _ htemporary]

end Deposit
