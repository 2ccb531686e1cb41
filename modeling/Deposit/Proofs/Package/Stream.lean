import Deposit.Package.Stream
import Deposit.Proofs.Host.Surroundings

set_option autoImplicit false
set_option relaxedAutoImplicit false

/-!
What the operations on a package do to the surroundings: while the package is open and its file can
be read they pass on the bytes of that file, and once it is closed they touch nothing.
-/

namespace Deposit.PackageStream

variable {p : PackageStream} {before : Surroundings} {bytes : Bytes}

theorem run_open_of_read (hopen : p.closed = false) (hread : before.disk.read p.place = .ok bytes) :
    (p.open : StateM Surroundings _).run before = (.ok (.start bytes), before) := by
  have hrun : (Host.read p.place : StateM Surroundings _).run before = (.ok bytes, before) :=
    congrArg (·, before) hread
  unfold PackageStream.open
  rw [hopen, if_neg Bool.false_ne_true, Surroundings.run_bind_of_run hrun]
  rfl

theorem run_open_of_closed (hclosed : p.closed = true) :
    (p.open : StateM Surroundings _).run before =
      (.error (.closed p.metadata.name), before) := by
  unfold PackageStream.open
  rw [if_pos hclosed]
  rfl

theorem run_writeTo_of_read (hopen : p.closed = false)
    (hread : before.disk.read p.place = .ok bytes) (l : Location) :
    (p.writeTo l : StateM Surroundings _).run before =
      match before.disk.write l bytes with
      | .ok disk => (.ok l, { before with disk })
      | .error fault => (.error (.file fault), before) := by
  have hrest : (PackageReader.start bytes).stream.rest = bytes := rfl
  unfold writeTo
  rw [Surroundings.run_bind_of_run (run_open_of_read hopen hread)]
  dsimp only
  rw [hrest]
  cases hwrite : before.disk.write l bytes with
  | ok disk =>
    rw [Surroundings.run_bind_of_run (Surroundings.run_write_of_ok hwrite)]
    rfl
  | error fault =>
    rw [Surroundings.run_bind_of_run (Surroundings.run_write_of_error hwrite)]
    rfl

theorem run_writeTo_of_closed (hclosed : p.closed = true) (l : Location) :
    (p.writeTo l : StateM Surroundings _).run before =
      (.error (.closed p.metadata.name), before) := by
  unfold writeTo
  rw [Surroundings.run_bind_of_run (run_open_of_closed hclosed)]
  rfl

theorem run_close_of_remove (hopen : p.closed = false) {disk : Disk}
    (hremove : before.disk.remove p.place = .ok disk) :
    (p.close : StateM Surroundings _).run before =
      ({ p with closed := true },
        { before with
          disk
          log := ⟨.debug, "Removed package file " ++ p.place.text⟩ :: before.log }) := by
  unfold close
  rw [hopen, if_neg Bool.false_ne_true,
    Surroundings.run_bind_of_run (Surroundings.run_remove_of_ok hremove)]
  rfl

theorem run_close_of_closed (hclosed : p.closed = true) :
    (p.close : StateM Surroundings _).run before = (p, before) := by
  unfold close
  rw [if_pos hclosed]
  rfl

theorem resource_eq_ok_iff {name : String} {r : Resource} :
    p.resource name = .ok r ↔ r.originalName = name ∧
      ∃ earlier later, p.resources = earlier ++ r :: later ∧
        ∀ q ∈ earlier, q.originalName ≠ name := by
  have hfind : p.resource name = .ok r ↔
      p.resources.find? (fun r => r.originalName == name) = some r := by
    unfold resource
    cases p.resources.find? fun r => r.originalName == name with
    | some found => simp only [Except.ok.injEq, Option.some.injEq]
    | none => exact iff_of_false nofun nofun
  rw [hfind, List.find?_eq_some_iff_append, beq_iff_eq]
  simp only [Bool.not_eq_true', beq_eq_false_iff_ne]

theorem resource_eq_error_iff {name : String} {fault : StreamFault} :
    p.resource name = .error fault ↔
      fault = .unknownResource name ∧ name ∉ p.resources.map Resource.originalName := by
  unfold resource
  cases hfind : p.resources.find? fun r => r.originalName == name with
  | some found =>
    have hname : found.originalName = name := by simpa using List.find?_some hfind
    refine iff_of_false nofun fun hnone => hnone.2 ?_
    rw [← hname]
    exact List.mem_map_of_mem (List.mem_of_find?_eq_some hfind)
  | none =>
    have hother : name ∉ p.resources.map Resource.originalName := by
      intro hmem
      obtain ⟨r, hr, hname⟩ := List.mem_map.1 hmem
      simpa [hname] using List.find?_eq_none.1 hfind r hr
    rw [Except.error.injEq, eq_comm, and_iff_left hother]

theorem resource_of_nodup {names others : List String}
    (h : p.resources.map Resource.originalName = names ++ others) (hnodup : names.Nodup) {k : Nat}
    {name : String} (hname : names[k]? = some name) {r : Resource}
    (hr : p.resources[k]? = some r) : p.resource name = .ok r := by
  obtain ⟨hk, hget⟩ := List.getElem?_eq_some_iff.1 hr
  obtain ⟨hkn, rfl⟩ := List.getElem?_eq_some_iff.1 hname
  have hfound : r.originalName = names[k] := by
    have hmap := congrArg (·[k]?) h
    rw [List.getElem?_map, hr, List.getElem?_append_left hkn, hname] at hmap
    exact Option.some.inj hmap
  have hsplit : names = names.take k ++ names[k] :: names.drop (k + 1) := by
    rw [List.getElem_cons_drop, List.take_append_drop]
  have hapart : ∀ earlier ∈ names.take k, earlier ≠ names[k] := by
    rw [hsplit, List.nodup_append] at hnodup
    exact fun earlier hmem => hnodup.2.2 earlier hmem names[k] List.mem_cons_self
  refine resource_eq_ok_iff.2 ⟨hfound, p.resources.take k, p.resources.drop (k + 1), ?_, ?_⟩
  · rw [← hget, List.getElem_cons_drop, List.take_append_drop]
  · intro q hq hsame
    have hearlier : q.originalName ∈ (p.resources.map Resource.originalName).take k := by
      rw [← List.map_take]
      exact List.mem_map_of_mem hq
    rw [h, List.take_append_of_le_length (Nat.le_of_lt hkn)] at hearlier
    exact hapart _ hearlier hsame

end Deposit.PackageStream
