import Deposit.Host.Surroundings
import Deposit.Host.Basic

set_option autoImplicit false
set_option relaxedAutoImplicit false

/-!
Programs that run in surroundings held as a value. A program goes on from where its first step has
ended, and each operation of the host changes only what it is about. The notices that a program adds
to the log are those of its steps. What reading a file of text yields depends on the file only.
-/

namespace Deposit

namespace Surroundings

theorem run_bind_of_run {α β : Type} {x : StateM Surroundings α} {f : α → StateM Surroundings β}
    {before after : Surroundings} {a : α} (h : x.run before = (a, after)) :
    (x >>= f).run before = (f a).run after := by
  rw [StateT.run_bind, h]
  rfl

variable (before : Surroundings)

theorem run_notices (level : Level) (texts : List String) :
    (Host.notices level texts : StateM Surroundings Unit).run before =
      ((), { before with log := (texts.map (Notice.mk level)).reverse ++ before.log }) := by
  induction texts generalizing before with
  | nil => rfl
  | cons text texts ih =>
    have hrest := ih { before with log := ⟨level, text⟩ :: before.log }
    rw [List.map_cons, List.reverse_cons, List.append_assoc]
    exact hrest

variable {before}

theorem run_createTemporary_of_ok {l : Option Location} {place : Location} {disk : Disk}
    (h : before.disk.createTemporary (l.getD before.temporaryDirectory) = .ok (place, disk)) :
    (Host.createTemporary l : StateM Surroundings _).run before =
      (.ok place, { before with disk }) := by
  show onDisk (fun d => d.createTemporary (l.getD before.temporaryDirectory)) before = _
  simp only [onDisk, h]

theorem run_createTemporary_of_error {l : Option Location} {fault : FileFault}
    (h : before.disk.createTemporary (l.getD before.temporaryDirectory) = .error fault) :
    (Host.createTemporary l : StateM Surroundings _).run before = (.error fault, before) := by
  show onDisk (fun d => d.createTemporary (l.getD before.temporaryDirectory)) before = _
  simp only [onDisk, h]

theorem run_write_of_ok {l : Location} {bytes : Bytes} {disk : Disk}
    (h : before.disk.write l bytes = .ok disk) :
    (Host.write l bytes : StateM Surroundings _).run before = (.ok (), { before with disk }) := by
  show onDisk (fun d => (d.write l bytes).map fun d => ((), d)) before = _
  simp only [onDisk, h, Except.map]

theorem run_write_of_error {l : Location} {bytes : Bytes} {fault : FileFault}
    (h : before.disk.write l bytes = .error fault) :
    (Host.write l bytes : StateM Surroundings _).run before = (.error fault, before) := by
  show onDisk (fun d => (d.write l bytes).map fun d => ((), d)) before = _
  simp only [onDisk, h, Except.map]

theorem run_makeDirectories {l : Location} {made : Except FileFault Unit} {disk : Disk}
    (h : before.disk.makeDirectories l = (made, disk)) :
    (Host.makeDirectories l : StateM Surroundings _).run before =
      (made, { before with disk }) := by
  show ((before.disk.makeDirectories l).1,
    { before with disk := (before.disk.makeDirectories l).2 }) = _
  rw [h]

theorem run_remove_of_ok {l : Location} {disk : Disk} (h : before.disk.remove l = .ok disk) :
    (Host.remove l : StateM Surroundings _).run before = (.ok (), { before with disk }) := by
  show onDisk (fun d => (d.remove l).map fun d => ((), d)) before = _
  simp only [onDisk, h, Except.map]

variable {α ε : Type} {x : StateM Surroundings (Except ε α)}

/-- Whether a program returns something that passes a check. -/
def returns (x : StateM Surroundings (Except ε α)) (before : Surroundings) (check : α → Bool) :
    Bool :=
  match (x.run before).1 with
  | .ok a => check a
  | .error _ => false

/-- Whether a program fails with something that passes a check. -/
def fails (x : StateM Surroundings (Except ε α)) (before : Surroundings) (check : ε → Bool) :
    Bool :=
  match (x.run before).1 with
  | .ok _ => false
  | .error e => check e

theorem run_of_returns {check : α → Bool} (h : returns x before check = true) :
    ∃ a after, x.run before = (.ok a, after) ∧ check a = true := by
  unfold returns at h
  cases hrun : x.run before with
  | mk outcome after =>
    rw [hrun] at h
    cases outcome with
    | ok a => exact ⟨a, after, rfl, h⟩
    | error e => cases h

theorem run_of_fails {check : ε → Bool} (h : fails x before check = true) :
    ∃ e after, x.run before = (.error e, after) ∧ check e = true := by
  unfold fails at h
  cases hrun : x.run before with
  | mk outcome after =>
    rw [hrun] at h
    cases outcome with
    | ok a => cases h
    | error e => exact ⟨e, after, rfl, h⟩

section

variable {α β : Type} {kind : Notice → Prop} {x : StateM Surroundings α}
  {f : α → StateM Surroundings β}

/-- Wherever a program is run, it only adds to the log, and only notices of a kind. -/
def Adds (kind : Notice → Prop) (x : StateM Surroundings α) : Prop :=
  ∀ before, ∃ noticed, (x.run before).2.log = noticed ++ before.log ∧ ∀ n ∈ noticed, kind n

theorem adds_of_log_eq (h : ∀ before, (x.run before).2.log = before.log) : Adds kind x :=
  fun before => ⟨[], h before, fun _ hn => absurd hn List.not_mem_nil⟩

theorem adds_pure (a : α) : Adds kind (pure a) :=
  adds_of_log_eq fun _ => rfl

theorem Adds.bind (hx : Adds kind x) (hf : ∀ a, Adds kind (f a)) : Adds kind (x >>= f) := by
  intro before
  obtain ⟨first, hfirst, hkind⟩ := hx before
  obtain ⟨second, hsecond, hlater⟩ := hf (x.run before).1 (x.run before).2
  have hrun : (x >>= f).run before = (f (x.run before).1).run (x.run before).2 :=
    run_bind_of_run rfl
  refine ⟨second ++ first, ?_, fun n hn => ?_⟩
  · rw [hrun, hsecond, hfirst, List.append_assoc]
  · rcases List.mem_append.1 hn with hn | hn
    · exact hlater n hn
    · exact hkind n hn

theorem Adds.map (hx : Adds kind x) (g : α → β) : Adds kind (g <$> x) :=
  hx

theorem adds_notice {level : Level} {text : String} (h : kind ⟨level, text⟩) :
    Adds kind (Host.notice level text) :=
  fun _ => ⟨[⟨level, text⟩], rfl, List.forall_mem_singleton.2 h⟩

theorem adds_notices {level : Level} (h : ∀ text, kind ⟨level, text⟩) (texts : List String) :
    Adds kind (Host.notices level texts) := by
  induction texts with
  | nil => exact adds_pure ()
  | cons text texts ih => exact (adds_notice (h text)).bind fun _ => ih

private theorem adds_onDisk (g : Disk → Except FileFault (α × Disk)) : Adds kind (onDisk g) := by
  refine adds_of_log_eq fun before => ?_
  show (onDisk g before).2.log = before.log
  unfold onDisk
  cases g before.disk <;> rfl

theorem adds_openContent (file : ContentFile) : Adds kind (Host.openContent file) :=
  adds_of_log_eq fun _ => rfl

theorem adds_read (l : Location) : Adds kind (Host.read l) :=
  adds_of_log_eq fun _ => rfl

theorem adds_write (l : Location) (bytes : Bytes) : Adds kind (Host.write l bytes) :=
  adds_onDisk _

theorem adds_remove (l : Location) : Adds kind (Host.remove l) :=
  adds_onDisk _

theorem adds_createTemporary (l : Option Location) : Adds kind (Host.createTemporary l) :=
  Adds.bind (adds_of_log_eq fun _ => rfl) fun _ => adds_onDisk _

theorem adds_send (request : Http.Request) : Adds kind (Http.Network.send request) := by
  refine adds_of_log_eq fun before => ?_
  show (send request before).2.log = before.log
  unfold send
  cases before.outcomes <;> rfl

theorem adds_wait (seconds : Float) : Adds kind (Http.Network.wait seconds) := by
  refine adds_of_log_eq fun before => ?_
  show (wait seconds before).2.log = before.log
  unfold wait
  cases before.refusedWait? seconds <;> rfl

end

end Surroundings

namespace Disk

/-- The text of a file: it can be read and is encoded as text should be. -/
def HoldsText (d : Disk) (l : Location) (text : List Char) : Prop :=
  ∃ bytes, d.read l = .ok bytes ∧ textOfBytes bytes = .ok text

/-- What reading a file of text yields. -/
def textAt (d : Disk) (l : Location) : Except TextFault (List Char) :=
  match d.read l with
  | .error fault => .error (.file fault)
  | .ok bytes => textOfBytes bytes

variable {d : Disk} {l : Location} {text : List Char}

theorem HoldsText.textAt_eq (h : d.HoldsText l text) : d.textAt l = .ok text := by
  obtain ⟨bytes, hread, htext⟩ := h
  rw [textAt, hread]
  exact htext

theorem holdsText_of_textAt (h : d.textAt l = .ok text) : d.HoldsText l text := by
  unfold textAt at h
  cases hread : d.read l with
  | error fault =>
    rw [hread] at h
    cases h
  | ok bytes =>
    rw [hread] at h
    exact ⟨bytes, hread, h⟩

end Disk

theorem Surroundings.run_readText (l : Location) (before : Surroundings) :
    (Host.readText l : StateM Surroundings _).run before = (before.disk.textAt l, before) := by
  have hread : (Host.read l : StateM Surroundings _).run before =
      (before.disk.read l, before) := rfl
  rw [Host.readText, run_bind_of_run hread, Disk.textAt]
  cases before.disk.read l <;> rfl

end Deposit
