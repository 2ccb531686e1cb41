import Deposit.Disk.Basic
import Deposit.Host.Basic
import Deposit.Http.Message

set_option autoImplicit false
set_option relaxedAutoImplicit false

/-!
Surroundings held as a value: a file system, the directory for temporary files, the notices given
and the content files opened so far, and a network on which the outcome of every request and the
times that cannot be waited for are known beforehand. What happened last comes first.
-/

namespace Deposit

/-- Files, notices and a network as a value. Content files that were opened are known by name. -/
structure Surroundings where
  disk : Disk
  temporaryDirectory : Location
  log : List Notice
  opened : List String := []
  outcomes : List (Except Http.NetworkFault Http.Reply) := []
  lastOutcome : Except Http.NetworkFault Http.Reply := .error .tooManyRedirects
  sent : List Http.Request := []
  waits : List Float := []
  refusedWait? : Float → Option Http.WaitFault := fun _ => none

namespace Surroundings

def onDisk {α : Type} (f : Disk → Except FileFault (α × Disk)) :
    StateM Surroundings (Except FileFault α) := fun s =>
  match f s.disk with
  | .ok (a, disk) => (.ok a, { s with disk })
  | .error fault => (.error fault, s)

instance : Host (StateM Surroundings) where
  notice level text := modify fun s => { s with log := ⟨level, text⟩ :: s.log }
  openContent file := fun s => (file.opened, { s with opened := file.name :: s.opened })
  read l := return (← get).disk.read l
  size l := return (← get).disk.size l
  holds l := return (← get).disk.holds l
  resolve l := return (← get).disk.resolve l
  write l bytes := onDisk fun d => (d.write l bytes).map fun d => ((), d)
  makeDirectories l := fun s =>
    let (made, disk) := s.disk.makeDirectories l
    (made, { s with disk })
  createTemporary l := do
    let directory := l.getD (← get).temporaryDirectory
    onDisk fun d => d.createTemporary directory
  remove l := onDisk fun d => (d.remove l).map fun d => ((), d)

/-- Sends a request: it has the next outcome, or the one that all requests after those have. -/
def send (request : Http.Request) :
    StateM Surroundings (Except Http.NetworkFault Http.Reply) := fun s =>
  let sent := request :: s.sent
  match s.outcomes with
  | outcome :: outcomes => (outcome, { s with outcomes, sent })
  | [] => (s.lastOutcome, { s with sent })

/-- Waits for some time, unless that is refused. -/
def wait (seconds : Float) : StateM Surroundings (Except Http.WaitFault Unit) := fun s =>
  match s.refusedWait? seconds with
  | some fault => (.error fault, s)
  | none => (.ok (), { s with waits := seconds :: s.waits })

instance : Http.Network (StateM Surroundings) where
  send := send
  wait := wait

end Surroundings

end Deposit
