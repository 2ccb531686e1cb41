import Deposit.CommandLine.Run
import Deposit.Proofs.CommandLine.Assemble
import Deposit.Proofs.Host.Surroundings
import Deposit.Proofs.Repository.Load

set_option autoImplicit false
set_option relaxedAutoImplicit false

/-!
How commands end. All that a command does for its arguments tells of no error by itself; a failure
is told of once, where the command ends, and makes it end with the status of failures. Main
statement: this holds of every command line that makes sense, but for the preparation of the command
that assembles, whose faults are neither told of nor counted as failures.
-/

namespace Deposit

open Surroundings

/-- A program that tells of no error, wherever it is run. -/
abbrev IsCalm {α : Type} (x : StateM Surroundings α) : Prop :=
  Adds (fun n => n.level ≠ .error) x

private theorem isCalm_notice {level : Level} (h : level ≠ .error) (text : String) :
    IsCalm (Host.notice level text) :=
  adds_notice h

private theorem isCalm_notices {level : Level} (h : level ≠ .error) (texts : List String) :
    IsCalm (Host.notices level texts) :=
  adds_notices (fun _ => h) texts

private theorem isCalm_readText (l : Location) : IsCalm (Host.readText l) :=
  adds_of_log_eq fun before => by rw [run_readText]

private theorem CommandLine.isCalm_readSubmission (directory : Location) :
    IsCalm (readSubmission directory) := by
  refine adds_of_log_eq fun before => ?_
  rcases run_readSubmission directory before with ⟨message, hrun⟩ | ⟨_, _, _, _, _, _, hrun⟩ <;>
    rw [hrun]

namespace PackageStream

variable (p : PackageStream)

private theorem isCalm_writeTo (destination : Location) : IsCalm (p.writeTo destination) := by
  have hopen : IsCalm (p.open : StateM Surroundings _) := by
    unfold «open»
    split
    · exact adds_pure _
    · refine (adds_read _).bind fun outcome => ?_
      cases outcome <;> exact adds_pure _
  refine hopen.bind fun opened => ?_
  cases opened with
  | error fault => exact adds_pure _
  | ok reader =>
    refine (adds_write _ _).bind fun written => ?_
    cases written <;> exact adds_pure _

private theorem isCalm_close : IsCalm p.close := by
  unfold close
  split
  · exact adds_pure _
  · exact (adds_remove _).bind fun _ => (isCalm_notice (by decide) _).bind fun _ => adds_pure _

end PackageStream

namespace CommandLine

private theorem isCalm_deliver (submission : String) (p : PackageStream) (output : Location) :
    IsCalm (deliver submission p output) := by
  have hwrite : IsCalm (writePackage submission p output) := by
    refine (p.isCalm_writeTo _).bind fun copied => ?_
    cases copied with
    | error fault => exact adds_pure _
    | ok place =>
      refine (adds_write _ _).bind fun written => ?_
      cases written <;> exact adds_pure _
  refine hwrite.bind fun written => ?_
  cases written with
  | error message => exact p.isCalm_close.bind fun _ => adds_pure _
  | ok place =>
    exact (isCalm_notices (by decide) _).bind fun _ => (isCalm_notices (by decide) _).bind fun _ =>
      p.isCalm_close.bind fun _ => adds_pure _

private theorem isCalm_assembleFrom (a : AssembleArguments) (directory : Location) :
    IsCalm (assembleFrom a directory) := by
  refine (isCalm_readSubmission directory).bind fun read => ?_
  cases read with
  | error message => exact adds_pure _
  | ok s =>
    dsimp only
    cases a.assembler with
    | error e => exact adds_pure _
    | ok assembler =>
      refine (assembler.adds_assemble s (fun _ => nofun) (fun _ => nofun)).bind fun assembled => ?_
      cases assembled with
      | error failure => exact adds_pure _
      | ok p => exact isCalm_deliver s.id p a.output

end CommandLine

namespace Http

private theorem isCalm_follow (n : Nat) (request : Request) : IsCalm (follow n request) := by
  induction n generalizing request with
  | zero => exact adds_pure _
  | succ n ih =>
    refine (adds_send request).bind fun sent => ?_
    cases sent with
    | error fault => exact adds_pure _
    | ok reply =>
      dsimp only
      cases reply.redirect? with
      | none => exact adds_pure _
      | some place =>
        dsimp only
        cases request.redirected place with
        | error fault => exact adds_pure _
        | ok next => exact ih next

private theorem Session.isCalm_ask (s : Session) (place : String) (accept : Option String) :
    IsCalm (s.ask place accept) := by
  unfold ask
  cases s.request place accept with
  | error fault => exact adds_pure _
  | ok request =>
    refine (isCalm_follow _ request).bind fun answer => ?_
    cases answer <;> exact adds_pure _

namespace Client

variable (c : Client) (place : String) (accept : Option String)

private theorem isCalm_pause : IsCalm c.pause := by
  unfold pause
  cases c.settings.delay with
  | error fault => exact adds_pure _
  | ok seconds => exact (adds_wait seconds).bind fun _ => adds_pure _

private theorem isCalm_attempt (s : Session) (total : Int) (remaining : Nat)
    (last : Option NetworkFault) :
    IsCalm (attempt s c place accept total remaining last) := by
  induction remaining generalizing last with
  | zero => exact adds_pure _
  | succ remaining ih =>
    refine (s.isCalm_ask place accept).bind fun answer => ?_
    split
    · exact adds_pure _
    · refine (isCalm_notice (by decide) _).bind fun _ => ?_
      split
      · exact adds_pure _
      · refine c.isCalm_pause.bind fun paused => ?_
        cases paused with
        | error fault => exact adds_pure _
        | ok _ => exact ih _
    · exact adds_pure _

private theorem isCalm_fetch : IsCalm (c.fetch place) := by
  have hget : IsCalm (c.get place (some documentKinds)) := by
    unfold get
    cases c.settings.attempts with
    | error fault => exact adds_pure _
    | ok total =>
      dsimp only
      split
      · exact adds_pure _
      · cases c.opened with
        | error fault => exact adds_pure _
        | ok opened => exact (isCalm_attempt _ _ _ _ _ _ _).bind fun _ => adds_pure _
  exact (isCalm_notice (by decide) _).bind fun _ => hget.bind fun _ => adds_pure _

end Client

end Http

private theorem isCalm_fetchLocal (document : String) : IsCalm (fetchLocal document) := by
  unfold fetchLocal
  cases documentFile document with
  | error fault => exact adds_pure _
  | ok location =>
    refine (adds_read location).bind fun read => ?_
    cases read <;> exact adds_pure _

private theorem isCalm_resolveStatus (decoder : Xml.Decoder) {fetch : Fetcher (StateM Surroundings)}
    (hfetch : ∀ place, IsCalm (fetch place)) (rs : Repositories) (document repository : String) :
    IsCalm (resolveStatus decoder fetch rs document repository) := by
  unfold resolveStatus
  cases rs.processor repository with
  | error e => exact adds_pure _
  | ok p =>
    have hread : IsCalm (StatusDocument.read decoder fetch document) := by
      refine (hfetch document).bind fun fetched => ?_
      unfold StatusDocument.readFetched
      cases StatusDocument.ofFetched decoder document fetched with
      | error e => exact adds_pure _
      | ok root =>
        exact (isCalm_notices (by decide) _).bind fun _ =>
          (isCalm_notice (by decide) _).bind fun _ => adds_pure _
    cases p
    refine hread.bind fun read => ?_
    cases read with
    | error e => exact adds_pure _
    | ok state =>
      dsimp only
      cases rs.status repository (state.map SwordState.token) with
      | error e => exact adds_pure _
      | ok status => exact (isCalm_notice (by decide) _).bind fun _ => adds_pure _

namespace CommandLine

private theorem isCalm_of_fetcherFor {rs : Repositories} {repository document : String}
    {fetch : Fetcher (StateM Surroundings)} (h : fetcherFor rs repository document = .ok fetch)
    (place : String) : IsCalm (fetch place) := by
  unfold fetcherFor at h
  cases hsplit : Uri.split document with
  | error fault =>
    rw [hsplit] at h
    cases h
  | ok parts =>
    simp only [hsplit, Except.mapError, bind, Except.bind] at h
    split at h
    · cases hsettings : serverSettings (rs.find? repository)
          (parts.scheme ++ "://" ++ parts.authority) with
      | error fault =>
        rw [hsettings] at h
        cases h
      | ok settings =>
        rw [hsettings] at h
        obtain rfl := Except.ok.inj h
        exact ((Http.Client.ofSettings settings).isCalm_fetch place).map Prod.fst
    · obtain rfl := Except.ok.inj h
      exact isCalm_fetchLocal place

private theorem isCalm_findStatus (decoder : Xml.Decoder) (a : CheckStatusArguments) :
    IsCalm (findStatus decoder a) := by
  have hload : IsCalm (Repositories.load a.configuration) := by
    refine (isCalm_readText _).bind fun text => ?_
    dsimp only
    split
    · exact (isCalm_notice (by decide) _).bind fun _ => adds_pure _
    · exact adds_pure _
  refine hload.bind fun loaded => ?_
  cases loaded with
  | error failure => exact adds_pure _
  | ok rs =>
    dsimp only
    cases hfetch : (fetcherFor rs a.repository a.document :
        Except String (Fetcher (StateM Surroundings))) with
    | error message => exact adds_pure _
    | ok fetch =>
      have hresolved := isCalm_resolveStatus decoder (isCalm_of_fetcherFor hfetch) rs
      refine (hresolved _ _).bind fun resolved => ?_
      cases resolved with
      | error failure => exact adds_pure _
      | ok status => exact (isCalm_notice (by decide) _).bind fun _ => adds_pure _

private theorem run_outcomeOf {α : Type} {work : StateM Surroundings (Except String α)}
    (hwork : IsCalm work) (failure : String) (shown : α → String) (before : Surroundings) :
    ∃ outcome after noticed,
      (work >>= fun result => outcomeOf failure (result.map shown)).run before = (outcome, after) ∧
      after.log = noticed ++ before.log ∧
      ((∃ a, outcome = .done (shown a) ∧ ∀ n ∈ noticed, n.level ≠ .error) ∨
        outcome = .failed ∧ ∃ n ∈ noticed, n.level = .error) := by
  obtain ⟨noticed, hlog, hquiet⟩ := hwork before
  cases hrun : work.run before with
  | mk result after =>
    rw [hrun] at hlog
    rw [run_bind_of_run hrun]
    cases result with
    | ok a => exact ⟨_, _, noticed, rfl, hlog, Or.inl ⟨a, rfl, hquiet⟩⟩
    | error message =>
      refine ⟨_, _, ⟨.error, failure ++ ": " ++ message⟩ :: noticed, rfl, ?_,
        Or.inr ⟨rfl, _, List.mem_cons_self, rfl⟩⟩
      show _ :: after.log = _
      rw [hlog]
      rfl

/-- What stops a command before its work begins; only the command that assembles has to prepare. -/
def Invocation.Stops (i : Invocation) (d : Disk) (fault : FileFault) : Prop :=
  match i with
  | .assemble _ a => a.Stops d fault
  | _ => False

/-- How a command should end: nothing escapes, the exit status is that of failures exactly if a
notice tells of an error, and the command that checks a status prints one exactly if it has not
failed. -/
structure Invocation.Accounts (i : Invocation) (outcome : Outcome) (noticed : List Notice) :
    Prop where
  exitStatus : outcome.exitStatus = 0 ∨ outcome.exitStatus = 1
  complaint : outcome.complaint? = none
  error : outcome.exitStatus = 1 ↔ ∃ n ∈ noticed, n.level = .error
  status : ∀ isVerbose a, i = .checkStatus isVerbose a →
    (outcome.exitStatus = 0 ↔ ∃ status : DepositStatus, outcome.output = status.value ++ "\n")

private theorem Invocation.accounts_done {i : Invocation} {output : String} {noticed : List Notice}
    (hquiet : ∀ n ∈ noticed, n.level ≠ .error)
    (hstatus : ∀ isVerbose a, i = .checkStatus isVerbose a →
      ∃ status : DepositStatus, output = status.value ++ "\n") :
    i.Accounts (.done output) noticed where
  exitStatus := Or.inl rfl
  complaint := rfl
  error := iff_of_false Nat.zero_ne_one fun ⟨n, hn, hlevel⟩ => hquiet n hn hlevel
  status := fun isVerbose a hi => iff_of_true rfl (hstatus isVerbose a hi)

private theorem Invocation.accounts_failed (i : Invocation) {noticed : List Notice}
    (herror : ∃ n ∈ noticed, n.level = .error) : i.Accounts .failed noticed where
  exitStatus := Or.inr rfl
  complaint := rfl
  error := iff_of_true rfl herror
  status := by
    refine fun _ _ _ => iff_of_false (by decide) ?_
    rintro ⟨status, hstatus⟩
    cases status <;> exact absurd hstatus (by decide)

/-- Every command line that makes sense has a command that ends as it should, with one exception:
what stops the command that assembles before its work begins escapes, no notice tells of it, and
nothing but directories has been made. -/
theorem run_accounts (decoder : Xml.Decoder) {arguments : List String} {i : Invocation}
    (hi : Invocation.ofArguments arguments = i) (hsense : ∀ program m, i ≠ .misuse program m)
    (before : Surroundings) :
    ∃ outcome after noticed,
      (run decoder arguments : StateM Surroundings Outcome).run before = (outcome, after) ∧
      after.log = noticed ++ before.log ∧
      ((∃ fault, i.Stops before.disk fault ∧ outcome = .fault fault ∧ noticed = [] ∧
          before.disk.AddsDirectories after.disk) ∨
        (∀ fault, ¬ i.Stops before.disk fault) ∧ i.Accounts outcome noticed) := by
  unfold run
  rw [hi]
  cases i with
  | help text =>
    exact ⟨_, _, [], rfl, rfl, Or.inr ⟨fun _ => not_false,
      Invocation.accounts_done (fun _ hn => absurd hn List.not_mem_nil) nofun⟩⟩
  | misuse program m => exact absurd rfl (hsense program m)
  | assemble isVerbose a =>
    rcases a.run_cases before with
      ⟨fault, _, hstops, hadds, hrun⟩ | ⟨hfree, ⟨text, hrun⟩ | ⟨prepared, -, hrun⟩⟩
    · exact ⟨_, _, [], hrun, rfl, Or.inl ⟨fault, hstops, rfl, rfl, hadds⟩⟩
    · exact ⟨_, _, [⟨.error, text⟩], hrun, rfl, Or.inr ⟨hfree,
        Invocation.accounts_failed _ ⟨_, List.mem_singleton_self _, rfl⟩⟩⟩
    · obtain ⟨outcome, after, noticed, hwork, hlog, hend⟩ := run_outcomeOf
        (isCalm_assembleFrom a (a.submission.resolve before.disk.workingDirectory))
        "Failed to assemble package" (fun _ => "") { before with disk := prepared }
      refine ⟨outcome, after, noticed, hrun.trans hwork, hlog, Or.inr ⟨hfree, ?_⟩⟩
      rcases hend with ⟨-, rfl, hquiet⟩ | ⟨rfl, herror⟩
      · exact Invocation.accounts_done hquiet nofun
      · exact Invocation.accounts_failed _ herror
  | checkStatus isVerbose a =>
    obtain ⟨outcome, after, noticed, hrun, hlog, hend⟩ := run_outcomeOf
      (isCalm_findStatus decoder a) "Failed to check deposit status"
      (fun status => status.value ++ "\n") before
    refine ⟨outcome, after, noticed, hrun, hlog, Or.inr ⟨fun _ => not_false, ?_⟩⟩
    rcases hend with ⟨status, rfl, hquiet⟩ | ⟨rfl, herror⟩
    · exact Invocation.accounts_done hquiet fun _ _ _ => ⟨status, rfl⟩
    · exact Invocation.accounts_failed _ herror

/-- A directory with a submission, and a file where the directory for packages should be. -/
def takenDesk : Surroundings where
  disk :=
    { items := [(["in"], .directory), (["in", "a.txt"], .file [97]),
        (["in", "submission.json"], .file (Bytes.ofText
          "\x7b\"id\": \"i\", \"files\": [\x7b\"name\": \"a.txt\"\x7d]\x7d")),
        (["out"], .file [97])]
      workingDirectory := [] }
  temporaryDirectory := ⟨"/", []⟩
  log := []

def inquiryArguments : List String :=
  ["check-status", "--document", "d.xml", "--repository", "r", "--config", "r.json"]

/-- Without a configuration the status of a deposit cannot be checked, and a notice tells of it. -/
theorem run_accounts_inquiry :
    (∀ program m, Invocation.ofArguments inquiryArguments ≠ .misuse program m) ∧
    ∃ outcome after noticed,
      (run Xml.decoder inquiryArguments : StateM Surroundings _).run takenDesk = (outcome, after) ∧
      after.log = noticed ++ [] ∧ outcome.exitStatus = 1 ∧
      (Invocation.ofArguments inquiryArguments).Accounts outcome noticed := by
  have hi : Invocation.ofArguments inquiryArguments =
      .checkStatus false ⟨"d.xml", "r", ⟨"", ["r.json"]⟩⟩ := rfl
  have hfailed :
      ((run Xml.decoder inquiryArguments : StateM Surroundings _).run takenDesk).1.exitStatus =
        1 := by
    decide +kernel
  obtain ⟨outcome, after, noticed, hrun, hlog, ⟨fault, hstops, -⟩ | ⟨-, haccounts⟩⟩ :=
    run_accounts Xml.decoder hi nofun takenDesk
  · exact absurd hstops not_false
  · rw [hrun] at hfailed
    rw [hi]
    exact ⟨nofun, outcome, after, noticed, hrun, hlog, hfailed, haccounts⟩

def takenArguments : List String :=
  ["assemble", "--submission", "in", "--output", "out"]

/-- A file in the place of the directory for packages: what the file system says escapes, and there
is no notice. -/
theorem run_taken_escapes :
    Invocation.ofArguments takenArguments =
      .assemble false ⟨⟨"", ["in"]⟩, ordinarySpecification, none, none, ⟨"", ["out"]⟩⟩ ∧
    ((run Xml.decoder takenArguments : StateM Surroundings _).run takenDesk).1.complaint? =
      some "[Errno 17] File exists: 'out'" ∧
    ((run Xml.decoder takenArguments : StateM Surroundings _).run takenDesk).2.log = [] := by
  refine ⟨rfl, ?_⟩
  decide +kernel

end CommandLine

end Deposit
