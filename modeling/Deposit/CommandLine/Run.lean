import Deposit.CommandLine.Assemble
import Deposit.Fetch
import Deposit.Http.Client
import Deposit.Repository.Load
import Deposit.Status.Processor

set_option autoImplicit false
set_option relaxedAutoImplicit false

/-!
Running the program on a command line, and the command that checks the status of a deposit: it reads
the status document, from a server or from the file system, and prints what the repository's table
makes of the reported state.
-/

namespace Deposit.CommandLine

def userAgent : String := "deposit-services/1.0"

def serverSchemes : List String := ["http", "https"]

/-- The settings for a server of a repository. The document may be on another server than the one
packages go to; the credentials are the same. -/
def serverSettings (r : Option Repository) (origin : String) :
    Except Http.SettingFault Http.Settings :=
  let base := ("base_url", Json.text origin)
  let ordinary := Http.Settings.ofMembers
    [base, ("headers", .object [("User-Agent", .text userAgent)])]
  match r.bind Repository.binding? with
  | none => ordinary
  | some b =>
    if b.server.getD "" = "" then ordinary else Http.Settings.ofBinding b [base]

variable {m : Type → Type} [Host m] [Http.Network m]

/-- The fetcher of a document, which is on a server or in the file system. -/
def fetcherFor (rs : Repositories) (repository document : String) : Except String (Fetcher m) := do
  let parts ← (Uri.split document).mapError Uri.SplitFault.message
  if serverSchemes.contains parts.scheme then
    let origin := parts.scheme ++ "://" ++ parts.authority
    let settings ← (serverSettings (rs.find? repository) origin).mapError Http.SettingFault.message
    pure fun place => Prod.fst <$> (Http.Client.ofSettings settings).fetch place
  else pure fetchLocal

/-- Finds out what has become of a deposit; a failure is given by its message. -/
def findStatus (decoder : Xml.Decoder) (a : CheckStatusArguments) :
    m (Except String DepositStatus) := do
  match ← Repositories.load a.configuration with
  | .error failure => pure (.error failure.message)
  | .ok rs =>
    match fetcherFor rs a.repository a.document with
    | .error message => pure (.error message)
    | .ok fetch =>
      match ← resolveStatus decoder fetch rs a.document a.repository with
      | .error failure => pure (.error failure.message)
      | .ok status => do
        Host.notice .info ("Deposit status for " ++ a.document ++ ": " ++ status.value)
        pure (.ok status)

def CheckStatusArguments.run (a : CheckStatusArguments) (decoder : Xml.Decoder) : m Outcome := do
  let result ← findStatus decoder a
  outcomeOf "Failed to check deposit status" (result.map fun status => status.value ++ "\n")

def Invocation.run (decoder : Xml.Decoder) : Invocation → m Outcome
  | help text => pure (.done text)
  | misuse program m => pure (.misused program m)
  | assemble _ a => a.run
  | checkStatus _ a => a.run decoder

/-- Runs the program on a command line, with a decoder for the status documents. -/
def run (decoder : Xml.Decoder) (arguments : List String) : m Outcome :=
  (Invocation.ofArguments arguments).run decoder

def isWanted (isVerbose : Bool) (level : Level) : Bool :=
  isVerbose || level != .debug

def noticeLine (level : Level) (text : String) : String :=
  level.name ++ ": " ++ text

end Deposit.CommandLine
