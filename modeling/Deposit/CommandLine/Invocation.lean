import Deposit.CommandLine.Help
import Deposit.CommandLine.Reading
import Deposit.Disk.Location
import Deposit.Package.Format
import Deposit.Specification.Registry

set_option autoImplicit false
set_option relaxedAutoImplicit false

/-!
What a command line asks for: one of two commands with its arguments, help, or nothing that makes
sense.
-/

namespace Deposit.CommandLine

/-- What is to be assembled, how, and where the package goes. -/
structure AssembleArguments where
  submission : Location
  specification : String
  archive : Option ArchiveFormat
  compression : Option Compression
  output : Location

/-- The document to be read, the repository it is from, and the configuration of repositories. -/
structure CheckStatusArguments where
  document : String
  repository : String
  configuration : Location

/-- What a command line asks for. -/
inductive Invocation where
  | help (text : String)
  | misuse (program : String) (m : Misuse)
  | assemble (isVerbose : Bool) (arguments : AssembleArguments)
  | checkStatus (isVerbose : Bool) (arguments : CheckStatusArguments)

def programName : String := "deposit-services"

def commandNames : List String := ["assemble", "check-status"]

def verboseOption : CommandOption := ⟨["-v", "--verbose"], .flag, false⟩

def programOptions : List CommandOption := [.help, verboseOption]

/-- The specification that is used unless another one is asked for. -/
def ordinarySpecification : String := "http://purl.org/net/sword/package/SimpleZip"

/-- The directory that packages go to unless another one is given. -/
def ordinaryOutput : String := "workspace/packages"

def specificationChoices : List String :=
  (Specification.registered.map Specification.identifier).mergeSort fun a b => a ≤ b

/-- The texts that the members of a vocabulary are written as. -/
def choicesOf (α : Type) [Vocabulary α] : List String :=
  (Vocabulary.members (α := α)).map Vocabulary.value

def assembleOptions : List CommandOption :=
  [.help,
   .withValue "--submission" none true,
   .withValue "--specification" (some specificationChoices) false,
   .withValue "--archive" (some (choicesOf ArchiveFormat)) false,
   .withValue "--compression" (some (choicesOf Compression)) false,
   .withValue "--output" none false]

def checkStatusOptions : List CommandOption :=
  [.help,
   .withValue "--document" none true,
   .withValue "--repository" none true,
   .withValue "--config" none true]

def AssembleArguments.ofReading (r : Reading) : AssembleArguments where
  submission := .ofText ((r.value? "--submission").getD "")
  specification := (r.value? "--specification").getD ordinarySpecification
  archive := (r.value? "--archive").bind Vocabulary.ofValue?
  compression := (r.value? "--compression").bind Vocabulary.ofValue?
  output := .ofText ((r.value? "--output").getD ordinaryOutput)

def CheckStatusArguments.ofReading (r : Reading) : CheckStatusArguments where
  document := (r.value? "--document").getD ""
  repository := (r.value? "--repository").getD ""
  configuration := .ofText ((r.value? "--config").getD "")

namespace Invocation

def ofStop (program helpText : String) : Stop → Invocation
  | .help => help helpText
  | .misuse m => misuse program m

/-- What the options of a command ask for, unless there are arguments that nobody knows. -/
def ofCommand (program helpText : String) (options : List CommandOption)
    (extras arguments : List String) (accept : Reading → Invocation) : Invocation :=
  match readOptions options arguments with
  | .error stop => ofStop program helpText stop
  | .ok r =>
    match extras ++ r.extras with
    | [] => accept r
    | unknown => misuse programName (.unrecognized unknown)

/-- What a command line asks for, given what stands in front of the command. -/
def ofReading (r : Reading) : List String → Invocation
  | [] =>
    match r.extras with
    | [] => help programHelp
    | unknown => misuse programName (.unrecognized unknown)
  | command :: arguments =>
    let isVerbose := r.has verboseOption
    if command = "assemble" then
      ofCommand (programName ++ " " ++ command) assembleHelp assembleOptions r.extras arguments
        fun own => assemble isVerbose (.ofReading own)
    else if command = "check-status" then
      ofCommand (programName ++ " " ++ command) checkStatusHelp checkStatusOptions r.extras
        arguments fun own => checkStatus isVerbose (.ofReading own)
    else misuse programName (.notAChoice "command" command commandNames)

def ofArguments (arguments : List String) : Invocation :=
  match tokens programOptions arguments with
  | .error m => misuse programName m
  | .ok ts =>
    match Reading.start.run programOptions false ts with
    | .error stop => ofStop programName programHelp stop
    | .ok (r, rest) => ofReading r (arguments.drop (arguments.length - rest.length))

def isVerbose : Invocation → Bool
  | assemble isVerbose _ => isVerbose
  | checkStatus isVerbose _ => isVerbose
  | _ => false

end Invocation

end Deposit.CommandLine
