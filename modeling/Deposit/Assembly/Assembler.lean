import Deposit.Assembly.Composition
import Deposit.Configuration
import Deposit.Package.Stream

set_option autoImplicit false
set_option relaxedAutoImplicit false

/-!
Assembling submissions into packages: the submission is validated and its files are placed before
anything is opened or written; the package is composed into a temporary file, which takes all that
is written and is removed if composing fails.
-/

namespace Deposit

/-- What may be asked of an assembler beyond its specification. -/
structure AssemblerOptions where
  archive : Option ArchiveFormat := none
  compression : Option Compression := none
  algorithms : List String := ["sha256", "md5"]
  temporaryDirectory : Option Location := none

/-- The algorithms of a platform that go by some names, or the first name by which none goes. -/
def supportedAlgorithms (library : Digest.Library) :
    List String → Except ConfigurationError (List Digest.Algorithm)
  | [] => .ok []
  | name :: rest =>
    match library.algorithm? name with
    | none => .error (.unsupportedAlgorithm name)
    | some a => (supportedAlgorithms library rest).map (a :: ·)

/-- An assembler for one packaging specification on a platform, which has all algorithms that are
asked for. -/
structure Assembler where
  specification : Specification
  options : AssemblerOptions
  library : Digest.Library := {}
  algorithms : List Digest.Algorithm
  supported : supportedAlgorithms library options.algorithms = .ok algorithms

namespace Assembler

/-- The assembler of a specification on a platform, if its algorithms are supported and there is
one. -/
def createOn (library : Digest.Library) (specification : Specification)
    (options : AssemblerOptions) : Except ConfigurationError Assembler :=
  if options.algorithms = [] then .error .noAlgorithm
  else
    match supported : supportedAlgorithms library options.algorithms with
    | .error e => .error e
    | .ok algorithms => .ok { specification, options, library, algorithms, supported }

/-- The assembler of a specification, on a platform of which no more is known than is guaranteed. -/
def create (specification : Specification) (options : AssemblerOptions) :
    Except ConfigurationError Assembler :=
  createOn {} specification options

/-- The archive format: the one asked for, or that of the specification. -/
def archive (a : Assembler) : ArchiveFormat :=
  a.options.archive.getD a.specification.archive

/-- The compression: the one asked for, or that of the specification. -/
def compression (a : Assembler) : Compression :=
  a.options.compression.getD a.specification.compression

def plan (a : Assembler) : PackagingPlan where
  specification := a.specification
  archive := a.archive
  compression := a.compression
  algorithms := a.algorithms

def missing (a : Assembler) (s : Submission) : List String :=
  a.specification.required.filter fun key => (s.value? key).isNone

def refusal? (a : Assembler) (s : Submission) : Option AssemblyError :=
  if s.files.isEmpty then some (.noFiles s.id)
  else
    match a.missing s with
    | [] => none
    | keys => some (.missingMetadata s.id keys)

def startNotice (a : Assembler) (s : Submission) : String :=
  "Assembling submission " ++ s.id ++ " (" ++ Text.decimal s.files.length ++ " files) as " ++
    a.specification.identifier ++ " [" ++ a.archive.value ++ "/" ++ a.compression.value ++ "]"

def finishNotice (s : Submission) (p : PackageStream) : String :=
  "Assembled " ++ p.metadata.name ++ " for submission " ++ s.id ++ ": " ++
    Text.decimal p.resources.length ++ " files, " ++ Text.decimalInt p.metadata.sizeBytes ++
    " bytes"

variable {m : Type → Type} [Host m]

/-- Composes the package of a placed submission into a new temporary file. -/
def build (a : Assembler) (s : Submission) (placed : List Placed) :
    m (Except AssemblyFailure PackageStream) := do
  match ← Host.createTemporary a.options.temporaryDirectory with
  | .error fault => return .error (.fault (.file fault))
  | .ok place =>
    let composed ← a.plan.compose s placed
    Host.notices .debug composed.notices
    match composed.outcome, ← Host.write place composed.sink.output with
    | .error failure, _ =>
      let _ ← Host.remove place
      return .error failure
    | .ok _, .error fault =>
      let _ ← Host.remove place
      return .error (.error (.package s.id (.file fault)))
    | .ok resources, .ok () =>
      let metadata := a.plan.describe s resources composed.sink
      let package : PackageStream := { place, metadata, resources, closed := false }
      Host.notice .info (finishNotice s package)
      return .ok package

def assemble (a : Assembler) (s : Submission) : m (Except AssemblyFailure PackageStream) := do
  match a.refusal? s with
  | some e => return .error (.error e)
  | none =>
    let outcome := Placement.run a.specification.policy s.placements
    Host.notices .info outcome.notices
    match outcome.table with
    | .error cause => return .error (.error (.unplaceable s.id cause))
    | .ok placed =>
      Host.notice .info (a.startNotice s)
      a.build s placed

end Assembler

end Deposit
