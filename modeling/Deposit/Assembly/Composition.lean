import Deposit.Assembly.Error
import Deposit.Assembly.Pipeline
import Deposit.Host.Basic
import Deposit.Specification.Basic
import Deposit.Text.Blank

set_option autoImplicit false
set_option relaxedAutoImplicit false

/-!
Composing a package. Content files are opened and written into the archive in the order of the
submission, each under its place, and then the files that the specification adds; what has been
written is described as it is written. Whether or not that goes well, the layers of the package are
closed in the end, and the package is described by what the last of them has counted.
-/

namespace Deposit

/-- How a submission is to be packaged. -/
structure PackagingPlan where
  specification : Specification
  archive : ArchiveFormat
  compression : Compression
  algorithms : List Digest.Algorithm

/-- What asking for the digests of a file fails with: some algorithms give none unless a length is
asked for. -/
def PackagingPlan.digestFault? (plan : PackagingPlan) : Option Fault :=
  if plan.algorithms.any Digest.Algorithm.isExtendable then
    some (.reported .mistyped
      ("hexdigest() missing required argument " ++ Text.quoted "length" ++ " (pos 1)"))
  else none

/-- What has been composed so far. -/
structure Composition where
  pipeline : Pipeline
  resources : List Resource
  notices : List String

/-- How composing a package ended: the notices on the way, what has been written, and the
descriptions of its files if all went well. -/
structure Composed where
  notices : List String
  sink : Recorder
  outcome : Except AssemblyFailure (List Resource)

namespace Composition

def start (plan : PackagingPlan) : Composition :=
  ⟨.start plan.archive plan.compression plan.algorithms, [], []⟩

/-- What a fault about a content file makes of the assembly. -/
def contentFailure (submission file : String) (fault : Fault) : AssemblyFailure :=
  match fault.family with
  | .other => .fault fault
  | _ => .error (.content submission file fault)

/-- What a fault while an added file is written makes of the assembly. -/
def generatedFailure (submission path : String) (fault : Fault) : AssemblyFailure :=
  match fault.family with
  | .value => .error (.generated submission path fault)
  | .system => .error (.package submission fault)
  | .other => .fault fault

/-- What a fault makes of the assembly that arises while files are generated or described, or the
package is closed. -/
def packageFailure (submission : String) (fault : Fault) : AssemblyFailure :=
  match fault.family with
  | .system => .error (.package submission fault)
  | _ => .fault fault

/-- The description of a content file from what was read of it. -/
def contentResource (file : ContentFile) (path : String) (reader : Reader) : Resource where
  originalName := if file.name = "" then path else file.name
  packagePath := path
  role := some file.role
  sizeBytes := reader.count
  checksums := reader.digests
  mediaType := MediaType.ofPath path

/-- The description of an added file from what was read of it. -/
def generatedResource (path : String) (content : Bytes) (reader : Reader) : Resource where
  originalName := path
  packagePath := path
  role := none
  sizeBytes := content.length
  checksums := reader.digests
  mediaType := MediaType.ofPath path

/-- Writes a content file, as opening it has turned out. -/
def addContent (plan : PackagingPlan) (submission : String) (c : Composition) (file : ContentFile)
    (path : String) (opened : Except Fault Source) : Composition × Option AssemblyFailure :=
  match opened with
  | .error fault => (c, some (contentFailure submission file.name fault))
  | .ok source =>
    let added := c.pipeline.add path (.start plan.algorithms source.open) file.size
    let c := { c with pipeline := added.writer }
    match added.fault with
    | some fault => (c, some (contentFailure submission file.name fault))
    | none =>
      let notice := "Wrote " ++ file.name ++ " as " ++ path ++ " (" ++
        Text.decimal added.reader.count ++ " bytes)"
      let c := { c with notices := c.notices ++ [notice] }
      match plan.digestFault? with
      | some fault => (c, some (packageFailure submission fault))
      | none =>
        ({ c with resources := c.resources ++ [contentResource file path added.reader] }, none)

/-- Writes an added file, unless its path is taken. -/
def addGenerated (plan : PackagingPlan) (submission : String) (c : Composition)
    (path : String) (content : Bytes) : Composition × Option AssemblyFailure :=
  if c.resources.any fun r => r.packagePath == path then
    (c, some (.error (.collision submission path)))
  else
    let reader := Reader.start plan.algorithms (Source.ofBytes content).open
    let added := c.pipeline.add path reader (some content.length)
    let c := { c with pipeline := added.writer }
    match added.fault with
    | some fault => (c, some (generatedFailure submission path fault))
    | none =>
      let notice :=
        "Wrote generated file " ++ path ++ " (" ++ Text.decimal content.length ++ " bytes)"
      let c := { c with notices := c.notices ++ [notice] }
      match plan.digestFault? with
      | some fault => (c, some (packageFailure submission fault))
      | none =>
        ({ c with resources := c.resources ++ [generatedResource path content added.reader] }, none)

def addAllGenerated (plan : PackagingPlan) (submission : String) :
    Composition → List (String × Bytes) → Composition × Option AssemblyFailure
  | c, [] => (c, none)
  | c, (path, content) :: rest =>
    match addGenerated plan submission c path content with
    | (c, some failure) => (c, some failure)
    | (c, none) => addAllGenerated plan submission c rest

/-- Writes the files that the specification adds to the content files. -/
def addSupplement (plan : PackagingPlan) (s : Submission) (c : Composition) :
    Composition × Option AssemblyFailure :=
  match plan.specification.generate s c.resources with
  | .error fault => (c, some (packageFailure s.id fault))
  | .ok generated =>
    addAllGenerated plan s.id { c with notices := c.notices ++ generated.notices } generated.files

variable {m : Type → Type} [Host m]

/-- Opens and writes content files one after the other, each under its path. -/
def addContents (plan : PackagingPlan) (submission : String) :
    Composition → List (ContentFile × String) → m (Composition × Option AssemblyFailure)
  | c, [] => pure (c, none)
  | c, (file, path) :: rest => do
    match addContent plan submission c file path (← Host.openContent file) with
    | (c, some failure) => pure (c, some failure)
    | (c, none) => addContents plan submission c rest

/-- Writes all files of a submission, placed as the list says, and those that are added. -/
def run (plan : PackagingPlan) (s : Submission) (placed : List Placed) :
    m (Composition × Option AssemblyFailure) := do
  match ← addContents plan s.id (start plan) (s.files.zip (placed.map Placed.path)) with
  | (c, some failure) => pure (c, some failure)
  | (c, none) => pure (addSupplement plan s c)

/-- Closes the layers of the package, also after a failure. A fault of closing counts before that
failure. -/
def conclude (submission : String) (c : Composition) (failure : Option AssemblyFailure) :
    Composed where
  notices := c.notices
  sink := c.pipeline.close.sink
  outcome :=
    match c.pipeline.writer.closeFault?, failure with
    | some fault, _ => .error (packageFailure submission fault)
    | none, some failure => .error failure
    | none, none => .ok c.resources

end Composition

/-- Whether a character stays as it is in the name of a package. -/
def isNameChar (c : Char) : Bool :=
  c.isAlphanum || c = '.' || c = '_' || c = '-'

/-- A text with every stretch of other characters replaced by one underscore; `inside` such a
stretch. -/
def replaceStretches (inside : Bool) : List Char → List Char
  | [] => []
  | c :: cs =>
    if isNameChar c then c :: replaceStretches false cs
    else if inside then replaceStretches true cs
    else '_' :: replaceStretches true cs

/-- The name of a package after the identifier of a submission. -/
def nameOfIdentifier (id : String) : String :=
  let name := Text.stripWhere (· = '_') (replaceStretches false id.toList)
  if name = [] then "package" else String.ofList name

/-- The name of a package before its extensions. A single file keeps the last segment of its
path. -/
def packageBaseName (archive : ArchiveFormat) (id : String) (resources : List Resource) : String :=
  match archive, resources with
  | .none, r :: _ => PackagePath.baseName r.packagePath
  | _, _ => nameOfIdentifier id

namespace PackagingPlan

def compose {m : Type → Type} [Host m] (plan : PackagingPlan) (s : Submission)
    (placed : List Placed) : m Composed := do
  let (c, failure) ← Composition.run plan s placed
  pure (c.conclude s.id failure)

/-- The description of a package with the given files, from all that has been written of it. -/
def describe (plan : PackagingPlan) (s : Submission) (resources : List Resource)
    (sink : Recorder) : PackageMetadata where
  name :=
    packageFileName (packageBaseName plan.archive s.id resources) plan.archive plan.compression
  specification := plan.specification.identifier
  archive := plan.archive
  compression := plan.compression
  sizeBytes := sink.tally.count
  checksums := sink.tally.digests
  mediaType := packageMediaType plan.archive plan.compression

end PackagingPlan

end Deposit
