import Deposit.Package.Format
import Deposit.Repository.Binding
import Deposit.Status.Mapping

set_option autoImplicit false
set_option relaxedAutoImplicit false

/-!
The configuration of a target repository: how the status of its deposits is found out, how packages
for it are made, and how it is reached.
-/

namespace Deposit

/-- How the status of deposits is found out: the name of the processor that does it, and the table
it uses. -/
structure StatusSettings where
  processor : String
  mapping : StatusMapping

/-- How packages are made: the specification, and what is to differ from it. -/
structure PackagingSettings where
  specification : String
  archive : Option ArchiveFormat
  compression : Option Compression

/-- How a repository is reached. -/
structure TransportSettings where
  binding : ProtocolBinding
  extras : List (String × Json)

/-- The configuration of a repository. -/
structure Repository where
  status : StatusSettings
  packaging : Option PackagingSettings
  transport : Option TransportSettings
  extras : List (String × Json)

abbrev Repositories := List (String × Repository)

namespace StatusSettings

def check : Json → Schema.Checked StatusSettings :=
  Schema.record "DepositConfig" fun m =>
    StatusSettings.mk <$> Schema.defaulted "processor" Schema.text "sword-dspace" m
      <*> Schema.required "mapping" StatusMapping.check m

/-- How the status is found out, as data. -/
def toJson (s : StatusSettings) : Json :=
  .object [("processor", .text s.processor), ("mapping", s.mapping.toJson)]

end StatusSettings

namespace PackagingSettings

def check : Json → Schema.Checked PackagingSettings :=
  Schema.record "AssemblerConfig" fun m =>
    PackagingSettings.mk <$> Schema.required "specification" Schema.text m
      <*> Schema.defaulted "archive" (Schema.optional (Schema.member ArchiveFormat)) none m
      <*> Schema.defaulted "compression" (Schema.optional (Schema.member Compression)) none m

/-- How packages are made, as data. -/
def toJson (p : PackagingSettings) : Json :=
  .object
    [("specification", .text p.specification),
     ("archive", .ofText? (p.archive.map ArchiveFormat.value)),
     ("compression", .ofText? (p.compression.map Compression.value))]

end PackagingSettings

namespace TransportSettings

def check : Json → Schema.Checked TransportSettings :=
  Schema.record "TransportConfig" fun m =>
    TransportSettings.mk
      <$> Schema.required2 "protocol-binding" "protocol_binding" ProtocolBinding.check m
      <*> .ok (Schema.extras [("protocol-binding", "protocol_binding")] m)

/-- How a repository is reached, as data. -/
def toJson (t : TransportSettings) : Json :=
  .object (("protocol-binding", t.binding.toJson) :: t.extras)

end TransportSettings

namespace Repository

/-- The names of the fields, as they are written and as they may be written instead. -/
def fieldNames : List (String × String) :=
  [("deposit-config", "deposit_config"), ("assembler", "assembler"),
   ("transport-config", "transport_config")]

def check : Json → Schema.Checked Repository :=
  Schema.record "RepositoryConfig" fun m =>
    Repository.mk
      <$> Schema.required2 "deposit-config" "deposit_config" StatusSettings.check m
      <*> Schema.defaulted "assembler" (Schema.optional PackagingSettings.check) none m
      <*> Schema.defaulted2 "transport-config" "transport_config"
        (Schema.optional TransportSettings.check) none m
      <*> .ok (Schema.extras fieldNames m)

def toJson (r : Repository) : Json :=
  .object
    ([("deposit-config", r.status.toJson),
      ("assembler", (r.packaging.map PackagingSettings.toJson).getD .null),
      ("transport-config", (r.transport.map TransportSettings.toJson).getD .null)] ++ r.extras)

/-- The protocol by which a repository is reached, if there is one. -/
def binding? (r : Repository) : Option ProtocolBinding :=
  r.transport.map TransportSettings.binding

end Repository

namespace Repositories

/-- Checks configurations one after the other, up to the first that has issues. -/
def check : List (String × Json) → Schema.Checked Repositories
  | [] => .ok []
  | (name, j) :: rest =>
    (Repository.check j).andThen fun r => (check rest).map fun rs => (name, r) :: rs

def find? (rs : Repositories) (name : String) : Option Repository :=
  rs.lookup name

end Repositories

end Deposit
