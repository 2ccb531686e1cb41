import Deposit.Disk.Fault
import Deposit.Json.Reader
import Deposit.Schema.Checked
import Deposit.Text.Utf8

set_option autoImplicit false
set_option relaxedAutoImplicit false

/-!
What can be wrong with the configuration of assemblers and repositories.
-/

namespace Deposit

/-- Why configuration cannot be used. -/
inductive ConfigurationError where
  | noAlgorithm
  | unsupportedAlgorithm (name : String)
  | unknownSpecification (identifier : String)
  | noAssembler
  | noTransport
  | noMapping (repository : String)
  | noRepository (repository : String)
  | unknownProcessor (name repository : String)
  | unreadable (path : String) (fault : FileFault)
  | malformed (path : String) (fault : Json.Fault) (text : List Char)
  | notObject (path : String)
  | invalid (path : String) (issues : List Schema.Issue)

namespace ConfigurationError

def message : ConfigurationError → String
  | noAlgorithm => "at least one checksum algorithm is required"
  | unsupportedAlgorithm name => "Unsupported checksum algorithm: " ++ name
  | unknownSpecification identifier => "Unknown packaging specification: " ++ identifier
  | noAssembler => "repository has no assembler configuration"
  | noTransport => "repository has no transport configuration"
  | noMapping repository => "No status mapping configured for repository " ++ repository
  | noRepository repository => "No configuration for repository " ++ repository
  | unknownProcessor name repository =>
    "Unknown status processor '" ++ name ++ "' for repository " ++ repository
  | unreadable path fault =>
    "Cannot read repository configuration " ++ path ++ ": " ++ fault.message
  | malformed path fault text =>
    "Cannot read repository configuration " ++ path ++ ": " ++ fault.message text
  | notObject path =>
    "Repository configuration " ++ path ++ " must be a JSON object keyed by repository name"
  | invalid path issues =>
    "Invalid repository configuration " ++ path ++ ": " ++
      Schema.summary "RepositoryConfig" issues

/-- The repository that the configuration is about, where one is named. -/
def repository? : ConfigurationError → Option String
  | noMapping repository => some repository
  | noRepository repository => some repository
  | unknownProcessor _ repository => some repository
  | _ => none

end ConfigurationError

end Deposit
