import Deposit.Assembly.Assembler
import Deposit.Configuration
import Deposit.Repository.Basic
import Deposit.Specification.Registry

set_option autoImplicit false
set_option relaxedAutoImplicit false

/-!
What packages for a repository need: the assembler that its configuration describes, and hints for
the layer that carries packages there, a flat table of texts under names which that layer knows.
Only settings that are given become hints.
-/

namespace Deposit

/-- The assembler that makes packages for a repository, if its configuration says how. -/
def Repository.assembler (r : Repository) (temporaryDirectory : Option Location) :
    Except ConfigurationError Assembler := do
  let some settings := r.packaging | throw .noAssembler
  let some specification := Specification.ofIdentifier? settings.specification
    | throw (.unknownSpecification settings.specification)
  Assembler.create specification
    { archive := settings.archive, compression := settings.compression, temporaryDirectory }

def hintStem : String := "deposit.transport.protocol.swordv2."

def textHint (name : String) : Option String → List (String × String)
  | some s => if s = "" then [] else [(hintStem ++ name, s)]
  | none => []

def truthText (b : Bool) : String :=
  if b then "true" else "false"

def ProtocolBinding.hints (b : ProtocolBinding) : List (String × String) :=
  textHint "service-doc" b.serviceDocument ++
    textHint "target-collection" b.collection ++
    textHint "on-behalf-of" b.onBehalfOf ++
    textHint "deposit-receipt" (b.receipt.map truthText) ++
    textHint "user-agent-string" b.userAgent

def Repository.hints (r : Repository) : Except ConfigurationError (List (String × String)) :=
  match r.binding? with
  | some b => .ok b.hints
  | none => .error .noTransport

end Deposit
