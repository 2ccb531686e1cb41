import Deposit.Schema.Record

set_option autoImplicit false
set_option relaxedAutoImplicit false

/-!
The protocol by which a repository is reached: the server, the credentials and the settings of the
protocol. Settings that are not known here are kept as they are for those who know them.
-/

namespace Deposit

/-- The settings of a protocol. -/
structure ProtocolBinding where
  protocol : String
  username : Option String
  password : Option String
  server : Option String
  port : Option String
  serviceDocument : Option String
  collection : Option String
  onBehalfOf : Option String
  receipt : Option Bool
  userAgent : Option String
  extras : List (String × Json)

namespace ProtocolBinding

/-- The names of the fields, as they are written and as they may be written instead. -/
def fieldNames : List (String × String) :=
  [("protocol", "protocol"), ("username", "username"), ("password", "password"),
   ("server-fqdn", "server_fqdn"), ("server-port", "server_port"),
   ("service-doc", "service_doc"), ("default-collection", "default_collection"),
   ("on-behalf-of", "on_behalf_of"), ("deposit-receipt", "deposit_receipt"),
   ("user-agent", "user_agent")]

def check : Json → Schema.Checked ProtocolBinding :=
  let given (outer inner : String) (m : List (String × Json)) : Schema.Checked (Option String) :=
    Schema.defaulted2 outer inner (Schema.optional Schema.text) none m
  Schema.record "ProtocolBinding" fun m =>
    ProtocolBinding.mk <$> Schema.required "protocol" Schema.text m
      <*> given "username" "username" m
      <*> given "password" "password" m
      <*> given "server-fqdn" "server_fqdn" m
      <*> given "server-port" "server_port" m
      <*> given "service-doc" "service_doc" m
      <*> given "default-collection" "default_collection" m
      <*> given "on-behalf-of" "on_behalf_of" m
      <*> Schema.defaulted2 "deposit-receipt" "deposit_receipt"
        (Schema.optional Schema.boolean) none m
      <*> given "user-agent" "user_agent" m
      <*> .ok (Schema.extras fieldNames m)

def toJson (b : ProtocolBinding) : Json :=
  .object
    ([("protocol", .text b.protocol),
      ("username", .ofText? b.username),
      ("password", .ofText? b.password),
      ("server-fqdn", .ofText? b.server),
      ("server-port", .ofText? b.port),
      ("service-doc", .ofText? b.serviceDocument),
      ("default-collection", .ofText? b.collection),
      ("on-behalf-of", .ofText? b.onBehalfOf),
      ("deposit-receipt", (b.receipt.map Json.bool).getD .null),
      ("user-agent", .ofText? b.userAgent)] ++ b.extras)

end ProtocolBinding

end Deposit
