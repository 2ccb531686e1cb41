import Deposit.Fetch
import Deposit.Host.Basic
import Deposit.Status.Statement

set_option autoImplicit false
set_option relaxedAutoImplicit false

/-!
Status documents: the statement that a document holds and the state that it reports, or why the
state cannot be read from it.
-/

namespace Deposit

/-- What is wrong with a status document. -/
inductive DocumentFault where
  | fetch (fault : FetchFault)
  | malformed
  | unexpectedRoot (name : String)
deriving DecidableEq, Repr

/-- How a fault of grammar is spoken of in the message around it. -/
def grammarPlaceholder : String := "<XMLSyntaxError>"

def DocumentFault.message : DocumentFault → String
  | fetch fault => fault.message
  | malformed => grammarPlaceholder
  | unexpectedRoot name => "expected an Atom feed, found " ++ name

/-- The message for a status document that cannot be read, with the reason, if there is one. -/
def statusMessage (document : String) (reason : Option String) : String :=
  "Unable to parse status document " ++ document ++
    (match reason with
     | some reason => ": " ++ reason
     | none => "")

/-- A status document that cannot be read. -/
structure StatusError where
  document : String
  cause : DocumentFault
deriving DecidableEq, Repr

def StatusError.message (e : StatusError) : String :=
  statusMessage e.document (some e.cause.message)

abbrev Fetcher (m : Type → Type) := String → m (Except FetchFault Bytes)

namespace StatusDocument

variable (decoder : Xml.Decoder)

def statement (bytes : Bytes) : Except DocumentFault Xml.Node :=
  match decoder.root? bytes with
  | none => .error .malformed
  | some root =>
    if Statement.isStatement root then .ok root
    else .error (.unexpectedRoot ((root.name?.map Xml.Name.expanded).getD ""))

/-- The statement of a document, from what fetching it yields. -/
def ofFetched (document : String) (fetched : Except FetchFault Bytes) :
    Except StatusError Xml.Node :=
  ((fetched.mapError .fetch).bind (statement decoder)).mapError (StatusError.mk document)

/-- How a state is spoken of in notices to those who watch the program. -/
def shownState : Option SwordState → String
  | some s => "SwordState." ++ s.label
  | none => "None"

/-- Reads the state out of what fetching a document yields, with a notice for every report of no
known state. -/
def readFetched {m : Type → Type} [Host m] (document : String)
    (fetched : Except FetchFault Bytes) : m (Except StatusError (Option SwordState)) :=
  match ofFetched decoder document fetched with
  | .error e => pure (.error e)
  | .ok root => do
    Host.notices .warning (Statement.notices root)
    let state := Statement.state? root
    Host.notice .debug ("Status document " ++ document ++ " reports state " ++ shownState state)
    pure (.ok state)

/-- Fetches a document and reads the state that it reports. -/
def read {m : Type → Type} [Host m] (fetch : Fetcher m) (document : String) :
    m (Except StatusError (Option SwordState)) := do
  readFetched decoder document (← fetch document)

end StatusDocument

end Deposit
