import Deposit.Disk.Location
import Deposit.Submission.Basic
import Deposit.Text.Blank
import Deposit.Text.Utf8

set_option autoImplicit false
set_option relaxedAutoImplicit false

/-!
What the library asks of its surroundings: files, content and notices. Everything that has an effect
goes through these operations, so that the same program runs on a machine and on a file system held
as a value. Notices tell what is being done, by how much attention they deserve. Files of text are
stored as UTF-8, and a line of them ends in whichever of the usual ways.

What else the library relies on, without doing it itself, is each in modules of its own, and nothing
more is assumed of it than is said there.

* Documents are read by an `Xml.Decoder`, of which only the kind of root is known. `Xml.decoder` is
the one of the program, for the character sets of `Text.Charset` and nesting to `Xml.depthLimit`;
`Xml.document` prints trees. * Data is checked by `Schema`, in the order of its fields, which
collects everything that is wrong. * `Http.Network` exchanges one message at a time. How addresses
are put together, which redirects are followed and what a session adds to a request is in
`Http.Address`, `Http.Redirect` and `Http.Session`. * A `Digest.Library` knows algorithms beyond the
guaranteed ones. Deflated data is inflated by whatever undoes it (`Codec.Deflate.UndoneBy`). * A
time may be refused for waiting (`Http.WaitFault`), and a directory for use (`Disk.forbids`).
-/

namespace Deposit

/-- How much attention a notice deserves. -/
inductive Level where
  | debug
  | info
  | warning
  | error
deriving DecidableEq, Repr

def Level.name : Level → String
  | debug => "DEBUG"
  | info => "INFO"
  | warning => "WARNING"
  | error => "ERROR"

/-- A notice. -/
structure Notice where
  level : Level
  text : String
deriving DecidableEq, Repr

/-- Files, content and notices in a monad. -/
class Host (m : Type → Type) extends Monad m where
  notice : Level → String → m Unit
  openContent : ContentFile → m (Except Fault Source)
  read : Location → m (Except FileFault Bytes)
  size : Location → m (Except FileFault Nat)
  holds : Location → m (Except FileFault Bool)
  resolve : Location → m (Except FileFault Location)
  write : Location → Bytes → m (Except FileFault Unit)
  makeDirectories : Location → m (Except FileFault Unit)
  createTemporary : Option Location → m (Except FileFault Location)
  remove : Location → m (Except FileFault Unit)

namespace Host

variable {m : Type → Type} [Host m]

def notices (level : Level) : List String → m Unit
  | [] => pure ()
  | text :: rest => do
    Host.notice level text
    notices level rest

end Host

/-- Why a file of text cannot be read. -/
inductive TextFault where
  | file (fault : FileFault)
  | malformed (m : Text.Utf8.Malformed)

def TextFault.message : TextFault → String
  | file fault => fault.message
  | malformed m => m.message

def textOfBytes (bytes : Bytes) : Except TextFault (List Char) :=
  match Text.Utf8.decode bytes with
  | .ok s => .ok (Text.unifyLineEnds s.toList)
  | .error m => .error (.malformed m)

def Host.readText {m : Type → Type} [Host m] (l : Location) : m (Except TextFault (List Char)) := do
  match ← Host.read l with
  | .error fault => pure (.error (.file fault))
  | .ok bytes => pure (textOfBytes bytes)

end Deposit
