import Deposit.Archive.Tar.Reader
import Deposit.Archive.Tar.Writer
import Deposit.Archive.Zip.Reader
import Deposit.Archive.Zip.Writer
import Deposit.Package.Format

set_option autoImplicit false
set_option relaxedAutoImplicit false

/-!
Archives of every format behind one interface: entries are added one after the other, then the end
is written, and what was written is read back.
-/

namespace Deposit.Archive

/-- A writer of one of the formats. -/
inductive Writer where
  | raw (w : Raw.Writer)
  | tar (w : Tar.Writer)
  | zip (w : Zip.Writer)

namespace Writer

/-- A writer with a stream before it as it is. Only a zip archive asks the stream for more than to
take bytes in. -/
def onto : ArchiveFormat → Sink → Writer
  | .none, _ => .raw .empty
  | .tar, _ => .tar .empty
  | .zip, sink => .zip (.start sink)

/-- A writer over a stream of which it sees nothing but that bytes go in. -/
def above (format : ArchiveFormat) (sink : Sink) : Writer :=
  onto format (.writeOnly sink)

/-- A writer of what is kept as it is. -/
def start (format : ArchiveFormat) : Writer :=
  above format .recorder

/-- Adds an entry with a path, content, and a size if it is known. -/
def add (w : Writer) (path : String) (reader : Reader) (size : Option Int) : Added Writer :=
  match w with
  | raw w => (w.add path reader size).map raw
  | tar w => (w.add path reader size).map tar
  | zip w => (w.add path reader size).map zip

def closeFault? : Writer → Option Fault
  | raw _ => none
  | tar _ => none
  | zip w => w.closeFault?

def close : Writer → Writer
  | raw w => raw w
  | tar w => tar w.close
  | zip w => zip w.close

def written : Writer → Bytes
  | raw w => w.output.toList
  | tar w => w.written
  | zip w => w.output.toList

end Writer

/-- The entries of an archive in their order: a name, where the format has one, and the content. -/
def read? : ArchiveFormat → Bytes → Option (List (Option String × Bytes))
  | .none, bs => some [(none, bs)]
  | .tar, bs => (Tar.read? bs).map (·.map fun m => (some m.name, m.content))
  | .zip, bs => (Zip.read? bs).map (·.map fun m => (some m.name, m.content))

end Deposit.Archive
