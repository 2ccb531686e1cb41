import Deposit.Text.Quoted
import Deposit.Disk.Fault

set_option autoImplicit false
set_option relaxedAutoImplicit false

/-!
Options on a command line, the ways in which a command line is misused, and what becomes of a
command: it prints something, it fails after a notice of the error, or it is not even begun.
-/

namespace Deposit.CommandLine

/-- What an option does: it asks for help, it is either there or not, or it has a value, which may
have to be one of a few. -/
inductive OptionKind where
  | help
  | flag
  | value (choices : Option (List String))
deriving DecidableEq, Repr

/-- An option with the names it may be written by. -/
structure CommandOption where
  names : List String
  kind : OptionKind
  isRequired : Bool
deriving DecidableEq, Repr

namespace CommandOption

def title (o : CommandOption) : String :=
  "/".intercalate o.names

def hasValue (o : CommandOption) : Bool :=
  match o.kind with
  | .value _ => true
  | _ => false

def help : CommandOption := ⟨["-h", "--help"], .help, false⟩

def withValue (name : String) (choices : Option (List String)) (isRequired : Bool) :
    CommandOption :=
  ⟨[name], .value choices, isRequired⟩

end CommandOption

/-- How a command line is misused. -/
inductive Misuse where
  | ambiguous (written : String) (names : List String)
  | unusedValue (option value : String)
  | valueExpected (option : String)
  | notAChoice (option value : String) (choices : List String)
  | missing (options : List String)
  | unrecognized (arguments : List String)
deriving DecidableEq, Repr

def Misuse.message : Misuse → String
  | ambiguous written names =>
    "ambiguous option: " ++ written ++ " could match " ++ ", ".intercalate names
  | unusedValue option value =>
    "argument " ++ option ++ ": ignored explicit argument " ++ Text.quoted value
  | valueExpected option => "argument " ++ option ++ ": expected one argument"
  | notAChoice option value choices =>
    "argument " ++ option ++ ": invalid choice: " ++ Text.quoted value ++ " (choose from " ++
      ", ".intercalate (choices.map Text.quoted) ++ ")"
  | missing options => "the following arguments are required: " ++ ", ".intercalate options
  | unrecognized arguments => "unrecognized arguments: " ++ " ".intercalate arguments

/-- What becomes of a command. -/
inductive Outcome where
  | done (output : String)
  | failed
  | misused (program : String) (m : Misuse)
  | fault (fault : FileFault)

namespace Outcome

def output : Outcome → String
  | done output => output
  | _ => ""

def exitStatus : Outcome → Nat
  | done _ => 0
  | failed => 1
  | misused _ _ => 2
  | fault _ => 1

def complaint? : Outcome → Option String
  | misused program m => some (program ++ ": error: " ++ m.message)
  | fault f => some f.message
  | _ => none

end Outcome

end Deposit.CommandLine
