import Deposit.CommandLine.Option

set_option autoImplicit false
set_option relaxedAutoImplicit false

/-!
Arguments told apart: operands, options with what is written behind them, the mark after which there
are only operands, and what looks like an option but is none. A long option may be cut short as long
as it stays unambiguous, and short ones may be joined.
-/

namespace Deposit.CommandLine

/-- An argument, told apart. -/
inductive Token where
  | operand (text : String)
  | mark
  | unknown (text : String)
  | option (o : CommandOption) (name : String) (value : Option String)
deriving DecidableEq, Repr

/-- The text of the argument that has no meaning as an option. -/
def Token.text : Token → String
  | operand text => text
  | mark => "--"
  | unknown text => text
  | option _ name _ => name

def named? (options : List CommandOption) (name : String) : Option CommandOption :=
  options.find? fun o => o.names.contains name

def allNames (options : List CommandOption) : List (String × CommandOption) :=
  options.flatMap fun o => o.names.map fun name => (name, o)

def splitValue (cs : List Char) : List Char × Option (List Char) :=
  match cs.dropWhile (· ≠ '=') with
  | _ :: value => (cs.takeWhile (· ≠ '='), some value)
  | [] => (cs, none)

def candidates (options : List CommandOption) (cs : List Char) : List Token :=
  let startsWith (stem : List Char) (name : String) : Bool := stem.isPrefixOf name.toList
  match cs with
  | '-' :: '-' :: _ =>
    let (stem, value) := splitValue cs
    ((allNames options).filter fun n => startsWith stem n.1).map fun n =>
      .option n.2 n.1 (value.map String.ofList)
  | '-' :: c :: rest =>
    (allNames options).filterMap fun n =>
      if n.1.toList = ['-', c] then some (.option n.2 n.1 (some (String.ofList rest)))
      else if startsWith cs n.1 then some (.option n.2 n.1 none)
      else none
  | _ => []

def isNegativeNumber (cs : List Char) : Bool :=
  match cs with
  | '-' :: rest =>
    let tail := rest.dropWhile Char.isDigit
    match tail with
    | [] => !rest.isEmpty
    | '.' :: fraction => !fraction.isEmpty && fraction.all Char.isDigit
    | _ => false
  | _ => false

/-- What an argument is that begins with a hyphen and is no full name of an option. -/
def hyphenated (options : List CommandOption) (text : String) : Except Misuse Token :=
  let cs := text.toList
  let assigned? : Option Token :=
    match splitValue cs with
    | (name, some value) =>
      (named? options (String.ofList name)).map fun o =>
        .option o (String.ofList name) (some (String.ofList value))
    | _ => none
  match assigned?, candidates options cs with
  | some t, _ => .ok t
  | none, [t] => .ok t
  | none, [] =>
    .ok (if isNegativeNumber cs || cs.contains ' ' then .operand text else .unknown text)
  | none, ts => .error (.ambiguous text (ts.map Token.text))

def tokenOf (options : List CommandOption) (text : String) : Except Misuse Token :=
  match text.toList with
  | '-' :: _ :: _ =>
    match named? options text with
    | some o => .ok (.option o text none)
    | none => hyphenated options text
  | _ => .ok (.operand text)

def tokens (options : List CommandOption) : List String → Except Misuse (List Token)
  | [] => .ok []
  | text :: rest =>
    if text = "--" then .ok (.mark :: rest.map .operand)
    else do
      let t ← tokenOf options text
      let ts ← tokens options rest
      pure (t :: ts)

end Deposit.CommandLine
