import Deposit.CommandLine.Token

set_option autoImplicit false
set_option relaxedAutoImplicit false

/-!
Reading the options of a command. Options count in the order in which they are written: the first
one that asks for help is answered, the first misuse is reported, and of several values the last one
stays.
-/

namespace Deposit.CommandLine

/-- What ends the reading of a command line before anything is done. -/
inductive Stop where
  | help
  | misuse (m : Misuse)
deriving DecidableEq, Repr

/-- The options that have been read, the latest first, and the arguments that were none. -/
structure Reading where
  given : List (CommandOption × String)
  extras : List String
deriving DecidableEq, Repr

namespace Reading

def start : Reading := ⟨[], []⟩

def has (r : Reading) (o : CommandOption) : Bool :=
  (r.given.lookup o).isSome

def value? (r : Reading) (name : String) : Option String :=
  (r.given.find? fun g => g.1.names.contains name).map Prod.snd

def take (r : Reading) (o : CommandOption) (value : String) : Except Stop Reading :=
  match o.kind with
  | .help => .error .help
  | .flag => .ok { r with given := (o, value) :: r.given }
  | .value none => .ok { r with given := (o, value) :: r.given }
  | .value (some choices) =>
    if choices.contains value then .ok { r with given := (o, value) :: r.given }
    else .error (.misuse (.notAChoice o.title value choices))

def skip (r : Reading) (texts : List String) : Reading :=
  { r with extras := r.extras ++ texts }

def takeFlags (r : Reading) : List CommandOption → Except Stop Reading
  | [] => .ok r
  | o :: os => do takeFlags (← r.take o "") os

end Reading

/-- The refusal of what is written right behind the name of an option that has no value. -/
def unusedValue (o : CommandOption) (cs : List Char) : Misuse :=
  .unusedValue o.title (String.ofList cs)

/-- The options that one option and the text written right behind its name stand for, all of them
without values but possibly the last, with the value of that one. -/
def unjoin (options : List CommandOption) (o : CommandOption) (isShort : Bool) :
    List Char → Except Misuse (List CommandOption × Option (CommandOption × String))
  | [] => if o.hasValue then .ok ([], some (o, "")) else .error (unusedValue o [])
  | c :: rest =>
    if o.hasValue then .ok ([], some (o, String.ofList (c :: rest)))
    else
      match isShort, named? options (String.ofList ['-', c]) with
      | true, some next =>
        if !rest.isEmpty then
          (unjoin options next true rest).map fun found => (o :: found.1, found.2)
        else if next.hasValue then .error (.valueExpected next.title)
        else .ok ([o, next], none)
      | _, _ => .error (unusedValue o (c :: rest))

def isShortName (name : String) : Bool :=
  !("--".toList.isPrefixOf name.toList)

/-- Reads an option with what is written right behind its name. -/
def Reading.takeJoined (r : Reading) (options : List CommandOption) (o : CommandOption)
    (name value : String) : Except Stop Reading := do
  let (flags, last) ← (unjoin options o (isShortName name) value.toList).mapError .misuse
  let r ← r.takeFlags flags
  match last with
  | some (o, value) => r.take o value
  | none => pure r

/-- Reads options up to the first operand, or to the end if operands are skipped; the rest begins
with that operand. -/
def Reading.run (options : List CommandOption) (skipsOperands : Bool) (r : Reading) :
    List Token → Except Stop (Reading × List Token)
  | [] => .ok (r, [])
  | .unknown text :: ts => run options skipsOperands (r.skip [text]) ts
  | .operand text :: ts =>
    if skipsOperands then run options skipsOperands (r.skip [text]) ts
    else .ok (r, .operand text :: ts)
  | .mark :: ts =>
    if skipsOperands || ts.isEmpty then run options skipsOperands (r.skip [Token.mark.text]) ts
    else .ok (r, .mark :: ts)
  | .option o name (some value) :: ts => do
    run options skipsOperands (← r.takeJoined options o name value) ts
  | .option o _ none :: ts =>
    if o.hasValue then
      match ts with
      | .operand value :: ts => do run options skipsOperands (← r.take o value) ts
      | _ => .error (.misuse (.valueExpected o.title))
    else do run options skipsOperands (← r.take o "") ts

def Reading.lacking (r : Reading) (options : List CommandOption) : List String :=
  (options.filter fun o => o.isRequired && !r.has o).map CommandOption.title

/-- Reads the arguments of a command that has options only. -/
def readOptions (options : List CommandOption) (arguments : List String) :
    Except Stop Reading := do
  let ts ← (tokens options arguments).mapError .misuse
  let (r, _) ← Reading.start.run options true ts
  match r.lacking options with
  | [] => pure r
  | names => throw (.misuse (.missing names))

end Deposit.CommandLine
