import Deposit.Json.Value
import Deposit.Text.Digits
import Deposit.Vocabulary

set_option autoImplicit false
set_option relaxedAutoImplicit false

/-!
Checking data against a schema. A check either yields a value or the list of all issues found, each
at the place where it was found; checks of independent parts run side by side and their issues are
joined in order. Data that was given as text is spoken of in the terms of text.
-/

namespace Deposit.Schema

/-- A step towards a part of a value. -/
inductive Step where
  | name (s : String)
  | index (n : Nat)
deriving DecidableEq, Repr

/-- The kinds of issue. -/
inductive IssueKind where
  | missing
  | string
  | record (title : String)
  | dictionary
  | list
  | member (choices : List String)
  | boolParsing
  | bool
  | intFromFloat
  | intParsing
  | intSize
  | int
  | finite
  | rule (text : String)
  | syntaxFault
deriving DecidableEq, Repr

/-- An issue and the steps to its place. -/
structure Issue where
  kind : IssueKind
  place : List Step
deriving DecidableEq, Repr

/-- Whether data was given as values or as text. -/
inductive Form where
  | value
  | text
deriving DecidableEq, Repr

def IssueKind.name : IssueKind → String
  | missing => "missing"
  | string => "string_type"
  | record _ => "model_type"
  | dictionary => "dict_type"
  | list => "list_type"
  | member _ => "enum"
  | boolParsing => "bool_parsing"
  | bool => "bool_type"
  | intFromFloat => "int_from_float"
  | intParsing => "int_parsing"
  | intSize => "int_parsing_size"
  | int => "int_type"
  | finite => "finite_number"
  | rule _ => "value_error"
  | syntaxFault => "json_invalid"

/-- Choices in words: quoted, with commas, the last after `or`. -/
def choicesText : List String → String
  | [] => ""
  | [a] => "'" ++ a ++ "'"
  | [a, b] => "'" ++ a ++ "' or '" ++ b ++ "'"
  | a :: rest => "'" ++ a ++ "', " ++ choicesText rest

/-- The words for a kind of issue; a fault in the text itself has none. -/
def IssueKind.text? (form : Form) : IssueKind → Option String
  | missing => some "Field required"
  | string => some "Input should be a valid string"
  | record title =>
    match form with
    | .value => some ("Input should be a valid dictionary or instance of " ++ title)
    | .text => some "Input should be an object"
  | dictionary =>
    match form with
    | .value => some "Input should be a valid dictionary"
    | .text => some "Input should be an object"
  | list =>
    match form with
    | .value => some "Input should be a valid list"
    | .text => some "Input should be a valid array"
  | member choices => some ("Input should be " ++ choicesText choices)
  | boolParsing => some "Input should be a valid boolean, unable to interpret input"
  | bool => some "Input should be a valid boolean"
  | intFromFloat =>
    some "Input should be a valid integer, got a number with a fractional part"
  | intParsing =>
    some "Input should be a valid integer, unable to parse string as an integer"
  | intSize => some "Unable to parse input string as an integer, exceeded maximum size"
  | int => some "Input should be a valid integer"
  | finite => some "Input should be a finite number"
  | rule text => some ("Value error, " ++ text)
  | syntaxFault => none

/-- A value, or the issues that prevent it. -/
inductive Checked (α : Type) where
  | ok (a : α)
  | issues (is : List Issue)

namespace Checked

variable {α β : Type}

def map (f : α → β) : Checked α → Checked β
  | ok a => ok (f a)
  | issues is => issues is

def seq (f : Checked (α → β)) (a : Unit → Checked α) : Checked β :=
  match f, a () with
  | ok f, ok a => ok (f a)
  | ok _, issues is => issues is
  | issues is, ok _ => issues is
  | issues is, issues js => issues (is ++ js)

instance : Applicative Checked where
  pure := ok
  map := map
  seq := seq

def andThen (a : Checked α) (f : α → Checked β) : Checked β :=
  match a with
  | ok a => f a
  | issues is => issues is

/-- The verdict about a part, with its place. -/
def within (step : Step) : Checked α → Checked α
  | ok a => ok a
  | issues is => issues (is.map fun i => { i with place := step :: i.place })

def fail (kind : IssueKind) : Checked α :=
  issues [⟨kind, []⟩]

def all : List (Checked α) → Checked (List α)
  | [] => ok []
  | c :: cs => List.cons <$> c <*> all cs

end Checked

/-- How issues are spoken of in messages, which give their number and no more. -/
def placeholder : String := "<ValidationError>"

def summary (title : String) (is : List Issue) : String :=
  Text.decimal is.length ++ (if is.length = 1 then " validation error for " else
    " validation errors for ") ++ title ++ " " ++ placeholder

end Deposit.Schema
