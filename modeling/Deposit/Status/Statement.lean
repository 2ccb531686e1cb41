import Deposit.Status.State
import Deposit.Text.Blank
import Deposit.Xml.Tree

set_option autoImplicit false
set_option relaxedAutoImplicit false

/-!
Statements: the documents in which a repository reports on a deposit. A statement is a feed, or a
single entry of one. States are reported by categories of one scheme, of the statement itself and of
its entries, and of several states the most final one counts.
-/

namespace Deposit

def atomSpace : String := "http://www.w3.org/2005/Atom"

/-- A report of a state, known or not. -/
inductive StateReport where
  | known (state : SwordState)
  | unknown (term : String)
deriving DecidableEq, Repr

namespace StateReport

def ofTerm (term : String) : StateReport :=
  let term := Text.trim term
  match Vocabulary.ofValue? term with
  | some state => known state
  | none => unknown term

/-- The reported state, if it is a known one. -/
def state? : StateReport → Option SwordState
  | known state => some state
  | unknown _ => none

def notice? : StateReport → Option String
  | known _ => none
  | unknown term => some ("Ignoring unknown deposit state '" ++ term ++ "'")

end StateReport

def SwordState.mostFinal? (states : List SwordState) : Option SwordState :=
  SwordState.precedence.find? states.contains

namespace Statement

def isStatement (root : Xml.Node) : Bool :=
  root.isElement atomSpace "feed" || root.isElement atomSpace "entry"

/-- The categories of a statement and then those of its entries. -/
def categories (root : Xml.Node) : List Xml.Node :=
  root.childElements atomSpace "category" ++
    (root.childElements atomSpace "entry").flatMap (·.childElements atomSpace "category")

/-- The report that a category makes, if it is of the scheme of states. -/
def report? (category : Xml.Node) : Option StateReport :=
  if category.attribute? "scheme" = some SwordState.scheme then
    some (.ofTerm ((category.attribute? "term").getD ""))
  else none

def reports (root : Xml.Node) : List StateReport :=
  (categories root).filterMap report?

def state? (root : Xml.Node) : Option SwordState :=
  SwordState.mostFinal? ((reports root).filterMap StateReport.state?)

def notices (root : Xml.Node) : List String :=
  (reports root).filterMap StateReport.notice?

end Statement

theorem SwordState.mem_of_mostFinal? {states : List SwordState} {s : SwordState}
    (h : SwordState.mostFinal? states = some s) : s ∈ states := by
  simpa using List.find?_some h

end Deposit
