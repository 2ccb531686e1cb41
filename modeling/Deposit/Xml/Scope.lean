import Deposit.Uri.Syntax
import Deposit.Xml.Lexical

set_option autoImplicit false
set_option relaxedAutoImplicit false

/-!
Namespaces in scope. Elements declare namespaces under short forms by attributes of their own; the
names of elements and attributes are resolved by the innermost declaration around them.
-/

namespace Deposit.Xml

def xmlSpace : String := "http://www.w3.org/XML/1998/namespace"

/-- The namespace of declarations, which nothing may be declared to be. -/
def declarationSpace : String := "http://www.w3.org/2000/xmlns/"

/-- Short forms and their namespaces, the innermost first. -/
abbrev Scope := List (String × String)

def Scope.outermost : Scope := [("xml", xmlSpace)]

/-- Whether a name declares a namespace, and under which short form. -/
def declaredShort? (name : List Char) : Option String :=
  match splitName name with
  | ("", "xmlns") => some ""
  | ("xmlns", short) => some short
  | _ => none

/-- Whether a namespace may be declared under a short form. -/
def isDeclarable (short space : String) : Bool :=
  if short = "xml" then space = xmlSpace
  else
    short != "xmlns" && space != xmlSpace && space != declarationSpace &&
      (short = "" || space != "") && Uri.isReference space.toList

def declarations (as : List (List Char × String)) : Option (List (String × String)) :=
  let ds := as.filterMap fun a => (declaredShort? a.1).map fun short => (short, a.2)
  if ds.all fun d => isDeclarable d.1 d.2 then some ds else none

def Scope.element? (scope : Scope) (name : List Char) : Option Name :=
  let (short, base) := splitName name
  match scope.lookup short with
  | some space => some ⟨short, space, base⟩
  | none => if short = "" then some (.plain base) else none

def Scope.attribute? (scope : Scope) (name : List Char) : Option Name :=
  let (short, base) := splitName name
  if short = "" then some (.plain base)
  else (scope.lookup short).map fun space => ⟨short, space, base⟩

end Deposit.Xml
