import Deposit.Xml.Tree

set_option autoImplicit false
set_option relaxedAutoImplicit false

/-!
Writing XML. Elements that hold only elements are laid out on lines, two blanks deeper with every
level; an element that holds text is written as it is. Characters that a reader would take for
markup or would not give back are escaped.
-/

namespace Deposit.Xml

def textChar (c : Char) : List Char :=
  if c = '&' then "&amp;".toList
  else if c = '<' then "&lt;".toList
  else if c = '>' then "&gt;".toList
  else if c = '\r' then "&#13;".toList
  else [c]

def attributeChar (c : Char) : List Char :=
  if c = '"' then "&quot;".toList
  else if c = '\t' then "&#9;".toList
  else if c = '\n' then "&#10;".toList
  else textChar c

def Name.written (n : Name) : List Char :=
  if n.short = "" then n.base.toList else n.short.toList ++ ':' :: n.base.toList

/-- An attribute, after a blank. -/
def attributeText (name : List Char) (value : String) : List Char :=
  ' ' :: (name ++ '=' :: '"' :: (value.toList.flatMap attributeChar ++ ['"']))

/-- The declaration of a namespace, after a blank. -/
def declarationText (d : String × String) : List Char :=
  let name := if d.1 = "" then "xmlns".toList else "xmlns:".toList ++ d.1.toList
  attributeText name d.2

def tagText (name : Name) (declared : List (String × String)) (as : List (Name × String)) :
    List Char :=
  name.written ++ declared.flatMap declarationText ++
    as.flatMap fun a => attributeText a.1.written a.2

def isLaidOut : Node → Bool
  | .element _ _ _ _ => true
  | _ => false

def indent (level : Nat) : List Char :=
  List.replicate (2 * level) ' '

mutual

/-- A node at a level; the children of an element are laid out if asked for and if all are
elements. -/
def render (laidOut : Bool) (level : Nat) : Node → List Char
  | .text s => s.toList.flatMap textChar
  | .reference name => '&' :: (name.toList ++ [';'])
  | .element name declared as [] => '<' :: (tagText name declared as ++ ['/', '>'])
  | .element name declared as (c :: cs) =>
    let onLines := laidOut && (c :: cs).all isLaidOut
    let ending := (if onLines then indent level else []) ++ '<' :: '/' :: (name.written ++ ['>'])
    '<' :: (tagText name declared as ++ '>' :: ((if onLines then ['\n'] else []) ++
      renderAll onLines (level + 1) (c :: cs) ++ ending))

/-- Nodes at a level, on lines of their own if asked for. -/
def renderAll (onLines : Bool) (level : Nat) : List Node → List Char
  | [] => []
  | n :: ns =>
    (if onLines then indent level else []) ++ render onLines level n ++
      (if onLines then ['\n'] else []) ++ renderAll onLines level ns

end

def declaration : String :=
  "<?xml version='1.0' encoding='UTF-8'?>\n"

def document (root : Node) : String :=
  declaration ++ String.ofList (render true 0 root ++ ['\n'])

end Deposit.Xml
