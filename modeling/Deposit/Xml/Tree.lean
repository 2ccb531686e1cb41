import Deposit.Bytes

set_option autoImplicit false
set_option relaxedAutoImplicit false

/-!
XML as a tree: elements with the namespaces they declare, their attributes and their children, and
text between them.
-/

namespace Deposit.Xml

/-- A name: the short form of its namespace, the namespace itself, and the local part. Names without
a namespace have the empty one. -/
structure Name where
  short : String
  space : String
  base : String
deriving DecidableEq, Repr

def Name.plain (base : String) : Name :=
  ⟨"", "", base⟩

/-- A name with its namespace in braces, if it has one. -/
def Name.expanded (n : Name) : String :=
  if n.space = "" then n.base else "\x7b" ++ n.space ++ "\x7d" ++ n.base

/-- A part of a document. A reference stands for content that is declared elsewhere. -/
inductive Node where
  | element (name : Name) (declared : List (String × String)) (attributes : List (Name × String))
      (children : List Node)
  | text (s : String)
  | reference (name : String)
deriving Repr

namespace Node

def name? : Node → Option Name
  | element name _ _ _ => some name
  | _ => none

def children : Node → List Node
  | element _ _ _ cs => cs
  | _ => []

def attributes : Node → List (Name × String)
  | element _ _ as _ => as
  | _ => []

def attribute? (n : Node) (base : String) : Option String :=
  (n.attributes.find? fun a => a.1.space = "" ∧ a.1.base = base).map Prod.snd

/-- Whether a node is an element of a namespace and a local name. -/
def isElement (n : Node) (space base : String) : Bool :=
  match n.name? with
  | some name => name.space = space && name.base = base
  | none => false

def childElements (n : Node) (space base : String) : List Node :=
  n.children.filter (·.isElement space base)

end Node

/-- A decoder of documents. What it accepts and how much of XML it knows is its own affair; the root
of a document is an element. -/
structure Decoder where
  root? : Bytes → Option Node
  isSome_name?_of_root? : ∀ bytes root, root? bytes = some root → root.name?.isSome

theorem Decoder.exists_element (d : Decoder) {bytes : Bytes} {root : Node}
    (h : d.root? bytes = some root) :
    ∃ name declared attributes children, root = .element name declared attributes children := by
  have hname := d.isSome_name?_of_root? bytes root h
  cases root with
  | element name declared attributes children => exact ⟨_, _, _, _, rfl⟩
  | text s => cases hname
  | reference name => cases hname

def isChar (c : Char) : Bool :=
  let n := c.toNat
  n = 9 || n = 10 || n = 13 || (0x20 ≤ n && n ≤ 0xd7ff) || (0xe000 ≤ n && n ≤ 0xfffd) ||
    0x10000 ≤ n

def isText (s : String) : Bool :=
  s.toList.all isChar

def isSpace (c : Char) : Bool :=
  c = ' ' || c = '\t' || c = '\n' || c = '\r'

end Deposit.Xml
