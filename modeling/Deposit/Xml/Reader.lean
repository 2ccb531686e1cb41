import Deposit.Xml.Declaration
import Deposit.Xml.Doctype.Reader
import Deposit.Xml.Scope

set_option autoImplicit false
set_option relaxedAutoImplicit false

/-!
Reading documents. The tokens of a document are put together one after the other: a tag opens an
element inside the one opened last, and closes that one. Entities in the values of attributes are
replaced; in content they stay, and are only seen to be well-formed. Nothing is fetched from
elsewhere, and nothing is validated.
-/

namespace Deposit.Xml

/-- An element whose end has not been read: its name as written, what will become of it, the scope
inside it, and its children in reverse. -/
structure Frame where
  written : List Char
  name : Name
  declared : List (String × String)
  attributes : List (Name × String)
  scope : Scope
  children : List Node

def Frame.node (f : Frame) : Node :=
  .element f.name f.declared f.attributes f.children.reverse

/-- What has been read: the elements that are open, the innermost first, the root once it is
complete, and the entities that stand in content, with the scope around them. -/
structure Progress where
  «open» : List Frame
  root : Option Node
  uses : List (String × Scope)

/-- The most elements that may be open when another one begins. -/
def depthLimit : Nat := 256

def areDistinct {α : Type} [BEq α] : List α → Bool
  | [] => true
  | a :: as => !as.contains a && areDistinct as

/-- The value of an attribute of an element, as its declaration has it. -/
def valueOf (d : Doctype) (element : List Char) (a : List Char × List Char) :
    Option (List Char × String) := do
  let value ← attributeValue d.known a.2
  let hasTokens := ((d.rule? element a.1).map AttributeRule.hasTokens).getD false
  some (a.1, String.ofList (if hasTokens then collapse value else value))

/-- All attributes of an element: those it is given and those it has anyway. -/
def allAttributes (d : Doctype) (element : List Char) (given : List (List Char × List Char)) :
    Option (List (List Char × String)) := do
  if !areDistinct (given.map Prod.fst) then none
  let own ← given.mapM (valueOf d element)
  let missing := (d.defaults element).filter fun a => !(given.map Prod.fst).contains a.1
  some (own ++ missing.map fun a => (a.1, String.ofList a.2))

def identityName : Name := ⟨"xml", xmlSpace, "id"⟩

/-- Whether an attribute that identifies its element holds a name. -/
def hasSoundIdentity (as : List (Name × String)) : Bool :=
  as.all fun a => a.1 != identityName || isLocalName ((collapse a.2.toList))

def Frame.ofTag (d : Doctype) (scope : Scope) (written : List Char)
    (given : List (List Char × List Char)) : Option Frame := do
  let as ← allAttributes d written given
  let declared ← declarations as
  let inside : Scope := declared ++ scope
  let name ← inside.element? written
  let others := as.filter fun a => (declaredShort? a.1).isNone
  let attributes ← others.mapM fun a => (inside.attribute? a.1).map fun name => (name, a.2)
  if areDistinct (attributes.map fun a => (a.1.space, a.1.base)) && hasSoundIdentity attributes then
    some { written, name, declared, attributes, scope := inside, children := [] }
  else none

/-- A list of children in reverse with more text at its end. -/
def addText (cs : List Char) : List Node → List Node
  | .text s :: rest => .text (s ++ String.ofList cs) :: rest
  | children => if cs = [] then children else .text (String.ofList cs) :: children

namespace Progress

def start : Progress := ⟨[], none, []⟩

def scope (p : Progress) : Scope :=
  match p.open with
  | f :: _ => f.scope
  | [] => .outermost

def attach (p : Progress) (n : Node) : Option Progress :=
  match p.open with
  | f :: fs => some { p with «open» := { f with children := n :: f.children } :: fs }
  | [] => if p.root.isSome then none else some { p with root := some n }

def addText (p : Progress) (cs : List Char) : Option Progress :=
  match p.open with
  | f :: fs => some { p with «open» := { f with children := Xml.addText cs f.children } :: fs }
  | [] => none

def addEntity (d : Doctype) (p : Progress) (name : String) : Option Progress :=
  match predefined? name with
  | some c => p.addText [c]
  | none =>
    if p.open.isEmpty then none
    else
      match d.known.find? name with
      | some (.internal _) =>
        { p with uses := (name, p.scope) :: p.uses }.attach (.reference name)
      | some .external => p.attach (.reference name)
      | some .unparsed => none
      | none => if d.known.mayHaveMore then p.attach (.reference name) else none

end Progress

/-- Whether text holds the mark that only ends literal sections. -/
def hasSectionEnd (cs : List Char) : Bool :=
  (takeUntil [']', ']', '>'] cs).isSome

def step (d : Doctype) (p : Progress) : Token → Option Progress
  | .opening written given isEmpty =>
    if depthLimit < p.open.length then none
    else if p.open.isEmpty && p.root.isSome then none
    else do
      let frame ← Frame.ofTag d p.scope written given
      if isEmpty then p.attach frame.node else some { p with «open» := frame :: p.open }
  | .closing written =>
    match p.open with
    | f :: fs => if f.written = written then { p with «open» := fs }.attach f.node else none
    | [] => none
  | .characters cs =>
    if p.open.isEmpty then if cs.all isSpace then some p else none
    else if hasSectionEnd cs then none
    else p.addText cs
  | .literal cs => p.addText cs
  | .entity name => p.addEntity d name
  | .aside => some p

def build (d : Doctype) (ts : List Token) : Option Progress :=
  ts.foldlM (step d) .start

def Frame.around (scope : Scope) : Frame :=
  ⟨[], .plain "", [], [], scope, []⟩

/-- The entities that stand in the text of an entity, if that text is well-formed content. -/
def usesOf (d : Doctype) (content : List Char) (scope : Scope) : Option (List String) := do
  let ts ← tokens content
  let p ← ts.foldlM (step d) ⟨[.around scope], none, []⟩
  match p.open with
  | [f] => if f.written = [] then some (p.uses.map Prod.fst) else none
  | _ => none

/-- Whether an entity and all entities that stand in its text are well-formed, none of them standing
in its own text. The entities around it are given, and those that are known to be well-formed are
carried along. -/
def settle (d : Doctype) (scope : Scope) :
    Nat → List String → List String → List String → Option (List String)
  | 0, _, _, _ => none
  | _ + 1, _, settled, [] => some settled
  | fuel + 1, around, settled, name :: rest =>
    if around.contains name then none
    else if settled.contains name then settle d scope fuel around settled rest
    else
      match d.known.find? name with
      | some (.internal content) => do
        let uses ← usesOf d content scope
        let settled ← settle d scope fuel (name :: around) settled uses
        settle d scope fuel around (name :: settled) rest
      | _ => settle d scope fuel around settled rest

def areSettled (d : Doctype) (size : Nat) (uses : List (String × Scope)) : Bool :=
  (uses.reverse.foldlM (fun settled use => settle d use.2 (size + 2) [] settled [use.1]) []).isSome

/-- Passes blanks, comments and processing instructions. -/
def skipAside (cs : List Char) : Option (List Char) :=
  let next := skipSpaces cs
  if "<!--".toList.isPrefixOf next || "<?".toList.isPrefixOf next then
    match takeToken next with
    | none => none
    | some (_, rest) => if rest.length < cs.length then skipAside rest else none
  else some next
termination_by cs.length

def takeDeclarations (isStandalone : Bool) (cs : List Char) : Option (Doctype × List Char) := do
  let rest ← skipAside cs
  match pass "<!DOCTYPE" rest with
  | some rest => takeDoctype isStandalone rest
  | none => some (.empty isStandalone, rest)

def readText (cs : List Char) : Option Node := do
  if !cs.all isChar then none
  let (prolog, rest) ← takeProlog cs
  let (d, rest) ← takeDeclarations prolog.isStandalone rest
  let p ← build d (← tokens rest)
  if p.open.isEmpty && areSettled d cs.length p.uses then p.root else none

def read (bytes : Bytes) : Option Node := do
  readText (← decode bytes)

namespace Progress

/-- What is complete at the outermost level is an element. -/
def RootIsElement (p : Progress) : Prop :=
  ∀ n, p.root = some n → n.name?.isSome

variable {p q : Progress} {d : Doctype}

private theorem rootIsElement_start : start.RootIsElement := by
  intro n hn
  cases hn

private theorem RootIsElement.attach_node (hp : p.RootIsElement) {f : Frame}
    (h : p.attach f.node = some q) : q.RootIsElement := by
  unfold attach at h
  split at h
  · obtain rfl := Option.some.inj h
    exact hp
  · split at h
    · cases h
    · obtain rfl := Option.some.inj h
      intro n hn
      obtain rfl := Option.some.inj hn
      rfl

private theorem root_attach_of_isOpen {n : Node} {f : Frame} {fs : List Frame}
    (hopen : p.open = f :: fs) (h : p.attach n = some q) : q.root = p.root := by
  unfold attach at h
  rw [hopen] at h
  rw [← Option.some.inj h]

private theorem root_addText {cs : List Char} (h : p.addText cs = some q) : q.root = p.root := by
  unfold addText at h
  split at h
  · rw [← Option.some.inj h]
  · cases h

private theorem root_addEntity {name : String} (h : p.addEntity d name = some q) :
    q.root = p.root := by
  unfold addEntity at h
  split at h
  · exact root_addText h
  · split at h
    · cases h
    · rename_i hopen
      obtain ⟨f, fs, hopen⟩ : ∃ f fs, p.open = f :: fs := by
        cases hp : p.open with
        | nil => simp [hp] at hopen
        | cons f fs => exact ⟨f, fs, rfl⟩
      split at h
      · exact root_attach_of_isOpen (p := { p with uses := (name, p.scope) :: p.uses }) hopen h
      · exact root_attach_of_isOpen hopen h
      · cases h
      · split at h
        · exact root_attach_of_isOpen hopen h
        · cases h

private theorem RootIsElement.step (hp : p.RootIsElement) {t : Token} (h : step d p t = some q) :
    q.RootIsElement := by
  have hsame : q.root = p.root → q.RootIsElement := by
    intro hroot n hn
    exact hp n (hroot ▸ hn)
  cases t with
  | opening written given isEmpty =>
    simp only [Xml.step] at h
    split at h
    · cases h
    · split at h
      · cases h
      · obtain ⟨f, -, hf⟩ := Option.bind_eq_some_iff.1 h
        split at hf
        · exact hp.attach_node hf
        · obtain rfl := Option.some.inj hf
          exact hp
  | closing written =>
    simp only [Xml.step] at h
    split at h
    · split at h
      · rename_i f fs hopen _
        have hrest : ({ p with «open» := fs } : Progress).RootIsElement := hp
        exact hrest.attach_node h
      · cases h
    · cases h
  | characters cs =>
    simp only [Xml.step] at h
    split at h
    · split at h
      · obtain rfl := Option.some.inj h
        exact hp
      · cases h
    · split at h
      · cases h
      · exact hsame (root_addText h)
  | literal cs => exact hsame (root_addText h)
  | entity name => exact hsame (root_addEntity h)
  | aside =>
    obtain rfl := Option.some.inj h
    exact hp

private theorem RootIsElement.foldlM (hp : p.RootIsElement) {ts : List Token}
    (h : ts.foldlM (Xml.step d) p = some q) : q.RootIsElement := by
  induction ts generalizing p with
  | nil =>
    obtain rfl := Option.some.inj h
    exact hp
  | cons t ts ih =>
    rw [List.foldlM_cons] at h
    obtain ⟨next, hstep, hrest⟩ := Option.bind_eq_some_iff.1 h
    exact ih (hp.step hstep) hrest

end Progress

private theorem isSome_name?_of_read {bytes : Bytes} {root : Node} (h : read bytes = some root) :
    root.name?.isSome := by
  obtain ⟨cs, -, htext⟩ := Option.bind_eq_some_iff.1 h
  unfold readText at htext
  split at htext
  · cases htext
  · obtain ⟨⟨prolog, rest⟩, -, htext⟩ := Option.bind_eq_some_iff.1 htext
    obtain ⟨⟨d, rest⟩, -, htext⟩ := Option.bind_eq_some_iff.1 htext
    obtain ⟨ts, -, htext⟩ := Option.bind_eq_some_iff.1 htext
    obtain ⟨p, hbuild, hroot⟩ := Option.bind_eq_some_iff.1 htext
    split at hroot
    · exact Progress.rootIsElement_start.foldlM hbuild root hroot
    · cases hroot

/-- The decoder of the program, which knows the character sets and the depth of nesting above. -/
def decoder : Decoder where
  root? := read
  isSome_name?_of_root? _ _ := isSome_name?_of_read

end Deposit.Xml
