import Deposit.Proofs.Specification.Listing
import Deposit.Proofs.Xml.RoundTrip

set_option autoImplicit false
set_option relaxedAutoImplicit false

/-!
What a document says, however it is laid out. The elements that a path of names leads to, the text
in them and the values of attributes are the same in a tree and in what is read of it on lines, and
without the blanks between elements the two are one tree.
-/

namespace Deposit.Xml

namespace Node

/-- The text that stands in an element itself. -/
def ownText (n : Node) : String :=
  String.join (n.children.map fun
    | .text s => s
    | _ => "")

/-- The elements that a path of names leads to, from an element to those inside it. -/
def elementsAt : List (String × String) → Node → List Node
  | [], n => [n]
  | name :: path, n => (n.childElements name.1 name.2).flatMap (elementsAt path)

/-- Whether a node is text of nothing but blanks. -/
def isBlank : Node → Bool
  | .text s => s.toList.all isSpace
  | _ => false

def isEmptyText : Node → Bool
  | .text s => s = ""
  | _ => false

mutual

/-- A tree without the blanks beside elements, and without text of no characters. -/
def bare : Node → Node
  | .element name declared attributes children =>
    .element name declared attributes
      ((bareAll children).filter fun c =>
        !(if children.any isLaidOut then c.isBlank else c.isEmptyText))
  | .text s => .text s
  | .reference name => .reference name

def bareAll : List Node → List Node
  | [] => []
  | n :: ns => bare n :: bareAll ns

end

theorem elementsAt_append (path rest : List (String × String)) (n : Node) :
    elementsAt (path ++ rest) n = (elementsAt path n).flatMap (elementsAt rest) := by
  induction path generalizing n with
  | nil => simp [elementsAt]
  | cons name path ih =>
    rw [List.cons_append, elementsAt, elementsAt, List.flatMap_assoc]
    exact List.flatMap_congr fun c _ => ih c

theorem elementsAt_append_singleton {path : List (String × String)} {n parent : Node}
    (h : elementsAt path n = [parent]) (name : String × String) :
    elementsAt (path ++ [name]) n = parent.childElements name.1 name.2 := by
  rw [elementsAt_append, h, List.flatMap_singleton, elementsAt]
  exact List.flatMap_singleton' _

private theorem name?_onLines (n : Node) (level : Nat) : (n.onLines level).name? = n.name? := by
  fun_cases onLines level n <;> rfl

theorem attributes_onLines (n : Node) (level : Nat) :
    (n.onLines level).attributes = n.attributes := by
  fun_cases onLines level n <;> rfl

private theorem isElement_onLines (n : Node) (level : Nat) (space base : String) :
    (n.onLines level).isElement space base = n.isElement space base := by
  rw [isElement, isElement, name?_onLines]

private theorem filter_onLinesAll (level : Nat) (space base : String) (ns : List Node) :
    (onLinesAll level ns).filter (·.isElement space base) =
      (ns.filter (·.isElement space base)).map (onLines (level + 1)) := by
  induction ns with
  | nil => rw [onLinesAll]; rfl
  | cons n ns ih =>
    have htext : ∀ s, (text s).isElement space base = false := fun s => rfl
    rw [onLinesAll, List.filter_cons_of_neg (by rw [htext]; exact Bool.false_ne_true),
      List.filter_cons, List.filter_cons, isElement_onLines, ih]
    split <;> rfl

private theorem childElements_onLines (n : Node) (level : Nat) (space base : String) :
    (n.onLines level).childElements space base =
      (n.childElements space base).map (onLines (level + 1)) := by
  unfold childElements
  fun_cases onLines level n with
  | case1 name declared attributes => rfl
  | case2 name declared attributes s =>
    show (if s = "" then [] else [text s]).filter _ = _
    split <;> rfl
  | case3 name declared attributes c cs _ => exact filter_onLinesAll level space base (c :: cs)
  | case4 s => rfl
  | case5 name => rfl

theorem elementsAt_onLines (path : List (String × String)) (n : Node) (level : Nat) :
    elementsAt path (n.onLines level) =
      (elementsAt path n).map (onLines (level + path.length)) := by
  induction path generalizing n level with
  | nil => rfl
  | cons name path ih =>
    rw [elementsAt, elementsAt, childElements_onLines, List.flatMap_map, List.map_flatMap]
    refine List.flatMap_congr fun c _ => ?_
    rw [ih, List.length_cons, Nat.add_right_comm, Nat.add_assoc]

theorem ownText_onLines (name : Name) (declared : List (String × String))
    (attributes : List (Name × String)) (s : String) (level : Nat) :
    ((element name declared attributes [.text s]).onLines level).ownText = s := by
  rw [onLines, ownText, children]
  by_cases hs : s = ""
  · rw [if_pos hs, hs]
    rfl
  · rw [if_neg hs]
    simp [String.join]

end Node

variable {room : Nat} {scope : Scope} {n : Node}

theorem Sound.valuesIn_onLines (h : Sound room scope n) (space base : String) (level : Nat) :
    (n.onLines level).valuesIn space base = n.valuesIn space base := by
  induction h generalizing level with
  | @text room scope name declared attributes s htag hvalues hs =>
    rw [Node.onLines, Node.valuesIn, Node.valuesIn]
    split <;> rfl
  | @elements room scope name declared attributes children htag hvalues hchildren ih =>
    cases children with
    | nil => rw [Node.onLines]
    | cons c cs =>
      rw [Node.onLines_cons (hchildren c List.mem_cons_self).isLaidOut, Node.valuesIn,
        Node.valuesIn]
      congr 1
      generalize c :: cs = children at ih
      clear hchildren
      induction children with
      | nil => rfl
      | cons b bs ihs =>
        rw [Node.onLinesAll, Node.valuesInAll, Node.valuesInAll, Node.valuesInAll,
          ih b List.mem_cons_self, ihs fun a ha => ih a (List.mem_cons_of_mem b ha)]
        rfl

private theorem isBlank_indent (level : Nat) :
    (Node.text (String.ofList ('\n' :: indent level))).isBlank = true := by
  rw [Node.isBlank, String.toList_ofList, List.all_eq_true]
  intro c hc
  rcases List.mem_cons.1 hc with rfl | hc
  · decide
  · obtain rfl := List.eq_of_mem_replicate hc
    decide

private theorem filter_bareAll_onLinesAll {children : List Node} {level : Nat}
    (h : ∀ c ∈ children, (c.onLines (level + 1)).bare = c.bare) :
    (Node.bareAll (Node.onLinesAll level children)).filter (fun c => !c.isBlank) =
      (Node.bareAll children).filter fun c => !c.isBlank := by
  have hblank : ∀ level rest, ((Node.text (String.ofList ('\n' :: indent level))).bare ::
      rest).filter (fun c => !c.isBlank) = rest.filter fun c => !c.isBlank := by
    intro level rest
    rw [Node.bare, List.filter_cons, isBlank_indent]
    rfl
  induction children with
  | nil =>
    rw [Node.onLinesAll]
    exact hblank level []
  | cons c cs ih =>
    rw [Node.onLinesAll, Node.bareAll, hblank, Node.bareAll, Node.bareAll, h c List.mem_cons_self,
      List.filter_cons, List.filter_cons, ih fun b hb => h b (List.mem_cons_of_mem c hb)]

theorem Sound.bare_onLines (h : Sound room scope n) (level : Nat) :
    (n.onLines level).bare = n.bare := by
  induction h generalizing level with
  | @text room scope name declared attributes s htag hvalues hs =>
    rw [Node.onLines]
    by_cases hempty : s = ""
    · rw [if_pos hempty, hempty]
      rfl
    · rw [if_neg hempty]
  | @elements room scope name declared attributes children htag hvalues hchildren ih =>
    cases children with
    | nil => rw [Node.onLines]
    | cons c cs =>
      obtain ⟨name', declared', attributes', grandchildren, hc⟩ :=
        (hchildren c List.mem_cons_self).exists_onLines (level + 1)
      have hbefore : (c :: cs).any Xml.isLaidOut = true := by
        rw [List.any_cons, (hchildren c List.mem_cons_self).isLaidOut]
        rfl
      have hafter : (Node.onLinesAll level (c :: cs)).any Xml.isLaidOut = true := by
        rw [Node.onLinesAll, List.any_cons, List.any_cons, hc]
        rfl
      rw [Node.onLines_cons (hchildren c List.mem_cons_self).isLaidOut, Node.bare, Node.bare,
        hbefore, hafter]
      simp only [if_true]
      rw [filter_bareAll_onLinesAll fun b hb => ih b hb (level + 1)]

end Deposit.Xml
