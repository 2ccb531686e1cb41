import Deposit.Proofs.Text.Utf8
import Deposit.Proofs.Xml.Elements

set_option autoImplicit false
set_option relaxedAutoImplicit false

/-!
Documents that are written and read again. A tree in which an element holds either text or elements
is read from its document with every name, every value and every text as it was, and with the blanks
between elements that lay it out. Main statement: reading the document of such a tree yields the
tree on lines.
-/

namespace Deposit.Xml

namespace Node

mutual

/-- A node at a level as it is read: elements among elements are on lines of their own. -/
def onLines (level : Nat) : Node → Node
  | .element name declared attributes [] => .element name declared attributes []
  | .element name declared attributes [.text s] =>
    .element name declared attributes (if s = "" then [] else [.text s])
  | .element name declared attributes (c :: cs) =>
    .element name declared attributes (onLinesAll level (c :: cs))
  | .text s => .text s
  | .reference name => .reference name

/-- The children of an element at a level, with the blanks before each of them and behind the last.
-/
def onLinesAll (level : Nat) : List Node → List Node
  | [] => [.text (String.ofList ('\n' :: indent level))]
  | n :: ns =>
    .text (String.ofList ('\n' :: indent (level + 1))) :: onLines (level + 1) n ::
      onLinesAll level ns

end

end Node

/-- A tree that is read as it was meant in a scope, with so many levels at most: its tags are sound,
its texts may occur in a document, and an element holds either text or elements. -/
inductive Sound : Nat → Scope → Node → Prop
  | text {room : Nat} {scope : Scope} {name : Name} {declared : List (String × String)}
      {attributes : List (Name × String)} {s : String} :
      SoundTag scope name declared (attributes.map Prod.fst) →
      (∀ a ∈ attributes, isText a.2 = true) → isText s = true →
      Sound (room + 1) scope (.element name declared attributes [.text s])
  | elements {room : Nat} {scope : Scope} {name : Name} {declared : List (String × String)}
      {attributes : List (Name × String)} {children : List Node} :
      SoundTag scope name declared (attributes.map Prod.fst) →
      (∀ a ∈ attributes, isText a.2 = true) →
      (∀ c ∈ children, Sound room (declared ++ scope) c) →
      Sound (room + 1) scope (.element name declared attributes children)

variable {room : Nat} {scope : Scope} {n : Node}

theorem Sound.isLaidOut (h : Sound room scope n) : isLaidOut n = true := by
  cases h <;> rfl

private theorem Sound.exists_render (h : Sound room scope n) (level : Nat) :
    ∃ c cs, isNameStart c = true ∧ render true level n = '<' :: c :: cs := by
  have hname : ∀ {name : Name} {declared : List (String × String)}
      {attributes : List (Name × String)} (rest : List Char), IsReadable name.written →
      ∃ c cs, isNameStart c = true ∧ '<' :: (tagText name declared attributes ++ rest) =
        '<' :: c :: cs := by
    intro name declared attributes rest h
    obtain ⟨c, cs, hstart, hc⟩ := h.exists_start
    exact ⟨c, _, hc, by rw [tagText_eq, hstart]; rfl⟩
  cases h with
  | text htag =>
    rw [render]
    exact hname _ htag.name_readable
  | @elements room scope name declared attributes children htag hvalues hchildren =>
    cases children with
    | nil =>
      rw [render]
      exact hname _ htag.name_readable
    | cons c cs =>
      rw [render]
      exact hname _ htag.name_readable

theorem Node.onLines_cons {c : Node} (hc : isLaidOut c = true) (level : Nat) (name : Name)
    (declared : List (String × String)) (attributes : List (Name × String)) (cs : List Node) :
    (element name declared attributes (c :: cs)).onLines level =
      element name declared attributes (onLinesAll level (c :: cs)) := by
  rw [onLines]
  rintro s rfl -
  cases hc

theorem Sound.exists_onLines (h : Sound room scope n) (level : Nat) :
    ∃ name declared attributes children,
      n.onLines level = .element name declared attributes children := by
  cases h with
  | text => exact ⟨_, _, _, _, by rw [Node.onLines]⟩
  | @elements room scope name declared attributes children htag hvalues hchildren =>
    cases children with
    | nil => exact ⟨_, _, _, _, by rw [Node.onLines]⟩
    | cons c cs =>
      exact ⟨_, _, _, _, Node.onLines_cons (hchildren c List.mem_cons_self).isLaidOut ..⟩

/-- What is read when an element has been read. -/
def Reads (d : Doctype) (room : Nat) (scope : Scope) (n : Node) : Prop :=
  ∀ (level : Nat) (p : Progress) (rest : List Char), p.scope = scope →
    p.open.length + room ≤ depthLimit + 1 → (p.open = [] → p.root = none) →
    run d p (render true level n ++ rest) =
      (p.attach (n.onLines level)).bind fun q => run d q rest

variable {isStandalone : Bool}

private theorem run_opening {name : Name} {declared : List (String × String)}
    {attributes : List (Name × String)}
    (htag : SoundTag scope name declared (attributes.map Prod.fst)) (isEmpty : Bool)
    {p : Progress} (hscope : p.scope = scope)
    (hroom : p.open.length ≤ depthLimit) (hroot : p.open = [] → p.root = none) (rest : List Char) :
    run (.empty isStandalone) p ('<' :: (tagText name declared attributes ++
        (tagEnd isEmpty ++ rest))) =
      (if isEmpty then p.attach (.element name declared attributes [])
        else some { p with
          «open» := ⟨name.written, name, declared, attributes, declared ++ scope, []⟩ ::
            p.open }).bind fun q => run (.empty isStandalone) q rest := by
  have hlt : rest.length <
      ('<' :: (tagText name declared attributes ++ (tagEnd isEmpty ++ rest))).length := by
    simp only [List.length_cons, List.length_append]
    omega
  rw [run_of_takeToken (takeToken_opening htag.name_readable htag.readable_given isEmpty rest) hlt]
  have hstart : (p.open.isEmpty && p.root.isSome) = false := by
    cases hopen : p.open with
    | nil => rw [hroot hopen]; rfl
    | cons f fs => rfl
  rw [step, if_neg (Nat.not_lt.2 hroom), hstart, hscope, htag.ofTag]
  cases isEmpty <;> rfl

private theorem run_closing {f : Frame} (hname : IsReadable f.written) (fs : List Frame)
    (root : Option Node) (uses : List (String × Scope)) {d : Doctype} (rest : List Char) :
    run d ⟨f :: fs, root, uses⟩ ('<' :: '/' :: (f.written ++ '>' :: rest)) =
      ((⟨fs, root, uses⟩ : Progress).attach f.node).bind fun q => run d q rest := by
  have hlt : rest.length < ('<' :: '/' :: (f.written ++ '>' :: rest)).length := by
    simp only [List.length_cons, List.length_append]
    omega
  rw [run_of_takeToken (takeToken_closing hname rest) hlt]
  simp [step]

private theorem run_blanks (d : Doctype) (level : Nat) {f : Frame} (fs : List Frame)
    (root : Option Node) (uses : List (String × Scope))
    (hlast : ∀ s rest, f.children ≠ .text s :: rest) (rest : List Char) :
    run d ⟨f :: fs, root, uses⟩ ('\n' :: (indent level ++ '<' :: rest)) =
      run d
        ⟨{ f with children := .text (String.ofList ('\n' :: indent level)) :: f.children } :: fs,
          root, uses⟩ ('<' :: rest) := by
  have hchars : ('\n' :: indent level).flatMap textChar = '\n' :: indent level := by
    have hblanks : ∀ n, (List.replicate n ' ').flatMap textChar = List.replicate n ' ' := by
      intro n
      induction n with
      | zero => rfl
      | succ n ih =>
        rw [List.replicate_succ, List.flatMap_cons, ih]
        rfl
    rw [List.flatMap_cons, indent, hblanks]
    rfl
  have htext := run_text (d := d) f fs root uses ('\n' :: indent level) rest
  rw [hchars] at htext
  have hadd : addText ('\n' :: indent level) f.children =
      .text (String.ofList ('\n' :: indent level)) :: f.children := by
    unfold addText
    split
    · rename_i s more heq
      exact absurd heq (hlast s more)
    · rw [if_neg (List.cons_ne_nil _ _)]
  rw [withText, hadd] at htext
  exact htext

private theorem run_renderAll {children : List Node} (hsound : ∀ c ∈ children, Sound room scope c)
    {d : Doctype} (hreads : ∀ c ∈ children, Reads d room scope c) (level : Nat) (f : Frame)
    (fs : List Frame) (root : Option Node) (uses : List (String × Scope)) (hscope : f.scope = scope)
    (hroom : fs.length + 1 + room ≤ depthLimit + 1)
    (hlast : ∀ s rest, f.children ≠ .text s :: rest) (rest : List Char) :
    run d ⟨f :: fs, root, uses⟩
        ('\n' :: (renderAll true (level + 1) children ++ (indent level ++ '<' :: rest))) =
      run d ⟨{ f with children := (Node.onLinesAll level children).reverse ++ f.children } :: fs,
        root, uses⟩ ('<' :: rest) := by
  induction children generalizing f with
  | nil =>
    rw [renderAll, List.nil_append, run_blanks d level fs root uses hlast]
    rfl
  | cons c cs ih =>
    obtain ⟨first, more, -, hmore⟩ := (hsound c List.mem_cons_self).exists_render (level + 1)
    obtain ⟨name, declared, attributes, grandchildren, helement⟩ :=
      (hsound c List.mem_cons_self).exists_onLines (level + 1)
    have hwritten : renderAll true (level + 1) (c :: cs) ++ (indent level ++ '<' :: rest) =
        indent (level + 1) ++ (render true (level + 1) c ++
          '\n' :: (renderAll true (level + 1) cs ++ (indent level ++ '<' :: rest))) := by
      rw [renderAll, if_pos rfl, if_pos rfl]
      simp only [List.append_assoc, List.cons_append, List.nil_append]
    have hchild := hreads c List.mem_cons_self (level + 1)
      ⟨{ f with
          children := .text (String.ofList ('\n' :: indent (level + 1))) :: f.children } :: fs,
        root, uses⟩ ('\n' :: (renderAll true (level + 1) cs ++ (indent level ++ '<' :: rest)))
      hscope hroom (fun h => absurd h (List.cons_ne_nil _ _))
    rw [hmore, List.cons_append] at hchild hwritten
    have hchildren : (Node.onLinesAll level (c :: cs)).reverse ++ f.children =
        (Node.onLinesAll level cs).reverse ++ c.onLines (level + 1) ::
          .text (String.ofList ('\n' :: indent (level + 1))) :: f.children := by
      rw [Node.onLinesAll]
      simp only [List.reverse_cons, List.append_assoc, List.cons_append, List.nil_append]
    rw [hwritten, run_blanks d (level + 1) fs root uses hlast, hchild, hchildren]
    refine ih (fun b hb => hsound b (List.mem_cons_of_mem c hb))
      (fun b hb => hreads b (List.mem_cons_of_mem c hb)) { f with children := _ } hscope ?_
    intro s rest h
    rw [helement] at h
    cases h

private theorem reverse_addText_toList (s : String) :
    (addText s.toList []).reverse = if s = "" then [] else [.text s] := by
  by_cases hs : s = ""
  · rw [hs]
    rfl
  · have hne : s.toList ≠ [] := fun h => hs (String.toList_eq_nil_iff.1 h)
    rw [addText, if_neg hne, if_neg hs, String.ofList_toList]
    · rfl
    · intro t rest h
      cases h

private theorem Sound.reads (h : Sound room scope n) :
    Reads (.empty isStandalone) room scope n := by
  induction h with
  | @text room scope name declared attributes s htag hvalues hs =>
    intro level p rest hscope hroom hroot
    have hwritten : render true level (.element name declared attributes [.text s]) ++ rest =
        '<' :: (tagText name declared attributes ++ (tagEnd false ++
          (s.toList.flatMap textChar ++ '<' :: '/' :: (name.written ++ '>' :: rest)))) := by
      simp [render, renderAll, Xml.isLaidOut, tagEnd]
    rw [hwritten, run_opening htag false hscope (by omega) hroot]
    show run (.empty isStandalone) ⟨_ :: p.open, p.root, p.uses⟩ _ = _
    rw [run_text, withText, run_closing (f := ⟨name.written, name, declared, attributes, _, _⟩)
      htag.name_readable]
    rw [Frame.node, reverse_addText_toList, Node.onLines]
  | @elements room scope name declared attributes children htag hvalues hchildren ih =>
    intro level p rest hscope hroom hroot
    cases children with
    | nil =>
      have hwritten : render true level (.element name declared attributes []) ++ rest =
          '<' :: (tagText name declared attributes ++ (tagEnd true ++ rest)) := by
        simp [render, tagEnd]
      rw [hwritten, run_opening htag true hscope (by omega) hroot]
      rw [Node.onLines]
      rfl
    | cons c cs =>
      have hall : (c :: cs).all Xml.isLaidOut = true :=
        List.all_eq_true.2 fun b hb => (hchildren b hb).isLaidOut
      have hwritten : render true level (.element name declared attributes (c :: cs)) ++ rest =
          '<' :: (tagText name declared attributes ++ (tagEnd false ++
            '\n' :: (renderAll true (level + 1) (c :: cs) ++ (indent level ++ '<' ::
              ('/' :: (name.written ++ '>' :: rest)))))) := by
        rw [render, hall]
        simp [tagEnd]
      rw [hwritten, run_opening htag false hscope (by omega) hroot]
      show run (.empty isStandalone) ⟨_ :: p.open, p.root, p.uses⟩ _ = _
      rw [run_renderAll hchildren ih level _ p.open p.root p.uses rfl (by omega)
        (fun s rest h => by cases h)]
      rw [run_closing (f := ⟨name.written, name, declared, attributes, _, _⟩) htag.name_readable,
        Frame.node, List.append_nil, List.reverse_reverse,
        Node.onLines_cons (hchildren c List.mem_cons_self).isLaidOut]

/-- Whether characters may occur in a document and are read as they are, as ends of lines that are
written by a carriage return are not. -/
def Stays (cs : List Char) : Prop :=
  ∀ c ∈ cs, isChar c = true ∧ c ≠ '\r'

instance (cs : List Char) : Decidable (Stays cs) :=
  List.decidableBAll (fun c => isChar c = true ∧ c ≠ '\r') cs

private theorem stays_append {a b : List Char} : Stays (a ++ b) ↔ Stays a ∧ Stays b :=
  List.forall_mem_append

private theorem stays_cons {c : Char} {cs : List Char} :
    Stays (c :: cs) ↔ (isChar c = true ∧ c ≠ '\r') ∧ Stays cs :=
  List.forall_mem_cons

private theorem stays_flatMap {α : Type} {f : α → List Char} {as : List α}
    (h : ∀ a ∈ as, Stays (f a)) : Stays (as.flatMap f) := by
  intro c hc
  obtain ⟨a, ha, hca⟩ := List.mem_flatMap.1 hc
  exact h a ha c hca

private theorem isChar_of_isNameChar {c : Char} (h : isNameChar c = true) :
    isChar c = true ∧ c ≠ '\r' := by
  have hranges : ∀ r ∈ nameStartRanges ++ nameMoreRanges,
      0x20 ≤ r.1 ∧ (r.2 ≤ 0xd7ff ∨ 0xe000 ≤ r.1 ∧ r.2 ≤ 0xfffd ∨ 0x10000 ≤ r.1) := by decide
  have hin : c = ':' ∨ isInRanges (nameStartRanges ++ nameMoreRanges) c = true := by
    simpa only [isNameChar, isNameStart, isInRanges, List.any_append, Bool.or_eq_true,
      decide_eq_true_eq, or_assoc] using h
  rcases hin with rfl | hin
  · decide
  · obtain ⟨r, hr, hbounds⟩ := List.any_eq_true.1 hin
    simp only [Bool.and_eq_true, decide_eq_true_eq] at hbounds
    have hr := hranges r hr
    constructor
    · simp only [isChar, Bool.or_eq_true, Bool.and_eq_true, decide_eq_true_eq]
      omega
    · rintro rfl
      have hreturn : ('\r' : Char).toNat = 13 := rfl
      omega

private theorem IsReadable.stays {name : List Char} (h : IsReadable name) : Stays name := by
  obtain ⟨-, -, -, -, hchars⟩ := exists_isNameStart h.takeName_eq.1
  exact fun c hc => isChar_of_isNameChar (hchars c hc)

private theorem stays_textChar {c : Char} (h : isChar c = true) : Stays (textChar c) := by
  unfold textChar
  split
  · decide
  split
  · decide
  split
  · decide
  split
  · decide
  · rename_i hreturn
    intro d hd
    obtain rfl := List.mem_singleton.1 hd
    exact ⟨h, hreturn⟩

private theorem stays_attributeChar {c : Char} (h : isChar c = true) : Stays (attributeChar c) := by
  unfold attributeChar
  split
  · decide
  split
  · decide
  split
  · decide
  · exact stays_textChar h

private theorem stays_text {s : String} (h : isText s = true) : Stays (s.toList.flatMap textChar) :=
  stays_flatMap fun c hc => stays_textChar (List.all_eq_true.1 h c hc)

private theorem stays_attributeText {name : List Char} (hname : IsReadable name) {value : String}
    (hvalue : isText value = true) : Stays (attributeText name value) := by
  have hescaped : Stays (value.toList.flatMap attributeChar) :=
    stays_flatMap fun c hc => stays_attributeChar (List.all_eq_true.1 hvalue c hc)
  unfold attributeText
  rw [stays_cons, stays_append, stays_cons, stays_cons, stays_append]
  exact ⟨by decide, hname.stays, by decide, by decide, hescaped, by decide⟩

private theorem SoundTag.stays {name : Name} {declared : List (String × String)}
    {attributes : List (Name × String)} (h : SoundTag scope name declared (attributes.map Prod.fst))
    (hvalues : ∀ a ∈ attributes, isText a.2 = true) : Stays (tagText name declared attributes) := by
  rw [tagText_eq, stays_append]
  refine ⟨h.name_readable.stays, stays_flatMap fun a ha => ?_⟩
  refine stays_attributeText (h.readable_given a ha) ?_
  rcases List.mem_append.1 ha with hown | hother
  · obtain ⟨d, hd, rfl⟩ := List.mem_map.1 hown
    exact (h.declares d hd).2.2
  · obtain ⟨b, hb, rfl⟩ := List.mem_map.1 hother
    exact hvalues b hb

private theorem stays_indent (level : Nat) : Stays (indent level) := by
  intro c hc
  obtain rfl := List.eq_of_mem_replicate hc
  decide

private theorem stays_renderAll {children : List Node} (h : ∀ c ∈ children, ∀ level,
    Stays (render true level c)) (level : Nat) : Stays (renderAll true level children) := by
  induction children with
  | nil =>
    rw [renderAll]
    intro c hc
    cases hc
  | cons c cs ih =>
    rw [renderAll, if_pos rfl, if_pos rfl, stays_append, stays_append, stays_append]
    exact ⟨⟨⟨stays_indent level, h c List.mem_cons_self level⟩, by decide⟩,
      ih fun b hb => h b (List.mem_cons_of_mem c hb)⟩

private theorem Sound.stays (h : Sound room scope n) (level : Nat) :
    Stays (render true level n) := by
  induction h generalizing level with
  | @text room scope name declared attributes s htag hvalues hs =>
    have hwritten : render true level (.element name declared attributes [.text s]) =
        '<' :: (tagText name declared attributes ++ '>' ::
          (s.toList.flatMap textChar ++ '<' :: '/' :: (name.written ++ ['>']))) := by
      simp [render, renderAll, Xml.isLaidOut]
    rw [hwritten, stays_cons, stays_append, stays_cons, stays_append, stays_cons, stays_cons,
      stays_append]
    exact ⟨by decide, htag.stays hvalues, by decide, stays_text hs, by decide, by decide,
      htag.name_readable.stays, by decide⟩
  | @elements room scope name declared attributes children htag hvalues hchildren ih =>
    cases children with
    | nil =>
      rw [render, stays_cons, stays_append]
      exact ⟨by decide, htag.stays hvalues, by decide⟩
    | cons c cs =>
      have hall : (c :: cs).all Xml.isLaidOut = true :=
        List.all_eq_true.2 fun b hb => (hchildren b hb).isLaidOut
      have hwritten : render true level (.element name declared attributes (c :: cs)) =
          '<' :: (tagText name declared attributes ++ '>' :: '\n' ::
            (renderAll true (level + 1) (c :: cs) ++ (indent level ++ '<' :: '/' ::
              (name.written ++ ['>'])))) := by
        rw [render, hall]
        simp
      rw [hwritten, stays_cons, stays_append, stays_cons, stays_cons, stays_append, stays_append,
        stays_cons, stays_cons, stays_append]
      exact ⟨by decide, htag.stays hvalues, by decide, by decide, stays_renderAll ih _,
        stays_indent level, by decide, by decide, htag.name_readable.stays, by decide⟩

private theorem takeProlog_declaration (cs : List Char) :
    takeProlog (declaration.toList ++ cs) = some (⟨some "UTF-8", false⟩, '\n' :: cs) :=
  rfl

private theorem shownCharset_declaration (bs : Bytes) :
    shownCharset (Bytes.ofText declaration ++ bs) = none :=
  rfl

private theorem declaredCharset_declaration (text : String) :
    declaredCharset (Bytes.ofText (declaration ++ text)) = some .utf8 := by
  have hbytes : (Bytes.ofText (declaration ++ text)).map (fun b => Char.ofNat b.toNat) =
      declaration.toList ++ (Bytes.ofText text).map fun b => Char.ofNat b.toNat := by
    have hdeclaration : (Bytes.ofText declaration).map (fun b => Char.ofNat b.toNat) =
      declaration.toList := by decide +kernel
    rw [Bytes.ofText, String.toList_append, List.flatMap_append, List.map_append]
    exact congrArg (· ++ _) hdeclaration
  rw [declaredCharset, hbytes, Text.unifyLineEnds_append (by decide), takeProlog_declaration]
  rfl

private theorem decode_declaration {cs : List Char} (h : Stays cs) :
    decode (Bytes.ofText (declaration ++ String.ofList cs)) = some (declaration.toList ++ cs) := by
  have hshown : shownCharset (Bytes.ofText (declaration ++ String.ofList cs)) = none := by
    rw [Bytes.ofText, String.toList_append, List.flatMap_append]
    exact shownCharset_declaration _
  have htext : ∀ text, Text.Charset.utf8.decode? (Bytes.ofText text) = some text.toList := by
    intro text
    simp [Text.Charset.decode?]
  have hends : '\r' ∉ declaration.toList ++ cs := by
    rw [List.mem_append, not_or]
    exact ⟨by decide, fun hc => (h _ hc).2 rfl⟩
  rw [decode, hshown, declaredCharset_declaration]
  simp only [Option.map_some, Option.bind_eq_bind, Option.bind_some, List.drop_zero]
  rw [htext, Option.bind_some, String.toList_append, String.toList_ofList,
    Text.unifyLineEnds_of_not_mem hends]

private theorem takeDeclarations_root {c : Char} (hc : isNameStart c = true) (cs : List Char) :
    takeDeclarations false ('\n' :: '<' :: c :: cs) = some (.empty false, '<' :: c :: cs) := by
  have hbang : c ≠ '!' := ne_of_isNameStart hc (by decide)
  have hquestion : c ≠ '?' := ne_of_isNameStart hc (by decide)
  have hskip : skipSpaces ('\n' :: '<' :: c :: cs) = '<' :: c :: cs := rfl
  have haside : skipAside ('\n' :: '<' :: c :: cs) = some ('<' :: c :: cs) := by
    rw [skipAside, hskip]
    simp [hbang.symm, hquestion.symm]
  have hdoctype : pass "<!DOCTYPE" ('<' :: c :: cs) = none := by
    simp [pass, hbang.symm]
  rw [takeDeclarations, haside]
  simp [hdoctype]

theorem read_document (h : Sound (depthLimit + 1) .outermost n) :
    read (Bytes.ofText (document n)) = some (n.onLines 0) := by
  have hstays : Stays (render true 0 n ++ ['\n']) := stays_append.2 ⟨h.stays 0, by decide⟩
  obtain ⟨c, cs, hc, hrender⟩ := h.exists_render 0
  have hrun : run (.empty false) .start (render true 0 n ++ ['\n']) =
      some ⟨[], some (n.onLines 0), []⟩ := by
    rw [h.reads 0 .start ['\n'] rfl (Nat.le_of_eq rfl) (fun _ => rfl)]
    show run (.empty false) ⟨[], some (n.onLines 0), []⟩ ['\n'] = _
    rw [run_of_takeToken (takeToken_of_not_isMark (by decide) []) (by decide)]
    exact run_nil _ _
  have hchars : (declaration.toList ++ (render true 0 n ++ ['\n'])).all isChar = true := by
    refine List.all_eq_true.2 fun d hd => ?_
    rcases List.mem_append.1 hd with hd | hd
    · exact List.all_eq_true.1 (by decide : declaration.toList.all isChar = true) d hd
    · exact (hstays d hd).1
  obtain ⟨ts, htokens, hbuild⟩ : ∃ ts, tokens (render true 0 n ++ ['\n']) = some ts ∧
      build (.empty false) ts = some ⟨[], some (n.onLines 0), []⟩ :=
    Option.bind_eq_some_iff.1 hrun
  rw [read, document, decode_declaration hstays, Option.bind_eq_bind, Option.bind_some, readText,
    hchars, takeProlog_declaration]
  simp only [Bool.not_true, Bool.false_eq_true, if_false, Option.bind_eq_bind, Option.bind_some]
  rw [hrender, List.cons_append, List.cons_append] at htokens ⊢
  rw [takeDeclarations_root hc, Option.bind_some]
  dsimp only
  rw [htokens, Option.bind_some, hbuild]
  rfl

/-- A document in UTF-8 without a declaration that does not show another character set is read as
its text, if its lines end in line feeds. -/
theorem read_ofText {text : String} (hshown : shownCharset (Bytes.ofText text) = none)
    (hplain : hasDeclaration (Text.unifyLineEnds (Bytes.toChars (Bytes.ofText text))) = false)
    (hlines : '\r' ∉ text.toList) : read (Bytes.ofText text) = readText text.toList := by
  have hdeclared : declaredCharset (Bytes.ofText text) = some .utf8 := by
    unfold Bytes.toChars at hplain
    simp [declaredCharset, takeProlog, hplain]
  have htext : Text.Charset.utf8.decode? (Bytes.ofText text) = some text.toList := by
    simp [Text.Charset.decode?]
  unfold read decode
  rw [hshown, hdeclared]
  simp [htext, Text.unifyLineEnds_of_not_mem hlines]

end Deposit.Xml
