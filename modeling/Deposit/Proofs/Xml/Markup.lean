import Deposit.Proofs.Xml.Escaping

set_option autoImplicit false
set_option relaxedAutoImplicit false

/-!
Markup and text as a reader goes through them. A reader is followed from one place in a document to
a later one: behind a tag that was written for an element it is inside that element, behind text
that was written for characters it has these characters, and behind the closing tag the element is
complete.
-/

namespace Deposit.Xml

/-- What comes of the rest of a document when something of it has been read. -/
def run (d : Doctype) (p : Progress) (cs : List Char) : Option Progress :=
  (tokens cs).bind fun ts => ts.foldlM (step d) p

variable {d : Doctype} {p : Progress}

theorem run_nil (d : Doctype) (p : Progress) : run d p [] = some p := by
  rw [run, tokens]
  rfl

theorem run_of_takeToken {cs rest : List Char} {t : Token} (h : takeToken cs = some (t, rest))
    (hlt : rest.length < cs.length) :
    run d p cs = (step d p t).bind fun q => run d q rest := by
  have hne : cs ≠ [] := by
    rintro rfl
    cases h
  rw [run, tokens, if_neg hne, h]
  dsimp only
  rw [if_pos hlt]
  unfold run
  cases tokens rest with
  | none =>
    cases step d p t <;> rfl
  | some ts => rfl

private theorem addText_nil (children : List Node) : addText [] children = children := by
  unfold addText
  split
  · rw [String.ofList_nil, String.append_empty]
  · rfl

private theorem addText_append (a b : List Char) (children : List Node) :
    addText (a ++ b) children = addText b (addText a children) := by
  by_cases ha : a = []
  · rw [ha, addText_nil, List.nil_append]
  · cases children with
    | nil => simp [addText, ha, String.ofList_append]
    | cons n ns =>
      cases n with
      | text s => simp [addText, String.ofList_append, String.append_assoc]
      | element name declared attributes children => simp [addText, ha, String.ofList_append]
      | reference name => simp [addText, ha, String.ofList_append]

/-- Whether a character ends a run of characters. -/
def isMark (c : Char) : Bool :=
  c = '<' || c = '&'

/-- The characters before the first mark. -/
def leading (cs : List Char) : List Char :=
  cs.takeWhile fun c => !isMark c

private theorem takeUntil_eq_none {mark : List Char} {cs : List Char} (hc : ∃ c ∈ mark, c ∉ cs) :
    takeUntil mark cs = none := by
  obtain ⟨c, hmark, hc⟩ := hc
  induction cs with
  | nil => rfl
  | cons a as ih =>
    have hno : mark.isPrefixOf (a :: as) = false := by
      rw [Bool.eq_false_iff]
      intro hprefix
      exact hc ((List.isPrefixOf_iff_prefix.1 hprefix).subset hmark)
    rw [takeUntil, hno]
    rw [ih fun h => hc (List.mem_cons_of_mem a h)]
    rfl

theorem takeToken_of_not_isMark {c : Char} (hc : isMark c = false) (cs : List Char) :
    takeToken (c :: cs) =
      some (.characters (leading (c :: cs)), (c :: cs).dropWhile fun c => !isMark c) := by
  have hfun : (fun c : Char => decide (c ≠ '<' ∧ c ≠ '&')) = fun c => !isMark c := by
    funext c
    simp [isMark, Bool.decide_and]
  have hopen : c ≠ '<' := by
    rintro rfl
    cases hc
  have hamp : c ≠ '&' := by
    rintro rfl
    cases hc
  unfold takeToken leading
  split
  · rename_i heq
    cases heq
  · rename_i heq
    exact absurd (List.cons.inj heq).1 hopen
  · rename_i heq
    exact absurd (List.cons.inj heq).1 hopen
  · rename_i heq
    exact absurd (List.cons.inj heq).1 hopen
  · rename_i heq
    exact absurd (List.cons.inj heq).1 hopen
  · rename_i heq
    exact absurd (List.cons.inj heq).1 hopen
  · rename_i heq
    exact absurd (List.cons.inj heq).1 hamp
  · rw [hfun]

private theorem leading_append_tag (cs rest : List Char) :
    leading (cs ++ '<' :: rest) = leading cs := by
  unfold leading
  induction cs with
  | nil => rfl
  | cons c cs ih => rw [List.cons_append, List.takeWhile_cons, List.takeWhile_cons, ih]

section Inside

variable (f : Frame) (fs : List Frame) (root : Option Node) (uses : List (String × Scope))

/-- What has been read inside an element, with text at the end of it. -/
def withText (cs : List Char) : Progress :=
  ⟨{ f with children := addText cs f.children } :: fs, root, uses⟩

private theorem run_characters {w rest : List Char} (hne : w ≠ [])
    (hplain : ∀ c ∈ w, isMark c = false) (hend : '>' ∉ w) (hrest : leading rest = []) :
    run d ⟨f :: fs, root, uses⟩ (w ++ rest) = run d (withText f fs root uses w) rest := by
  have hpos : ∀ c ∈ w, (!isMark c) = true := by
    intro c hc
    rw [hplain c hc]
    rfl
  have htake : leading (w ++ rest) = w := by
    rw [leading, List.takeWhile_append_of_pos hpos]
    exact (congrArg (w ++ ·) hrest).trans (List.append_nil w)
  have hdrop : (w ++ rest).dropWhile (fun c => !isMark c) = rest := by
    have happend : leading (w ++ rest) ++ _ = w ++ rest := List.takeWhile_append_dropWhile
    rw [htake] at happend
    exact List.append_cancel_left happend
  have htoken : takeToken (w ++ rest) = some (.characters w, rest) := by
    obtain ⟨c, cs, rfl⟩ := List.exists_cons_of_ne_nil hne
    rw [List.cons_append] at htake hdrop ⊢
    rw [takeToken_of_not_isMark (hplain c List.mem_cons_self), htake, hdrop]
  have hlt : rest.length < (w ++ rest).length := by
    have := List.length_pos_iff.2 hne
    simp only [List.length_append]
    omega
  have hsection : hasSectionEnd w = false := by
    rw [hasSectionEnd, takeUntil_eq_none ⟨'>', by decide, hend⟩]
    rfl
  rw [run_of_takeToken htoken hlt]
  simp [step, hsection, Progress.addText, withText]

private theorem run_plain {c : Char} (hc : isMark c = false) (hend : c ≠ '>') {cs : List Char}
    (hcs : '>' ∉ leading cs) :
    run d ⟨f :: fs, root, uses⟩ (c :: cs) = run d (withText f fs root uses [c]) cs := by
  -- the character and those that follow it up to a mark are one token
  have hsplit : leading cs ++ cs.dropWhile (fun c => !isMark c) = cs :=
    List.takeWhile_append_dropWhile
  have hrest : leading (cs.dropWhile fun c => !isMark c) = [] :=
    List.takeWhile_eq_nil_iff.2 (List.dropWhile_get_zero_not _ cs)
  have hplain : ∀ a ∈ leading cs, isMark a = false := by
    intro a ha
    simpa using List.mem_takeWhile_imp ha
  have hfirst : run d ⟨f :: fs, root, uses⟩ (c :: leading cs ++ cs.dropWhile fun c => !isMark c) =
      run d (withText f fs root uses (c :: leading cs)) (cs.dropWhile fun c => !isMark c) := by
    refine run_characters f fs root uses (List.cons_ne_nil _ _) ?_ ?_ hrest
    · intro a ha
      rcases List.mem_cons.1 ha with rfl | ha
      · exact hc
      · exact hplain a ha
    · intro h
      rcases List.mem_cons.1 h with h | h
      · exact hend h.symm
      · exact hcs h
  rw [List.cons_append, hsplit] at hfirst
  rw [hfirst]
  by_cases hnil : leading cs = []
  · rw [hnil] at hsplit ⊢
    rw [List.nil_append] at hsplit
    rw [hsplit]
  · have hsecond := run_characters (d := d) { f with children := addText [c] f.children } fs root
      uses hnil hplain hcs hrest
    rw [hsplit] at hsecond
    rw [withText, withText, hsecond, withText, ← addText_append, List.singleton_append]

private theorem run_reference (written : List Char) {rest : List Char} {piece : Piece} {c : Char}
    (h : takeReference (written ++ rest) = some (piece, rest))
    (hpiece : piece = .numbered c ∨ ∃ name, piece = .entity name ∧ predefined? name = some c) :
    run d ⟨f :: fs, root, uses⟩ ('&' :: written ++ rest) =
      run d (withText f fs root uses [c]) rest := by
  have hlt : rest.length < ('&' :: written ++ rest).length := by
    simp only [List.cons_append, List.length_cons, List.length_append]
    omega
  rcases hpiece with rfl | ⟨name, rfl, hname⟩
  · have htoken : takeToken ('&' :: written ++ rest) = some (.literal [c], rest) := by
      rw [List.cons_append, takeToken, h]
      rfl
    rw [run_of_takeToken htoken hlt]
    rfl
  · have htoken : takeToken ('&' :: written ++ rest) = some (.entity name, rest) := by
      rw [List.cons_append, takeToken, h]
      rfl
    rw [run_of_takeToken htoken hlt]
    simp [step, Progress.addEntity, hname, Progress.addText, withText]

private theorem run_textChar (c : Char) {cs : List Char} (hcs : '>' ∉ leading cs) :
    run d ⟨f :: fs, root, uses⟩ (textChar c ++ cs) = run d (withText f fs root uses [c]) cs := by
  by_cases hamp : c = '&'
  · subst hamp
    exact run_reference f fs root uses "amp;".toList rfl
      (Or.inr ⟨"amp", rfl, rfl⟩)
  by_cases hopen : c = '<'
  · subst hopen
    exact run_reference f fs root uses "lt;".toList rfl
      (Or.inr ⟨"lt", rfl, rfl⟩)
  by_cases hend : c = '>'
  · subst hend
    exact run_reference f fs root uses "gt;".toList rfl
      (Or.inr ⟨"gt", rfl, rfl⟩)
  by_cases hreturn : c = '\r'
  · subst hreturn
    exact run_reference f fs root uses "#13;".toList rfl (Or.inl rfl)
  have hchar : textChar c = [c] := by
    simp [textChar, hamp, hopen, hend, hreturn]
  rw [hchar, List.singleton_append]
  exact run_plain f fs root uses (by simp [isMark, hopen, hamp]) hend hcs

private theorem not_mem_textChar (c : Char) : '>' ∉ textChar c := by
  unfold textChar
  split
  · decide
  split
  · decide
  split
  · decide
  split
  · decide
  · rename_i hend _
    simpa using Ne.symm hend

theorem run_text (cs rest : List Char) :
    run d ⟨f :: fs, root, uses⟩ (cs.flatMap textChar ++ '<' :: rest) =
      run d (withText f fs root uses cs) ('<' :: rest) := by
  induction cs generalizing f with
  | nil =>
    rw [withText, addText_nil]
    rfl
  | cons c cs ih =>
    have hleading : '>' ∉ leading (cs.flatMap textChar ++ '<' :: rest) := by
      rw [leading_append_tag]
      intro h
      obtain ⟨a, -, ha⟩ := List.mem_flatMap.1 ((List.takeWhile_sublist _).mem h)
      exact not_mem_textChar a ha
    rw [List.flatMap_cons, List.append_assoc, run_textChar f fs root uses c hleading, withText, ih]
    rw [withText, withText, ← addText_append, List.singleton_append]

end Inside

/-- How the declaration of a short form is written, as an attribute. -/
def declarationName (short : String) : List Char :=
  if short = "" then "xmlns".toList else "xmlns:".toList ++ short.toList

/-- All that a tag is given, as it is written: the namespaces it declares and its attributes. -/
def given (declared : List (String × String)) (attributes : List (Name × String)) :
    List (List Char × String) :=
  declared.map (fun d => (declarationName d.1, d.2)) ++
    attributes.map fun a => (a.1.written, a.2)

theorem tagText_eq (name : Name) (declared : List (String × String))
    (attributes : List (Name × String)) :
    tagText name declared attributes =
      name.written ++ attributesText (given declared attributes) := by
  rw [tagText, attributesText, given, List.flatMap_append, List.flatMap_map, List.flatMap_map,
    List.append_assoc]
  rfl

private theorem takeToken_of_isNameStart {c : Char} (hc : isNameStart c = true) (cs : List Char) :
    takeToken ('<' :: c :: cs) = (takeQualifiedName (c :: cs)).bind fun n =>
      (takeAttributes [] n.2).bind fun a => some (.opening n.1 a.1 a.2.1, a.2.2) := by
  have hslash : c ≠ '/' := ne_of_isNameStart hc (by decide)
  have hbang : c ≠ '!' := ne_of_isNameStart hc (by decide)
  have hquestion : c ≠ '?' := ne_of_isNameStart hc (by decide)
  unfold takeToken
  split
  · rename_i heq
    cases heq
  · rename_i heq
    exact absurd (List.cons.inj (List.cons.inj heq).2).1 hslash
  · rename_i heq
    exact absurd (List.cons.inj (List.cons.inj heq).2).1 hbang
  · rename_i heq
    exact absurd (List.cons.inj (List.cons.inj heq).2).1 hbang
  · rename_i heq
    exact absurd (List.cons.inj (List.cons.inj heq).2).1 hquestion
  · rename_i heq
    obtain rfl := (List.cons.inj heq).2
    rfl
  · rename_i heq
    cases (List.cons.inj heq).1
  · rename_i hopen _
    exact absurd rfl (hopen _)

theorem takeToken_opening {name : Name} {declared : List (String × String)}
    {attributes : List (Name × String)} (hname : IsReadable name.written)
    (hgiven : ∀ a ∈ given declared attributes, IsReadable a.1) (isEmpty : Bool)
    (rest : List Char) :
    takeToken ('<' :: (tagText name declared attributes ++ (tagEnd isEmpty ++ rest))) =
      some (.opening name.written ((given declared attributes).map escaped) isEmpty, rest) := by
  obtain ⟨c, cs, hstart, hc⟩ := hname.exists_start
  -- behind the name stands a blank or the end of the tag
  obtain ⟨e, more, hmore, he⟩ : ∃ e more,
      attributesText (given declared attributes) ++ (tagEnd isEmpty ++ rest) = e :: more ∧
        isNameChar e = false := by
    cases given declared attributes with
    | nil =>
      cases isEmpty
      · exact ⟨'>', rest, rfl, by decide⟩
      · exact ⟨'/', '>' :: rest, rfl, by decide⟩
    | cons a as => exact ⟨' ', _, rfl, by decide⟩
  have htag : tagText name declared attributes ++ (tagEnd isEmpty ++ rest) =
      c :: (cs ++ e :: more) := by
    rw [tagText_eq, List.append_assoc, hmore, hstart]
    rfl
  have htake : takeQualifiedName (c :: (cs ++ e :: more)) = some (name.written, e :: more) := by
    have h := hname.takeQualifiedName_append he more
    rw [hstart] at h ⊢
    exact h
  have hattributes : takeAttributes [] (e :: more) =
      some ((given declared attributes).map escaped, isEmpty, rest) := by
    rw [← hmore, takeAttributes_written hgiven]
    rfl
  rw [htag, takeToken_of_isNameStart hc, htake, Option.bind_some, hattributes, Option.bind_some]

theorem takeToken_closing {name : List Char} (hname : IsReadable name) (rest : List Char) :
    takeToken ('<' :: '/' :: (name ++ '>' :: rest)) = some (.closing name, rest) := by
  rw [takeToken, hname.takeQualifiedName_append (by decide)]
  simp only [Option.bind_eq_bind, Option.bind_some]
  rw [skipSpaces_cons_of_not (by decide)]
  rfl

end Deposit.Xml
