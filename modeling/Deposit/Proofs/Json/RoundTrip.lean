import Deposit.Proofs.Json.Objects
import Deposit.Proofs.Json.Scalars

set_option autoImplicit false
set_option relaxedAutoImplicit false

/-!
Reading what has been printed. The blanks of a layout are skipped, and every value is read from its
printed form whatever comes behind it, by induction over the value; a value whose names are distinct
and that has no floating number is read as it was printed.
-/

namespace Deposit.Json

variable {tail : List Char}

private theorem skip_append {gap cs : List Char} {c : Char} (hgap : ∀ b ∈ gap, isSpace b = true)
    (hc : isSpace c = false) (position : Nat) :
    skip position (gap ++ c :: cs) = ⟨position + gap.length, c :: cs⟩ := by
  induction gap generalizing position with
  | nil => simp [skip, hc]
  | cons b gap ih =>
    obtain ⟨hb, hgap⟩ := List.forall_mem_cons.1 hgap
    rw [List.cons_append, skip, if_pos hb, ih hgap, List.length_cons]
    exact congrArg (Cursor.mk · _) (by omega)

private theorem isSpace_of_mem_start (l : Layout) : ∀ b ∈ l.start, isSpace b = true := by
  cases l with
  | line =>
    intro b hb
    cases hb
  | indented n =>
    intro b hb
    rcases List.mem_cons.1 hb with rfl | hb
    · rfl
    · rw [List.eq_of_mem_replicate hb]
      rfl

private theorem exists_separator (l : Layout) :
    ∃ gap, l.separator = ',' :: gap ∧ ∀ b ∈ gap, isSpace b = true := by
  cases l with
  | line => exact ⟨[' '], rfl, by simp [isSpace]⟩
  | indented n => exact ⟨_, rfl, isSpace_of_mem_start _⟩

private theorem ends_start_append (l : Layout) {c : Char} (hc : c = ']' ∨ c = '\x7d') (tail :
    List Char) :
    Ends (l.start ++ c :: tail) := by
  intro d hd
  cases l with
  | line =>
    obtain rfl := Option.some.inj hd
    exact Or.inr (Or.inr hc)
  | indented n =>
    obtain rfl := Option.some.inj hd
    exact Or.inr (Or.inl rfl)

private theorem ends_separator_append (l : Layout) (tail : List Char) :
    Ends (l.separator ++ tail) := by
  obtain ⟨gap, hgap, -⟩ := exists_separator l
  intro d hd
  rw [hgap] at hd
  obtain rfl := Option.some.inj hd
  exact Or.inl rfl

/-- Values that are read as they were printed, with at most a number of lists and objects around the
innermost one: names are distinct, no integer is too long, and there are no other numbers. -/
inductive Plain : Nat → Json → Prop where
  | null (n : Nat) : Plain n .null
  | bool (n : Nat) (b : Bool) : Plain n (.bool b)
  | int (n : Nat) {i : Int} (h : i.natAbs < 10 ^ integerLimit) : Plain n (.int i)
  | text (n : Nat) (s : String) : Plain n (.text s)
  | list {n : Nat} {xs : List Json} (h : ∀ x ∈ xs, Plain n x) : Plain (n + 1) (.list xs)
  | object {n : Nat} {ms : List (String × Json)} (hnames : (ms.map Prod.fst).Nodup)
      (h : ∀ m ∈ ms, Plain n m.2) : Plain (n + 1) (.object ms)

private theorem exists_render_eq_cons {n : Nat} {j : Json} (h : Plain n j) (l : Layout) :
    ∃ c cs, render l j = c :: cs ∧ isSpace c = false ∧ c ≠ ']' ∧ c ≠ '\ufeff' := by
  cases h with
  | null => exact ⟨_, _, rfl, by decide⟩
  | bool n b => cases b <;> exact ⟨_, _, rfl, by decide⟩
  | @int n i hi =>
    obtain ⟨d, ds, hd, hds⟩ := exists_toDigits_eq_cons i.natAbs
    rcases toList_decimalInt i with ⟨-, htext⟩ | ⟨-, htext⟩
    · exact ⟨'-', _, by rw [render, htext], by decide⟩
    · refine ⟨d, ds, by rw [render, htext, hds], ?_, ?_, ?_⟩
      · have hspace : d ≠ ' ' ∧ d ≠ '\t' ∧ d ≠ '\n' ∧ d ≠ '\r' := by
          refine ⟨?_, ?_, ?_, ?_⟩ <;>
            · rintro rfl
              cases hd
        simp [isSpace, hspace]
      · rintro rfl
        cases hd
      · rintro rfl
        cases hd
  | text n s => exact ⟨_, _, rfl, by decide⟩
  | @list n xs h => cases xs <;> exact ⟨_, _, rfl, by decide⟩
  | @object n ms hnames h =>
    cases ms with
    | nil => exact ⟨_, _, rfl, by decide⟩
    | cons m ms => exact ⟨_, _, rfl, by decide⟩

/-- A value is read from its printed form, whatever comes behind it. -/
def Returns (n : Nat) (j : Json) : Prop :=
  ∀ (l : Layout) (tail : List Char) (limit fuel depth position : Nat), Ends tail →
    depth + n ≤ limit → (render l j).length ≤ fuel →
    ∃ p, valueFrom limit fuel depth ⟨position, render l j ++ tail⟩ = .ok (j, ⟨p, tail⟩)

private theorem valueFrom_of_scalar {limit fuel depth : Nat} {c : Cursor}
    (h : ∀ x ∈ c.rest.head?, x ≠ '"' ∧ x ≠ '[' ∧ x ≠ '\x7b') :
    valueFrom limit (fuel + 1) depth c = scalar c := by
  rw [valueFrom]
  split
  · rename_i hc
    exact absurd rfl (h '"' (by rw [hc]; rfl)).1
  · rename_i hc
    exact absurd rfl (h '[' (by rw [hc]; rfl)).2.1
  · rename_i hc
    exact absurd rfl (h '\x7b' (by rw [hc]; rfl)).2.2
  · rfl

private theorem returns_null (n : Nat) : Returns n .null := by
  intro l tail limit fuel depth position _ _ hfuel
  obtain ⟨fuel, rfl⟩ := Nat.exists_eq_add_of_le' hfuel
  refine ⟨position + 4, ?_⟩
  exact valueFrom_of_scalar (by simp [render])

private theorem returns_bool (n : Nat) (b : Bool) : Returns n (.bool b) := by
  intro l tail limit fuel depth position _ _ hfuel
  obtain ⟨fuel, rfl⟩ := Nat.exists_eq_add_of_le' hfuel
  cases b with
  | true => exact ⟨position + 4, valueFrom_of_scalar (by simp [render])⟩
  | false => exact ⟨position + 5, valueFrom_of_scalar (by simp [render])⟩

private theorem returns_int (n : Nat) {i : Int} (hi : i.natAbs < 10 ^ integerLimit) :
    Returns n (.int i) := by
  intro l tail limit fuel depth position htail _ hfuel
  obtain ⟨d, ds, hd, hds⟩ := exists_toDigits_eq_cons i.natAbs
  have hmarks : d ≠ '"' ∧ d ≠ '[' ∧ d ≠ '\x7b' ∧ d ≠ 'n' ∧ d ≠ 't' ∧ d ≠ 'f' ∧ d ≠ 'N' ∧ d ≠ 'I' ∧
      d ≠ '-' := by
    refine ⟨?_, ?_, ?_, ?_, ?_, ?_, ?_, ?_, ?_⟩ <;>
      · rintro rfl
        cases hd
  obtain ⟨hquote, hlist, hobject, hn, ht, hf, hN, hI, hminus⟩ := hmarks
  have hhead : ∀ x ∈ ((Text.decimalInt i).toList ++ tail).head?,
      x ≠ '"' ∧ x ≠ '[' ∧ x ≠ '\x7b' := by
    rcases toList_decimalInt i with ⟨-, htext⟩ | ⟨-, htext⟩ <;>
      simp [htext, hds, hquote, hlist, hobject]
  have hwords : words.find? (fun w => w.1.isPrefixOf ((Text.decimalInt i).toList ++ tail)) =
      none := by
    rcases toList_decimalInt i with ⟨-, htext⟩ | ⟨-, htext⟩ <;>
      simp [htext, hds, words, hn.symm, ht.symm, hf.symm, hN.symm, hI.symm, hminus.symm]
  have hpos : 0 < (render l (.int i)).length := by
    rw [render]
    rcases toList_decimalInt i with ⟨-, htext⟩ | ⟨-, htext⟩ <;> simp [htext, hds]
  obtain ⟨fuel, rfl⟩ := Nat.exists_eq_add_of_le' (Nat.le_trans hpos hfuel)
  obtain ⟨p, hnumber⟩ := number?_of_int hi htail position
  refine ⟨p, ?_⟩
  rw [render, valueFrom_of_scalar hhead, scalar]
  simp only [hwords, hnumber, Option.getD_some]

private theorem returns_text (n : Nat) (s : String) : Returns n (.text s) := by
  intro l tail limit fuel depth position _ _ hfuel
  have hpos : 0 < (render l (.text s)).length := by simp [render, stringText]
  obtain ⟨fuel, rfl⟩ := Nat.exists_eq_add_of_le' (Nat.le_trans hpos hfuel)
  obtain ⟨p, hstring⟩ := stringFrom_flatMap_charText position (position + 1) [] s.toList tail
  refine ⟨p, ?_⟩
  rw [render, stringText, List.cons_append, List.append_assoc, List.singleton_append, valueFrom]
  simp only [hstring, bind, Except.bind, pure, Except.pure, List.reverse_nil, List.nil_append,
    String.ofList_toList]

section

variable {limit fuel depth p : Nat} {c : Cursor} {x : Json} {gap : List Char}

private theorem skip_of_not_isSpace {a : Char} (ha : isSpace a = false) (position : Nat)
    (cs : List Char) : skip position (a :: cs) = ⟨position, a :: cs⟩ := by
  rw [skip, if_neg (by simp [ha])]

private theorem itemsFrom_last {done : List Json}
    (hx : valueFrom limit fuel depth c = .ok (x, ⟨p, gap ++ ']' :: tail⟩))
    (hgap : ∀ b ∈ gap, isSpace b = true) :
    itemsFrom limit (fuel + 1) depth done c =
      .ok (.list (done.reverse ++ [x]), ⟨p + gap.length + 1, tail⟩) := by
  rw [itemsFrom]
  simp only [hx, bind, Except.bind, skip_append hgap (show isSpace ']' = false from rfl), pure,
    Except.pure, List.reverse_cons]

private theorem itemsFrom_next {done : List Json} {a : Char}
    (hx : valueFrom limit fuel depth c = .ok (x, ⟨p, ',' :: (gap ++ a :: tail)⟩))
    (hgap : ∀ b ∈ gap, isSpace b = true) (ha : isSpace a = false) :
    itemsFrom limit (fuel + 1) depth done c =
      itemsFrom limit fuel depth (x :: done) ⟨p + 1 + gap.length, a :: tail⟩ := by
  rw [itemsFrom]
  simp only [hx, bind, Except.bind, skip_of_not_isSpace (show isSpace ',' = false from rfl),
    skip_append hgap ha]

private theorem membersFrom_named (done : List (String × Json)) {text rest : List Char} {a : Char}
    (ha : isSpace a = false)
    (hx : ∀ q, ∃ p, valueFrom limit fuel depth ⟨q, a :: text⟩ = .ok (x, ⟨p, rest⟩))
    (name : String) (position : Nat) :
    ∃ p, membersFrom limit (fuel + 1) depth done
        ⟨position, stringText name ++ ':' :: ' ' :: a :: text⟩ =
      match (skip p rest).rest with
      | '}' :: cs =>
        .ok (.object (objectOf (done.reverse ++ [(name, x)])), ⟨(skip p rest).position + 1, cs⟩)
      | ',' :: cs =>
        membersFrom limit fuel depth ((name, x) :: done) (skip ((skip p rest).position + 1) cs)
      | _ => .error ⟨.comma, (skip p rest).position⟩ := by
  obtain ⟨q, hname⟩ := stringFrom_flatMap_charText position (position + 1) [] name.toList
    (':' :: ' ' :: a :: text)
  obtain ⟨p, hvalue⟩ := hx (q + 1 + 1)
  have hspace : ∀ b ∈ [' '], isSpace b = true := by simp [isSpace]
  have hblank : skip (q + 1) (' ' :: a :: text) = ⟨q + 1 + 1, a :: text⟩ :=
    skip_append hspace ha (q + 1)
  refine ⟨p, ?_⟩
  rw [stringText, List.cons_append, List.append_assoc, List.singleton_append, membersFrom]
  simp only [hname, bind, Except.bind, skip_of_not_isSpace (show isSpace ':' = false from rfl),
    hblank, hvalue, pure, Except.pure, List.reverse_nil, List.nil_append, String.ofList_toList,
    List.reverse_cons]
  rfl

private theorem membersFrom_last (done : List (String × Json)) {text : List Char} {a : Char}
    (ha : isSpace a = false)
    (hx : ∀ q, ∃ p, valueFrom limit fuel depth ⟨q, a :: text⟩ = .ok (x, ⟨p, gap ++ '\x7d' :: tail⟩))
    (hgap : ∀ b ∈ gap, isSpace b = true) (name : String) (position : Nat) :
    ∃ p, membersFrom limit (fuel + 1) depth done
        ⟨position, stringText name ++ ':' :: ' ' :: a :: text⟩ =
      .ok (.object (objectOf (done.reverse ++ [(name, x)])), ⟨p, tail⟩) := by
  obtain ⟨p, hmember⟩ := membersFrom_named done ha hx name position
  refine ⟨p + gap.length + 1, ?_⟩
  rw [hmember]
  simp only [skip_append hgap (show isSpace '\x7d' = false from rfl)]

private theorem membersFrom_next (done : List (String × Json)) {text : List Char} {a b : Char}
    (ha : isSpace a = false)
    (hx : ∀ q, ∃ p, valueFrom limit fuel depth ⟨q, a :: text⟩ =
      .ok (x, ⟨p, ',' :: (gap ++ b :: tail)⟩))
    (hgap : ∀ b ∈ gap, isSpace b = true) (hb : isSpace b = false) (name : String)
    (position : Nat) :
    ∃ p, membersFrom limit (fuel + 1) depth done
        ⟨position, stringText name ++ ':' :: ' ' :: a :: text⟩ =
      membersFrom limit fuel depth ((name, x) :: done) ⟨p, b :: tail⟩ := by
  obtain ⟨p, hmember⟩ := membersFrom_named done ha hx name position
  refine ⟨p + 1 + gap.length, ?_⟩
  rw [hmember]
  simp only [skip_of_not_isSpace (show isSpace ',' = false from rfl), skip_append hgap hb]

end

variable {n : Nat}

private theorem itemsFrom_render {x : Json} {xs : List Json} (hplain : ∀ y ∈ x :: xs, Plain n y)
    (h : ∀ y ∈ x :: xs, Returns n y) (l outer : Layout) (tail : List Char)
    {limit fuel depth : Nat} (position : Nat) (done : List Json) (hdepth : depth + n ≤ limit)
    (hfuel : (render l x).length + (renderItems l xs).length < fuel) :
    ∃ p, itemsFrom limit fuel depth done
        ⟨position, render l x ++ (renderItems l xs ++ (outer.start ++ ']' :: tail))⟩ =
      .ok (.list (done.reverse ++ x :: xs), ⟨p, tail⟩) := by
  induction xs generalizing x fuel position done with
  | nil =>
    obtain ⟨fuel, rfl⟩ := Nat.exists_eq_add_of_le' (Nat.succ_le_of_lt (Nat.zero_lt_of_lt hfuel))
    obtain ⟨p, hx⟩ := h x List.mem_cons_self l (outer.start ++ ']' :: tail) limit fuel depth
      position (ends_start_append outer (Or.inl rfl) tail) hdepth (by omega)
    exact ⟨_, itemsFrom_last hx (isSpace_of_mem_start outer)⟩
  | cons y ys ih =>
    obtain ⟨fuel, rfl⟩ := Nat.exists_eq_add_of_le' (Nat.succ_le_of_lt (Nat.zero_lt_of_lt hfuel))
    obtain ⟨gap, hseparator, hgap⟩ := exists_separator l
    obtain ⟨hreturns, hothers⟩ := List.forall_mem_cons.1 h
    obtain ⟨hfirst, hplain⟩ := List.forall_mem_cons.1 hplain
    obtain ⟨a, text, hy, ha, -, -⟩ := exists_render_eq_cons (hplain y List.mem_cons_self) l
    obtain ⟨b, more, hx, -⟩ := exists_render_eq_cons hfirst l
    have hlength := congrArg List.length hx
    simp only [renderItems, hseparator, List.length_append, List.length_cons] at hfuel hlength
    obtain ⟨p, hvalue⟩ := hreturns l
      (renderItems l (y :: ys) ++ (outer.start ++ ']' :: tail)) limit fuel depth position
      (by rw [renderItems, List.append_assoc, List.append_assoc]; exact ends_separator_append l _)
      hdepth (by omega)
    have hnext : renderItems l (y :: ys) ++ (outer.start ++ ']' :: tail) =
        ',' :: (gap ++ a :: (text ++ (renderItems l ys ++ (outer.start ++ ']' :: tail)))) := by
      simp [renderItems, hseparator, hy]
    rw [hnext] at hvalue ⊢
    have hless : (render l y).length + (renderItems l ys).length < fuel := by omega
    obtain ⟨q, hrest⟩ := ih hplain hothers (p + 1 + gap.length) (x :: done) hless
    refine ⟨q, ?_⟩
    rw [itemsFrom_next hvalue hgap ha]
    rw [hy, List.cons_append, List.reverse_cons, List.append_assoc] at hrest
    exact hrest

private theorem membersFrom_render {name : String} {x : Json} {ms : List (String × Json)}
    (hplain : ∀ m ∈ (name, x) :: ms, Plain n m.2) (h : ∀ m ∈ (name, x) :: ms, Returns n m.2)
    (l outer : Layout) (tail : List Char) {limit fuel depth : Nat} (position : Nat)
    (done : List (String × Json)) (hdepth : depth + n ≤ limit)
    (hfuel : (render l x).length + (renderMembers l ms).length < fuel) :
    ∃ p, membersFrom limit fuel depth done
        ⟨position, stringText name ++ ':' :: ' ' ::
          (render l x ++ (renderMembers l ms ++ (outer.start ++ '\x7d' :: tail)))⟩ =
      .ok (.object (objectOf (done.reverse ++ (name, x) :: ms)), ⟨p, tail⟩) := by
  induction ms generalizing name x fuel position done with
  | nil =>
    obtain ⟨fuel, rfl⟩ := Nat.exists_eq_add_of_le' (Nat.succ_le_of_lt (Nat.zero_lt_of_lt hfuel))
    obtain ⟨a, text, hx, ha, -, -⟩ := exists_render_eq_cons (hplain _ List.mem_cons_self) l
    have hvalue := fun q => h _ List.mem_cons_self l (outer.start ++ '\x7d' :: tail) limit fuel
      depth q (ends_start_append outer (Or.inr rfl) tail) hdepth (by dsimp only; omega)
    dsimp only at hx hvalue
    rw [hx] at hvalue ⊢
    exact membersFrom_last done ha hvalue (isSpace_of_mem_start outer) name position
  | cons m ms ih =>
    obtain ⟨fuel, rfl⟩ := Nat.exists_eq_add_of_le' (Nat.succ_le_of_lt (Nat.zero_lt_of_lt hfuel))
    obtain ⟨gap, hseparator, hgap⟩ := exists_separator l
    obtain ⟨hreturns, hothers⟩ := List.forall_mem_cons.1 h
    obtain ⟨hfirst, hplain⟩ := List.forall_mem_cons.1 hplain
    obtain ⟨a, text, hx, ha, -, -⟩ := exists_render_eq_cons hfirst l
    have hlength := congrArg List.length hx
    simp only [renderMembers, hseparator, List.length_append, List.length_cons] at hfuel hlength
    have hvalue := fun q => hreturns l
      (renderMembers l (m :: ms) ++ (outer.start ++ '\x7d' :: tail)) limit fuel depth q
      (by
        rw [renderMembers, List.append_assoc, List.append_assoc, List.append_assoc]
        exact ends_separator_append l _)
      hdepth (by dsimp only; omega)
    have hnext : renderMembers l (m :: ms) ++ (outer.start ++ '\x7d' :: tail) =
        ',' :: (gap ++ '"' :: (m.1.toList.flatMap charText ++ '"' :: ':' :: ' ' ::
          (render l m.2 ++ (renderMembers l ms ++ (outer.start ++ '\x7d' :: tail))))) := by
      simp [renderMembers, hseparator, stringText]
    dsimp only at hx hvalue
    rw [hnext, hx, List.cons_append] at hvalue
    obtain ⟨p, hmember⟩ := membersFrom_next done ha hvalue hgap
      (show isSpace '"' = false from rfl) name position
    have hless : (render l m.2).length + (renderMembers l ms).length < fuel := by omega
    obtain ⟨q, hrest⟩ := ih hplain hothers p ((name, x) :: done) hless
    refine ⟨q, ?_⟩
    rw [hnext, hx, List.cons_append]
    rw [stringText, List.cons_append, List.append_assoc, List.singleton_append, List.reverse_cons,
      List.append_assoc] at hrest
    exact hmember.trans hrest

private theorem returns_of_plain {j : Json} (h : Plain n j) : Returns n j := by
  induction h with
  | null n => exact returns_null n
  | bool n b => exact returns_bool n b
  | int n hi => exact returns_int n hi
  | text n s => exact returns_text n s
  | @list n xs hplain ih =>
    intro l tail limit fuel depth position _ hdepth hfuel
    have hshallow : ¬ limit ≤ depth := by omega
    cases xs with
    | nil =>
      obtain ⟨fuel, rfl⟩ := Nat.exists_eq_add_of_le' (Nat.le_trans (Nat.succ_pos 1) hfuel)
      refine ⟨position + 1 + 1, ?_⟩
      rw [render, List.cons_append, List.singleton_append, valueFrom]
      simp only [if_neg hshallow, skip_of_not_isSpace (show isSpace ']' = false from rfl)]
    | cons x xs =>
      obtain ⟨a, text, hx, ha, hbracket, -⟩ := exists_render_eq_cons
        (hplain x List.mem_cons_self) l.inner
      have htext : render l (.list (x :: xs)) ++ tail = '[' :: (l.inner.start ++ a ::
          (text ++ (renderItems l.inner xs ++ (l.start ++ ']' :: tail)))) := by
        simp [render, hx]
      have hlength := congrArg List.length (show render l (.list (x :: xs)) = '[' ::
        (l.inner.start ++ render l.inner x ++ renderItems l.inner xs ++ l.start ++ [']']) from rfl)
      simp only [List.length_cons, List.length_append, List.length_nil] at hlength
      obtain ⟨fuel, rfl⟩ := Nat.exists_eq_add_of_le' (show 1 ≤ fuel by omega)
      have hless : (render l.inner x).length + (renderItems l.inner xs).length < fuel := by omega
      obtain ⟨p, hitems⟩ := itemsFrom_render hplain ih l.inner l tail
        (position + 1 + l.inner.start.length) [] (show depth + 1 + n ≤ limit by omega) hless
      refine ⟨p, ?_⟩
      rw [hx, List.cons_append] at hitems
      rw [htext, valueFrom]
      simp only [if_neg hshallow, skip_append (isSpace_of_mem_start l.inner) ha]
      split
      · rename_i hc
        exact absurd (List.cons.inj hc).1 hbracket
      · exact hitems
  | @object n ms hnames hplain ih =>
    intro l tail limit fuel depth position _ hdepth hfuel
    have hshallow : ¬ limit ≤ depth := by omega
    cases ms with
    | nil =>
      obtain ⟨fuel, rfl⟩ := Nat.exists_eq_add_of_le' (Nat.le_trans (Nat.succ_pos 1) hfuel)
      refine ⟨position + 1 + 1, ?_⟩
      rw [render, List.cons_append, List.singleton_append, valueFrom]
      simp only [if_neg hshallow, skip_of_not_isSpace (show isSpace '\x7d' = false from rfl)]
    | cons m ms =>
      have htext : render l (.object (m :: ms)) ++ tail = '\x7b' :: (l.inner.start ++ '"' ::
          (m.1.toList.flatMap charText ++ '"' :: ':' :: ' ' :: (render l.inner m.2 ++
            (renderMembers l.inner ms ++ (l.start ++ '\x7d' :: tail))))) := by
        simp [render, stringText]
      have hlength := congrArg List.length (show render l (.object (m :: ms)) = '\x7b' ::
        (l.inner.start ++ stringText m.1 ++ ':' :: ' ' :: render l.inner m.2 ++
          renderMembers l.inner ms ++ l.start ++ ['\x7d']) from rfl)
      simp only [List.length_cons, List.length_append, List.length_nil] at hlength
      obtain ⟨fuel, rfl⟩ := Nat.exists_eq_add_of_le' (show 1 ≤ fuel by omega)
      have hless : (render l.inner m.2).length + (renderMembers l.inner ms).length < fuel := by
        omega
      obtain ⟨p, hmembers⟩ := membersFrom_render hplain ih l.inner l tail
        (position + 1 + l.inner.start.length) [] (show depth + 1 + n ≤ limit by omega) hless
      refine ⟨p, ?_⟩
      rw [List.reverse_nil, List.nil_append, objectOf_of_nodup hnames, stringText,
        List.cons_append, List.append_assoc, List.singleton_append] at hmembers
      rw [htext, valueFrom]
      simp only [if_neg hshallow, skip_append (isSpace_of_mem_start l.inner)
        (show isSpace '"' = false from rfl)]
      exact hmembers

/-- A plain value that is not nested too deeply is read from its printed form, on one line or on
many. -/
theorem readWithin_render {limit : Nat} {j : Json} (h : Plain n j) (hn : n ≤ limit)
    (l : Layout) : readWithin limit (render l j) = .ok j := by
  obtain ⟨c, cs, htext, hc, -, hmark⟩ := exists_render_eq_cons h l
  obtain ⟨p, hvalue⟩ := returns_of_plain h l [] limit (2 * (render l j).length + 2) 0 0
    (fun c hc => by cases hc) (by omega) (by omega)
  rw [List.append_nil, htext] at hvalue
  rw [htext]
  unfold readWithin
  split
  · rename_i hcs
    exact absurd (List.cons.inj hcs).1 hmark
  · simp only [skip_of_not_isSpace hc, hvalue, bind, Except.bind]
    rfl

end Deposit.Json
