import Deposit.Json.Reader
import Mathlib.Data.List.Nodup

set_option autoImplicit false
set_option relaxedAutoImplicit false

/-!
The names in an object. Setting a member keeps names apart, so an object that has been read has no
name twice, and members whose names are apart already are an object as they stand.
-/

namespace Deposit.Json

variable {name : String} {value : Json} {ms : List (String × Json)}

private theorem insert_of_not_mem (h : name ∉ ms.map Prod.fst) :
    insert name value ms = ms ++ [(name, value)] := by
  induction ms with
  | nil => rfl
  | cons m ms ih =>
    rw [List.map_cons, List.mem_cons, not_or] at h
    rw [insert, if_neg (Ne.symm h.1), ih h.2, List.cons_append]

private theorem nodup_insert (h : (ms.map Prod.fst).Nodup) (name : String) (value : Json) :
    ((insert name value ms).map Prod.fst).Nodup := by
  by_cases hmem : name ∈ ms.map Prod.fst
  · rwa [map_fst_insert_of_mem hmem]
  · rw [insert_of_not_mem hmem, List.map_append]
    exact h.append (List.nodup_singleton name) (by simpa using hmem)

private theorem nodup_foldl_insert {done : List (String × Json)} (h : (done.map Prod.fst).Nodup) :
    ((ms.foldl (fun ms m => insert m.1 m.2 ms) done).map Prod.fst).Nodup := by
  induction ms generalizing done with
  | nil => exact h
  | cons m ms ih => exact ih (nodup_insert h m.1 m.2)

private theorem nodup_objectOf (ms : List (String × Json)) : ((objectOf ms).map Prod.fst).Nodup :=
  nodup_foldl_insert List.nodup_nil

private theorem foldl_insert_of_nodup {done : List (String × Json)}
    (h : ((done ++ ms).map Prod.fst).Nodup) :
    ms.foldl (fun ms m => insert m.1 m.2 ms) done = done ++ ms := by
  induction ms generalizing done with
  | nil => simp
  | cons m ms ih =>
    have hnew : m.1 ∉ done.map Prod.fst := by
      rw [List.map_append, List.map_cons] at h
      exact fun hmem => (List.nodup_append.1 h).2.2 m.1 hmem m.1 List.mem_cons_self rfl
    rw [List.append_cons] at h
    rw [List.foldl_cons, insert_of_not_mem hnew, ih h, ← List.append_cons]

theorem objectOf_of_nodup (h : (ms.map Prod.fst).Nodup) : objectOf ms = ms :=
  foldl_insert_of_nodup h

private theorem exists_of_bind_eq_ok {α β ε : Type} {x : Except ε α} {f : α → Except ε β} {b : β}
    (h : x >>= f = .ok b) : ∃ a, x = .ok a ∧ f a = .ok b := by
  cases x with
  | error e => cases h
  | ok a => exact ⟨a, rfl, h⟩

private theorem membersFrom_eq_ok {limit fuel depth : Nat} {before : List (String × Json)}
    {c rest : Cursor} {j : Json} (h : membersFrom limit fuel depth before c = .ok (j, rest)) :
    ∃ ms, j = .object (objectOf ms) := by
  induction fuel generalizing before c with
  | zero => simp [membersFrom] at h
  | succ fuel ih =>
    unfold membersFrom at h
    split at h
    · obtain ⟨⟨name, c⟩, -, h⟩ := exists_of_bind_eq_ok h
      dsimp only at h
      split at h
      · obtain ⟨⟨x, c⟩, -, h⟩ := exists_of_bind_eq_ok h
        dsimp only at h
        split at h
        · obtain ⟨rfl, -⟩ := Prod.mk.inj (Except.ok.inj h)
          exact ⟨_, rfl⟩
        · exact ih h
        · cases h
      · cases h
    · cases h

private theorem itemsFrom_eq_ok {limit fuel depth : Nat} {before : List Json} {c rest : Cursor}
    {j : Json} (h : itemsFrom limit fuel depth before c = .ok (j, rest)) : ∃ xs, j = .list xs := by
  induction fuel generalizing before c with
  | zero => simp [itemsFrom] at h
  | succ fuel ih =>
    unfold itemsFrom at h
    obtain ⟨⟨x, c⟩, -, h⟩ := exists_of_bind_eq_ok h
    dsimp only at h
    split at h
    · obtain ⟨rfl, -⟩ := Prod.mk.inj (Except.ok.inj h)
      exact ⟨_, rfl⟩
    · exact ih h
    · cases h

private theorem number?_ne_object {c rest : Cursor} {members : List (String × Json)} :
    number? c ≠ some (.ok (.object members, rest)) := by
  intro h
  rw [number?, Option.ite_none_left_eq_some, ite_eq_iff] at h
  obtain ⟨-, ⟨-, hint⟩ | ⟨-, hfloat⟩⟩ := h
  · rcases ite_eq_iff.1 hint with ⟨-, hlong⟩ | ⟨-, hint⟩
    · cases Option.some.inj hlong
    · cases (Prod.mk.inj (Except.ok.inj (Option.some.inj hint))).1
  · cases (Prod.mk.inj (Except.ok.inj (Option.some.inj hfloat))).1

private theorem scalar_ne_object {c rest : Cursor} {members : List (String × Json)} :
    scalar c ≠ .ok (.object members, rest) := by
  intro h
  unfold scalar at h
  split at h
  · rename_i w hw
    have hword := List.mem_of_find?_eq_some hw
    have hobject : w.2 = .object members := (Prod.mk.inj (Except.ok.inj h)).1
    simp only [words, List.mem_cons, List.not_mem_nil, or_false] at hword
    rcases hword with rfl | rfl | rfl | rfl | rfl | rfl <;> cases hobject
  · cases hnumber : number? c with
    | none => simp [hnumber] at h
    | some outcome =>
      rw [hnumber, Option.getD_some] at h
      exact number?_ne_object (hnumber.trans (congrArg some h))

theorem nodup_of_readWithin {limit : Nat} {text : List Char} {members : List (String × Json)}
    (h : readWithin limit text = .ok (.object members)) : (members.map Prod.fst).Nodup := by
  unfold readWithin at h
  split at h
  · cases h
  · obtain ⟨⟨j, c⟩, hvalue, h⟩ := exists_of_bind_eq_ok h
    dsimp only at h
    split at h
    · obtain rfl := Except.ok.inj h
      unfold valueFrom at hvalue
      split at hvalue
      · obtain ⟨⟨s, c⟩, -, hvalue⟩ := exists_of_bind_eq_ok hvalue
        cases hvalue
      · split at hvalue
        · cases hvalue
        · dsimp only at hvalue
          split at hvalue
          · cases hvalue
          · obtain ⟨xs, hlist⟩ := itemsFrom_eq_ok hvalue
            cases hlist
      · split at hvalue
        · cases hvalue
        · dsimp only at hvalue
          split at hvalue
          · cases hvalue
            exact List.nodup_nil
          · obtain ⟨ms, hobject⟩ := membersFrom_eq_ok hvalue
            rw [Json.object.inj hobject]
            exact nodup_objectOf ms
      · exact absurd hvalue scalar_ne_object
    · cases h

end Deposit.Json
