import Mathlib.Data.List.Forall2
import Deposit.Schema.Record

set_option autoImplicit false
set_option relaxedAutoImplicit false

/-!
When checks succeed. A check of several parts succeeds if the checks of all parts do, and its value
is put together from theirs; so what holds of a checked value can be traced back to the data.
-/

namespace Deposit.Schema

namespace Checked

variable {α β : Type}

@[simp] theorem map_eq_ok_iff {f : α → β} {c : Checked α} {b : β} :
    f <$> c = ok b ↔ ∃ a, c = ok a ∧ f a = b := by
  cases c with
  | ok a =>
    constructor
    · intro h
      exact ⟨a, rfl, ok.inj h⟩
    · rintro ⟨_, h, rfl⟩
      rw [ok.inj h]
      rfl
  | issues is =>
    constructor
    · intro h
      cases h
    · rintro ⟨_, h, -⟩
      cases h

@[simp] theorem seq_eq_ok_iff {f : Checked (α → β)} {c : Checked α} {b : β} :
    f <*> c = ok b ↔ ∃ g a, f = ok g ∧ c = ok a ∧ g a = b := by
  cases f with
  | ok g =>
    cases c with
    | ok a =>
      constructor
      · intro h
        exact ⟨g, a, rfl, rfl, ok.inj h⟩
      · rintro ⟨_, _, hg, ha, rfl⟩
        rw [ok.inj hg, ok.inj ha]
        rfl
    | issues is =>
      constructor
      · intro h
        cases h
      · rintro ⟨_, _, -, h, -⟩
        cases h
  | issues is =>
    constructor
    · intro h
      cases c <;> cases h
    · rintro ⟨_, _, h, -⟩
      cases h

@[simp] theorem andThen_eq_ok_iff {c : Checked α} {f : α → Checked β} {b : β} :
    c.andThen f = ok b ↔ ∃ a, c = ok a ∧ f a = ok b := by
  cases c with
  | ok a => simp [andThen]
  | issues is => simp [andThen]

@[simp] theorem within_eq_ok_iff {step : Step} {c : Checked α} {a : α} :
    c.within step = ok a ↔ c = ok a := by
  cases c with
  | ok a => rfl
  | issues is => simp [within]

@[simp] theorem fail_ne_ok {kind : IssueKind} {a : α} : fail kind ≠ ok a := by
  intro h
  cases h

private theorem all_eq_ok_iff {cs : List (Checked α)} {as : List α} :
    all cs = ok as ↔ cs = as.map ok := by
  induction cs generalizing as with
  | nil => cases as <;> simp [all]
  | cons c cs ih =>
    simp only [all, seq_eq_ok_iff, map_eq_ok_iff, ih]
    constructor
    · rintro ⟨_, rest, ⟨a, rfl, rfl⟩, rfl, rfl⟩
      rfl
    · intro h
      cases as with
      | nil => cases h
      | cons a rest =>
        obtain ⟨rfl, rfl⟩ := List.cons.inj h
        exact ⟨_, rest, ⟨a, rfl, rfl⟩, rfl, rfl⟩

end Checked

variable {α : Type} {check : Json → Checked α} {members : List (String × Json)} {a : α}

theorem record_eq_ok_iff {title : String} {check : List (String × Json) → Checked α} {j : Json} :
    record title check j = .ok a ↔ ∃ members, j = .object members ∧ check members = .ok a := by
  cases j <;> simp [record]

theorem required2_eq_ok_iff {outer inner : String} :
    required2 outer inner check members = .ok a ↔
      ∃ field, find? outer inner members = some field ∧ check field.2 = .ok a := by
  unfold required2
  cases find? outer inner members with
  | none => simp
  | some field => simp

theorem defaulted2_eq_ok_iff {outer inner : String} {fallback : α} :
    defaulted2 outer inner check fallback members = .ok a ↔
      (find? outer inner members = none ∧ a = fallback) ∨
        ∃ field, find? outer inner members = some field ∧ check field.2 = .ok a := by
  unfold defaulted2
  cases find? outer inner members with
  | none => simp [eq_comm]
  | some field => simp

theorem find?_same (name : String) (members : List (String × Json)) :
    find? name name members = (members.lookup name).map fun j => (name, j) := by
  unfold find?
  cases members.lookup name <;> rfl

theorem dictionary_eq_ok_iff {j : Json} {entries : List (String × α)} :
    dictionary check j = .ok entries ↔
      ∃ members, j = .object members ∧
        List.Forall₂ (fun m e => e.1 = m.1 ∧ check m.2 = .ok e.2) members entries := by
  cases j with
  | object members =>
    simp only [dictionary, Checked.all_eq_ok_iff, Json.object.injEq, exists_eq_left']
    induction members generalizing entries with
    | nil => cases entries <;> simp
    | cons m members ih =>
      cases entries with
      | nil => simp
      | cons e entries =>
        rw [List.map_cons, List.map_cons, List.cons.injEq, ih, List.forall₂_cons]
        refine and_congr_left fun _ => ?_
        rw [Checked.map_eq_ok_iff]
        simp only [Checked.within_eq_ok_iff]
        constructor
        · rintro ⟨a, hcheck, rfl⟩
          exact ⟨rfl, hcheck⟩
        · rintro ⟨hname, hcheck⟩
          exact ⟨e.2, hcheck, Prod.ext hname.symm rfl⟩
  | _ => simp [dictionary]

theorem lookup_of_forall₂ {entries : List (String × α)}
    (h : List.Forall₂ (fun m e => e.1 = m.1 ∧ check m.2 = .ok e.2) members entries)
    (name : String) :
    (members.lookup name = none ∧ entries.lookup name = none) ∨
      ∃ j a, members.lookup name = some j ∧ entries.lookup name = some a ∧ check j = .ok a := by
  induction h with
  | nil => exact .inl ⟨rfl, rfl⟩
  | @cons m e members entries hm _ ih =>
    obtain ⟨hname, hcheck⟩ := hm
    rw [← Prod.eta m, ← Prod.eta e, hname, List.lookup_cons, List.lookup_cons]
    by_cases hkey : name = m.1
    · exact .inr ⟨m.2, e.2, by simp [hkey], by simp [hkey], hcheck⟩
    · have hne : (name == m.1) = false := by simpa using hkey
      simpa only [hne] using ih

end Deposit.Schema
