import Deposit.Digest.Tally

set_option autoImplicit false
set_option relaxedAutoImplicit false

/-!
What a tally reports depends only on all bytes that have passed, not on the pieces they came in:
taking in a piece and then another is the same as taking in both at once.
-/

namespace Deposit.Digest

namespace BlockHash

variable (h : BlockHash)

private theorem width_le_of_drop_waiting {bs : Bytes} (hb : bs.drop h.waiting ≠ []) :
    h.width ≤ bs.length := by
  have hlt : h.waiting < bs.length :=
    Nat.lt_of_not_le fun hle => hb (List.drop_of_length_le hle)
  unfold waiting at hlt
  split at hlt <;> omega

private theorem consume_append (s : h.State) (a b : Bytes) :
    h.consume s (a ++ b) = h.consume (h.consume s a).1 ((h.consume s a).2 ++ b) := by
  fun_induction h.consume s a with
  | case1 s a he => rfl
  | case2 s a he ih =>
    have ha : a.drop h.waiting ≠ [] := by simpa [List.isEmpty_iff] using he
    have hw : h.width ≤ a.length := width_le_of_drop_waiting h ha
    have hab : (a ++ b).drop h.waiting ≠ [] := by
      intro hnil
      rw [List.drop_append] at hnil
      exact ha (List.append_eq_nil_iff.1 hnil).1
    rw [consume, if_neg (by simpa [List.isEmpty_iff] using hab), List.take_append_of_le_length hw,
      List.drop_append_of_le_length hw]
    exact ih

@[simp] theorem consume_nil (s : h.State) : h.consume s [] = (s, []) := by
  rw [consume]
  simp

private theorem consume_whole (f : Bytes → Bytes) (s bs : Bytes) :
    (whole f).consume s bs = ((s ++ bs : Bytes), ([] : Bytes)) := by
  induction bs generalizing s with
  | nil =>
    exact (consume_nil (whole f) s).trans
      (congrArg (fun all : Bytes => (all, ([] : Bytes))) (List.append_nil s).symm)
  | cons b bs ih =>
    have hstep : (whole f).consume s (b :: bs) = (whole f).consume (s ++ [b] : Bytes) bs :=
      (consume.eq_1 (whole f) s (b :: bs)).trans (if_neg Bool.false_ne_true)
    rw [hstep, ih, List.append_assoc, List.singleton_append]

theorem digest_whole (f : Bytes → Bytes) (bs : Bytes) : (whole f).digest bs = f bs := by
  have hconsume : (whole f).consume (whole f).start bs = (([] ++ bs : Bytes), ([] : Bytes)) :=
    consume_whole f [] bs
  unfold digest
  rw [hconsume]
  exact congrArg f (List.append_nil bs)

end BlockHash

namespace Hasher

variable {h : BlockHash}

theorem update_update (s : Hasher h) (a b : Bytes) :
    (s.update a).update b = s.update (a ++ b) := by
  simp only [update, ← List.append_assoc, h.consume_append s.state (s.pending ++ a) b,
    List.length_append, Nat.add_assoc]

@[simp] theorem digest_update_start (bs : Bytes) :
    ((start h).update bs).digest = h.digest bs := by
  simp [update, start, digest, BlockHash.digest]

end Hasher

namespace Running

theorem update_update (r : Running) (a b : Bytes) : (r.update a).update b = r.update (a ++ b) := by
  simp only [update, Hasher.update_update]

@[simp] theorem report_update_start (a : Algorithm) (bs : Bytes) :
    ((start a).update bs).report = (a.name, a.digest bs) := by
  simp [start, update, report, Algorithm.digest]

end Running

namespace Tally

theorem update_update (t : Tally) (a b : Bytes) : (t.update a).update b = t.update (a ++ b) := by
  simp only [update, List.map_map, Function.comp_def, Running.update_update, List.length_append,
    Nat.add_assoc]

@[simp] theorem update_start_nil (as : List Algorithm) : (start as).update [] = start as := by
  simp [start, update, Running.start, Running.update, Hasher.start, Hasher.update]

@[simp] theorem count_update_start (as : List Algorithm) (bs : Bytes) :
    ((start as).update bs).count = bs.length := by
  simp [start, update]

@[simp] theorem digests_update_start (as : List Algorithm) (bs : Bytes) :
    ((start as).update bs).digests = (distinct as).map fun a => (a.name, a.digest bs) := by
  simp [start, update, digests]

end Tally

namespace Algorithm

private theorem name_of_ofName? {s : String} {a : Algorithm} (h : ofName? s = some a) :
    a.name = s := by
  have hs := List.find?_some h
  simpa using hs

/-- An algorithm that a platform adds gives what the platform makes of all bytes together, although
the bytes are taken in one by one. -/
theorem digest_additional (name : String) (f : Bytes → Bytes) (bs : Bytes) :
    (additional name f).digest bs = Bytes.toHex (f bs) :=
  congrArg Bytes.toHex (BlockHash.digest_whole f bs)

private theorem ofName?_name_of_mem {a : Algorithm} (h : a ∈ guaranteed) :
    ofName? a.name = some a := by
  simp only [guaranteed, List.mem_cons, List.not_mem_nil, or_false] at h
  rcases h with rfl | rfl | rfl | rfl | rfl | rfl | rfl | rfl | rfl | rfl | rfl | rfl | rfl | rfl
  all_goals rfl

end Algorithm

private theorem filter_eraseDups {α : Type} [BEq α] [LawfulBEq α] (p : α → Bool) :
    ∀ as : List α, as.eraseDups.filter p = (as.filter p).eraseDups
  | [] => rfl
  | a :: as => by
    have hl : (as.filter fun b => !b == a).length < as.length + 1 :=
      Nat.lt_succ_of_le (List.length_filter_le _ _)
    rw [List.eraseDups_cons]
    cases hp : p a with
    | false =>
      rw [List.filter_cons_of_neg (by simp [hp]), List.filter_cons_of_neg (by simp [hp]),
        filter_eraseDups p, List.filter_filter]
      congr 1
      refine List.filter_congr fun b _ => ?_
      by_cases hb : b = a
      · simp [hb, hp]
      · simp [hb]
    | true =>
      rw [List.filter_cons_of_pos hp, List.filter_cons_of_pos hp, List.eraseDups_cons,
        filter_eraseDups p, List.filter_filter, List.filter_filter]
      congr 2
      exact List.filter_congr fun b _ => Bool.and_comm _ _
termination_by as => as.length

private theorem nodup_eraseDups {α : Type} [BEq α] [LawfulBEq α] :
    ∀ as : List α, as.eraseDups.Nodup
  | [] => List.nodup_nil
  | a :: as => by
    have hl : (as.filter fun b => !b == a).length < as.length + 1 :=
      Nat.lt_succ_of_le (List.length_filter_le _ _)
    rw [List.eraseDups_cons, List.nodup_cons, List.mem_eraseDups, List.mem_filter]
    exact ⟨by simp, nodup_eraseDups _⟩
termination_by as => as.length

private theorem map_name_distinct (as : List Algorithm) :
    (distinct as).map Algorithm.name = (as.map Algorithm.name).eraseDups := by
  induction as with
  | nil => rfl
  | cons a as ih =>
    rw [distinct, List.map_cons, List.map_cons, List.eraseDups_cons, ← filter_eraseDups, ← ih,
      List.filter_map]
    congr 2
    refine List.filter_congr fun b _ => ?_
    by_cases hb : b.name = a.name
    · simp [hb]
    · simp [hb]

private theorem mem_of_mem_distinct {a : Algorithm} {as : List Algorithm} (h : a ∈ distinct as) :
    a ∈ as := by
  induction as with
  | nil => exact h
  | cons b as ih =>
    rcases List.mem_cons.1 h with rfl | h
    · exact List.mem_cons_self
    · exact List.mem_cons_of_mem b (ih (List.mem_filter.1 h).1)

/-- Checksums that give the digests of some bytes under some algorithms, in the order of first
mention and without repetition of a name. -/
def Describes (as : List Algorithm) (checksums : List (String × String)) (bs : Bytes) : Prop :=
  checksums = (distinct as).map fun a => (a.name, a.digest bs)

theorem describes_digests (as : List Algorithm) (bs : Bytes) :
    Describes as ((Tally.start as).update bs).digests bs :=
  Tally.digests_update_start as bs

namespace Library

variable {l : Library} {names : List String} {checksums : List (String × String)} {bs : Bytes}

theorem algorithm?_of_guaranteed (l : Library) {a : Algorithm} (h : a ∈ Algorithm.guaranteed) :
    l.algorithm? a.name = some a := by
  rw [algorithm?, Algorithm.ofName?_name_of_mem h, Option.some_or]

theorem name_of_algorithm? {name : String} {a : Algorithm} (h : l.algorithm? name = some a) :
    a.name = name := by
  unfold algorithm? at h
  cases hname : Algorithm.ofName? name with
  | some b =>
    rw [hname, Option.some_or] at h
    obtain rfl := Option.some.inj h
    exact Algorithm.name_of_ofName? hname
  | none =>
    rw [hname, Option.none_or] at h
    obtain ⟨e, he, rfl⟩ := Option.map_eq_some_iff.1 h
    have hname : e.1 = name := by simpa using List.find?_some he
    exact hname

/-- Checksums that give, for every name asked for, in the order of first mention and without
repetition, the digest of some bytes under the algorithm that goes by that name. -/
structure Describes (l : Library) (names : List String) (checksums : List (String × String))
    (bs : Bytes) : Prop where
  names_eq : checksums.map Prod.fst = names.eraseDups
  digest_eq : ∀ c ∈ checksums, ∃ a, l.algorithm? c.1 = some a ∧ c.2 = a.digest bs

theorem Describes.nodup_names (h : l.Describes names checksums bs) :
    (checksums.map Prod.fst).Nodup := by
  rw [h.names_eq]
  exact nodup_eraseDups names

theorem describes_of_forall {as : List Algorithm} (hnames : as.map Algorithm.name = names)
    (has : ∀ a ∈ as, l.algorithm? a.name = some a) (h : Digest.Describes as checksums bs) :
    l.Describes names checksums bs where
  names_eq := by
    rw [h, List.map_map, ← hnames, ← map_name_distinct]
    rfl
  digest_eq := by
    intro c hc
    rw [h] at hc
    obtain ⟨a, ha, rfl⟩ := List.mem_map.1 hc
    exact ⟨a, has a (mem_of_mem_distinct ha), rfl⟩

end Library

end Deposit.Digest
