import Mathlib.Data.List.TakeWhile
import Deposit.Package.Path
import Deposit.Proofs.Text.Folding
import Deposit.Proofs.Text.Separators

set_option autoImplicit false
set_option relaxedAutoImplicit false

/-!
Paths as sequences of segments. Main statements: a path and its segments determine each other, the
directories that a path needs are the proper beginnings of its segments, and they do not depend on
its last segment, whatever stands there. Text without dots that is put behind the last segment, or
between it and its extension, starts no extension of its own.
-/

namespace Deposit.PackagePath

theorem segments_ne_nil (cs : List Char) : segments cs ≠ [] := by
  simp [segments]

@[simp] theorem ofSegments_segments (cs : List Char) : ofSegments (segments cs) = cs :=
  List.intercalate_splitOn '/'

theorem segments_ofSegments {ss : List (List Char)} (hs : ∀ s ∈ ss, '/' ∉ s) (hne : ss ≠ []) :
    segments (ofSegments ss) = ss :=
  List.splitOn_intercalate '/' hs hne

theorem segments_of_slash_not_mem {s : List Char} (h : '/' ∉ s) : segments s = [s] :=
  List.splitOn_eq_singleton h

theorem segments_append_slash (xs ys : List Char) :
    segments (xs ++ '/' :: ys) = segments xs ++ segments ys :=
  List.splitOn_append_cons_self xs ys

private theorem segments_injective : Function.Injective segments := by
  intro p q h
  rw [← ofSegments_segments p, h, ofSegments_segments]

private theorem segments_slash_or (cs : List Char) :
    (segments cs = [cs] ∧ '/' ∉ cs) ∨
      ∃ s rest, cs = s ++ '/' :: rest ∧ '/' ∉ s ∧ segments cs = s :: segments rest := by
  by_cases h : '/' ∈ cs
  · obtain ⟨s, rest, rfl, hs⟩ := List.eq_append_cons_of_mem h
    exact .inr ⟨s, rest, rfl, hs, List.splitOn_append_cons_self_of_not_mem hs rest⟩
  · exact .inl ⟨segments_of_slash_not_mem h, h⟩

theorem slash_not_mem_of_mem_segments {cs s : List Char} (h : s ∈ segments cs) : '/' ∉ s :=
  not_mem_of_mem_splitOn h

private theorem segments_caseFold (cs : List Char) :
    segments (Text.caseFold cs) = (segments cs).map Text.caseFold := by
  rcases segments_slash_or cs with ⟨he, hn⟩ | ⟨s, rest, hcs, hn, he⟩
  · rw [he, segments_of_slash_not_mem (mt Text.slash_mem_caseFold_iff.1 hn)]
    rfl
  · have hs : '/' ∉ Text.caseFold s := mt Text.slash_mem_caseFold_iff.1 hn
    have hf : Text.caseFold cs = Text.caseFold s ++ '/' :: Text.caseFold rest := by
      simp [hcs, Text.CaseFold.ofChar_slash]
    rw [hf, he, segments_append_slash, segments_of_slash_not_mem hs, segments_caseFold rest]
    rfl
termination_by cs.length
decreasing_by
  simp only [hcs, List.length_append, List.length_cons]
  omega

private theorem mem_properPrefixes {α : Type} {xs ys : List α} :
    xs ∈ properPrefixes ys ↔ xs ≠ [] ∧ xs <+: ys ∧ xs ≠ ys := by
  induction ys generalizing xs with
  | nil =>
    simp only [properPrefixes, List.not_mem_nil, List.prefix_nil, false_iff]
    rintro ⟨h, rfl, -⟩
    exact h rfl
  | cons a ys ih =>
    cases ys with
    | nil =>
      simp only [properPrefixes, List.not_mem_nil, false_iff]
      rintro ⟨hne, hp, hn⟩
      obtain ⟨x, xs, rfl⟩ := List.exists_cons_of_ne_nil hne
      obtain ⟨rfl, hx⟩ := List.cons_prefix_cons.1 hp
      exact hn (by rw [List.prefix_nil.1 hx])
    | cons b ys =>
      simp only [properPrefixes, List.mem_cons, List.mem_map]
      constructor
      · rintro (rfl | ⟨zs, hz, rfl⟩)
        · simp
        · obtain ⟨-, hp, hn⟩ := ih.1 hz
          exact ⟨by simp, List.cons_prefix_cons.2 ⟨rfl, hp⟩, by simpa using hn⟩
      · rintro ⟨hne, hp, hn⟩
        obtain ⟨x, xs, rfl⟩ := List.exists_cons_of_ne_nil hne
        obtain ⟨rfl, hxs⟩ := List.cons_prefix_cons.1 hp
        by_cases hx : xs = []
        · exact .inl (by rw [hx])
        · exact .inr ⟨xs, ih.2 ⟨hx, hxs, by simpa using hn⟩, rfl⟩

theorem mem_parents {cs d : List Char} :
    d ∈ parents cs ↔ segments d <+: segments cs ∧ segments d ≠ segments cs := by
  simp only [parents, List.mem_map, mem_properPrefixes]
  constructor
  · rintro ⟨ss, ⟨hne, hp, hn⟩, rfl⟩
    have hs : segments (ofSegments ss) = ss :=
      segments_ofSegments (fun s hm => slash_not_mem_of_mem_segments (hp.subset hm)) hne
    rw [hs]
    exact ⟨hp, hn⟩
  · rintro ⟨hp, hn⟩
    exact ⟨segments d, ⟨segments_ne_nil d, hp, hn⟩, ofSegments_segments d⟩

/-- The segments of a path without regard to case. -/
def folded (cs : List Char) : List (List Char) :=
  segments (Text.caseFold cs)

theorem folded_inj {p q : List Char} : folded p = folded q ↔ Text.caseFold p = Text.caseFold q :=
  segments_injective.eq_iff

theorem folded_ne_nil (cs : List Char) : folded cs ≠ [] :=
  segments_ne_nil _

private theorem folded_eq_map (cs : List Char) : folded cs = (segments cs).map Text.caseFold :=
  segments_caseFold cs

theorem exists_parent_iff {cs : List Char} {ss : List (List Char)} :
    (∃ d ∈ parents cs, folded d = ss) ↔ ss ≠ [] ∧ ss <+: folded cs ∧ ss ≠ folded cs := by
  simp only [mem_parents, folded_eq_map]
  constructor
  · rintro ⟨d, ⟨hp, hn⟩, rfl⟩
    refine ⟨by simp [segments_ne_nil], hp.map _, fun he => hn ?_⟩
    exact hp.eq_of_length (by simpa using congrArg List.length he)
  · rintro ⟨hne, hp, hn⟩
    obtain ⟨ts, hts, rfl⟩ := List.prefix_map_iff.1 hp
    have hs : segments (ofSegments ts) = ts :=
      segments_ofSegments (fun s hm => slash_not_mem_of_mem_segments (hts.subset hm))
        (by simpa using hne)
    refine ⟨ofSegments ts, ⟨?_, fun he => hn (by rw [← he, hs])⟩, by rw [hs]⟩
    rwa [hs]

theorem clash_iff {p q : List Char} :
    Clash p q ↔ folded p <+: folded q ∨ folded q <+: folded p :=
  Iff.rfl

theorem slash_not_mem_baseChars (cs : List Char) : '/' ∉ baseChars cs := by
  intro h
  have hm := List.mem_takeWhile_imp (List.mem_reverse.1 h)
  simp at hm

theorem mem_of_mem_baseChars {cs : List Char} {c : Char} (h : c ∈ baseChars cs) : c ∈ cs :=
  List.mem_reverse.1 ((List.takeWhile_sublist _).mem (List.mem_reverse.1 h))

theorem mem_of_mem_dirChars {cs : List Char} {c : Char} (h : c ∈ dirChars cs) : c ∈ cs :=
  List.mem_reverse.1 ((List.dropWhile_sublist _).mem (List.mem_reverse.1 h))

theorem splitSegment_append (s : List Char) : (splitSegment s).1 ++ (splitSegment s).2 = s := by
  unfold splitSegment
  split
  · simp
  · rename_i dot stem hs
    split
    · simp
    · have hd : dot = '.' := by
        have := List.head?_dropWhile_not (fun c : Char => decide (c ≠ '.')) s.reverse
        simp only [hs, List.head?_cons] at this
        simpa using this
      have hr : s.reverse = s.reverse.takeWhile (· ≠ '.') ++ dot :: stem := by
        rw [← hs, List.takeWhile_append_dropWhile]
      have := congrArg List.reverse hr
      rw [List.reverse_reverse] at this
      conv_rhs => rw [this]
      simp [hd]

theorem slash_not_mem_splitSegment {s : List Char} (h : '/' ∉ s) :
    '/' ∉ (splitSegment s).1 ∧ '/' ∉ (splitSegment s).2 := by
  rw [← splitSegment_append s, List.mem_append, not_or] at h
  exact h

theorem exists_segments_dirChars (cs : List Char) :
    ∃ before, ∀ s, '/' ∉ s → segments (dirChars cs ++ s) = before ++ [s] := by
  rcases hd : cs.reverse.dropWhile (· ≠ '/') with _ | ⟨c, rest⟩
  · have he : dirChars cs = [] := by rw [dirChars, hd, List.reverse_nil]
    exact ⟨[], fun s hs => by rw [he, List.nil_append, segments_of_slash_not_mem hs]; rfl⟩
  · have hc : c = '/' := by
      have := List.head?_dropWhile_not (fun c : Char => decide (c ≠ '/')) cs.reverse
      simp only [hd, List.head?_cons] at this
      simpa using this
    refine ⟨segments rest.reverse, fun s hs => ?_⟩
    have he : dirChars cs ++ s = rest.reverse ++ '/' :: s := by
      rw [dirChars, hd, hc, List.reverse_cons, List.append_assoc, List.singleton_append]
    rw [he, segments_append_slash, segments_of_slash_not_mem hs]

private theorem properPrefixes_concat {α : Type} (xs : List α) (a b : α) :
    properPrefixes (xs ++ [a]) = properPrefixes (xs ++ [b]) := by
  induction xs with
  | nil => rfl
  | cons x xs ih =>
    cases xs with
    | nil => rfl
    | cons y ys =>
      simp only [List.cons_append, properPrefixes] at ih ⊢
      rw [ih]

theorem parents_dirChars_append (cs : List Char) {s t : List Char} (hs : '/' ∉ s) (ht : '/' ∉ t) :
    parents (dirChars cs ++ s) = parents (dirChars cs ++ t) := by
  obtain ⟨before, hb⟩ := exists_segments_dirChars cs
  simp only [parents, hb s hs, hb t ht, properPrefixes_concat before s t]

theorem getLast?_segments (cs : List Char) : (segments cs).getLast? = some (baseChars cs) := by
  obtain ⟨before, hsegments⟩ := exists_segments_dirChars cs
  have hlast := hsegments (baseChars cs) (slash_not_mem_baseChars cs)
  rw [dirChars_append_baseChars] at hlast
  rw [hlast, List.getLast?_append, List.getLast?_singleton, Option.some_or]

theorem exists_eq_append_last {c : Char} {cs : List Char} (h : c ∈ cs) :
    ∃ xs ys, cs = xs ++ c :: ys ∧ c ∉ ys := by
  obtain ⟨ys, xs, hreverse, hys⟩ := List.eq_append_cons_of_mem (List.mem_reverse.2 h)
  refine ⟨xs.reverse, ys.reverse, ?_, fun hmem => hys (List.mem_reverse.1 hmem)⟩
  rw [← List.reverse_reverse cs, hreverse, List.reverse_append, List.reverse_cons,
    List.append_assoc, List.singleton_append]

theorem baseChars_append_slash (xs ys : List Char) :
    baseChars (xs ++ '/' :: ys) = baseChars ys := by
  apply Option.some.inj
  rw [← getLast?_segments, ← getLast?_segments, segments_append_slash,
    List.getLast?_append_of_ne_nil _ (segments_ne_nil ys)]

theorem dirChars_append_slash (xs ys : List Char) :
    dirChars (xs ++ '/' :: ys) = xs ++ '/' :: dirChars ys := by
  have hwhole := dirChars_append_baseChars (xs ++ '/' :: ys)
  have hparts : (xs ++ '/' :: dirChars ys) ++ baseChars ys = xs ++ '/' :: ys := by
    rw [List.append_assoc, List.cons_append, dirChars_append_baseChars]
  rw [baseChars_append_slash] at hwhole
  exact List.append_cancel_right (hwhole.trans hparts.symm)

theorem baseChars_dirChars_append (cs : List Char) {s : List Char} (hs : '/' ∉ s) :
    baseChars (dirChars cs ++ s) = s := by
  obtain ⟨before, hbefore⟩ := exists_segments_dirChars cs
  apply Option.some.inj
  rw [← getLast?_segments, hbefore s hs, List.getLast?_concat]

private theorem dirChars_dirChars_append (cs : List Char) {s : List Char} (hs : '/' ∉ s) :
    dirChars (dirChars cs ++ s) = dirChars cs := by
  have hwhole := dirChars_append_baseChars (dirChars cs ++ s)
  rw [baseChars_dirChars_append cs hs] at hwhole
  exact List.append_cancel_right hwhole

theorem baseChars_of_slash_not_mem {s : List Char} (hs : '/' ∉ s) : baseChars s = s :=
  baseChars_dirChars_append [] hs

variable {s t stem e cs : List Char}

/-- A segment without an extension: leading dots, and no dot behind them. -/
def IsBare (s : List Char) : Prop :=
  ∃ dots rest, s = dots ++ rest ∧ dots.all (· = '.') = true ∧ '.' ∉ rest

private theorem isBare_of_not_mem (h : '.' ∉ s) : IsBare s :=
  ⟨[], s, rfl, rfl, h⟩

theorem IsBare.append (h : IsBare s) (ht : '.' ∉ t) : IsBare (s ++ t) := by
  obtain ⟨dots, rest, rfl, hdots, hrest⟩ := h
  refine ⟨dots, rest ++ t, List.append_assoc dots rest t, hdots, ?_⟩
  rw [List.mem_append, not_or]
  exact ⟨hrest, ht⟩

private theorem dropWhile_reverse_append (he : '.' ∉ e) (s : List Char) :
    (s ++ e).reverse.dropWhile (· ≠ '.') = s.reverse.dropWhile (· ≠ '.') := by
  rw [List.reverse_append, List.dropWhile_append_of_pos]
  intro c hc
  rw [decide_eq_true_iff]
  rintro rfl
  exact he (List.mem_reverse.1 hc)

theorem splitSegment_of_isBare (h : IsBare s) : splitSegment s = (s, []) := by
  obtain ⟨dots, rest, rfl, hdots, hrest⟩ := h
  unfold splitSegment
  rw [dropWhile_reverse_append hrest]
  split
  · rfl
  · rename_i c others hothers
    have hall : others.all (· = '.') = true := by
      rw [List.all_eq_true] at hdots ⊢
      intro d hd
      apply hdots d
      have hmem : d ∈ dots.reverse.dropWhile (· ≠ '.') := by
        rw [hothers]
        exact List.mem_cons_of_mem c hd
      exact List.mem_reverse.1 ((List.dropWhile_sublist _).mem hmem)
    rw [if_pos hall]

theorem splitSegment_of_dot (hstem : stem.all (· = '.') = false) (he : '.' ∉ e) :
    splitSegment (stem ++ '.' :: e) = (stem, '.' :: e) := by
  have hsplit : stem ++ '.' :: e = (stem ++ ['.']) ++ e := by
    rw [List.append_assoc, List.singleton_append]
  have hdrop : (stem ++ '.' :: e).reverse.dropWhile (· ≠ '.') = '.' :: stem.reverse := by
    rw [hsplit, dropWhile_reverse_append he, List.reverse_append]
    rfl
  have htake : (stem ++ '.' :: e).reverse.takeWhile (· ≠ '.') = e.reverse := by
    have hwhole : (stem ++ '.' :: e).reverse = e.reverse ++ '.' :: stem.reverse := by
      rw [List.reverse_append, List.reverse_cons, List.append_assoc, List.singleton_append]
    apply List.append_cancel_right
    rw [← hwhole, ← hdrop, List.takeWhile_append_dropWhile]
  have hreverse : ¬ stem.reverse.all (· = '.') = true := by
    rw [List.all_reverse, hstem]
    exact Bool.false_ne_true
  unfold splitSegment
  rw [hdrop, htake]
  dsimp only
  rw [if_neg hreverse, List.reverse_reverse, List.reverse_reverse]

theorem isBare_or_exists_dot (s : List Char) :
    IsBare s ∨ ∃ stem e, s = stem ++ '.' :: e ∧ stem.all (· = '.') = false ∧ '.' ∉ e := by
  by_cases hdot : '.' ∈ s
  · obtain ⟨before, behind, hs, hplain⟩ := exists_eq_append_last hdot
    cases hall : before.all (· = '.') with
    | true =>
      refine Or.inl ⟨before ++ ['.'], behind, ?_, ?_, hplain⟩
      · rw [hs, List.append_assoc, List.singleton_append]
      · rw [List.all_append, hall]
        rfl
    | false => exact Or.inr ⟨_, _, hs, hall, hplain⟩
  · exact Or.inl (isBare_of_not_mem hdot)

theorem splitSegment_snd_eq_nil_iff : (splitSegment s).2 = [] ↔ IsBare s := by
  constructor
  · intro h
    rcases isBare_or_exists_dot s with hbare | ⟨stem, e, rfl, hstem, he⟩
    · exact hbare
    · rw [splitSegment_of_dot hstem he] at h
      cases h
  · intro h
    rw [splitSegment_of_isBare h]

theorem splitSegment_append_plain (s : List Char) (ht : '.' ∉ t) :
    splitSegment (s ++ t) =
      if (splitSegment s).2 = [] then (s ++ t, [])
      else ((splitSegment s).1, (splitSegment s).2 ++ t) := by
  rcases isBare_or_exists_dot s with hbare | ⟨stem, e, rfl, hstem, he⟩
  · rw [if_pos (splitSegment_snd_eq_nil_iff.2 hbare), splitSegment_of_isBare (hbare.append ht)]
  · have het : '.' ∉ e ++ t := by
      rw [List.mem_append, not_or]
      exact ⟨he, ht⟩
    rw [List.append_assoc, List.cons_append, splitSegment_of_dot hstem het,
      splitSegment_of_dot hstem he, if_neg (List.cons_ne_nil '.' e), List.cons_append]

theorem splitSegment_insert_plain (s : List Char) (ht : '.' ∉ t) :
    splitSegment ((splitSegment s).1 ++ t ++ (splitSegment s).2) =
      ((splitSegment s).1 ++ t, (splitSegment s).2) := by
  rcases isBare_or_exists_dot s with hbare | ⟨stem, e, rfl, hstem, he⟩
  · rw [splitSegment_of_isBare hbare, List.append_nil, splitSegment_of_isBare (hbare.append ht)]
  · have hstems : (stem ++ t).all (· = '.') = false := by
      rw [List.all_append, hstem, Bool.false_and]
    rw [splitSegment_of_dot hstem he, splitSegment_of_dot hstems he]

theorem splitExtension_dirChars_append (cs : List Char) (hs : '/' ∉ s) :
    splitExtension (dirChars cs ++ s) =
      (dirChars cs ++ (splitSegment s).1, (splitSegment s).2) := by
  rw [splitExtension, baseChars_dirChars_append cs hs, dirChars_dirChars_append cs hs]

end Deposit.PackagePath
