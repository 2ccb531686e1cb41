import Deposit.Proofs.Assembly.Assembler
import Deposit.Proofs.Xml.RoundTrip
import Deposit.Status.Document

set_option autoImplicit false
set_option relaxedAutoImplicit false

/-!
What a statement reports. The reported state is decided by which states are reported at all, so
where in the statement a category stands, how often, and beside which others does not matter. The
notices about unknown terms are given one by one, in the order of the document.
-/

namespace Deposit

namespace SwordState

/-- How final a state is. -/
def finality : SwordState → Nat
  | archived => 3
  | withdrawn => 2
  | inReview => 1
  | inProgress => 0

private theorem finality_injective {s t : SwordState} (h : s.finality = t.finality) : s = t := by
  cases s <;> cases t <;> first | rfl | cases h

private theorem mem_precedence (s : SwordState) : s ∈ precedence := by
  cases s <;> decide

private theorem pairwise_precedence : precedence.Pairwise fun s t => t.finality < s.finality := by
  decide

/-- The more final of two states, where both are known. -/
def moreFinal? : Option SwordState → Option SwordState → Option SwordState
  | none, t => t
  | some s, none => some s
  | some s, some t => some (if t.finality ≤ s.finality then s else t)

variable {xs ys : List SwordState} {s : SwordState}

private theorem finality_le_of_mostFinal? (h : mostFinal? xs = some s) :
    ∀ t ∈ xs, t.finality ≤ s.finality := by
  obtain ⟨-, earlier, later, hsplit, hearlier⟩ := List.find?_eq_some_iff_append.1 h
  have hfalling := pairwise_precedence
  rw [hsplit, List.pairwise_append, List.pairwise_cons] at hfalling
  intro t ht
  have hmem : t ∈ earlier ++ s :: later := hsplit ▸ mem_precedence t
  rcases List.mem_append.1 hmem with hmem | hmem
  · -- what is looked for earlier is not there
    have hnot := hearlier t hmem
    simp [ht] at hnot
  · rcases List.mem_cons.1 hmem with rfl | hmem
    · exact Nat.le_refl _
    · exact Nat.le_of_lt (hfalling.2.1.1 t hmem)

private theorem mostFinal?_eq_none_iff : mostFinal? xs = none ↔ xs = [] := by
  unfold mostFinal?
  rw [List.find?_eq_none]
  constructor
  · intro h
    refine List.eq_nil_iff_forall_not_mem.2 fun s hs => h s (mem_precedence s) ?_
    simpa using hs
  · rintro rfl s -
    simp

private theorem mostFinal?_eq_some_iff :
    mostFinal? xs = some s ↔ s ∈ xs ∧ ∀ t ∈ xs, t.finality ≤ s.finality := by
  refine ⟨fun h => ⟨mem_of_mostFinal? h, finality_le_of_mostFinal? h⟩, ?_⟩
  rintro ⟨hs, hmax⟩
  cases h : mostFinal? xs with
  | none =>
    rw [mostFinal?_eq_none_iff.1 h] at hs
    cases hs
  | some u =>
    have hle := hmax u (mem_of_mostFinal? h)
    have hge := finality_le_of_mostFinal? h s hs
    rw [finality_injective (Nat.le_antisymm hle hge)]

private theorem mostFinal?_congr (h : ∀ s, s ∈ xs ↔ s ∈ ys) : mostFinal? xs = mostFinal? ys := by
  refine Option.ext fun s => ?_
  rw [mostFinal?_eq_some_iff, mostFinal?_eq_some_iff, h s]
  simp only [h]

private theorem mostFinal?_append :
    mostFinal? (xs ++ ys) = moreFinal? (mostFinal? xs) (mostFinal? ys) := by
  cases hx : mostFinal? xs with
  | none => rw [mostFinal?_eq_none_iff.1 hx, List.nil_append, moreFinal?]
  | some s =>
    cases hy : mostFinal? ys with
    | none => rw [mostFinal?_eq_none_iff.1 hy, List.append_nil, hx, moreFinal?]
    | some t =>
      obtain ⟨hs, hsmax⟩ := mostFinal?_eq_some_iff.1 hx
      obtain ⟨ht, htmax⟩ := mostFinal?_eq_some_iff.1 hy
      rw [moreFinal?, mostFinal?_eq_some_iff]
      split
      · rename_i hle
        refine ⟨List.mem_append_left _ hs, fun u hu => ?_⟩
        rcases List.mem_append.1 hu with hu | hu
        · exact hsmax u hu
        · exact (htmax u hu).trans hle
      · rename_i hlt
        refine ⟨List.mem_append_right _ ht, fun u hu => ?_⟩
        rcases List.mem_append.1 hu with hu | hu
        · have := hsmax u hu
          omega
        · exact htmax u hu

private theorem ofValue?_eq_some_iff {term : String} :
    Vocabulary.ofValue? term = some s ↔ term = s.token := by
  constructor
  · intro h
    exact (Vocabulary.value_of_ofValue? h).symm
  · rintro rfl
    cases s <;> decide

end SwordState

namespace StateReport

variable {term : String}

private theorem state?_ofTerm {s : SwordState} :
    (ofTerm term).state? = some s ↔ Text.trim term = s.token := by
  rw [← SwordState.ofValue?_eq_some_iff, ofTerm]
  cases Vocabulary.ofValue? (α := SwordState) (Text.trim term) with
  | none => simp [state?]
  | some t => simp [state?]

private theorem notice?_ofTerm (term : String) :
    (ofTerm term).notice? =
      if ∀ s ∈ SwordState.precedence, Text.trim term ≠ s.token then
        some ("Ignoring unknown deposit state '" ++ Text.trim term ++ "'")
      else none := by
  unfold ofTerm
  cases hvalue : Vocabulary.ofValue? (α := SwordState) (Text.trim term) with
  | none =>
    have hno : ∀ s ∈ SwordState.precedence, Text.trim term ≠ s.token := by
      intro s _ hs
      rw [SwordState.ofValue?_eq_some_iff.2 hs] at hvalue
      cases hvalue
    rw [if_pos hno]
    simp only [hvalue, notice?]
  | some s =>
    have hs : Text.trim term = s.token := SwordState.ofValue?_eq_some_iff.1 hvalue
    rw [if_neg fun hno => hno s s.mem_precedence hs]
    simp only [hvalue, notice?]

end StateReport

namespace Statement

/-- A category that reports a known state: it is of the scheme of states, and its term, without the
blanks around it, is the token of the state. -/
def Reports (category : Xml.Node) (s : SwordState) : Prop :=
  category.attribute? "scheme" = some SwordState.scheme ∧
    ∃ term, category.attribute? "term" = some term ∧ Text.trim term = s.token

/-- A category of a statement: a child of the statement itself, or of one of its entries. -/
def HasCategory (root category : Xml.Node) : Prop :=
  category.isElement atomSpace "category" = true ∧
    (category ∈ root.children ∨
      ∃ entry ∈ root.children, entry.isElement atomSpace "entry" = true ∧
        category ∈ entry.children)

/-- A state that some category of a statement reports. -/
def IsReported (root : Xml.Node) (s : SwordState) : Prop :=
  ∃ category, HasCategory root category ∧ Reports category s

/-- A category of the scheme of states whose term is the token of no state. -/
def IsUnknown (category : Xml.Node) : Prop :=
  category.attribute? "scheme" = some SwordState.scheme ∧
    ∀ s ∈ SwordState.precedence, Text.trim ((category.attribute? "term").getD "") ≠ s.token

instance : DecidablePred IsUnknown := fun _ => inferInstanceAs (Decidable (_ ∧ _))

/-- The warning about a category of which the term is the token of no state. -/
def warning (category : Xml.Node) : String :=
  "Ignoring unknown deposit state '" ++ Text.trim ((category.attribute? "term").getD "") ++ "'"

variable {root other category : Xml.Node} {s : SwordState}

private theorem mem_categories_iff : category ∈ categories root ↔ HasCategory root category := by
  simp only [categories, Xml.Node.childElements, List.mem_append, List.mem_filter,
    List.mem_flatMap, HasCategory]
  constructor
  · rintro (⟨hmem, hname⟩ | ⟨entry, ⟨hentry, hkind⟩, hmem, hname⟩)
    · exact ⟨hname, .inl hmem⟩
    · exact ⟨hname, .inr ⟨entry, hentry, hkind, hmem⟩⟩
  · rintro ⟨hname, hmem | ⟨entry, hentry, hkind, hmem⟩⟩
    · exact .inl ⟨hmem, hname⟩
    · exact .inr ⟨entry, ⟨hentry, hkind⟩, hmem, hname⟩

private theorem state?_of_report? :
    (report? category).bind StateReport.state? = some s ↔ Reports category s := by
  unfold report? Reports
  by_cases hscheme : category.attribute? "scheme" = some SwordState.scheme
  · rw [if_pos hscheme, Option.bind_some, StateReport.state?_ofTerm]
    cases category.attribute? "term" with
    | none =>
      -- a category without a term has the empty one, which is no token
      have hempty : Text.trim "" ≠ s.token := by cases s <;> decide
      simp [hempty]
    | some term => simp [hscheme]
  · simp [hscheme]

private theorem notice?_of_report? (category : Xml.Node) :
    (report? category).bind StateReport.notice? =
      if IsUnknown category then some (warning category) else none := by
  unfold report? IsUnknown
  by_cases hscheme : category.attribute? "scheme" = some SwordState.scheme
  · simp only [hscheme, if_true, Option.bind_some, StateReport.notice?_ofTerm, true_and]
    rfl
  · simp [hscheme]

private theorem mem_states_iff :
    s ∈ (reports root).filterMap StateReport.state? ↔ IsReported root s := by
  rw [reports, List.filterMap_filterMap, List.mem_filterMap]
  simp only [mem_categories_iff, state?_of_report?]
  rfl

private theorem notices_eq (root : Xml.Node) :
    notices root = ((categories root).filter IsUnknown).map warning := by
  rw [notices, reports, List.filterMap_filterMap]
  simp only [notice?_of_report?]
  induction categories root with
  | nil => rfl
  | cons category rest ih =>
    by_cases h : IsUnknown category
    · rw [List.filterMap_cons, if_pos h, List.filter_cons_of_pos (by simpa using h), List.map_cons,
        ih]
    · rw [List.filterMap_cons, if_neg h, List.filter_cons_of_neg (by simpa using h), ih]

end Statement

namespace StatusDocument

variable {decoder : Xml.Decoder} {document : String} {fetched : Except FetchFault Bytes}
  {root : Xml.Node}

theorem ofFetched_ok (decoder : Xml.Decoder) (document : String) (bytes : Bytes) :
    ofFetched decoder document (.ok bytes) =
      (statement decoder bytes).mapError (StatusError.mk document) := rfl

theorem ofFetched_eq_ok_iff :
    ofFetched decoder document fetched = .ok root ↔
      ∃ bytes, fetched = .ok bytes ∧ decoder.root? bytes = some root ∧
        Statement.isStatement root = true := by
  constructor
  · intro h
    cases fetched with
    | error fault => cases h
    | ok bytes =>
      rw [ofFetched_ok, statement] at h
      cases hread : decoder.root? bytes with
      | none =>
        rw [hread] at h
        cases h
      | some found =>
        rw [hread] at h
        dsimp only at h
        split at h
        · rename_i hkind
          cases h
          exact ⟨bytes, rfl, hread, hkind⟩
        · cases h
  · rintro ⟨bytes, rfl, hread, hkind⟩
    rw [ofFetched_ok, statement, hread]
    dsimp only
    rw [if_pos hkind]
    rfl

end StatusDocument

namespace Statement

variable {root : Xml.Node} {s : SwordState}

/-- The notice about the state that a document reports. -/
def conclusion (document : String) (state : Option SwordState) : Notice :=
  ⟨.debug, "Status document " ++ document ++ " reports state " ++ StatusDocument.shownState state⟩

theorem run_readFetched {decoder : Xml.Decoder} {document : String}
    {fetched : Except FetchFault Bytes}
    (hroot : StatusDocument.ofFetched decoder document fetched = .ok root)
    (before : Surroundings) :
    (StatusDocument.readFetched decoder document fetched : StateM Surroundings _).run before =
      (.ok (state? root),
        { before with
          log := conclusion document (state? root) ::
            ((((categories root).filter IsUnknown).map fun category =>
              ⟨.warning, warning category⟩).reverse ++ before.log) }) := by
  have hnotices := Surroundings.run_notices before .warning (notices root)
  rw [notices_eq, List.map_map] at hnotices
  unfold StatusDocument.readFetched
  rw [hroot]
  dsimp only
  rw [notices_eq, Surroundings.run_bind_of_run hnotices]
  rfl

theorem state?_eq_some_iff :
    state? root = some s ↔
      IsReported root s ∧ ∀ t, IsReported root t → t.finality ≤ s.finality := by
  rw [state?, SwordState.mostFinal?_eq_some_iff]
  simp only [mem_states_iff]

private theorem state?_eq_none_iff : state? root = none ↔ ∀ s, ¬ IsReported root s := by
  rw [state?, SwordState.mostFinal?_eq_none_iff, List.eq_nil_iff_forall_not_mem]
  simp only [mem_states_iff]

private theorem state?_of_union {left right : Xml.Node}
    (h : ∀ s, IsReported root s ↔ IsReported left s ∨ IsReported right s) :
    state? root = SwordState.moreFinal? (state? left) (state? right) := by
  unfold state?
  rw [← SwordState.mostFinal?_append]
  refine SwordState.mostFinal?_congr fun s => ?_
  rw [List.mem_append, mem_states_iff, mem_states_iff, mem_states_iff]
  exact h s

/-- The state of a statement is the most final one that some category of the scheme of states
reports. Statements with the same reporting categories have the same state, in whatever order, how
often and on which level these stand, and whatever stands beside them; and of a statement with the
reporting categories of two others it is the more final of the states of these. Each category of
the scheme with an unknown term is warned about once, in the order of the categories. -/
theorem state_of_statement (root : Xml.Node) :
    (∀ s, state? root = some s ↔
      IsReported root s ∧ ∀ t, IsReported root t → t.finality ≤ s.finality) ∧
    (state? root = none ↔ ∀ s, ¬ IsReported root s) ∧
    (∀ other, (∀ category s, Reports category s →
        (HasCategory root category ↔ HasCategory other category)) →
      state? root = state? other) ∧
    (∀ left right, (∀ category s, Reports category s →
        (HasCategory root category ↔ HasCategory left category ∨ HasCategory right category)) →
      state? root = SwordState.moreFinal? (state? left) (state? right)) ∧
    ∀ decoder document fetched before,
      StatusDocument.ofFetched decoder document fetched = .ok root →
      (StatusDocument.readFetched decoder document fetched : StateM Surroundings _).run before =
        (.ok (state? root),
          { before with
            log := conclusion document (state? root) ::
              ((((categories root).filter IsUnknown).map fun category =>
                ⟨.warning, warning category⟩).reverse ++ before.log) }) := by
  refine ⟨fun s => state?_eq_some_iff, state?_eq_none_iff, ?_, ?_, ?_⟩
  · intro other h
    have hreported : ∀ s, IsReported root s ↔ IsReported other s := by
      intro s
      exact exists_congr fun category => and_congr_left fun hreports => h category s hreports
    refine SwordState.mostFinal?_congr fun s => ?_
    rw [mem_states_iff, mem_states_iff]
    exact hreported s
  · intro left right h
    refine state?_of_union fun s => ?_
    unfold IsReported
    rw [← exists_or]
    refine exists_congr fun category => ?_
    rw [← or_and_right]
    exact and_congr_left fun hreports => h category s hreports
  · intro decoder document fetched before hroot
    exact run_readFetched hroot before

/-- A category of a scheme with a term. -/
def markedBy (scheme term : String) : Xml.Node :=
  .element ⟨"", atomSpace, "category"⟩ [] [(.plain "scheme", scheme), (.plain "term", term)] []

/-- A feed or an entry with nothing but children. -/
def atomElement (base : String) (children : List Xml.Node) : Xml.Node :=
  .element ⟨"", atomSpace, base⟩ [] [] children

def underReview : Xml.Node :=
  markedBy SwordState.scheme "\thttp://dspace.org/state/inreview "

def takenBack : Xml.Node :=
  markedBy SwordState.scheme "http://dspace.org/state/withdrawn"

/-- The same term in another scheme says nothing about the deposit. -/
def labelled : Xml.Node :=
  markedBy "urn:labels" "http://dspace.org/state/archived"

def mystery : Xml.Node :=
  markedBy SwordState.scheme "http://dspace.org/state/mystery"

/-- A feed that is marked twice itself, beside a label. -/
def gatheredFeed : Xml.Node :=
  atomElement "feed" [underReview, labelled, takenBack]

/-- A feed with the same marks on its entries, one of them twice, beside an unknown one. -/
def scatteredFeed : Xml.Node :=
  atomElement "feed"
    [atomElement "entry" [takenBack], mystery, atomElement "entry" [takenBack, underReview]]

/-- A document whose feed and entry are marked, with two unknown marks. -/
def markedText : String :=
  "<feed xmlns='http://www.w3.org/2005/Atom'>
    <entry><category scheme='http://purl.org/net/sword/terms/state' term='later'/></entry>
    <category scheme='http://purl.org/net/sword/terms/state' term=' sooner '/>
    <category scheme='http://purl.org/net/sword/terms/state'
      term='http://dspace.org/state/inreview'/>
  </feed>"

private theorem not_reports_labelled (s : SwordState) : ¬ Reports labelled s := by
  rintro ⟨hscheme, -⟩
  revert hscheme
  decide

private theorem not_reports_mystery (s : SwordState) : ¬ Reports mystery s := by
  rintro ⟨-, term, hterm, hs⟩
  have hmystery : mystery.attribute? "term" = some "http://dspace.org/state/mystery" := rfl
  obtain rfl := Option.some.inj (hmystery.symm.trans hterm)
  revert hs
  cases s <;> decide

theorem read_markedText :
    ∃ root, Xml.read (Bytes.ofText markedText) = some root ∧ isStatement root = true ∧
      state? root = some .inReview ∧
      ((categories root).filter IsUnknown).map warning =
        ["Ignoring unknown deposit state 'sooner'", "Ignoring unknown deposit state 'later'"] := by
  have hplain : Xml.read (Bytes.ofText markedText) = Xml.readText markedText.toList := by
    refine Xml.read_ofText ?_ ?_ ?_
    · rw [Bytes.ofText, markedText, String.toList_ofList]
      decide +kernel
    · rw [Bytes.ofText, markedText, String.toList_ofList]
      decide +kernel
    · rw [markedText, String.toList_ofList]
      decide +kernel
  have hread : (Xml.readText markedText.toList).map (fun root =>
      (isStatement root, state? root, ((categories root).filter IsUnknown).map warning)) =
        some (true, some .inReview, ["Ignoring unknown deposit state 'sooner'",
          "Ignoring unknown deposit state 'later'"]) := by
    rw [markedText, String.toList_ofList]
    decide +kernel
  obtain ⟨root, hroot, hall⟩ := Option.map_eq_some_iff.1 hread
  rw [Prod.mk.injEq, Prod.mk.injEq] at hall
  exact ⟨root, hplain.trans hroot, hall⟩

theorem state_of_marked_feeds :
    state? gatheredFeed = state? scatteredFeed ∧
      state? scatteredFeed = SwordState.moreFinal? (state? (atomElement "entry" [underReview]))
        (state? (atomElement "entry" [takenBack])) ∧
      ∀ before,
        (StatusDocument.readFetched Xml.decoder "statement" (.ok (Bytes.ofText markedText)) :
          StateM Surroundings _).run before =
        (.ok (some .inReview),
          { before with
            log :=
              [⟨.debug, "Status document statement reports state SwordState.IN_REVIEW"⟩,
                ⟨.warning, "Ignoring unknown deposit state 'later'"⟩,
                ⟨.warning, "Ignoring unknown deposit state 'sooner'"⟩] ++ before.log }) := by
  have hgathered : categories gatheredFeed = [underReview, labelled, takenBack] := rfl
  have hscattered : categories scatteredFeed = [mystery, takenBack, takenBack, underReview] := rfl
  have hreview : categories (atomElement "entry" [underReview]) = [underReview] := rfl
  have hback : categories (atomElement "entry" [takenBack]) = [takenBack] := rfl
  refine ⟨?_, ?_, ?_⟩
  · refine (state_of_statement gatheredFeed).2.2.1 scatteredFeed ?_
    intro category s hreports
    have hlabelled : category ≠ labelled := fun h => not_reports_labelled s (h ▸ hreports)
    have hmystery : category ≠ mystery := fun h => not_reports_mystery s (h ▸ hreports)
    rw [← mem_categories_iff, ← mem_categories_iff, hgathered, hscattered]
    simp only [List.mem_cons, List.not_mem_nil, hlabelled, hmystery]
    tauto
  · refine (state_of_statement scatteredFeed).2.2.2.1 _ _ ?_
    intro category s hreports
    have hmystery : category ≠ mystery := fun h => not_reports_mystery s (h ▸ hreports)
    rw [← mem_categories_iff, ← mem_categories_iff, ← mem_categories_iff, hscattered, hreview,
      hback]
    simp only [List.mem_cons, List.not_mem_nil, hmystery]
    tauto
  · intro before
    obtain ⟨root, hread, hkind, hstate, hwarnings⟩ := read_markedText
    have hroot : StatusDocument.ofFetched Xml.decoder "statement" (.ok (Bytes.ofText markedText)) =
        .ok root :=
      StatusDocument.ofFetched_eq_ok_iff.2 ⟨_, rfl, hread, hkind⟩
    have hnotices : ((categories root).filter IsUnknown).map (fun category =>
        (⟨.warning, warning category⟩ : Notice)) =
          (((categories root).filter IsUnknown).map warning).map (Notice.mk .warning) := by
      rw [List.map_map]
      rfl
    rw [(state_of_statement root).2.2.2.2 Xml.decoder "statement" _ before hroot, hnotices,
      hwarnings, hstate]
    rfl

end Statement
end Deposit
