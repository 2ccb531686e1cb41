import Deposit.Proofs.Schema.Checked
import Deposit.Proofs.Status.Statement
import Deposit.Status.Processor

set_option autoImplicit false
set_option relaxedAutoImplicit false

/-!
From the configuration of repositories and a status document to the status of a deposit. Accepted
data always has an entry for everything else, so every document that holds a statement yields a
status; everything else that can go wrong is a fault of the document.
-/

namespace Deposit

namespace DepositStatus

private theorem value_injective {s t : DepositStatus} (h : s.value = t.value) : s = t := by
  cases s <;> cases t <;> first | rfl | (revert h; decide)

theorem member_eq_ok_iff {j : Json} {s : DepositStatus} :
    Schema.member DepositStatus j = .ok s ↔ j = .text s.value := by
  cases j with
  | text word =>
    rw [Json.text.injEq]
    unfold Schema.member
    constructor
    · intro h
      cases hword : Vocabulary.ofValue? (α := DepositStatus) word with
      | none => simp [hword] at h
      | some t =>
        have hvalue : t.value = word := Vocabulary.value_of_ofValue? hword
        simp only [hword, Option.map_some, Option.getD_some, Schema.Checked.ok.injEq] at h
        rw [← h, hvalue]
    · rintro rfl
      cases s <;> rfl
  | _ => simp [Schema.member]

end DepositStatus

namespace StatusMapping

/-- A table has the members of an object as its entries, each of them a status. -/
def Tabulates (m : StatusMapping) (members : List (String × Json)) : Prop :=
  List.Forall₂ (fun member e => e.1 = member.1 ∧ Schema.member DepositStatus member.2 = .ok e.2)
    members m.entries

variable {m : StatusMapping} {members : List (String × Json)}

private theorem entries_of_ofEntries? {entries : List (String × DepositStatus)}
    (h : ofEntries? entries = some m) : m.entries = entries := by
  unfold ofEntries? at h
  split at h
  · rw [← Option.some.inj h]
  · cases h

private theorem tabulates_of_check {j : Json} (h : check j = .ok m) :
    ∃ members, j = .object members ∧ m.Tabulates members := by
  unfold check at h
  obtain ⟨entries, hentries, hm⟩ := Schema.Checked.andThen_eq_ok_iff.1 h
  obtain ⟨members, rfl, hall⟩ := Schema.dictionary_eq_ok_iff.1 hentries
  cases htable : ofEntries? entries with
  | none => simp [htable] at hm
  | some table =>
    simp only [htable, Schema.Checked.ok.injEq] at hm
    obtain rfl := hm
    refine ⟨members, rfl, ?_⟩
    unfold Tabulates
    rwa [entries_of_ofEntries? htable]

theorem Tabulates.lookup_cases (h : m.Tabulates members) (name : String) :
    (members.lookup name = none ∧ m.entries.lookup name = none) ∨
      ∃ s, members.lookup name = some (.text s.value) ∧ m.entries.lookup name = some s := by
  rcases Schema.lookup_of_forall₂ h name with hnone | ⟨j, s, hj, hs, hcheck⟩
  · exact .inl hnone
  · rw [DepositStatus.member_eq_ok_iff.1 hcheck] at hj
    exact .inr ⟨s, hj, hs⟩

end StatusMapping

namespace StatusSettings

private theorem text_eq_ok_iff {j : Json} {s : String} : Schema.text j = .ok s ↔ j = .text s := by
  cases j <;> simp [Schema.text]

private theorem fields_of_check {j : Json} {settings : StatusSettings}
    (h : check j = .ok settings) :
    ∃ members table, j = .object members ∧
      settings.processor =
        ((members.lookup "processor").bind Json.text?).getD "sword-dspace" ∧
      members.lookup "mapping" = some (.object table) ∧ settings.mapping.Tabulates table := by
  obtain ⟨members, rfl, hfields⟩ := Schema.record_eq_ok_iff.1 h
  simp only [Schema.Checked.seq_eq_ok_iff, Schema.Checked.map_eq_ok_iff] at hfields
  obtain ⟨_, mapping, ⟨processor, hprocessor, rfl⟩, hmapping, rfl⟩ := hfields
  rw [Schema.required, Schema.required2_eq_ok_iff, Schema.find?_same] at hmapping
  obtain ⟨_, hsome, hcheck⟩ := hmapping
  obtain ⟨given, hgiven, rfl⟩ := Option.map_eq_some_iff.1 hsome
  obtain ⟨table, rfl, htable⟩ := StatusMapping.tabulates_of_check hcheck
  refine ⟨members, table, rfl, ?_, hgiven, htable⟩
  rw [Schema.defaulted, Schema.defaulted2_eq_ok_iff, Schema.find?_same] at hprocessor
  rcases hprocessor with ⟨hnone, rfl⟩ | ⟨_, hsome, htext⟩
  · rw [Option.map_eq_none_iff.1 hnone]
    rfl
  · obtain ⟨word, hword, rfl⟩ := Option.map_eq_some_iff.1 hsome
    obtain rfl := text_eq_ok_iff.1 htext
    rw [hword]
    rfl

end StatusSettings

namespace Repository

/-- What the data of a repository says about the status of deposits. -/
def statusData? (j : Json) : Option Json :=
  (Schema.find? "deposit-config" "deposit_config" (j.members?.getD [])).map Prod.snd

/-- The name of the processor in the data of a repository, or the usual one. -/
def processorName (j : Json) : String :=
  (((statusData? j).bind (·.get? "processor")).bind Json.text?).getD "sword-dspace"

/-- The table in the data of a repository, member by member. -/
def tableData (j : Json) : List (String × Json) :=
  (((statusData? j).bind (·.get? "mapping")).bind Json.members?).getD []

theorem status_of_check {j : Json} {r : Repository} (h : check j = .ok r) :
    r.status.processor = processorName j ∧ r.status.mapping.Tabulates (tableData j) := by
  obtain ⟨members, rfl, hfields⟩ := Schema.record_eq_ok_iff.1 h
  simp only [Schema.Checked.seq_eq_ok_iff, Schema.Checked.map_eq_ok_iff] at hfields
  obtain ⟨_, _, ⟨_, _, ⟨_, _, ⟨status, hstatus, rfl⟩, -, rfl⟩, -, rfl⟩, -, rfl⟩ := hfields
  obtain ⟨field, hfield, hcheck⟩ := Schema.required2_eq_ok_iff.1 hstatus
  obtain ⟨settings, table, hsettings, hprocessor, hmapping, htable⟩ :=
    StatusSettings.fields_of_check hcheck
  have hdata : statusData? (.object members) = some (.object settings) := by
    rw [statusData?, Json.members?, Option.getD_some, hfield, Option.map_some, hsettings]
  constructor
  · rw [hprocessor, processorName, hdata]
    rfl
  · have hname : tableData (.object members) = table := by
      simp [tableData, hdata, Json.get?, hmapping, Json.members?]
    rw [hname]
    exact htable

end Repository

namespace Repositories

variable {members : List (String × Json)} {rs : Repositories}

theorem forall₂_of_check (h : check members = .ok rs) :
    List.Forall₂ (fun member e => e.1 = member.1 ∧ Repository.check member.2 = .ok e.2)
      members rs := by
  induction members generalizing rs with
  | nil =>
    obtain rfl : [] = rs := by simpa [check] using h
    exact .nil
  | cons member members ih =>
    obtain ⟨name, j⟩ := member
    obtain ⟨r, hr, hrest⟩ := Schema.Checked.andThen_eq_ok_iff.1 h
    obtain ⟨later, hlater, rfl⟩ := Schema.Checked.map_eq_ok_iff.1 hrest
    exact .cons ⟨rfl, hr⟩ (ih hlater)

private theorem find?_cases (h : check members = .ok rs) (name : String) :
    (members.lookup name = none ∧ rs.find? name = none) ∨
      ∃ j r, members.lookup name = some j ∧ rs.find? name = some r ∧
        r.status.processor = Repository.processorName j ∧
        r.status.mapping.Tabulates (Repository.tableData j) := by
  rcases Schema.lookup_of_forall₂ (forall₂_of_check h) name with hnone | ⟨j, r, hj, hr, hcheck⟩
  · exact .inl hnone
  · exact .inr ⟨j, r, hj, hr, Repository.status_of_check hcheck⟩

/-- A name has no processor: no repository has that name, or it has a processor that is not
known. -/
inductive Unprocessed (members : List (String × Json)) (name : String) : ConfigurationError → Prop
  | absent : members.lookup name = none → Unprocessed members name (.noRepository name)
  | unknown (j : Json) : members.lookup name = some j →
      Repository.processorName j ≠ "sword-dspace" →
      Unprocessed members name (.unknownProcessor (Repository.processorName j) name)

private theorem processor_eq_error_iff (h : check members = .ok rs) {name : String}
    {e : ConfigurationError} :
    rs.processor name = .error e ↔ Unprocessed members name e := by
  unfold processor
  rcases find?_cases h name with ⟨hdata, hrs⟩ | ⟨j, r, hdata, hrs, hprocessor, -⟩
  · rw [hrs]
    constructor
    · rintro ⟨⟩
      exact .absent hdata
    · rintro (_ | ⟨j, hj, -⟩)
      · rfl
      · rw [hdata] at hj
        cases hj
  · rw [hrs]
    dsimp only
    rw [hprocessor]
    by_cases hknown : Repository.processorName j = "sword-dspace"
    · rw [if_pos hknown]
      constructor
      · rintro ⟨⟩
      · rintro (hnone | ⟨j', hj, hother⟩)
        · rw [hdata] at hnone
          cases hnone
        · rw [hdata] at hj
          obtain rfl := Option.some.inj hj
          exact absurd hknown hother
    · rw [if_neg hknown]
      constructor
      · rintro ⟨⟩
        exact .unknown j hdata hknown
      · rintro (hnone | ⟨j', hj, -⟩)
        · rw [hdata] at hnone
          cases hnone
        · rw [hdata] at hj
          obtain rfl := Option.some.inj hj
          rfl

end Repositories

namespace StatusDocument

/-- A document was fetched, is well-formed, and has the root of a statement. -/
def Holds (decoder : Xml.Decoder) (fetched : Except FetchFault Bytes) (root : Xml.Node) : Prop :=
  ∃ bytes, fetched = .ok bytes ∧ decoder.root? bytes = some root ∧
    Statement.isStatement root = true

/-- What keeps a document from being a statement: it cannot be fetched, or it is not well-formed, or
it has another root, which is named. -/
inductive Spoils (decoder : Xml.Decoder) : Except FetchFault Bytes → DocumentFault → Prop
  | fetch (fault : FetchFault) : Spoils decoder (.error fault) (.fetch fault)
  | malformed (bytes : Bytes) : decoder.root? bytes = none → Spoils decoder (.ok bytes) .malformed
  | otherRoot (bytes : Bytes) (name : Xml.Name) (declared : List (String × String))
      (attributes : List (Xml.Name × String)) (children : List Xml.Node) :
      decoder.root? bytes = some (.element name declared attributes children) →
      ¬ (name.space = atomSpace ∧ (name.base = "feed" ∨ name.base = "entry")) →
      Spoils decoder (.ok bytes) (.unexpectedRoot name.expanded)

private theorem isStatement_element_iff {name : Xml.Name} {declared : List (String × String)}
    {attributes : List (Xml.Name × String)} {children : List Xml.Node} :
    Statement.isStatement (.element name declared attributes children) = true ↔
      name.space = atomSpace ∧ (name.base = "feed" ∨ name.base = "entry") := by
  simp only [Statement.isStatement, Xml.Node.isElement, Xml.Node.name?, Bool.or_eq_true,
    Bool.and_eq_true, decide_eq_true_eq]
  rw [← and_or_left]

variable {decoder : Xml.Decoder} {document : String} {fetched : Except FetchFault Bytes}

private theorem Spoils.ofFetched_eq {cause : DocumentFault} (h : Spoils decoder fetched cause)
    (document : String) : ofFetched decoder document fetched = .error ⟨document, cause⟩ := by
  cases h with
  | fetch fault => rfl
  | malformed bytes hread =>
    rw [ofFetched_ok, statement, hread]
    rfl
  | otherRoot bytes name declared attributes children hread hother =>
    rw [ofFetched_ok, statement, hread]
    dsimp only
    rw [if_neg (mt isStatement_element_iff.1 hother)]
    rfl

private theorem exists_spoils {e : StatusError}
    (h : ofFetched decoder document fetched = .error e) :
    ∃ cause, e = ⟨document, cause⟩ ∧ Spoils decoder fetched cause := by
  cases fetched with
  | error fault =>
    cases h
    exact ⟨_, rfl, .fetch fault⟩
  | ok bytes =>
    rw [ofFetched_ok, statement] at h
    cases hread : decoder.root? bytes with
    | none =>
      rw [hread] at h
      cases h
      exact ⟨_, rfl, .malformed bytes hread⟩
    | some root =>
      obtain ⟨name, declared, attributes, children, rfl⟩ := decoder.exists_element hread
      rw [hread] at h
      dsimp only at h
      split at h
      · cases h
      · rename_i hkind
        cases h
        exact ⟨_, rfl, .otherRoot bytes name declared attributes children hread
          (mt isStatement_element_iff.2 hkind)⟩

end StatusDocument

namespace StatusMapping

/-- A state is the most final one that a statement reports. -/
def Prevails (root : Xml.Node) (s : SwordState) : Prop :=
  Statement.IsReported root s ∧ ∀ t, Statement.IsReported root t → t.finality ≤ s.finality

/-- The status that a table gives the deposit of a statement: the entry for the token of the most
final state, if there are both, and the entry for everything else if there are not. -/
def Gives (table : List (String × Json)) (root : Xml.Node) (status : DepositStatus) : Prop :=
  (∃ s, Prevails root s ∧ table.lookup s.token = some (.text status.value)) ∨
    ((∀ s, Prevails root s → table.lookup s.token = none) ∧
      table.lookup fallbackKey = some (.text status.value))

variable {m : StatusMapping} {table : List (String × Json)} {root : Xml.Node}
  {status : DepositStatus}

theorem Tabulates.lookup_eq_some_iff (h : m.Tabulates table) {name : String} :
    table.lookup name = some (.text status.value) ↔ m.entries.lookup name = some status := by
  rcases h.lookup_cases name with ⟨hdata, hentry⟩ | ⟨s, hdata, hentry⟩
  · simp [hdata, hentry]
  · rw [hdata, hentry, Option.some.injEq, Option.some.injEq, Json.text.injEq]
    exact ⟨DepositStatus.value_injective, congrArg _⟩

theorem Tabulates.lookup_eq_none_iff (h : m.Tabulates table) {name : String} :
    table.lookup name = none ↔ m.entries.lookup name = none := by
  rcases h.lookup_cases name with ⟨hdata, hentry⟩ | ⟨s, hdata, hentry⟩
  · simp [hdata, hentry]
  · simp [hdata, hentry]

private theorem Tabulates.gives_iff (h : m.Tabulates table) :
    Gives table root status ↔
      m.status ((Statement.state? root).map SwordState.token) = status := by
  have hfallback : table.lookup fallbackKey = some (.text status.value) ↔ m.fallback = status := by
    rw [h.lookup_eq_some_iff, m.lookup_fallbackKey, Option.some.injEq]
  unfold Gives Prevails
  simp only [← Statement.state?_eq_some_iff]
  cases Statement.state? root with
  | none => simp [hfallback, status_none]
  | some s =>
    simp only [Option.some.injEq, exists_eq_left', forall_eq', Option.map_some, hfallback,
      h.lookup_eq_some_iff, h.lookup_eq_none_iff]
    cases hentry : m.entries.lookup s.token with
    | none => simp [status_of_lookup_eq_none hentry]
    | some t => simp [status_of_lookup hentry]

end StatusMapping

variable {members : List (String × Json)} {rs : Repositories} {name document : String}
  {decoder : Xml.Decoder}

private theorem resolveStatus_of_processor_eq_error {m : Type → Type} [Host m]
    (decoder : Xml.Decoder) (fetch : Fetcher m) {e : ConfigurationError}
    (h : rs.processor name = .error e) :
    resolveStatus decoder fetch rs document name = pure (.error (.configuration e)) := by
  unfold resolveStatus
  rw [h]

section

variable {r : Repository} {fetch : Fetcher (StateM Surroundings)} {before later : Surroundings}
  {fetched : Except FetchFault Bytes}

private theorem outcome_resolveStatus (hr : rs.find? name = some r)
    (hknown : r.status.processor = "sword-dspace")
    (hfetch : (fetch document).run before = (fetched, later)) :
    ((resolveStatus decoder fetch rs document name).run before).1 =
      match StatusDocument.ofFetched decoder document fetched with
      | .error e => .error (.document e)
      | .ok root =>
        .ok (r.status.mapping.status ((Statement.state? root).map SwordState.token)) := by
  have hprocessor : rs.processor name = .ok .swordStatement := by
    rw [Repositories.processor, hr]
    exact if_pos hknown
  have hread : (StatusDocument.read decoder fetch document).run before =
      (StatusDocument.readFetched decoder document fetched : StateM Surroundings _).run later := by
    unfold StatusDocument.read
    exact Surroundings.run_bind_of_run hfetch
  unfold resolveStatus
  rw [hprocessor]
  dsimp only
  unfold StatusProcessor.run
  cases hroot : StatusDocument.ofFetched decoder document fetched with
  | error e =>
    have hfaulty :
        (StatusDocument.readFetched decoder document fetched : StateM Surroundings _).run later =
          (.error e, later) := by
      rw [StatusDocument.readFetched, hroot]
      rfl
    rw [Surroundings.run_bind_of_run (hread.trans hfaulty)]
    rfl
  | ok root =>
    rw [Surroundings.run_bind_of_run (hread.trans (Statement.run_readFetched hroot later))]
    dsimp only
    rw [Repositories.status, hr]
    rfl

variable (decoder) in
private theorem resolveStatus_eq_ok_iff {table : List (String × Json)} (hr : rs.find? name = some r)
    (hknown : r.status.processor = "sword-dspace") (htable : r.status.mapping.Tabulates table)
    (hfetch : (fetch document).run before = (fetched, later)) (status : DepositStatus) :
    ((resolveStatus decoder fetch rs document name).run before).1 = .ok status ↔
      ∃ root, StatusDocument.Holds decoder fetched root ∧
        StatusMapping.Gives table root status := by
  have houtcome : ((resolveStatus decoder fetch rs document name).run before).1 = .ok status ↔
      ∃ root, StatusDocument.ofFetched decoder document fetched = .ok root ∧
        r.status.mapping.status ((Statement.state? root).map SwordState.token) = status := by
    rw [outcome_resolveStatus hr hknown hfetch]
    cases StatusDocument.ofFetched decoder document fetched <;> simp
  rw [houtcome]
  refine exists_congr fun root => ?_
  rw [StatusDocument.ofFetched_eq_ok_iff, htable.gives_iff]
  rfl

private theorem resolveStatus_eq_error_iff (hr : rs.find? name = some r)
    (hknown : r.status.processor = "sword-dspace")
    (hfetch : (fetch document).run before = (fetched, later)) (failure : StatusFailure) :
    ((resolveStatus decoder fetch rs document name).run before).1 = .error failure ↔
      ∃ cause, failure = .document ⟨document, cause⟩ ∧
        StatusDocument.Spoils decoder fetched cause := by
  have houtcome : ((resolveStatus decoder fetch rs document name).run before).1 = .error failure ↔
      ∃ e, StatusDocument.ofFetched decoder document fetched = .error e ∧
        failure = .document e := by
    rw [outcome_resolveStatus hr hknown hfetch]
    cases StatusDocument.ofFetched decoder document fetched <;> simp [eq_comm]
  rw [houtcome]
  constructor
  · rintro ⟨e, he, rfl⟩
    obtain ⟨cause, rfl, hspoils⟩ := StatusDocument.exists_spoils he
    exact ⟨cause, rfl, hspoils⟩
  · rintro ⟨cause, rfl, hspoils⟩
    exact ⟨_, hspoils.ofFetched_eq document, rfl⟩

end

/-- With accepted configuration and any decoder, a name without a processor is refused and nothing
is fetched. For every other name there is a status exactly if the document holds a statement, and it
is what the data of the repository has for the most final state, or else for everything else.
Whatever is wrong with the document is a failure that names the document and what is wrong. -/
theorem status_of_accepted (hcheck : Repositories.check members = .ok rs) (decoder : Xml.Decoder)
    (name document : String) :
    (∀ e, rs.processor name = .error e ↔ Repositories.Unprocessed members name e) ∧
    (∀ e, Repositories.Unprocessed members name e →
      ∀ (m : Type → Type) [Host m] (fetch : Fetcher m),
        resolveStatus decoder fetch rs document name = pure (.error (.configuration e))) ∧
    ∀ j, members.lookup name = some j → Repository.processorName j = "sword-dspace" →
      ∀ (fetch : Fetcher (StateM Surroundings)) before fetched later,
        (fetch document).run before = (fetched, later) →
          (∀ status, ((resolveStatus decoder fetch rs document name).run before).1 = .ok status ↔
            ∃ root, StatusDocument.Holds decoder fetched root ∧
              StatusMapping.Gives (Repository.tableData j) root status) ∧
          ((∃ status, ((resolveStatus decoder fetch rs document name).run before).1 = .ok status) ↔
            ∃ root, StatusDocument.Holds decoder fetched root) ∧
          ∀ failure,
            ((resolveStatus decoder fetch rs document name).run before).1 = .error failure ↔
            ∃ cause, failure = .document ⟨document, cause⟩ ∧
              StatusDocument.Spoils decoder fetched cause := by
  refine ⟨fun e => Repositories.processor_eq_error_iff hcheck, ?_, ?_⟩
  · intro e hnone m _ fetch
    exact resolveStatus_of_processor_eq_error decoder fetch
      ((Repositories.processor_eq_error_iff hcheck).2 hnone)
  · intro j hj hknown fetch before fetched later hfetch
    obtain ⟨hdata, -⟩ | ⟨j', r, hdata, hr, hprocessor, htable⟩ :=
      Repositories.find?_cases hcheck name
    · rw [hj] at hdata
      cases hdata
    · rw [hj] at hdata
      obtain rfl := Option.some.inj hdata
      have hstatus := resolveStatus_eq_ok_iff decoder hr (hprocessor.trans hknown) htable hfetch
      refine ⟨hstatus, ?_, resolveStatus_eq_error_iff hr (hprocessor.trans hknown) hfetch⟩
      constructor
      · rintro ⟨status, hok⟩
        obtain ⟨root, hholds, -⟩ := (hstatus status).1 hok
        exact ⟨root, hholds⟩
      · rintro ⟨root, hholds⟩
        exact ⟨_, (hstatus _).2 ⟨root, hholds, htable.gives_iff.2 rfl⟩⟩

/-- The data of two repositories, one of which names a processor that there is not. -/
def shelfData : List (String × Json) :=
  let table : Json := .object
    [("default-mapping", .text "rejected"), ("http://dspace.org/state/inreview", .text "accepted")]
  [("Shelf", .object [("deposit-config", .object [("mapping", table)])]),
    ("Cellar", .object
      [("deposit_config", .object [("processor", .text "sword-fedora"), ("mapping", table)])])]

theorem status_of_marked_document :
    ∃ rs, Repositories.check shelfData = .ok rs ∧
      (∀ before, ((resolveStatus Xml.decoder
        (fun _ => pure (.ok (Bytes.ofText Statement.markedText))) rs "statement" "Shelf" :
          StateM Surroundings _).run before).1 = .ok .accepted) ∧
      (∀ before, ((resolveStatus Xml.decoder (fun _ => pure (.error (.refused 404 "statement"))) rs
        "statement" "Shelf" : StateM Surroundings _).run before).1 =
          .error (.document ⟨"statement", .fetch (.refused 404 "statement")⟩)) ∧
      ∀ fetch : Fetcher (StateM Surroundings),
        resolveStatus Xml.decoder fetch rs "statement" "Cellar" =
        pure (.error (.configuration (.unknownProcessor "sword-fedora" "Cellar"))) := by
  obtain ⟨rs, hcheck⟩ : ∃ rs, Repositories.check shelfData = .ok rs := ⟨_, rfl⟩
  obtain ⟨-, -, hshelf⟩ := status_of_accepted hcheck Xml.decoder "Shelf" "statement"
  refine ⟨rs, hcheck, ?_, ?_, ?_⟩
  · intro before
    obtain ⟨hstatus, -⟩ := hshelf _ rfl rfl
      (fun _ => pure (.ok (Bytes.ofText Statement.markedText))) before _ _ rfl
    obtain ⟨root, hread, hkind, hstate, -⟩ := Statement.read_markedText
    refine (hstatus .accepted).2 ⟨root, ⟨_, rfl, hread, hkind⟩, .inl ⟨.inReview, ?_, rfl⟩⟩
    exact Statement.state?_eq_some_iff.1 hstate
  · intro before
    obtain ⟨-, -, hfailure⟩ := hshelf _ rfl rfl
      (fun _ => pure (.error (.refused 404 "statement"))) before _ _ rfl
    exact (hfailure _).2 ⟨_, rfl, .fetch _⟩
  · intro fetch
    obtain ⟨-, hrefused, -⟩ := status_of_accepted hcheck Xml.decoder "Cellar" "statement"
    have hother : Repositories.Unprocessed shelfData "Cellar"
        (.unknownProcessor "sword-fedora" "Cellar") :=
      @Repositories.Unprocessed.unknown shelfData "Cellar" _ rfl (by decide)
    exact hrefused _ hother _ fetch

end Deposit
