import Deposit.Proofs.Host.Surroundings
import Deposit.Proofs.Json.Objects
import Deposit.Proofs.Status.Processor
import Deposit.Repository.Load

set_option autoImplicit false
set_option relaxedAutoImplicit false

/-!
Loading the configurations of repositories from any file. What the file configures is accepted as a
whole or refused as a whole, with a fault of the configuration; three kinds of file are met with
another failure, because only faults of the system and of the grammar are caught where the text is
read.
-/

namespace Deposit

/-- The members of the object that a file consists of. -/
def Disk.HoldsObject (d : Disk) (limit : Nat) (l : Location) (members : List (String × Json)) :
    Prop :=
  ∃ text, d.HoldsText l text ∧ Json.readWithin limit text = .ok (.object members)

/-- A file in which no escape stands for half a character, as far as it can be read. -/
def Disk.IsWhole (d : Disk) (limit : Nat) (l : Location) : Prop :=
  ∀ text fault, d.HoldsText l text → Json.readWithin limit text = .error fault →
    fault.problem ≠ .loneHalf

namespace Repository

/-- A repository as some data configures it: the data passes every check, and its table of statuses
has a default and names known statuses only. -/
structure IsValidated (j : Json) (r : Repository) : Prop where
  check_eq : check j = .ok r
  tabulates : r.status.mapping.Tabulates (tableData j)
  lookup_default : ∃ s : DepositStatus,
    (tableData j).lookup StatusMapping.fallbackKey = some (.text s.value)
  known : ∀ m ∈ tableData j, ∃ s : DepositStatus, m.2 = .text s.value

private theorem isValidated_iff {j : Json} {r : Repository} :
    IsValidated j r ↔ check j = .ok r := by
  refine ⟨IsValidated.check_eq, fun h => ?_⟩
  have htable := (status_of_check h).2
  refine ⟨h, htable, ?_, fun m hm => ?_⟩
  · rcases htable.lookup_cases StatusMapping.fallbackKey with ⟨-, hnone⟩ | ⟨s, hdata, -⟩
    · rw [r.status.mapping.lookup_fallbackKey] at hnone
      cases hnone
    · exact ⟨s, hdata⟩
  · obtain ⟨i, hi, rfl⟩ := List.getElem_of_mem hm
    obtain ⟨hlength, hentries⟩ := List.forall₂_iff_get.1 htable
    exact ⟨_, DepositStatus.member_eq_ok_iff.1 (hentries i hi (hlength ▸ hi)).2⟩

end Repository

namespace Repositories

/-- The repositories that the members of an object configure, each under its name. -/
def Configures (members : List (String × Json)) (rs : Repositories) : Prop :=
  List.Forall₂ (fun m e => e.1 = m.1 ∧ Repository.IsValidated m.2 e.2) members rs

/-- The fault of the configuration for which a file is refused. -/
inductive Refuses (d : Disk) (limit : Nat) (l : Location) : ConfigurationError → Prop where
  | unreadable {cause : FileCause} {path : String} (h : d.read l = .error (.refused cause path)) :
      Refuses d limit l (.unreadable l.text (.refused cause path))
  | malformed {text : List Char} {fault : Json.Fault} (htext : d.HoldsText l text)
      (hread : Json.readWithin limit text = .error fault)
      (hgrammar : fault.problem.isGrammatical = true) :
      Refuses d limit l (.malformed l.text fault text)
  | notObject {text : List Char} {j : Json} (htext : d.HoldsText l text)
      (hread : Json.readWithin limit text = .ok j) (hshape : j.members? = none) :
      Refuses d limit l (.notObject l.text)
  | invalid {accepted rest : List (String × Json)} {name : String} {j : Json}
      {issues : List Schema.Issue}
      (hobject : d.HoldsObject limit l (accepted ++ (name, j) :: rest))
      (haccepted : ∀ m ∈ accepted, ∃ r, Repository.IsValidated m.2 r)
      (hissues : Repository.check j = .issues issues) :
      Refuses d limit l (.invalid l.text issues)

/-- What is caught nowhere: the file is not encoded as text, its text is nested too deeply or has a
number that is too long, or no file can have the name. -/
inductive Escapes (d : Disk) (limit : Nat) (l : Location) : LoadFailure → Prop where
  | malformed {bytes : Bytes} {m : Text.Utf8.Malformed} (h : d.read l = .ok bytes)
      (hdecode : Text.Utf8.decode bytes = .error m) : Escapes d limit l (.malformed m)
  | oversized {text : List Char} {fault : Json.Fault} (htext : d.HoldsText l text)
      (hread : Json.readWithin limit text = .error fault)
      (hsize : fault.problem.isOversized = true) :
      Escapes d limit l (.oversized fault.problem)
  | unusable (h : d.read l = .error .embeddedNul) : Escapes d limit l (.unusable .embeddedNul)

private theorem isGrammatical_eq_false {p : Json.Problem} (h : p.isOversized = true) :
    p.isGrammatical = false := by
  cases p <;> simp_all [Json.Problem.isGrammatical, Json.Problem.isOversized]

private theorem isOversized_of_not_isGrammatical {p : Json.Problem}
    (hgrammar : p.isGrammatical = false) (hwhole : p ≠ .loneHalf) : p.isOversized = true := by
  cases p <;> simp_all [Json.Problem.isGrammatical, Json.Problem.isOversized]

private theorem check_eq_ok_iff {members : List (String × Json)} {rs : Repositories} :
    check members = .ok rs ↔ Configures members rs := by
  constructor
  · intro h
    exact (forall₂_of_check h).imp fun m e hm => ⟨hm.1, Repository.isValidated_iff.2 hm.2⟩
  · intro h
    induction h with
    | nil => rfl
    | @cons m e members rs hm _ ih =>
      obtain ⟨hname, hr⟩ := hm
      rw [check, hr.check_eq, Schema.Checked.andThen, ih, ← hname]
      rfl

variable {accepted rest members : List (String × Json)} {name : String} {j : Json}
  {issues : List Schema.Issue}

private theorem check_of_issues (haccepted : ∀ m ∈ accepted, ∃ r, Repository.IsValidated m.2 r)
    (hissues : Repository.check j = .issues issues) :
    check (accepted ++ (name, j) :: rest) = .issues issues := by
  induction accepted with
  | nil =>
    rw [List.nil_append, check, hissues]
    rfl
  | cons m accepted ih =>
    obtain ⟨⟨r, hr⟩, haccepted⟩ := List.forall_mem_cons.1 haccepted
    rw [List.cons_append, check, hr.check_eq, Schema.Checked.andThen, ih haccepted]
    rfl

private theorem exists_issues_of_check (h : check members = .issues issues) :
    ∃ accepted name j rest, members = accepted ++ (name, j) :: rest ∧
      (∀ m ∈ accepted, ∃ r, Repository.IsValidated m.2 r) ∧
      Repository.check j = .issues issues := by
  induction members with
  | nil => cases h
  | cons m members ih =>
    obtain ⟨name, j⟩ := m
    rw [check] at h
    cases hcheck : Repository.check j with
    | issues found =>
      rw [hcheck, Schema.Checked.andThen] at h
      obtain rfl := Schema.Checked.issues.inj h
      exact ⟨[], name, j, members, rfl, by simp, hcheck⟩
    | ok r =>
      have hlater : check members = .issues issues := by
        rw [hcheck, Schema.Checked.andThen] at h
        cases hmembers : check members with
        | ok rs =>
          rw [hmembers] at h
          cases h
        | issues found =>
          rw [hmembers] at h
          exact h
      obtain ⟨accepted, name', j', rest, rfl, haccepted, hj⟩ := ih hlater
      refine ⟨(name, j) :: accepted, name', j', rest, rfl, ?_, hj⟩
      exact List.forall_mem_cons.2 ⟨⟨r, Repository.isValidated_iff.2 hcheck⟩, haccepted⟩

variable {d : Disk} {limit : Nat} {l : Location}

private theorem run_loadWithin (limit : Nat) (l : Location) (before : Surroundings) :
    ∃ log, (loadWithin limit l : StateM Surroundings _).run before =
      (ofRead limit l.text (before.disk.textAt l), { before with log }) := by
  rw [loadWithin, Surroundings.run_bind_of_run (Surroundings.run_readText l before)]
  cases ofRead limit l.text (before.disk.textAt l) with
  | ok rs => exact ⟨_, rfl⟩
  | error failure => exact ⟨before.log, rfl⟩

private theorem ofRead_of_configures {rs : Repositories} (hobject : d.HoldsObject limit l members)
    (h : Configures members rs) : ofRead limit l.text (d.textAt l) = .ok rs := by
  obtain ⟨text, htext, hread⟩ := hobject
  rw [htext.textAt_eq, ofRead, ofText, hread]
  simp only [ofJson, check_eq_ok_iff.2 h]

private theorem ofRead_of_refuses {e : ConfigurationError} (h : Refuses d limit l e) :
    ofRead limit l.text (d.textAt l) = .error (.configuration e) := by
  cases h with
  | unreadable h =>
    rw [Disk.textAt, h]
    rfl
  | malformed htext hread hgrammar =>
    rw [htext.textAt_eq, ofRead, ofText, hread]
    simp only [hgrammar, if_true]
  | @notObject text j htext hread hshape =>
    rw [htext.textAt_eq, ofRead, ofText, hread]
    cases j with
    | object members => cases hshape
    | _ => rfl
  | invalid hobject haccepted hissues =>
    obtain ⟨text, htext, hread⟩ := hobject
    rw [htext.textAt_eq, ofRead, ofText, hread]
    simp only [ofJson, check_of_issues haccepted hissues]

private theorem ofRead_of_escapes {failure : LoadFailure} (h : Escapes d limit l failure) :
    ofRead limit l.text (d.textAt l) = .error failure := by
  cases h with
  | malformed h hdecode =>
    rw [Disk.textAt, h]
    simp only [textOfBytes, hdecode, ofRead]
  | oversized htext hread hsize =>
    rw [htext.textAt_eq, ofRead, ofText, hread]
    simp [isGrammatical_eq_false hsize]
  | unusable h =>
    rw [Disk.textAt, h]
    rfl

private theorem load_cases (hwhole : d.IsWhole limit l) :
    (∃ members rs, d.HoldsObject limit l members ∧ Configures members rs) ∨
      (∃ e, Refuses d limit l e) ∨
      ∃ failure, Escapes d limit l failure := by
  cases hread : d.read l with
  | error fault =>
    cases fault with
    | refused cause path => exact .inr (.inl ⟨_, .unreadable hread⟩)
    | embeddedNul => exact .inr (.inr ⟨_, .unusable hread⟩)
  | ok bytes =>
    cases hdecode : Text.Utf8.decode bytes with
    | error m => exact .inr (.inr ⟨_, .malformed hread hdecode⟩)
    | ok s =>
      have htext : d.HoldsText l (Text.unifyLineEnds s.toList) :=
        ⟨bytes, hread, by rw [textOfBytes, hdecode]⟩
      cases hjson : Json.readWithin limit (Text.unifyLineEnds s.toList) with
      | error fault =>
        cases hgrammar : fault.problem.isGrammatical with
        | true => exact .inr (.inl ⟨_, .malformed htext hjson hgrammar⟩)
        | false =>
          have hsize := isOversized_of_not_isGrammatical hgrammar (hwhole _ _ htext hjson)
          exact .inr (.inr ⟨_, .oversized htext hjson hsize⟩)
      | ok j =>
        cases hshape : j.members? with
        | none => exact .inr (.inl ⟨_, .notObject htext hjson hshape⟩)
        | some members =>
          cases j <;> cases hshape
          have hobject : d.HoldsObject limit l members := ⟨_, htext, hjson⟩
          cases hcheck : check members with
          | ok rs => exact .inl ⟨members, rs, hobject, check_eq_ok_iff.1 hcheck⟩
          | issues issues =>
            obtain ⟨accepted, name, j, rest, rfl, haccepted, hissues⟩ :=
              exists_issues_of_check hcheck
            exact .inr (.inl ⟨_, .invalid hobject haccepted hissues⟩)

private theorem configures_of_ofRead (hwhole : d.IsWhole limit l) {rs : Repositories}
    (h : ofRead limit l.text (d.textAt l) = .ok rs) :
    ∃ members, d.HoldsObject limit l members ∧ Configures members rs := by
  rcases load_cases hwhole with ⟨members, found, hobject, hvalid⟩ | ⟨e, he⟩ | ⟨failure, hfailure⟩
  · cases h.symm.trans (ofRead_of_configures hobject hvalid)
    exact ⟨members, hobject, hvalid⟩
  · cases h.symm.trans (ofRead_of_refuses he)
  · cases h.symm.trans (ofRead_of_escapes hfailure)

/-- However deep values may be nested, loading a file in which no escape stands for half a character
yields repositories exactly if the file is an object whose members are all valid, and then one for
each of them, under its name; names are distinct. It fails with a fault of the configuration exactly
if the file is refused, and with anything else exactly if that is caught nowhere. Nothing but
notices changes. -/
theorem load_outcome (limit : Nat) (l : Location) (before : Surroundings)
    (hwhole : before.disk.IsWhole limit l) :
    ∃ outcome log,
      (loadWithin limit l : StateM Surroundings _).run before = (outcome, { before with log }) ∧
      (∀ rs, outcome = .ok rs ↔
        ∃ members, before.disk.HoldsObject limit l members ∧ Configures members rs) ∧
      (∀ rs, outcome = .ok rs → (rs.map Prod.fst).Nodup) ∧
      ∀ failure, outcome = .error failure ↔
        (∃ e, failure = .configuration e ∧ Refuses before.disk limit l e) ∨
          Escapes before.disk limit l failure := by
  obtain ⟨log, hrun⟩ := run_loadWithin limit l before
  refine ⟨_, log, hrun, fun rs => ⟨fun h => ?_, ?_⟩, fun rs h => ?_,
    fun failure => ⟨fun h => ?_, ?_⟩⟩
  · exact configures_of_ofRead hwhole h
  · rintro ⟨members, hobject, hconfigures⟩
    exact ofRead_of_configures hobject hconfigures
  · obtain ⟨members, ⟨text, -, hread⟩, hconfigures⟩ := configures_of_ofRead hwhole h
    have hnames : rs.map Prod.fst = members.map Prod.fst := by
      rw [← List.forall₂_eq_eq_eq, List.forall₂_map_left_iff, List.forall₂_map_right_iff]
      exact hconfigures.flip.imp fun e m hm => hm.1
    rw [hnames]
    exact Json.nodup_of_readWithin hread
  · rcases load_cases hwhole with ⟨members, rs, hobject, hvalid⟩ | ⟨e, he⟩ | ⟨found, hfound⟩
    · cases h.symm.trans (ofRead_of_configures hobject hvalid)
    · exact .inl ⟨e, Except.error.inj (h.symm.trans (ofRead_of_refuses he)), he⟩
    · cases h.symm.trans (ofRead_of_escapes hfound)
      exact .inr hfound
  · rintro (⟨e, rfl, he⟩ | hescapes)
    · exact ofRead_of_refuses he
    · exact ofRead_of_escapes hescapes

/-- A directory with a file that configures one repository. -/
def configuredDesk : Surroundings where
  disk :=
    { items := [(["r.json"], .file (Bytes.ofText ("\x7b\"J\": \x7b\"deposit-config\": " ++
        "\x7b\"mapping\": \x7b\"default-mapping\": \"submitted\"\x7d\x7d\x7d\x7d")))]
      workingDirectory := [] }
  temporaryDirectory := ⟨"/", []⟩
  log := []

theorem configuredDesk_configures :
    configuredDesk.disk.IsWhole Json.depthLimit ⟨"", ["r.json"]⟩ ∧
      ∃ members rs log, (load ⟨"", ["r.json"]⟩ : StateM Surroundings _).run configuredDesk =
          (.ok rs, { configuredDesk with log }) ∧
        configuredDesk.disk.HoldsObject Json.depthLimit ⟨"", ["r.json"]⟩ members ∧
        Configures members rs ∧ rs.map Prod.fst = ["J"] := by
  have hwhole : configuredDesk.disk.IsWhole Json.depthLimit ⟨"", ["r.json"]⟩ := by
    intro text fault htext hread
    have hreads : (configuredDesk.disk.textAt ⟨"", ["r.json"]⟩).toOption.any
        (fun text => (Json.read text).isOk) = true := by decide +kernel
    rw [htext.textAt_eq] at hreads
    have hok : (Json.readWithin Json.depthLimit text).isOk = true := hreads
    rw [hread] at hok
    cases hok
  obtain ⟨outcome, log, hrun, hloads, -, -⟩ :=
    load_outcome Json.depthLimit ⟨"", ["r.json"]⟩ configuredDesk hwhole
  have hreturns : Surroundings.returns (load ⟨"", ["r.json"]⟩) configuredDesk
      (fun rs => rs.map Prod.fst = ["J"]) = true := by decide +kernel
  obtain ⟨rs, after, hreturned, hnames⟩ := Surroundings.run_of_returns hreturns
  obtain ⟨rfl, -⟩ := Prod.mk.inj (hrun.symm.trans hreturned)
  obtain ⟨members, hobject, hconfigures⟩ := (hloads rs).1 rfl
  exact ⟨hwhole, members, rs, log, hrun, hobject, hconfigures, of_decide_eq_true hnames⟩

/-- A directory with one file, which is a single byte that begins no character. -/
def smudgedDesk : Surroundings where
  disk := { items := [(["r.json"], .file [0xff])], workingDirectory := [] }
  temporaryDirectory := ⟨"/", []⟩
  log := []

def smudge : Text.Utf8.Malformed :=
  ⟨0, 0xff, 1, .startByte⟩

theorem smudgedDesk_escapes :
    ∃ log, (load ⟨"", ["r.json"]⟩ : StateM Surroundings _).run smudgedDesk =
        (.error (.malformed smudge), { smudgedDesk with log }) ∧
      ¬ ∃ e, Refuses smudgedDesk.disk Json.depthLimit ⟨"", ["r.json"]⟩ e := by
  obtain ⟨log, hrun⟩ := run_loadWithin Json.depthLimit ⟨"", ["r.json"]⟩ smudgedDesk
  have hread : smudgedDesk.disk.read ⟨"", ["r.json"]⟩ = .ok [0xff] := by decide +kernel
  have hescapes : Escapes smudgedDesk.disk Json.depthLimit ⟨"", ["r.json"]⟩ (.malformed smudge) :=
    .malformed hread (by decide +kernel)
  rw [ofRead_of_escapes hescapes] at hrun
  refine ⟨log, hrun, fun ⟨e, he⟩ => ?_⟩
  cases (ofRead_of_escapes hescapes).symm.trans (ofRead_of_refuses he)

end Repositories

end Deposit
