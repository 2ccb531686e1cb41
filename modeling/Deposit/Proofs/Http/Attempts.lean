import Mathlib.Data.List.Basic
import Deposit.Http.Client
import Deposit.Proofs.Host.Surroundings

set_option autoImplicit false
set_option relaxedAutoImplicit false

/-!
How often a client makes a request. An attempt is a request together with those that redirects lead
to. While attempts are interrupted and there are any left, another one is made after some time; the
first that ends otherwise decides. Main statement: the attempts, the waits between them, the
warnings about them and what comes of them, for every number of attempts and whatever the network
does.
-/

namespace Deposit

namespace Surroundings

/-- The outcome of a request to come, counted from the next one. -/
def outcomeAt (before : Surroundings) (i : Nat) : Except Http.NetworkFault Http.Reply :=
  before.outcomes[i]?.getD before.lastOutcome

/-- Nothing has happened but that requests were sent and had their outcomes. -/
def Exchanged (before after : Surroundings) : Prop :=
  ∃ outcomes sent, after = { before with outcomes, sent }

private theorem Exchanged.refusedWait?_eq {before after : Surroundings}
    (h : Exchanged before after) :
    after.refusedWait? = before.refusedWait? := by
  obtain ⟨outcomes, sent, rfl⟩ := h
  rfl

private theorem run_send (request : Http.Request) (before : Surroundings) :
    (Http.Network.send request : StateM Surroundings _).run before =
      (before.outcomeAt 0,
        { before with outcomes := before.outcomes.tail, sent := request :: before.sent }) := by
  show send request before = _
  unfold send outcomeAt
  cases before.outcomes <;> rfl

private theorem outcomeAt_of_tail {before after : Surroundings}
    (houtcomes : after.outcomes = before.outcomes.tail)
    (hlast : after.lastOutcome = before.lastOutcome) (i : Nat) :
    after.outcomeAt i = before.outcomeAt (i + 1) := by
  simp [outcomeAt, houtcomes, hlast]

end Surroundings

namespace Http

open Surroundings (Exchanged)

variable {s : Session} {place : String} {accept : Option String}

private theorem exchanged_follow (n : Nat) (request : Request) (before : Surroundings) :
    Exchanged before ((follow n request : StateM Surroundings _).run before).2 := by
  induction n generalizing request before with
  | zero => exact ⟨_, _, rfl⟩
  | succ n ih =>
    unfold follow
    rw [Surroundings.run_bind_of_run (Surroundings.run_send request before)]
    cases before.outcomeAt 0 with
    | error fault => exact ⟨_, _, rfl⟩
    | ok reply =>
      dsimp only
      cases reply.redirect? with
      | none => exact ⟨_, _, rfl⟩
      | some place =>
        dsimp only
        cases request.redirected place with
        | error fault => exact ⟨_, _, rfl⟩
        | ok next =>
          -- the request that the redirect leads to is followed from what this one has left
          obtain ⟨outcomes, sent, hnext⟩ := ih next
            { before with outcomes := before.outcomes.tail, sent := request :: before.sent }
          exact ⟨outcomes, sent, hnext⟩

/-- What an attempt can end in: an answer, or a fault of the address or of the network. -/
inductive Ends : Except FetchFault Answer → Prop
  | answer (a : Answer) : Ends (.ok a)
  | address (fault : AddressFault) : Ends (.error (.address fault))
  | network (fault : NetworkFault) : Ends (.error (.network fault))

private theorem ask_cases {before after : Surroundings} {outcome : Except FetchFault Answer}
    (h : (s.ask place accept : StateM Surroundings _).run before = (outcome, after)) :
    Ends outcome ∧ Exchanged before after := by
  unfold Session.ask at h
  cases hrequest : s.request place accept with
  | error fault =>
    rw [hrequest] at h
    obtain ⟨rfl, rfl⟩ := Prod.mk.inj h
    exact ⟨.address fault, _, _, rfl⟩
  | ok request =>
    rw [hrequest] at h
    have hfollow := exchanged_follow requestLimit request before
    cases hrun : (follow requestLimit request : StateM Surroundings _).run before with
    | mk followed later =>
      rw [hrun] at hfollow
      dsimp only at h
      rw [Surroundings.run_bind_of_run hrun] at h
      cases followed with
      | error fault =>
        obtain ⟨rfl, rfl⟩ := Prod.mk.inj h
        exact ⟨.network fault, hfollow⟩
      | ok answer =>
        obtain ⟨rfl, rfl⟩ := Prod.mk.inj h
        exact ⟨.answer answer, hfollow⟩

/-- What an attempt comes to that takes one request and no redirect. -/
def direct (request : Request) : Except NetworkFault Reply → Except FetchFault Answer
  | .ok reply => .ok ⟨request.address, reply⟩
  | .error fault => .error (.network fault)

private theorem run_ask_of_no_redirect {request : Request} {before : Surroundings}
    (hrequest : s.request place accept = .ok request)
    (hdirect : ∀ reply, before.outcomeAt 0 = .ok reply → reply.redirect? = none) :
    (s.ask place accept : StateM Surroundings _).run before =
      (direct request (before.outcomeAt 0),
        { before with outcomes := before.outcomes.tail, sent := request :: before.sent }) := by
  unfold Session.ask
  rw [hrequest]
  dsimp only
  have hfollow : (follow requestLimit request : StateM Surroundings _).run before =
      ((before.outcomeAt 0).map (Answer.mk request.address),
        { before with outcomes := before.outcomes.tail, sent := request :: before.sent }) := by
    unfold requestLimit follow
    rw [Surroundings.run_bind_of_run (Surroundings.run_send request before)]
    cases houtcome : before.outcomeAt 0 with
    | error fault => rfl
    | ok reply =>
      dsimp only
      rw [hdirect reply houtcome]
      rfl
  rw [Surroundings.run_bind_of_run hfollow]
  cases before.outcomeAt 0 <;> rfl

/-- The interruption that an attempt has ended in, if it has. -/
def interruption? : Except FetchFault Answer → Option (Interruption × String)
  | .error (.network (.interrupted way message)) => some (way, message)
  | _ => none

/-- The warnings about attempts, the first of which has a given number: one for every attempt that
was interrupted. -/
def warnings (base : String) (total : Int) (number : Nat)
    (outcomes : List (Except FetchFault Answer)) : List Notice :=
  (outcomes.zipIdx number).filterMap fun o => (interruption? o.1).map fun i =>
    ⟨.warning, interruptionNotice base o.2 total i.1 i.2⟩

/-- The surroundings after an attempt of a given number, its warning given. -/
def warned (after : Surroundings) (base : String) (total : Int) (number : Nat)
    (outcome : Except FetchFault Answer) : Surroundings :=
  { after with log := warnings base total number [outcome] ++ after.log }

/-- The surroundings after an attempt behind which another one follows. -/
def resumed (after : Surroundings) (base : String) (total : Int) (seconds : Float) (number : Nat)
    (outcome : Except FetchFault Answer) : Surroundings :=
  { after with
    log := warnings base total number [outcome] ++ after.log
    waits := seconds :: after.waits }

/-- Attempts as the surroundings go through them, the first of which has a given number. An attempt
that was interrupted is warned about, and before the next one some time passes. -/
inductive Attempted (s : Session) (place : String) (accept : Option String) (base : String)
    (total : Int) (seconds : Float) :
    Nat → Surroundings → List (Except FetchFault Answer) → Surroundings → Prop
  | nil (number : Nat) (before : Surroundings) :
      Attempted s place accept base total seconds number before [] before
  | last {number : Nat} {before after : Surroundings} {outcome : Except FetchFault Answer} :
      (s.ask place accept : StateM Surroundings _).run before = (outcome, after) →
      Attempted s place accept base total seconds number before [outcome]
        (warned after base total number outcome)
  | again {number : Nat} {before between after : Surroundings}
      {outcome : Except FetchFault Answer} {outcomes : List (Except FetchFault Answer)} :
      (s.ask place accept : StateM Surroundings _).run before = (outcome, between) →
      outcomes ≠ [] →
      Attempted s place accept base total seconds (number + 1)
        (resumed between base total seconds number outcome) outcomes after →
      Attempted s place accept base total seconds number before (outcome :: outcomes) after

/-- Attempts that end where they have to: after the first that was not interrupted, or when there
are none left. -/
structure Exhausts (outcomes : List (Except FetchFault Answer)) (limit : Nat) : Prop where
  length_le : outcomes.length ≤ limit
  earlier : ∀ o ∈ outcomes.dropLast, (interruption? o).isSome
  stops : outcomes.length < limit → ∃ o, outcomes.getLast? = some o ∧ interruption? o = none

/-- What comes of attempts. -/
structure Concludes (outcomes : List (Except FetchFault Answer)) (total : Int)
    (result : Except FetchFault Answer) : Prop where
  delivered : ∀ a, result = .ok a ↔
    outcomes.getLast? = some (.ok a) ∧ a.reply.isSuccess = true
  refused : ∀ status address, result = .error (.refused status address) ↔
    ∃ a, outcomes.getLast? = some (.ok a) ∧ a.reply.isSuccess = false ∧
      a.reply.status = status ∧ a.address.text = address
  passed : ∀ fault, outcomes.getLast? = some (.error fault) → interruption? (.error fault) = none →
    result = .error fault
  unreachable : ∀ n last, result = .error (.unreachable n last) ↔
    n = total ∧ outcomes.length = total.toNat ∧ (∀ o ∈ outcomes, (interruption? o).isSome) ∧
      last = (outcomes.getLast?.bind interruption?).map fun i => .interrupted i.1 i.2

variable {base : String} {total : Int} {seconds : Float} {number : Nat}
  {before after : Surroundings} {outcomes : List (Except FetchFault Answer)}

private theorem warnings_cons (base : String) (total : Int) (number : Nat)
    (outcome : Except FetchFault Answer) (outcomes : List (Except FetchFault Answer)) :
    warnings base total number (outcome :: outcomes) =
      warnings base total number [outcome] ++ warnings base total (number + 1) outcomes := by
  unfold warnings
  rw [List.zipIdx_cons, ← List.singleton_append, List.filterMap_append]
  rfl

private theorem reverse_warnings_singleton (base : String) (total : Int) (number : Nat)
    (outcome : Except FetchFault Answer) :
    (warnings base total number [outcome]).reverse = warnings base total number [outcome] := by
  unfold warnings
  cases h : interruption? outcome <;> simp [h]

private theorem Attempted.after_eq
    (h : Attempted s place accept base total seconds number before outcomes
    after) :
    after = { before with
      outcomes := after.outcomes
      sent := after.sent
      log := (warnings base total number outcomes).reverse ++ before.log
      waits := List.replicate (outcomes.length - 1) seconds ++ before.waits } := by
  induction h with
  | nil number before => rfl
  | @last number before after outcome hask =>
    obtain ⟨-, outcomes, sent, rfl⟩ := ask_cases hask
    rw [reverse_warnings_singleton]
    rfl
  | @again number before between after outcome outcomes hask hne _ ih =>
    obtain ⟨-, taken, sent, rfl⟩ := ask_cases hask
    have hlength : outcomes.length - 1 + 1 = outcomes.length :=
      Nat.succ_pred_eq_of_pos (List.length_pos_iff.2 hne)
    have hwaits : List.replicate ((outcome :: outcomes).length - 1) seconds ++ before.waits =
        List.replicate (outcomes.length - 1) seconds ++ seconds :: before.waits := by
      rw [List.length_cons, Nat.add_sub_cancel, ← hlength, List.replicate_succ', List.append_assoc,
        hlength]
      rfl
    rw [warnings_cons, List.reverse_append, reverse_warnings_singleton, List.append_assoc, hwaits]
    exact ih

private theorem Attempted.direct
    (h : Attempted s place accept base total seconds number before outcomes
    after) {request : Request} (hrequest : s.request place accept = .ok request)
    (hdirect : ∀ i reply, before.outcomeAt i = .ok reply → reply.redirect? = none) :
    after.sent = List.replicate outcomes.length request ++ before.sent ∧
      ∀ (i : Nat) (hi : i < outcomes.length),
        outcomes[i] = Http.direct request (before.outcomeAt i) := by
  induction h with
  | nil number before =>
    refine ⟨rfl, fun i hi => ?_⟩
    cases hi
  | @last number before after outcome hask =>
    rw [run_ask_of_no_redirect hrequest (hdirect 0)] at hask
    obtain ⟨rfl, rfl⟩ := Prod.mk.inj hask
    refine ⟨rfl, fun i hi => ?_⟩
    obtain rfl : i = 0 := Nat.lt_one_iff.1 hi
    rfl
  | @again number before between after outcome outcomes hask hne _ ih =>
    rw [run_ask_of_no_redirect hrequest (hdirect 0)] at hask
    obtain ⟨rfl, rfl⟩ := Prod.mk.inj hask
    have hlater : ∀ i, (resumed { before with
        outcomes := before.outcomes.tail
        sent := request :: before.sent } base total seconds number
          (Http.direct request (before.outcomeAt 0))).outcomeAt i = before.outcomeAt (i + 1) :=
      Surroundings.outcomeAt_of_tail rfl rfl
    obtain ⟨hsent, houtcomes⟩ := ih fun i reply hi => hdirect (i + 1) reply (hlater i ▸ hi)
    refine ⟨?_, fun i hi => ?_⟩
    · rw [hsent, List.length_cons, List.replicate_succ', List.append_assoc]
      rfl
    · cases i with
      | zero => rfl
      | succ i =>
        rw [List.getElem_cons_succ, houtcomes i (Nat.lt_of_succ_lt_succ hi), hlater]

theorem Attempted.ends (h : Attempted s place accept base total seconds number before outcomes
    after) : ∀ o ∈ outcomes, Ends o := by
  induction h with
  | nil number before =>
    intro o ho
    cases ho
  | last hask =>
    intro o ho
    obtain rfl := List.mem_singleton.1 ho
    exact (ask_cases hask).1
  | again hask _ _ ih =>
    intro o ho
    rcases List.mem_cons.1 ho with rfl | ho
    · exact (ask_cases hask).1
    · exact ih o ho

/-- What an attempt comes to if it is the last one. -/
def settled (total : Int) : Except FetchFault Answer → Except FetchFault Answer
  | .ok answer => answer.delivered
  | .error (.network (.interrupted way message)) =>
    .error (.unreachable total (some (.interrupted way message)))
  | .error fault => .error fault

private theorem interruption?_eq_some {outcome : Except FetchFault Answer} {way : Interruption}
    {message : String} (h : interruption? outcome = some (way, message)) :
    outcome = .error (.network (.interrupted way message)) := by
  unfold interruption? at h
  split at h
  · obtain ⟨rfl, rfl⟩ := Prod.mk.inj (Option.some.inj h)
    rfl
  · cases h

private theorem settled_error {fault : FetchFault} (h : interruption? (.error fault) = none)
    (total : Int) : settled total (.error fault) = .error fault := by
  unfold settled
  split
  · rename_i heq
    cases heq
  · rename_i way message heq
    obtain rfl := Except.error.inj heq
    cases h
  · rename_i heq
    exact heq ▸ rfl

variable {c : Client}

private theorem run_attempt_of_none {outcome : Except FetchFault Answer} {between : Surroundings}
    (hask : (s.ask place accept : StateM Surroundings _).run before = (outcome, between))
    (hnone : interruption? outcome = none) (total : Int) (remaining : Nat)
    (last : Option NetworkFault) :
    (c.attempt s place accept total (remaining + 1) last : StateM Surroundings _).run before =
      (settled total outcome, between) := by
  unfold Client.attempt
  rw [Surroundings.run_bind_of_run hask]
  obtain ⟨hends, -⟩ := ask_cases hask
  cases hends with
  | answer a => rfl
  | address fault => rfl
  | network fault =>
    cases fault with
    | interrupted way message => cases hnone
    | broken name message => rfl
    | badRedirect fault => rfl
    | tooManyRedirects => rfl
    | redirectAddress fault => rfl

/-- No time can pass between two attempts: it cannot be told, or it cannot be waited for. -/
inductive NoPause (c : Client) (before : Surroundings) : SettingFault → Prop
  | delay {fault : SettingFault} : c.settings.delay = .error fault → NoPause c before fault
  | wait {seconds : Float} {fault : WaitFault} : c.settings.delay = .ok seconds →
      before.refusedWait? seconds = some fault → NoPause c before (.wait fault)

theorem NoPause.congr {d : Client} {fault : SettingFault} (h : NoPause c before fault)
    (hsettings : d.settings = c.settings) (hrefused : after.refusedWait? = before.refusedWait?) :
    NoPause d after fault := by
  cases h with
  | delay hdelay => exact .delay (hsettings ▸ hdelay)
  | wait hdelay hwait => exact .wait (hsettings ▸ hdelay) (hrefused ▸ hwait)

private theorem run_pause (hdelay : c.settings.delay = .ok seconds)
    (hwait : before.refusedWait? seconds = none) :
    (c.pause : StateM Surroundings _).run before =
      (.ok (), { before with waits := seconds :: before.waits }) := by
  have hrun : (Network.wait seconds : StateM Surroundings _).run before =
      (.ok (), { before with waits := seconds :: before.waits }) := by
    show Surroundings.wait seconds before = _
    unfold Surroundings.wait
    rw [hwait]
  unfold Client.pause
  rw [hdelay]
  dsimp only
  rw [Surroundings.run_bind_of_run hrun]
  rfl

private theorem NoPause.run_pause {fault : SettingFault} (h : NoPause c before fault) :
    (c.pause : StateM Surroundings _).run before = (.error fault, before) := by
  unfold Client.pause
  cases h with
  | delay hdelay =>
    rw [hdelay]
    rfl
  | @wait seconds fault hdelay hwait =>
    have hrun : (Network.wait seconds : StateM Surroundings _).run before =
        (.error fault, before) := by
      show Surroundings.wait seconds before = _
      unfold Surroundings.wait
      rw [hwait]
    rw [hdelay]
    dsimp only
    rw [Surroundings.run_bind_of_run hrun]
    rfl

private theorem run_attempt_of_interrupted {way : Interruption} {message : String}
    {between : Surroundings} (hask : (s.ask place accept : StateM Surroundings _).run before =
      (.error (.network (.interrupted way message)), between))
    (made remaining : Nat) (last : Option NetworkFault) :
    (c.attempt s place accept ((made + (remaining + 1) : Nat) : Int) (remaining + 1) last :
        StateM Surroundings _).run before =
      if remaining = 0 then
        (.error (.unreachable ((made + (remaining + 1) : Nat) : Int)
            (some (.interrupted way message))),
          warned between c.settings.baseText ((made + (remaining + 1) : Nat) : Int) (made + 1)
            (.error (.network (.interrupted way message))))
      else
        match (c.pause : StateM Surroundings _).run
            (warned between c.settings.baseText ((made + (remaining + 1) : Nat) : Int) (made + 1)
              (.error (.network (.interrupted way message)))) with
        | (.error fault, later) => (.error (.setting fault), later)
        | (.ok (), later) =>
          (c.attempt s place accept ((made + (remaining + 1) : Nat) : Int) remaining
            (some (.interrupted way message)) : StateM Surroundings _).run later := by
  have hnumber : ((made + (remaining + 1) : Nat) : Int) - (remaining : Int) =
      ((made + 1 : Nat) : Int) := by
    push_cast
    omega
  rw [Client.attempt, Surroundings.run_bind_of_run hask]
  dsimp only
  rw [hnumber]
  by_cases hzero : remaining = 0
  · rw [if_pos hzero, if_pos hzero]
    rfl
  · rw [if_neg hzero, if_neg hzero]
    have hnotice : (Host.notice .warning (interruptionNotice c.settings.baseText
        ((made + 1 : Nat) : Int) ((made + (remaining + 1) : Nat) : Int) way message) :
          StateM Surroundings _).run between =
        ((), warned between c.settings.baseText ((made + (remaining + 1) : Nat) : Int) (made + 1)
          (.error (.network (.interrupted way message)))) := rfl
    rw [Surroundings.run_bind_of_run hnotice]
    cases hpaused : (c.pause : StateM Surroundings _).run (warned between c.settings.baseText
      ((made + (remaining + 1) : Nat) : Int) (made + 1)
        (.error (.network (.interrupted way message)))) with
    | mk paused later =>
      rw [Surroundings.run_bind_of_run hpaused]
      cases paused <;> rfl

private theorem exhausts_nil : Exhausts [] 0 where
  length_le := Nat.le_refl 0
  earlier := fun _ ho => nomatch ho
  stops := fun hlt => nomatch hlt

private theorem exhausts_singleton {outcome : Except FetchFault Answer} {remaining : Nat}
    (h : interruption? outcome = none ∨ remaining = 0) : Exhausts [outcome] (remaining + 1) where
  length_le := Nat.succ_le_succ (Nat.zero_le _)
  earlier := fun _ ho => nomatch ho
  stops := by
    intro hlt
    rcases h with hnone | rfl
    · exact ⟨outcome, rfl, hnone⟩
    · exact absurd hlt (Nat.lt_irrefl 1)

theorem Exhausts.ne_nil {remaining : Nat} (h : Exhausts outcomes remaining)
    (hpos : remaining ≠ 0) : outcomes ≠ [] := by
  rintro rfl
  obtain ⟨o, ho, -⟩ := h.stops (Nat.pos_of_ne_zero hpos)
  cases ho

theorem Exhausts.cons {outcome : Except FetchFault Answer} {remaining : Nat}
    (h : Exhausts outcomes remaining) (hne : outcomes ≠ [])
    (hinterrupted : (interruption? outcome).isSome) :
    Exhausts (outcome :: outcomes) (remaining + 1) where
  length_le := Nat.succ_le_succ h.length_le
  earlier := by
    rw [List.dropLast_cons_of_ne_nil hne]
    intro o ho
    rcases List.mem_cons.1 ho with rfl | ho
    · exact hinterrupted
    · exact h.earlier o ho
  stops := by
    intro hlt
    rw [List.getLast?_cons_of_ne_nil hne]
    exact h.stops (Nat.lt_of_succ_lt_succ hlt)

private theorem run_attempt (hdelay : c.settings.delay = .ok seconds) (made remaining : Nat)
    (last : Option NetworkFault) (before : Surroundings)
    (hwait : before.refusedWait? seconds = none) :
    ∃ outcomes after,
      (c.attempt s place accept ((made + remaining : Nat) : Int) remaining last :
        StateM Surroundings _).run before =
          ((outcomes.getLast?.map (settled ((made + remaining : Nat) : Int))).getD
            (.error (.unreachable ((made + remaining : Nat) : Int) last)), after) ∧
      Attempted s place accept c.settings.baseText ((made + remaining : Nat) : Int) seconds
        (made + 1) before outcomes after ∧
      Exhausts outcomes remaining := by
  induction remaining generalizing made last before with
  | zero =>
    exact ⟨[], before, rfl, .nil _ _, exhausts_nil⟩
  | succ remaining ih =>
    cases hask : (s.ask place accept : StateM Surroundings _).run before with
    | mk outcome between =>
    cases hway : interruption? outcome with
    | none =>
      have hwarned : warned between c.settings.baseText ((made + (remaining + 1) : Nat) : Int)
          (made + 1) outcome = between := by
        simp [warned, warnings, hway]
      have hlast : Attempted s place accept c.settings.baseText
          ((made + (remaining + 1) : Nat) : Int) seconds (made + 1) before [outcome]
          (warned between c.settings.baseText ((made + (remaining + 1) : Nat) : Int) (made + 1)
            outcome) := .last hask
      rw [hwarned] at hlast
      exact ⟨[outcome], between, run_attempt_of_none hask hway _ remaining last, hlast,
        exhausts_singleton (Or.inl hway)⟩
    | some interruption =>
      obtain ⟨way, message⟩ := interruption
      obtain rfl := interruption?_eq_some hway
      have hstep := run_attempt_of_interrupted (c := c) hask made remaining last
      by_cases hzero : remaining = 0
      · subst hzero
        rw [if_pos rfl] at hstep
        exact ⟨[.error (.network (.interrupted way message))], _, hstep, .last hask,
          exhausts_singleton (Or.inr rfl)⟩
      · have hbetween : between.refusedWait? seconds = none := by
          rw [(ask_cases hask).2.refusedWait?_eq, hwait]
        have hpaused : (c.pause : StateM Surroundings _).run (warned between c.settings.baseText
            ((made + (remaining + 1) : Nat) : Int) (made + 1)
              (.error (.network (.interrupted way message)))) = _ := run_pause hdelay hbetween
        rw [if_neg hzero, hpaused] at hstep
        have htotal : made + (remaining + 1) = made + 1 + remaining := by omega
        rw [htotal] at hstep ⊢
        obtain ⟨outcomes, after, hrun, hattempted, hexhausts⟩ := ih (made + 1)
          (some (.interrupted way message)) (resumed between c.settings.baseText
            ((made + 1 + remaining : Nat) : Int) seconds (made + 1)
              (.error (.network (.interrupted way message)))) hbetween
        -- there is an attempt left, and so another one is made
        have hne : outcomes ≠ [] := hexhausts.ne_nil hzero
        refine ⟨_ :: outcomes, after, ?_, .again hask hne hattempted, hexhausts.cons hne rfl⟩
        rw [List.getLast?_cons_of_ne_nil hne]
        obtain ⟨o, hlast⟩ : ∃ o, outcomes.getLast? = some o :=
          ⟨_, List.getLast?_eq_some_getLast hne⟩
        rw [hlast] at hrun ⊢
        exact hstep.trans hrun

private theorem concludes_of_reached {outcome : Except FetchFault Answer} {total : Int}
    (hlast : outcomes.getLast? = some outcome) (hends : Ends outcome)
    (hway : interruption? outcome = none) : Concludes outcomes total (settled total outcome) := by
  have hreached : ¬ ∀ o ∈ outcomes, (interruption? o).isSome := by
    intro hall
    have hsome := hall outcome (List.mem_of_getLast? hlast)
    rw [hway] at hsome
    cases hsome
  cases hends with
  | answer a =>
    simp only [settled, Answer.delivered]
    cases hsuccess : a.reply.isSuccess <;> constructor <;> simp [hlast, hsuccess, hreached]
  | address fault => constructor <;> simp [hlast, settled, hreached]
  | network fault =>
    rw [settled_error hway]
    constructor <;> simp [hlast, hreached]

theorem Exhausts.interrupted {outcome : Except FetchFault Answer} {limit : Nat}
    (h : Exhausts outcomes limit) (hlast : outcomes.getLast? = some outcome)
    (hinterrupted : (interruption? outcome).isSome) :
    outcomes.length = limit ∧ ∀ o ∈ outcomes, (interruption? o).isSome := by
  constructor
  · refine Nat.le_antisymm h.length_le (Nat.le_of_not_lt fun hlt => ?_)
    obtain ⟨o, ho, hnone⟩ := h.stops hlt
    obtain rfl := Option.some.inj (hlast.symm.trans ho)
    rw [hnone] at hinterrupted
    cases hinterrupted
  · intro o ho
    rw [← List.dropLast_append_getLast? _ (Option.mem_def.2 hlast), List.mem_append] at ho
    rcases ho with ho | ho
    · exact h.earlier o ho
    · obtain rfl := List.mem_singleton.1 ho
      exact hinterrupted

private theorem Exhausts.concludes {total : Int} (h : Exhausts outcomes total.toNat)
    (hends : ∀ o ∈ outcomes, Ends o) :
    Concludes outcomes total
      ((outcomes.getLast?.map (settled total)).getD (.error (.unreachable total none))) := by
  cases hlast : outcomes.getLast? with
  | none =>
    obtain rfl := List.getLast?_eq_none_iff.1 hlast
    have hzero : total.toNat = 0 := by
      by_contra hpos
      exact h.ne_nil hpos rfl
    constructor
    · simp
    · simp
    · intro fault hfault
      cases hfault
    · intro n last
      constructor
      · intro h
        cases h
        exact ⟨rfl, hzero.symm, by simp, rfl⟩
      · rintro ⟨rfl, -, -, rfl⟩
        rfl
  | some o =>
    cases hway : interruption? o with
    | none => exact concludes_of_reached hlast (hends o (List.mem_of_getLast? hlast)) hway
    | some interruption =>
      obtain ⟨hlength, hall⟩ := h.interrupted hlast (Option.isSome_iff_exists.2 ⟨_, hway⟩)
      obtain ⟨way, message⟩ := interruption
      obtain rfl := interruption?_eq_some hway
      have hsettled : settled total (.error (.network (.interrupted way message))) =
        .error (.unreachable total (some (.interrupted way message))) := rfl
      simp only [Option.map_some, Option.getD_some, hsettled]
      constructor
      · simp [hlast]
      · simp [hlast]
      · intro fault hfault hnone
        rw [hlast] at hfault
        obtain rfl := Except.error.inj (Option.some.inj hfault)
        cases hnone
      · intro n last
        rw [hlast, Option.bind_some, hway]
        constructor
        · intro h
          cases h
          exact ⟨rfl, hlength, hall, rfl⟩
        · rintro ⟨rfl, -, -, rfl⟩
          rfl

private theorem settings_of_opened {d : Client} (h : c.opened = .ok (s, d)) :
    d.settings = c.settings := by
  unfold Client.opened at h
  cases hsession : c.session with
  | some open' =>
    rw [hsession] at h
    obtain ⟨-, rfl⟩ := Prod.mk.inj (Except.ok.inj h)
    rfl
  | none =>
    rw [hsession] at h
    cases hnew : Session.ofSettings c.settings with
    | error fault =>
      rw [hnew] at h
      cases h
    | ok new =>
      rw [hnew] at h
      obtain ⟨-, rfl⟩ := Prod.mk.inj (Except.ok.inj h)
      rfl

private theorem run_get_of_nonpos {n : Int} (hn : c.settings.attempts = .ok n) (hle : n ≤ 0) :
    (c.get place accept : StateM Surroundings _).run before =
      ((.error (.unreachable n none), c), before) := by
  unfold Client.get
  rw [hn]
  dsimp only
  rw [if_pos hle]
  rfl

private theorem run_get_of_unopened {n : Int} {fault : FetchFault}
    (hn : c.settings.attempts = .ok n) (hpos : 0 < n) (hopened : c.opened = .error fault) :
    (c.get place accept : StateM Surroundings _).run before = ((.error fault, c), before) := by
  unfold Client.get
  rw [hn]
  dsimp only
  rw [if_neg (Int.not_le.2 hpos), hopened]
  rfl

private theorem run_get_of_opened {n : Int} {d : Client} {result : Except FetchFault Answer}
    (hn : c.settings.attempts = .ok n) (hpos : 0 < n) (hopened : c.opened = .ok (s, d))
    (hattempt : (d.attempt s place accept n n.toNat none : StateM Surroundings _).run before =
      (result, after)) :
    (c.get place accept : StateM Surroundings _).run before = ((result, d), after) := by
  unfold Client.get
  rw [hn]
  dsimp only
  rw [if_neg (Int.not_le.2 hpos), hopened]
  dsimp only
  rw [Surroundings.run_bind_of_run hattempt]
  rfl

private theorem run_get {n : Int} {d : Client} (hn : c.settings.attempts = .ok n)
    (hopened : c.opened = .ok (s, d)) (hdelay : c.settings.delay = .ok seconds)
    (hwait : before.refusedWait? seconds = none) :
    ∃ outcomes after,
      (c.get place accept : StateM Surroundings _).run before =
        (((outcomes.getLast?.map (settled n)).getD (.error (.unreachable n none)),
          if n ≤ 0 then c else d), after) ∧
      Attempted s place accept c.settings.baseText n seconds 1 before outcomes after ∧
      Exhausts outcomes n.toNat := by
  by_cases hle : n ≤ 0
  · refine ⟨[], before, ?_, .nil _ _, ?_⟩
    · rw [if_pos hle]
      exact run_get_of_nonpos hn hle
    · rw [Int.toNat_of_nonpos hle]
      exact exhausts_nil
  · have hpos : 0 < n := Int.not_le.1 hle
    have htotal : ((0 + n.toNat : Nat) : Int) = n := by
      rw [Nat.zero_add]
      exact Int.toNat_of_nonneg (Int.le_of_lt hpos)
    rw [← settings_of_opened hopened] at hdelay ⊢
    obtain ⟨outcomes, after, hrun, hattempted, hexhausts⟩ :=
      @run_attempt s place accept _ _ hdelay 0 n.toNat none before hwait
    rw [htotal] at hrun hattempted
    refine ⟨outcomes, after, ?_, hattempted, hexhausts⟩
    rw [if_neg hle]
    exact run_get_of_opened hn hpos hopened hrun

private theorem run_get_of_no_pause {n : Int} {d : Client} {fault : SettingFault}
    (hn : c.settings.attempts = .ok n) (hpos : 0 < n) (hopened : c.opened = .ok (s, d))
    (hpause : NoPause c before fault) :
    ∃ outcome between,
      (s.ask place accept : StateM Surroundings _).run before = (outcome, between) ∧
      (c.get place accept : StateM Surroundings _).run before =
        ((if (interruption? outcome).isSome ∧ 1 < n then .error (.setting fault)
          else settled n outcome, d), warned between c.settings.baseText n 1 outcome) := by
  cases hask : (s.ask place accept : StateM Surroundings _).run before with
  | mk outcome between =>
  refine ⟨outcome, between, rfl, ?_⟩
  obtain ⟨remaining, hremaining⟩ : ∃ remaining : Nat, n = ((0 + (remaining + 1) : Nat) : Int) :=
    ⟨n.toNat - 1, by omega⟩
  have htoNat : n.toNat = remaining + 1 := by omega
  apply run_get_of_opened hn hpos hopened
  rw [htoNat]
  cases hway : interruption? outcome with
  | none =>
    have hwarned : warned between c.settings.baseText n 1 outcome = between := by
      simp [warned, warnings, hway]
    rw [hwarned, run_attempt_of_none hask hway n remaining none]
    rfl
  | some interruption =>
    obtain ⟨way, message⟩ := interruption
    obtain rfl := interruption?_eq_some hway
    have hstep := run_attempt_of_interrupted (c := d) hask 0 remaining none
    rw [← hremaining, settings_of_opened hopened] at hstep
    rw [hstep]
    by_cases hzero : remaining = 0
    · have hone : ¬ 1 < n := by omega
      rw [if_pos hzero, if_neg fun h => hone h.2]
      rfl
    · have hmany : 1 < n := by omega
      have hpaused : NoPause d (warned between c.settings.baseText n (0 + 1)
          (.error (.network (.interrupted way message)))) fault :=
        hpause.congr (settings_of_opened hopened) (ask_cases hask).2.refusedWait?_eq
      rw [if_neg hzero, if_pos ⟨rfl, hmany⟩, hpaused.run_pause]

private theorem kind_ofStatus (status : Nat) :
    (Refusal.ofStatus status).kind =
      if status = 401 ∨ status = 403 then .authentication
      else if status = 404 then .notFound
      else if status = 429 then .rateLimit
      else .api := by
  unfold Refusal.ofStatus
  split
  · rfl
  · split
    · rfl
    · split <;> rfl

/-- A request that is made while attempts are left and an answer is not there. However many attempts
the settings allow and whatever the network does, there are as many as it takes to one that is not
interrupted, and no more than allowed; between any two there is one wait, and about each that is
interrupted one warning. An answer that delivers something is the result, one that refuses and a
fault of another kind are the error, and the server counts as out of reach exactly when all attempts
were interrupted, which the last of them, if there is one, is the reason for. -/
theorem get_makes_attempts {c : Client} {n : Int} (hn : c.settings.attempts = .ok n)
    (place : String) (accept : Option String) (before : Surroundings) :
    (∀ s d seconds, c.opened = .ok (s, d) → c.settings.delay = .ok seconds →
      before.refusedWait? seconds = none →
      ∃ outcomes result after,
        (c.get place accept : StateM Surroundings _).run before =
          ((result, if n ≤ 0 then c else d), after) ∧
        Attempted s place accept c.settings.baseText n seconds 1 before outcomes after ∧
        Exhausts outcomes n.toNat ∧
        Concludes outcomes n result ∧
        after = { before with
          outcomes := after.outcomes
          sent := after.sent
          log := (warnings c.settings.baseText n 1 outcomes).reverse ++ before.log
          waits := List.replicate (outcomes.length - 1) seconds ++ before.waits } ∧
        ∀ request, s.request place accept = .ok request →
          (∀ i reply, before.outcomeAt i = .ok reply → reply.redirect? = none) →
          after.sent = List.replicate outcomes.length request ++ before.sent ∧
          ∀ (i : Nat) (hi : i < outcomes.length),
            outcomes[i] = direct request (before.outcomeAt i)) ∧
    (n ≤ 0 → (c.get place accept : StateM Surroundings _).run before =
      ((.error (.unreachable n none), c), before)) ∧
    (0 < n → ∀ fault, c.opened = .error fault →
      (c.get place accept : StateM Surroundings _).run before = ((.error fault, c), before)) ∧
    (0 < n → ∀ s d fault, c.opened = .ok (s, d) → NoPause c before fault →
      ∃ outcome between,
        (s.ask place accept : StateM Surroundings _).run before = (outcome, between) ∧
        (c.get place accept : StateM Surroundings _).run before =
          ((if (interruption? outcome).isSome ∧ 1 < n then .error (.setting fault)
            else settled n outcome, d), warned between c.settings.baseText n 1 outcome)) ∧
    ∀ status, (Refusal.ofStatus status).kind =
      if status = 401 ∨ status = 403 then .authentication
      else if status = 404 then .notFound
      else if status = 429 then .rateLimit
      else .api := by
  refine ⟨?_, run_get_of_nonpos hn, ?_, ?_, kind_ofStatus⟩
  · intro s d seconds hopened hdelay hwait
    obtain ⟨outcomes, after, hrun, hattempted, hexhausts⟩ := run_get hn hopened hdelay hwait
    refine ⟨outcomes, _, after, hrun, hattempted, hexhausts, ?_, hattempted.after_eq, ?_⟩
    · exact hexhausts.concludes hattempted.ends
    · intro request hrequest hdirect
      exact hattempted.direct hrequest hdirect
  · intro hpos fault hopened
    exact run_get_of_unopened hn hpos hopened
  · intro hpos s d fault hopened hpause
    exact run_get_of_no_pause hn hpos hopened hpause

/-- A client of an archive whose session is open. -/
def archiveClient : Client where
  settings := ⟨.text "https://archive.org", [("retry_delay", .float 1.5)]⟩
  session := some ⟨⟨"https", "", "archive.org", none, "/", none, none⟩, ordinaryHeaders, none⟩

/-- A network that lets the first request down. -/
def hesitantNetwork : Surroundings where
  disk := { items := [], workingDirectory := [] }
  temporaryDirectory := ⟨"/", ["tmp"]⟩
  log := []
  outcomes := [.error (.interrupted .connecting "timed out")]
  lastOutcome := .ok ⟨200, [], Bytes.ofText "<feed/>"⟩

def statementRequest : Request where
  address := ⟨"https", "", "archive.org", none, "/statements/1", none, none⟩
  headers := ordinaryHeaders

private theorem request_of_archiveClient (s : Session) (hs : archiveClient.session = some s) :
    s.request "statements/1" none = .ok statementRequest := by
  obtain rfl := Option.some.inj hs
  have hread : Address.read "statements/1" =
    .ok ⟨"", "", "", none, "statements/1", none, none⟩ := by decide +kernel
  have hsplit : splitAuthority "archive.org".toList = ([], "archive.org".toList, []) := by
    decide +kernel
  -- the search for numbers in a host is not evaluated by the kernel
  have hletters : looksLikeOctets "archive.org".toList = false := by
    simp [looksLikeOctets, looksLikeOctets.runs, looksLikeOctets.tails]
  have hhost : normalHost "archive.org".toList = .ok "archive.org".toList := by
    unfold normalHost
    rw [hletters]
    decide +kernel
  have hnormal : RawAddress.normal ⟨"https".toList, "archive.org".toList, "/statements/1".toList,
      none, none⟩ = .ok statementRequest.address := by
    unfold RawAddress.normal
    rw [hsplit]
    dsimp only
    rw [hhost]
    decide +kernel
  have hbelow : Address.below ⟨"https", "", "archive.org", none, "/", none, none⟩
      ⟨"", "", "", none, "statements/1", none, none⟩ = .ok statementRequest.address := hnormal
  unfold Session.request
  rw [hread]
  show Except.map _ (Address.below _ _) = _
  rw [hbelow]
  decide +kernel

theorem statement_on_second_attempt :
    archiveClient.settings.attempts = .ok 3 ∧
    ∃ after,
      (archiveClient.get "statements/1" none : StateM Surroundings _).run hesitantNetwork =
        ((.ok ⟨statementRequest.address, ⟨200, [], Bytes.ofText "<feed/>"⟩⟩, archiveClient),
          after) ∧
      after.sent = [statementRequest, statementRequest] ∧
      after.waits = [1.5] ∧
      after.log = [⟨.warning,
        "ConnectTimeout reaching https://archive.org (attempt 1/3): timed out"⟩] := by
  have hn : archiveClient.settings.attempts = .ok 3 := rfl
  obtain ⟨s, hs⟩ : ∃ s, archiveClient.session = some s := ⟨_, rfl⟩
  have hopened : archiveClient.opened = .ok (s, archiveClient) := by
    unfold Client.opened
    rw [hs]
  have hdirect : ∀ i reply, hesitantNetwork.outcomeAt i = .ok reply → reply.redirect? = none := by
    intro i reply hi
    cases i with
    | zero => cases hi
    | succ i =>
      obtain rfl := Except.ok.inj hi
      rfl
  obtain ⟨hattempts, -⟩ := get_makes_attempts hn "statements/1" none hesitantNetwork
  obtain ⟨outcomes, result, after, hrun, -, hexhausts, hconcludes, hafter, hsent⟩ :=
    hattempts s archiveClient 1.5 hopened rfl rfl
  obtain ⟨hsent, houtcomes⟩ := hsent statementRequest (request_of_archiveClient s hs) hdirect
  -- the first attempt is not the last one, the second is not followed by another one
  match outcomes, hexhausts, hconcludes, hafter, hsent, houtcomes with
  | [], hexhausts, _, _, _, _ =>
    obtain ⟨o, ho, -⟩ := hexhausts.stops (by decide)
    cases ho
  | [o], hexhausts, _, _, _, houtcomes =>
    obtain ⟨o', ho, hnone⟩ := hexhausts.stops (by simp)
    obtain rfl : o = o' := Option.some.inj ho
    obtain rfl := houtcomes 0 (by simp)
    cases hnone
  | [o, o'], _, hconcludes, hafter, hsent, houtcomes =>
    obtain rfl := houtcomes 0 (by simp)
    obtain rfl := houtcomes 1 (by simp)
    have hresult := (hconcludes.delivered _).2 ⟨rfl, rfl⟩
    refine ⟨hn, after, ?_, hsent, ?_, ?_⟩
    · rw [hrun, hresult]
      rfl
    · rw [hafter]
      rfl
    · have hlog : (warnings "https://archive.org" 3 1
          [direct statementRequest (hesitantNetwork.outcomeAt 0),
            direct statementRequest (hesitantNetwork.outcomeAt 1)]).reverse = [⟨.warning,
          "ConnectTimeout reaching https://archive.org (attempt 1/3): timed out"⟩] := by
        decide +kernel
      rw [hafter]
      exact hlog
  | o :: o' :: o'' :: rest, hexhausts, _, _, _, houtcomes =>
    obtain rfl := houtcomes 1 (by simp)
    have hearlier := hexhausts.earlier (direct statementRequest (hesitantNetwork.outcomeAt 1))
      (by simp)
    cases hearlier

end Http

end Deposit
