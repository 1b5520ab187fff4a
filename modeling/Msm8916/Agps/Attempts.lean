import Msm8916.Agps.DataCall

/-!
The attempts of a `DSStateMachine` to start a data call. An attempt lasts from
the first request after a successful start, or after a fallback to normal ATL,
to the next of these. The runs below keep account of the answers.
-/

namespace Msm8916.Agps.AgpsStateMachine

open Transition

/-- What the answers to the requests so far come to: the latest of them, the
busy ones of the current attempt, and those of the attempts since the last
fallback that ended in a start. -/
structure Account where
  lastAnswer : Option Int
  busy : Nat
  carried : Nat

namespace Account

def init : Account := ⟨none, 0, 0⟩

/-- The account after an action, when a request is given `answer`. -/
def after (answer : Int) (account : Account) : Action → Account
  | .dataCall .requestDataConn =>
      if answer = errSuccess then ⟨some answer, 0, account.carried + account.busy⟩
      else if answer = errEngineBusy then ⟨some answer, account.busy + 1, account.carried⟩
      else { account with lastAnswer := some answer }
  | .requestATL .. => { account with busy := 0, carried := 0 }
  | _ => account

/-- The machine's count of retries makes no difference between attempts. -/
def Tallies (account : Account) (mRetries : UInt8) : Prop :=
  mRetries.toNat = account.carried + account.busy ∧ mRetries ≤ maxStartDataCallRetries

end Account

/-- A log without a request keeps the account or, if somebody is handed to ATL,
closes it. -/
theorem NoCall.account {log : List Action} (h : NoCall log) (answer : Int) (mRetries : UInt8)
    (account : Account) :
    (log.foldl (countAfter answer) mRetries = mRetries ∧
        log.foldl (Account.after answer) account = account) ∨
      (log.foldl (countAfter answer) mRetries = 0 ∧
        log.foldl (Account.after answer) account = { account with busy := 0, carried := 0 }) := by
  induction log generalizing mRetries account with
  | nil => exact .inl ⟨rfl, rfl⟩
  | cons action log ih =>
      obtain ⟨haction, hlog⟩ := not_or.mp (mt List.mem_cons.mpr h)
      rw [List.foldl_cons, List.foldl_cons]
      cases action with
      | requestATL connHandle agpsType =>
          have hrest := ih hlog 0 { account with busy := 0, carried := 0 }
          exact .inr (hrest.elim id id)
      | dataCall action =>
          cases action with
          | requestDataConn => exact absurd rfl haction
          | releaseDataConn => exact ih hlog mRetries account
      | _ => exact ih hlog mRetries account

theorem answered_noCall (mRetries : UInt8) (answer : Int) (connHandle : Int32) :
    NoCall (answered mRetries answer connHandle) := by
  unfold answered
  split
  · simp [NoCall]
  · split <;> simp [NoCall]

/-- The account at the end of a log that asks for a data call. -/
theorem LogsCall.account {start mRetries : UInt8} {answer : Int} {list : List Subscriber}
    {log : List Action} (h : LogsCall start mRetries answer list log) (account : Account) :
    ∃ before connHandle,
      log = before ++ .dataCall .requestDataConn :: answered mRetries answer connHandle ∧
        NoCall before ∧ before.foldl (countAfter answer) start = mRetries ∧
        (log.foldl (Account.after answer) account).lastAnswer = some answer := by
  obtain ⟨before, hbefore, hcount, t, -, rfl⟩ := h
  refine ⟨before, _, rfl, hbefore, hcount, ?_⟩
  have hasked : ∀ account : Account,
      (account.after answer (.dataCall .requestDataConn)).lastAnswer = some answer := by
    intro account
    simp only [Account.after]
    split
    · rfl
    · split <;> rfl
  rw [List.foldl_append, List.foldl_cons]
  rcases (answered_noCall mRetries answer t.ID.toInt32).account answer mRetries
      ((before.foldl (Account.after answer) account).after answer
        (.dataCall .requestDataConn)) with ⟨-, heq⟩ | ⟨-, heq⟩
  · rw [heq]
    exact hasked _
  · rw [heq]
    exact hasked _

theorem Account.Tallies.closed (account : Account) :
    Tallies { account with busy := 0, carried := 0 } 0 :=
  ⟨rfl, by decide⟩

theorem Account.Tallies.noCall {account : Account} {mRetries : UInt8}
    (h : account.Tallies mRetries) {log : List Action} (hlog : NoCall log) (answer : Int) :
    (log.foldl (Account.after answer) account).Tallies
      (log.foldl (countAfter answer) mRetries) := by
  rcases hlog.account answer mRetries account with ⟨hcount, haccount⟩ | ⟨hcount, haccount⟩
  · rwa [hcount, haccount]
  · rw [hcount, haccount]
    exact closed account

theorem toNat_succ {mRetries : UInt8} (h : mRetries ≤ maxStartDataCallRetries) :
    (mRetries + 1).toNat = mRetries.toNat + 1 := by
  have hle : mRetries.toNat ≤ 4 := UInt8.le_iff_toNat_le.mp h
  rw [UInt8.toNat_add]
  exact Nat.mod_eq_of_lt (by simp only [UInt8.toNat_one]; omega)

theorem answered_busy {mRetries : UInt8} (h : mRetries < maxStartDataCallRetries)
    (connHandle : Int32) :
    answered mRetries errEngineBusy connHandle = [.startDelayTimer dataCallRetryDelayMsec] := by
  have hless : mRetries.toNat < 4 := UInt8.lt_iff_toNat_lt.mp h
  have hroom : ¬ maxStartDataCallRetries < mRetries + 1 := by
    rw [UInt8.lt_iff_toNat_lt, toNat_succ (UInt8.le_of_lt h)]
    exact Nat.not_lt.mpr hless
  simp [answered, fallsBack, hroom, errEngineBusy, errUnsupported]

theorem answered_full (connHandle : Int32) :
    answered maxStartDataCallRetries errEngineBusy connHandle =
      [.requestATL connHandle .supl] := rfl

/-- The account still tallies after a request and what follows the answer. -/
theorem Account.Tallies.answered {account : Account} {mRetries : UInt8}
    (h : account.Tallies mRetries) (answer : Int) (connHandle : Int32) :
    ((AgpsStateMachine.answered mRetries answer connHandle).foldl (Account.after answer)
        (account.after answer (.dataCall .requestDataConn))).Tallies
      ((AgpsStateMachine.answered mRetries answer connHandle).foldl (countAfter answer)
        (countAfter answer mRetries (.dataCall .requestDataConn))) := by
  unfold AgpsStateMachine.answered
  split
  · exact closed _
  · rename_i hstays
    by_cases hbusy : answer = errEngineBusy
    · subst hbusy
      have hroom : ¬ maxStartDataCallRetries < mRetries + 1 := by
        simpa [fallsBack, errEngineBusy, errUnsupported] using hstays
      refine ⟨?_, UInt8.not_lt.mp hroom⟩
      have hcount : (mRetries + 1).toNat = account.carried + (account.busy + 1) := by
        rw [toNat_succ h.2, h.1, Nat.add_assoc]
      exact hcount
    · rw [if_neg hbusy]
      simp only [List.foldl_nil, countAfter, Account.after, hbusy, if_false]
      split
      · exact ⟨by rw [h.1, Nat.add_zero], h.2⟩
      · exact h

/-! ## Ways into Pending -/

/-- The rows of the table that lead to Pending from another state. -/
theorem stateAfter_pending {state : AgpsState} {event : Event} {list : List Subscriber}
    {ret : Int} (h : stateAfter state event (listAfter state event list) ret = .pending) :
    state = .pending ∨ state = .released ∧ (∃ s, event = .subscribe s) ∨
      state = .releasing ∧ (event = .released ∨ event = .denied) ∧ anyActive list = true := by
  have hunused : ∀ list, stateIfUnused .acquired list ≠ .pending := by
    intro list
    unfold stateIfUnused
    split
    · simp
    · split <;> simp
  cases state with
  | pending => exact .inl rfl
  | released =>
      cases event with
      | subscribe s => exact .inr (.inl ⟨rfl, s, rfl⟩)
      | _ => cases h
  | acquired =>
      cases event with
      | unsubscribe s => exact absurd h (hunused _)
      | _ => cases h
  | releasing =>
      refine .inr (.inr ⟨rfl, ?_⟩)
      cases event with
      | released | denied =>
          simp only [stateAfter, listAfter, anyActive_filter] at h
          exact ⟨by simp, by simpa using h⟩
      | unsubscribe s =>
          simp only [stateAfter] at h
          split at h <;> cases h
      | subscribe | granted => cases h

theorem dispatch_pending {machine : AgpsStateMachine} {event : Event} {answer : Int}
    (h : (machine.dispatch event answer).mState = .pending) :
    machine.mState = .pending ∨ machine.mState = .released ∧ (∃ s, event = .subscribe s) ∨
      machine.mState = .releasing ∧ (event = .released ∨ event = .denied) ∧
        anyActive machine.mSubscribers = true := by
  obtain ⟨ret, hstate⟩ := machine.dispatch_mState_exists event answer
  exact stateAfter_pending (hstate.symm.trans h)

/-- A resource event leads to Pending from Releasing, when an active client
waits. -/
theorem onDsEvent_pending {machine : AgpsStateMachine} {event : AgpsRsrcStatus} {answer : Int}
    (h : (machine.onDsEvent event answer).mState = .pending) :
    machine.mState = .pending ∨ (event = .released ∨ event = .denied) ∧
      machine.mState = .releasing ∧ anyActive machine.mSubscribers = true := by
  cases event with
  | granted =>
      rcases dispatch_pending h with hsame | ⟨-, s, hevent⟩ | ⟨-, hevent, -⟩
      · exact .inl hsame
      · cases hevent
      · simp at hevent
  | denied =>
      rcases dispatch_pending h with hsame | ⟨-, s, hevent⟩ | ⟨hstate, -, hactive⟩
      · exact .inl hsame
      · cases hevent
      · exact .inr ⟨.inr rfl, hstate, hactive⟩
  | released =>
      have hfirst : (machine.dispatch .released answer).mState = .pending →
          machine.mState = .pending ∨ machine.mState = .releasing ∧
            anyActive machine.mSubscribers = true := by
        intro hpending
        rcases dispatch_pending hpending with hsame | ⟨-, s, hevent⟩ | ⟨hstate, -, hactive⟩
        · exact .inl hsame
        · cases hevent
        · exact .inr ⟨hstate, hactive⟩
      simp only [onDsEvent] at h
      split at h
      · rename_i hsame
        rcases dispatch_pending h with hstate | ⟨-, s, hevent⟩ | ⟨hstate, -, -⟩
        · exact .inl (hsame.symm.trans hstate)
        · cases hevent
        · exact absurd hstate (dispatch_released_ne machine answer (hsame.symm.trans hstate))
      · exact (hfirst h).imp_right fun hstate => ⟨.inl rfl, hstate⟩
  | subscribe | unsubscribe | statusMax => exact .inl h

/-- A call that asks for no data call does not lead to Pending from another
state. -/
theorem pending_of_callAnswer {machine next : AgpsStateMachine} {label : Label}
    (h : machine.DsShape) (hstep : machine.step .ds label = some next)
    (hcall : machine.callAnswer label = none) (hpending : next.mState = .pending) :
    machine.mState = .pending := by
  cases label with
  | subscribe s answer =>
      obtain ⟨-, rfl⟩ := step_subscribe hstep
      have hreleased : machine.mState ≠ .released := by simpa [callAnswer] using hcall
      rw [subscribeRsrc, h.many] at hpending
      rcases dispatch_pending hpending with hsame | ⟨hstate, -⟩ | ⟨-, hevent, -⟩
      · exact hsame
      · exact absurd hstate hreleased
      · simp at hevent
  | unsubscribe s answer =>
      obtain ⟨-, rfl⟩ := step_unsubscribe hstep
      unfold unsubscribeRsrc at hpending
      split at hpending
      · rcases dispatch_pending hpending with hsame | ⟨-, t, hevent⟩ | ⟨-, hevent, -⟩
        · exact hsame
        · cases hevent
        · simp at hevent
      · exact hpending
  | rsrcEvent event answer =>
      obtain rfl := Option.some.inj hstep
      rw [onRsrcEvent_ds h.cleared.ds] at hpending
      rcases onDsEvent_pending hpending with hsame | ⟨hevent, hfinish⟩
      · exact hsame
      · rcases hevent with rfl | rfl <;>
          exact absurd hfinish (by simpa [callAnswer] using hcall)
  | setBearer bearer =>
      obtain rfl := Option.some.inj hstep
      exact hpending
  | setAPN apn =>
      obtain rfl := Option.some.inj hstep
      exact hpending
  | retry =>
      obtain ⟨-, rfl⟩ := step_retry hstep
      unfold retryCallback at hpending
      split at hpending <;> exact hpending

/-- A request to start a data call returns success if the servicer does. -/
theorem sendDataCallRequest_ret {machine : AgpsStateMachine} {answer : Int}
    (h : (machine.sendDataCallRequest .requestDataConn answer).2 = 0) : answer = errSuccess := by
  unfold sendDataCallRequest at h
  dsimp only [dataCallCb] at h
  split at h
  · split at h
    · exact h
    · cases h
  · split at h
    · exact h
    · split at h
      · assumption
      · split at h <;> exact h

/-- A call that asks for a data call is a subscribe in Released, which leads to
Pending if the answer is success, or ends Releasing, which leads to Pending
whatever the answer. -/
theorem pending_iff_of_callAnswer {machine next : AgpsStateMachine} {label : Label}
    {mRetries : UInt8} {answer : Int} (h : machine.DsShape)
    (hstep : machine.step .ds label = some next)
    (hcall : machine.callAnswer label = some (mRetries, answer)) :
    machine.mState = .releasing ∧ next.mState = .pending ∨
      machine.mState = .released ∧ (next.mState = .pending → answer = errSuccess) := by
  have hquiet : NoCall [] := List.not_mem_nil
  cases label with
  | subscribe s reply =>
      obtain ⟨-, rfl⟩ := step_subscribe hstep
      simp only [callAnswer, Option.ite_none_right_eq_some, Option.some.injEq,
        Prod.mk.injEq] at hcall
      obtain ⟨hstate, rfl, rfl⟩ := hcall
      refine .inr ⟨hstate, fun hpending => ?_⟩
      rw [subscribeRsrc, h.many] at hpending
      simp only [Bool.false_and, Bool.false_eq_true, if_false, dispatch, hstate,
        releasedOnRsrcEvent, addSubscriber_eq, sendRsrcRequest, h.ds] at hpending
      split at hpending
      · rename_i hret
        exact sendDataCallRequest_ret hret
      · cases hpending
  | rsrcEvent event reply =>
      obtain rfl := Option.some.inj hstep
      rw [onRsrcEvent_ds h.cleared.ds]
      have hbooked : Booked reply machine.mRetries { machine with log := [] } := rfl
      cases event with
      | released =>
          simp only [callAnswer, Option.ite_none_right_eq_some] at hcall
          obtain ⟨⟨hstate, hactive⟩, -⟩ := hcall
          exact .inl ⟨hstate,
            (onDsEvent_call h.cleared hbooked hquiet hstate hactive (.inr rfl)).1⟩
      | denied =>
          simp only [callAnswer, Option.ite_none_right_eq_some] at hcall
          obtain ⟨⟨hstate, hactive⟩, -⟩ := hcall
          exact .inl ⟨hstate,
            (onDsEvent_call h.cleared hbooked hquiet hstate hactive (.inl rfl)).1⟩
      | _ => cases hcall
  | unsubscribe | setBearer | setAPN | retry => cases hcall

/-! ## Runs -/

/-- A machine with the account of its attempts. -/
structure Attempting where
  machine : AgpsStateMachine
  account : Account

namespace Attempting

def init : Attempting := ⟨newDs, .init⟩

def step (attempting : Attempting) (label : Label) : Option Attempting :=
  (attempting.machine.step .ds label).map fun next =>
    ⟨next, next.log.foldl (Account.after label.answer) attempting.account⟩

theorem step_eq_some {attempting next : Attempting} {label : Label} :
    attempting.step label = some next ↔
      ∃ machine, attempting.machine.step .ds label = some machine ∧
        next = ⟨machine, machine.log.foldl (Account.after label.answer) attempting.account⟩ := by
  rw [step, Option.map_eq_some_iff]
  exact exists_congr fun _ => and_congr_right fun _ => eq_comm

theorem dsShape_step {attempting next : Attempting} {label : Label}
    (h : attempting.machine.DsShape) (hstep : attempting.step label = some next) :
    next.machine.DsShape := by
  obtain ⟨machine, hmachine, rfl⟩ := step_eq_some.mp hstep
  exact h.step hmachine

/-! ## Pending -/

/-- In Pending the latest request to start a data call was successful. -/
def PendingAsked (attempting : Attempting) : Prop :=
  attempting.machine.mState = .pending → attempting.account.lastAnswer = some errSuccess

/-- A request that ends Releasing is successful. -/
def RestartStarts (attempting : Attempting) (label : Label) : Prop :=
  attempting.machine.mState = .releasing → ∀ mRetries answer,
    attempting.machine.callAnswer label = some (mRetries, answer) → answer = errSuccess

theorem pendingAsked_of_restartStarts {attempting next : Attempting} {label : Label}
    (hshape : attempting.machine.DsShape) (h : attempting.PendingAsked)
    (hstarts : attempting.RestartStarts label) (hstep : attempting.step label = some next) :
    next.PendingAsked := by
  obtain ⟨machine, hmachine, rfl⟩ := step_eq_some.mp hstep
  intro hpending
  cases hcall : attempting.machine.callAnswer label with
  | none =>
      have hbefore := h (pending_of_callAnswer hshape hmachine hcall hpending)
      rcases (noCall_of_callAnswer hshape hmachine hcall).account label.answer 0
          attempting.account with ⟨-, heq⟩ | ⟨-, heq⟩
      · rw [heq]
        exact hbefore
      · rw [heq]
        exact hbefore
  | some call =>
      obtain ⟨mRetries, answer⟩ := call
      obtain ⟨rfl, hlog⟩ := logsCall_of_callAnswer hshape hmachine hcall
      obtain ⟨-, -, -, -, -, hlast⟩ := hlog.account attempting.account
      have hsuccess : label.answer = errSuccess := by
        rcases pending_iff_of_callAnswer hshape hmachine hcall with ⟨hstate, -⟩ | ⟨-, hanswer⟩
        · exact hstarts hstate mRetries _ hcall
        · exact hanswer hpending
      rw [hlast, hsuccess]

theorem restartStarts_of_pendingAsked {attempting next : Attempting} {label : Label}
    (hshape : attempting.machine.DsShape) (hstep : attempting.step label = some next)
    (hnext : next.PendingAsked) : attempting.RestartStarts label := by
  obtain ⟨machine, hmachine, rfl⟩ := step_eq_some.mp hstep
  intro hstate mRetries answer hcall
  obtain ⟨rfl, hlog⟩ := logsCall_of_callAnswer hshape hmachine hcall
  obtain ⟨-, -, -, -, -, hlast⟩ := hlog.account attempting.account
  rcases pending_iff_of_callAnswer hshape hmachine hcall with ⟨-, hpending⟩ | ⟨hreleased, -⟩
  · have hsuccess := hnext hpending
    rw [hlast] at hsuccess
    exact Option.some.inj hsuccess
  · rw [hstate] at hreleased
    cases hreleased

/-- In a run of a DS machine the latest request was successful in every Pending
state reached, exactly if every request that ended Releasing was. -/
theorem pending_asked_iff {labels : List Label} {final : Attempting}
    (hrun : exec step init labels = some final) :
    Along step (fun attempting label =>
        ∀ next, attempting.step label = some next → next.PendingAsked) init labels ↔
      Along step RestartStarts init labels := by
  constructor
  · refine Along.imp (I := fun attempting => attempting.machine.DsShape) ?_ newDs_shape hrun
    intro attempting label next hshape hpending hstep
    exact ⟨dsShape_step hshape hstep,
      restartStarts_of_pendingAsked hshape hstep (hpending next hstep)⟩
  · refine Along.imp (I := fun attempting =>
      attempting.machine.DsShape ∧ attempting.PendingAsked) ?_ ⟨newDs_shape, nofun⟩ hrun
    rintro attempting label next ⟨hshape, hasked⟩ hstarts hstep
    exact ⟨⟨dsShape_step hshape hstep,
        pendingAsked_of_restartStarts hshape hasked hstarts hstep⟩,
      fun _ hother => pendingAsked_of_restartStarts hshape hasked hstarts hother⟩

/-- A client subscribes while the connection is released, and its data call
starts. -/
theorem pending_asked_iff_restarted :
    ∃ labels final, exec step init labels = some final ∧ final.machine.mState = .pending ∧
      (Along step (fun attempting label =>
          ∀ next, attempting.step label = some next → next.PendingAsked) init labels ↔
        Along step RestartStarts init labels) := by
  have hany : (exec step init [.subscribe (.ds 1 false) errSuccess, .rsrcEvent .granted 0,
      .unsubscribe (.ds 1 false) 0, .subscribe (.ds 2 false) 0,
      .rsrcEvent .released errSuccess]).any
      (fun final => decide (final.machine.mState = .pending)) = true := by decide
  obtain ⟨final, hrun, hpending⟩ := (Option.any_eq_true _ _).mp hany
  exact ⟨_, final, hrun, of_decide_eq_true hpending, pending_asked_iff hrun⟩

/-- The servicer is busy when Releasing ends, and the machine waits in Pending
for a call that was not started. -/
theorem pending_not_asked_busy :
    ¬ ∀ labels final, exec step init labels = some final → final.PendingAsked := by
  intro hall
  have hany : (exec step init [.subscribe (.ds 1 false) errSuccess, .rsrcEvent .granted 0,
      .unsubscribe (.ds 1 false) 0, .subscribe (.ds 2 false) 0,
      .rsrcEvent .released errEngineBusy]).any
      (fun final => decide (final.machine.mState = .pending) &&
        decide (final.account.lastAnswer ≠ some errSuccess)) = true := by decide
  obtain ⟨final, hrun, hstuck⟩ := (Option.any_eq_true _ _).mp hany
  obtain ⟨hpending, hlast⟩ := (Bool.and_eq_true _ _).mp hstuck
  exact of_decide_eq_true hlast (hall _ final hrun (of_decide_eq_true hpending))

/-! ## The budget of an attempt -/

/-- A busy answer schedules a retry as long as the attempt has had fewer than
`MAX_START_DATA_CALL_RETRIES`, and is followed by the fallback after that. -/
def KeepsBudget (attempting : Attempting) (label : Label) : Prop :=
  ∀ next, attempting.step label = some next → label.answer = errEngineBusy →
    ∀ before rest, next.machine.log = before ++ .dataCall .requestDataConn :: rest →
      if (before.foldl (Account.after label.answer) attempting.account).busy <
          maxStartDataCallRetries.toNat then
        rest = [.startDelayTimer dataCallRetryDelayMsec]
      else ∃ connHandle, rest = [.requestATL connHandle .supl]

/-- A busy answer that finds the retries used up finds them used by the current
attempt alone. -/
def UsedByAttempt (attempting : Attempting) (label : Label) : Prop :=
  ∀ mRetries, attempting.machine.callAnswer label = some (mRetries, errEngineBusy) →
    mRetries = maxStartDataCallRetries → attempting.account.carried = 0

def Tallied (attempting : Attempting) : Prop :=
  attempting.account.Tallies attempting.machine.mRetries

theorem Tallied.step {attempting next : Attempting} {label : Label}
    (hshape : attempting.machine.DsShape) (h : attempting.Tallied)
    (hstep : attempting.step label = some next) : next.Tallied := by
  obtain ⟨machine, hmachine, rfl⟩ := step_eq_some.mp hstep
  have hbooked := step_booked hmachine
  rw [Tallied, hbooked]
  cases hcall : attempting.machine.callAnswer label with
  | none => exact Account.Tallies.noCall h (noCall_of_callAnswer hshape hmachine hcall) _
  | some call =>
      obtain ⟨mRetries, answer⟩ := call
      obtain ⟨rfl, hlog⟩ := logsCall_of_callAnswer hshape hmachine hcall
      obtain ⟨before, connHandle, heq, hbefore, hcount, -⟩ := hlog.account attempting.account
      have hasked := Account.Tallies.noCall h hbefore label.answer
      rw [hcount] at hasked
      simp only [heq, List.foldl_append, List.foldl_cons, hcount]
      exact hasked.answered label.answer connHandle

/-- The one place of a call's log where a data call is asked for. -/
theorem split_eq_of_logsCall {before before' rest rest' : List Action}
    (hbefore : NoCall before) (hrest : NoCall rest)
    (h : before ++ Action.dataCall .requestDataConn :: rest =
      before' ++ .dataCall .requestDataConn :: rest') : before' = before ∧ rest' = rest := by
  obtain ⟨hfirst, -, hlast⟩ := (List.append_cons_inj_of_notMem hbefore hrest).mp h
  exact ⟨hfirst.symm, hlast.symm⟩

/-- The account at a request that finds the retries used up is the one before
the call. -/
theorem account_of_full {before : List Action} (hbefore : NoCall before) {answer : Int}
    {mRetries : UInt8}
    (hcount : before.foldl (countAfter answer) mRetries = maxStartDataCallRetries)
    (account : Account) : before.foldl (Account.after answer) account = account := by
  rcases hbefore.account answer mRetries account with ⟨-, hsame⟩ | ⟨hzero, -⟩
  · exact hsame
  · rw [hzero] at hcount
    exact absurd hcount (by decide)

theorem keepsBudget_of_usedByAttempt {attempting : Attempting} {label : Label}
    (hshape : attempting.machine.DsShape) (htallied : attempting.Tallied)
    (hused : attempting.UsedByAttempt label) : attempting.KeepsBudget label := by
  intro next hstep hbusy before rest hlog
  obtain ⟨machine, hmachine, rfl⟩ := step_eq_some.mp hstep
  cases hcall : attempting.machine.callAnswer label with
  | none =>
      refine absurd ?_ (noCall_of_callAnswer hshape hmachine hcall)
      have hlog : machine.log = before ++ .dataCall .requestDataConn :: rest := hlog
      rw [hlog]
      exact List.mem_append_right _ List.mem_cons_self
  | some call =>
      obtain ⟨mRetries, answer⟩ := call
      obtain ⟨rfl, hasked⟩ := logsCall_of_callAnswer hshape hmachine hcall
      obtain ⟨reports, connHandle, heq, hreports, hcount, -⟩ :=
        hasked.account attempting.account
      obtain ⟨rfl, rfl⟩ := split_eq_of_logsCall hreports (answered_noCall _ _ _)
        (heq.symm.trans hlog)
      obtain ⟨htotal, hle⟩ := Account.Tallies.noCall htallied hreports label.answer
      rw [hcount] at htotal hle
      rw [hbusy] at hcall hcount htotal ⊢
      have hfour : maxStartDataCallRetries.toNat = 4 := rfl
      by_cases hfull : mRetries = maxStartDataCallRetries
      · have hcarried := hused mRetries hcall hfull
        rw [account_of_full hreports (hcount.trans hfull)] at htotal ⊢
        rw [hfull, hcarried] at htotal
        rw [if_neg (by omega), hfull]
        exact ⟨connHandle, answered_full connHandle⟩
      · have hless : mRetries < maxStartDataCallRetries := UInt8.lt_of_le_of_ne hle hfull
        have hroom := UInt8.lt_iff_toNat_lt.mp hless
        rw [if_pos (by omega), answered_busy hless]

theorem usedByAttempt_of_keepsBudget {attempting next : Attempting} {label : Label}
    (hshape : attempting.machine.DsShape) (htallied : attempting.Tallied)
    (hstep : attempting.step label = some next) (hkeeps : attempting.KeepsBudget label) :
    attempting.UsedByAttempt label := by
  intro mRetries hcall hfull
  obtain ⟨machine, hmachine, rfl⟩ := step_eq_some.mp hstep
  obtain ⟨hbusy, hasked⟩ := logsCall_of_callAnswer hshape hmachine hcall
  obtain ⟨reports, connHandle, heq, hreports, hcount, -⟩ := hasked.account attempting.account
  have hbudget := hkeeps _ hstep hbusy reports _ heq
  rw [hbusy, account_of_full hreports (hcount.trans hfull), hfull, answered_full] at hbudget
  split at hbudget
  · simp at hbudget
  · rename_i hspent
    obtain ⟨htotal, -⟩ := Account.Tallies.noCall htallied hreports errEngineBusy
    rw [account_of_full hreports (hcount.trans hfull), hcount, hfull] at htotal
    omega

/-- In a run of a DS machine every attempt is given its budget of busy answers
with a scheduled retry, exactly if no busy answer finds the retries used up by
an earlier attempt. -/
theorem retry_budget_iff {labels : List Label} {final : Attempting}
    (hrun : exec step init labels = some final) :
    Along step KeepsBudget init labels ↔ Along step UsedByAttempt init labels := by
  have hinit : init.machine.DsShape ∧ init.Tallied := ⟨newDs_shape, rfl, by decide⟩
  constructor
  · refine Along.imp (I := fun attempting =>
      attempting.machine.DsShape ∧ attempting.Tallied) ?_ hinit hrun
    rintro attempting label next ⟨hshape, htallied⟩ hkeeps hstep
    exact ⟨⟨dsShape_step hshape hstep, htallied.step hshape hstep⟩,
      usedByAttempt_of_keepsBudget hshape htallied hstep hkeeps⟩
  · refine Along.imp (I := fun attempting =>
      attempting.machine.DsShape ∧ attempting.Tallied) ?_ hinit hrun
    rintro attempting label next ⟨hshape, htallied⟩ hused hstep
    exact ⟨⟨dsShape_step hshape hstep, htallied.step hshape hstep⟩,
      keepsBudget_of_usedByAttempt hshape htallied hused⟩

/-- A data call that starts at the first retry, is used and given back, and
one that is started after it. -/
theorem retry_budget_iff_twice :
    ∃ labels final, exec step init labels = some final ∧ 0 < final.account.busy ∧
      (Along step KeepsBudget init labels ↔ Along step UsedByAttempt init labels) := by
  have hany : (exec step init [.subscribe (.ds 1 false) errEngineBusy, .retry,
      .subscribe (.ds 1 false) errSuccess, .rsrcEvent .granted 0,
      .unsubscribe (.ds 1 false) 0, .rsrcEvent .released 0,
      .subscribe (.ds 1 false) errEngineBusy]).any
      (fun final => decide (0 < final.account.busy)) = true := by decide
  obtain ⟨final, hrun, hbusy⟩ := (Option.any_eq_true _ _).mp hany
  exact ⟨_, final, hrun, of_decide_eq_true hbusy, retry_budget_iff hrun⟩

/-- Four busy answers before a start leave the next attempt without a retry. -/
theorem retry_budget_spent :
    ¬ ∀ labels attempting label, exec step init labels = some attempting →
      attempting.KeepsBudget label := by
  intro hall
  have hany : (exec step init [.subscribe (.ds 1 false) errEngineBusy,
      .subscribe (.ds 1 false) errEngineBusy, .subscribe (.ds 1 false) errEngineBusy,
      .subscribe (.ds 1 false) errEngineBusy, .subscribe (.ds 1 false) errSuccess,
      .rsrcEvent .granted 0, .unsubscribe (.ds 1 false) 0, .rsrcEvent .released 0]).any
      (fun attempting => decide (attempting.account.busy = 0) &&
        (attempting.step (.subscribe (.ds 1 false) errEngineBusy)).any fun next =>
          decide (next.machine.log =
            [.dataCall .requestDataConn, .requestATL 1 .supl])) = true := by decide
  obtain ⟨attempting, hrun, hlast⟩ := (Option.any_eq_true _ _).mp hany
  obtain ⟨hfresh, hnext⟩ := (Bool.and_eq_true _ _).mp hlast
  obtain ⟨next, hstep, hlog⟩ := (Option.any_eq_true _ _).mp hnext
  have hbudget := hall _ attempting _ hrun next hstep rfl [] _ (of_decide_eq_true hlog)
  rw [List.foldl_nil, of_decide_eq_true hfresh, if_pos (by decide)] at hbudget
  simp at hbudget

end Attempting

end Msm8916.Agps.AgpsStateMachine
