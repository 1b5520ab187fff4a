import Msm8916.Agps.DataServices

/-!
The requests of a `DSStateMachine` to start a data call: which calls into the
machine make one, what follows the answer in the log, and how a log tells the
count of retries.
-/

namespace Msm8916.Agps.AgpsStateMachine

open Transition

/-! ## The count of retries -/

/-- The count of retries after an action, when a request to start a data call
is given `answer`. -/
def countAfter (answer : Int) (mRetries : UInt8) : Action → UInt8
  | .dataCall .requestDataConn => if answer = errEngineBusy then mRetries + 1 else mRetries
  | .requestATL .. => 0
  | _ => mRetries

/-- The count of retries is the one that the log tells, from `start` on. -/
def Booked (answer : Int) (start : UInt8) (machine : AgpsStateMachine) : Prop :=
  machine.mRetries = machine.log.foldl (countAfter answer) start

section Booked

variable {answer : Int} {start : UInt8} {machine next : AgpsStateMachine}

theorem Booked.of_eq (h : Booked answer start machine) (hlog : next.log = machine.log)
    (hretries : next.mRetries = machine.mRetries) : Booked answer start next := by
  rw [Booked, hlog, hretries]
  exact h

theorem Booked.emit (h : Booked answer start machine) {action : Action}
    (haction : ∀ mRetries, countAfter answer mRetries action = mRetries) :
    Booked answer start (machine.emit action) := by
  rw [Booked, AgpsStateMachine.emit, List.foldl_append]
  exact h.trans (haction _).symm

theorem Booked.informStatus (h : Booked answer start machine) (status : AgpsRsrcStatus)
    (ID : Int32) : Booked answer start (machine.informStatus status ID) := by
  cases status with
  | denied => simp [Booked, AgpsStateMachine.informStatus, AgpsStateMachine.emit, countAfter]
  | unsubscribe | released | granted => exact h.emit fun _ => rfl
  | subscribe | statusMax => exact h

theorem Booked.sendStatus (h : Booked answer start machine) (subscriber : Subscriber)
    (status : AgpsRsrcStatus) : Booked answer start (machine.sendStatus subscriber status) := by
  cases subscriber with
  | ds ID mIsInactive => cases status <;> exact h.informStatus _ _
  | bit | atl | wifi => cases status <;> first | exact h | exact h.emit fun _ => rfl

theorem Booked.notifyRsrcStatus (h : Booked answer start machine) (notification : Notification)
    (subscriber : Subscriber) :
    Booked answer start
      (AgpsStateMachine.notifyRsrcStatus notification subscriber machine).1 := by
  unfold AgpsStateMachine.notifyRsrcStatus
  split
  · exact (h.emit fun _ => rfl).sendStatus subscriber _
  · exact h

theorem Booked.notifySubscribers (h : Booked answer start machine)
    (notification : Notification) :
    Booked answer start (machine.notifySubscribers notification) := by
  have hnotify : ∀ subscriber machine, Booked answer start machine →
      Booked answer start (notifySubscriber notification subscriber machine).1 :=
    fun subscriber _ h => h.notifyRsrcStatus notification subscriber
  unfold AgpsStateMachine.notifySubscribers
  split
  · exact (searchUntilNone_preserves hnotify _ machine.mSubscribers h).of_eq rfl rfl
  · exact linkedListSearch_preserves hnotify false machine.mSubscribers h

theorem Booked.addSubscriber (h : Booked answer start machine) (subscriber : Subscriber) :
    Booked answer start (machine.addSubscriber subscriber) := by
  rw [addSubscriber_eq]
  exact h

theorem Booked.dismiss (h : Booked answer start machine) (subscriber : Subscriber) :
    Booked answer start (machine.dismiss subscriber) := by
  unfold AgpsStateMachine.dismiss
  split
  · cases subscriber with
    | ds ID mIsInactive => exact (h.of_eq rfl rfl).informStatus .unsubscribe _
    | bit | atl | wifi => exact h
  · exact h.notifySubscribers _

/-- A request to start a data call counts a busy answer, and the fallback
resets the count. -/
theorem Booked.sendDataCallRequest (h : Booked answer start machine)
    (action : AGpsStatusValue) :
    Booked answer start (machine.sendDataCallRequest action answer).1 := by
  cases action with
  | releaseDataConn => exact h.emit fun _ => rfl
  | requestDataConn =>
      have hcounted : (machine.log ++ [Action.dataCall .requestDataConn]).foldl
          (countAfter answer) start =
            if answer = errEngineBusy then machine.mRetries + 1 else machine.mRetries := by
        rw [List.foldl_append, ← h]
        rfl
      unfold AgpsStateMachine.sendDataCallRequest
      dsimp only
      by_cases hbusy : dataCallCb .requestDataConn answer = errEngineBusy
      · have hsent : Booked answer start { machine.emit (.dataCall .requestDataConn) with
            mRetries := machine.mRetries + 1 } :=
          (hcounted.trans (if_pos hbusy)).symm
        rw [if_pos hbusy]
        split
        · exact hsent.informStatus .denied _
        · exact (hsent.of_eq rfl rfl).emit fun _ => rfl
      · have hsent : Booked answer start (machine.emit (.dataCall .requestDataConn)) :=
          (hcounted.trans (if_neg hbusy)).symm
        rw [if_neg hbusy]
        split
        · exact hsent.informStatus .denied _
        · split
          · exact hsent
          · split
            · exact hsent.informStatus .denied _
            · exact hsent

theorem Booked.sendRsrcRequest (h : Booked answer start machine) (action : AGpsStatusValue) :
    Booked answer start (machine.sendRsrcRequest action answer).1 := by
  unfold AgpsStateMachine.sendRsrcRequest
  split
  · unfold sendNifRequest
    dsimp only
    split
    · exact h.emit fun _ => rfl
    · exact h
  · exact h.sendDataCallRequest action

theorem Booked.releaseIfUnused (h : Booked answer start machine) (this : AgpsState) :
    Booked answer start (machine.releaseIfUnused this answer).2 := by
  unfold AgpsStateMachine.releaseIfUnused
  split
  · exact h.sendRsrcRequest _
  · split
    · exact h.sendRsrcRequest _
    · exact h

theorem Booked.finishReleasing (h : Booked answer start machine) (status : AgpsRsrcStatus) :
    Booked answer start (machine.finishReleasing status answer).2 := by
  have hnotified := h.notifySubscribers (.toGroup .broadcastInactive status true)
  unfold AgpsStateMachine.finishReleasing
  dsimp only
  split
  · exact hnotified.sendRsrcRequest _
  · exact hnotified

theorem Booked.releasedOnRsrcEvent (h : Booked answer start machine) (event : Event) :
    Booked answer start (machine.releasedOnRsrcEvent event answer).2 := by
  cases event with
  | subscribe s => exact (h.addSubscriber s).sendRsrcRequest _
  | unsubscribe s => exact h.notifyRsrcStatus _ s
  | granted | released | denied => exact h

theorem Booked.pendingOnRsrcEvent (h : Booked answer start machine) (event : Event) :
    Booked answer start (machine.pendingOnRsrcEvent event answer).2 := by
  cases event with
  | subscribe s => exact h.addSubscriber s
  | unsubscribe s => exact (h.dismiss s).releaseIfUnused _
  | granted | denied => exact h.notifySubscribers _
  | released => exact h

theorem Booked.acquiredOnRsrcEvent (h : Booked answer start machine) (event : Event) :
    Booked answer start (machine.acquiredOnRsrcEvent event answer).2 := by
  cases event with
  | subscribe s => exact (h.notifyRsrcStatus _ s).addSubscriber s
  | unsubscribe s => exact (h.dismiss s).releaseIfUnused _
  | released => exact h.notifySubscribers _
  | granted | denied => exact h

theorem Booked.releasingOnRsrcEvent (h : Booked answer start machine) (event : Event) :
    Booked answer start (machine.releasingOnRsrcEvent event answer).2 := by
  cases event with
  | subscribe s => exact h.addSubscriber s
  | unsubscribe s => exact h.dismiss s
  | released | denied => exact h.finishReleasing _
  | granted => exact h

theorem Booked.dispatch (h : Booked answer start machine) (event : Event) :
    Booked answer start (machine.dispatch event answer) := by
  cases hstate : machine.mState with
  | released =>
      simp only [AgpsStateMachine.dispatch, hstate]
      exact (h.releasedOnRsrcEvent event).of_eq rfl rfl
  | pending =>
      simp only [AgpsStateMachine.dispatch, hstate]
      exact (h.pendingOnRsrcEvent event).of_eq rfl rfl
  | acquired =>
      simp only [AgpsStateMachine.dispatch, hstate]
      exact (h.acquiredOnRsrcEvent event).of_eq rfl rfl
  | releasing =>
      simp only [AgpsStateMachine.dispatch, hstate]
      exact (h.releasingOnRsrcEvent event).of_eq rfl rfl

theorem Booked.onRsrcEvent (h : Booked answer start machine) (event : AgpsRsrcStatus) :
    Booked answer start (machine.onRsrcEvent event answer) := by
  unfold AgpsStateMachine.onRsrcEvent
  split
  · cases event with
    | granted | released | denied => exact h.dispatch _
    | subscribe | unsubscribe | statusMax => exact h
  · cases event with
    | released =>
        simp only [onDsEvent]
        split
        · exact (h.dispatch .released).dispatch .denied
        · exact h.dispatch .released
    | granted | denied => exact h.dispatch _
    | subscribe | unsubscribe | statusMax => exact h

end Booked

/-! ## Logs that ask for no data call -/

/-- The log asks to start no data call. -/
def NoCall (log : List Action) : Prop := Action.dataCall .requestDataConn ∉ log

theorem NoCall.append_reports {log reports : List Action} (h : NoCall log)
    (hreports : ∀ action ∈ reports, action.isReport = true) : NoCall (log ++ reports) := by
  rw [NoCall, List.mem_append, not_or]
  exact ⟨h, fun hmem => nomatch hreports _ hmem⟩

theorem OnlyReports.noCall {next machine : AgpsStateMachine} (h : next.OnlyReports machine)
    (hquiet : NoCall machine.log) : NoCall next.log := by
  obtain ⟨log, mRetries, rfl, hreports⟩ := h
  exact hquiet.append_reports hreports

theorem anyActive_filter (list : List Subscriber) :
    anyActive (list.filter fun s => !s.isInactive) = anyActive list := by
  rw [Bool.eq_iff_iff, anyActive_iff, anyActive_iff]
  simp [List.mem_filter]

/-- The rows of the table that ask for a connection. -/
theorem requestAfter_request {state : AgpsState} {event : Event} {list : List Subscriber}
    (h : requestAfter state event (listAfter state event list) = some .requestDataConn) :
    ((∃ s, event = .subscribe s) ∧ state = .released) ∨
      (event = .released ∨ event = .denied) ∧ state = .releasing ∧ anyActive list = true := by
  cases state with
  | released =>
      cases event with
      | subscribe s => exact .inl ⟨⟨s, rfl⟩, rfl⟩
      | _ => cases h
  | releasing =>
      cases event with
      | released =>
          simp only [requestAfter, listAfter, anyActive_filter] at h
          exact .inr ⟨.inl rfl, rfl, by simpa using h⟩
      | denied =>
          simp only [requestAfter, listAfter, anyActive_filter] at h
          exact .inr ⟨.inr rfl, rfl, by simpa using h⟩
      | _ => cases h
  | pending | acquired =>
      cases event with
      | unsubscribe s => simp [requestAfter] at h
      | _ => cases h

/-- An event whose row of the table does not ask for a connection. -/
theorem dispatch_noCall {machine : AgpsStateMachine} {event : Event} (answer : Int)
    (hds : machine.machineClass = .ds) (h : NoCall machine.log)
    (hsubscribe : (∃ s, event = .subscribe s) → machine.mState ≠ .released)
    (hfinish : event = .released ∨ event = .denied →
      ¬ (machine.mState = .releasing ∧ anyActive machine.mSubscribers = true)) :
    NoCall (machine.dispatch event answer).log := by
  obtain ⟨listed, hlisted, heq⟩ := machine.dispatch_eq event answer
  obtain ⟨log, hlog, hreports⟩ := hlisted.log
  have hreported : NoCall listed.log := by
    rw [hlog]
    exact h.append_reports hreports
  rw [heq, follow, hlisted.mState, hlisted.mSubscribers]
  cases haction : requestAfter machine.mState event
      (listAfter machine.mState event machine.mSubscribers) with
  | none => exact hreported
  | some action =>
      cases action with
      | requestDataConn =>
          rcases requestAfter_request haction with ⟨hevent, hstate⟩ | ⟨hevent, hactive⟩
          · exact absurd hstate (hsubscribe hevent)
          · exact absurd hactive (hfinish hevent)
      | releaseDataConn =>
          have hclass : listed.machineClass = .ds := hlisted.machineClass.trans hds
          obtain ⟨mRetries, delayTimers, hsent⟩ :=
            listed.sendDataCallRequest_eq .releaseDataConn answer
          simp only [sendRsrcRequest, hclass, hsent]
          rw [NoCall, List.mem_append, not_or]
          refine ⟨hreported, ?_⟩
          -- a request to stop a data call always succeeds
          simp [afterAnswer, dataCallCb, fallsBack, errUnsupported, errEngineBusy]

/-! ## The request that may fail -/

/-- How a log goes on after the answer to a request to start a data call. -/
def answered (mRetries : UInt8) (answer : Int) (connHandle : Int32) : List Action :=
  if fallsBack mRetries answer then [.requestATL connHandle .supl]
  else if answer = errEngineBusy then [.startDelayTimer dataCallRetryDelayMsec]
  else []

/-- A log that asks to start one data call, with `mRetries` retries counted by
then, and goes on with the answer for a subscriber of `list`. -/
def LogsCall (start mRetries : UInt8) (answer : Int) (list : List Subscriber)
    (log : List Action) : Prop :=
  ∃ reports, NoCall reports ∧ reports.foldl (countAfter answer) start = mRetries ∧
    ∃ t ∈ list,
      log = reports ++ .dataCall .requestDataConn :: answered mRetries answer t.ID.toInt32

theorem firstActive_of_anyActive {machine : AgpsStateMachine}
    (h : anyActive machine.mSubscribers = true) :
    ∃ t ∈ machine.mSubscribers, machine.firstActive = some t := by
  have hsome : machine.firstActive.isSome = true := by
    rw [← hasActiveSubscribers, hasActiveSubscribers_eq]
    exact h
  obtain ⟨t, ht⟩ := Option.isSome_iff_exists.mp hsome
  rw [firstActive_eq] at ht
  exact ⟨t, List.mem_of_find?_eq_some ht, by rw [firstActive_eq]; exact ht⟩

theorem sendRsrcRequest_call {machine : AgpsStateMachine} {answer : Int} {start : UInt8}
    (hbooked : Booked answer start machine) (hquiet : NoCall machine.log)
    (hds : machine.machineClass = .ds) (hactive : anyActive machine.mSubscribers = true) :
    LogsCall start machine.mRetries answer machine.mSubscribers
      (machine.sendRsrcRequest .requestDataConn answer).1.log := by
  obtain ⟨t, ht, hfirst⟩ := firstActive_of_anyActive hactive
  obtain ⟨mRetries, delayTimers, hsent⟩ :=
    machine.sendDataCallRequest_eq .requestDataConn answer
  have hhandle : machine.connHandle = t.ID.toInt32 := by simp only [connHandle, hfirst]
  refine ⟨machine.log, hquiet, hbooked.symm, t, ht, ?_⟩
  simp only [sendRsrcRequest, hds, hsent]
  rw [afterAnswer, hhandle]
  rfl

/-- Only the denial of a DS client changes the count of retries. -/
theorem mRetries_receive {s : Subscriber} (hs : s.kind = .ds) (status : AgpsRsrcStatus)
    (machine : AgpsStateMachine) :
    (receive status s machine).mRetries = if status = .denied then 0 else machine.mRetries := by
  cases s <;> cases hs
  cases status <;> rfl

theorem mRetries_foldl_receive {list : List Subscriber} (hkinds : ∀ s ∈ list, s.kind = .ds)
    (status : AgpsRsrcStatus) (machine : AgpsStateMachine) :
    (list.foldl (fun machine s => receive status s machine) machine).mRetries =
      if status = .denied ∧ list ≠ [] then 0 else machine.mRetries := by
  induction list generalizing machine with
  | nil => simp
  | cons s list ih =>
      have hrest := ih (fun t ht => hkinds t (List.mem_cons_of_mem _ ht)) (receive status s machine)
      rw [List.foldl_cons, hrest, mRetries_receive (hkinds s List.mem_cons_self)]
      by_cases hdenied : status = .denied <;> simp [hdenied]

/-- The end of Releasing when a client waits for a new connection. -/
theorem finishReleasing_call {machine : AgpsStateMachine} {status : AgpsRsrcStatus}
    {answer : Int} {start : UInt8} (h : machine.DsShape)
    (hbooked : Booked answer start machine) (hquiet : NoCall machine.log)
    (hstate : machine.mState = .releasing) (hactive : anyActive machine.mSubscribers = true)
    (hstatus : status = .denied ∨ status = .released) :
    (machine.finishReleasing status answer).1 = .pending ∧
      LogsCall start (if status = .denied then 0 else machine.mRetries) answer
        (machine.finishReleasing status answer).2.mSubscribers
        (machine.finishReleasing status answer).2.log := by
  have hhandles : handlesStatus status = true := by
    rcases hstatus with rfl | rfl <;> rfl
  have hnotify := notifySubscribers_eq machine (.toGroup .broadcastInactive status true)
    hhandles rfl
  simp only [forMe_broadcastInactive] at hnotify
  have hinactive : machine.mSubscribers.filter (fun s => s.isInactive) ≠ [] := by
    have hphase := h.phase
    rw [hstate] at hphase
    obtain ⟨t, ht, hinactive⟩ := hphase
    exact List.ne_nil_of_mem (List.mem_filter.mpr ⟨ht, hinactive⟩)
  have hretries := mRetries_foldl_receive (h.listing.filter fun s => s.isInactive).kinds status
    machine
  simp only [ne_eq, hinactive, not_false_eq_true, and_true] at hretries
  have hreports := foldl_receive_onlyReports status
    (machine.mSubscribers.filter fun s => s.isInactive) machine
  have hcounted := hbooked.notifySubscribers (.toGroup .broadcastInactive status true)
  generalize hnotified : machine.notifySubscribers (.toGroup .broadcastInactive status true) =
    notified at hnotify hcounted
  have hlist : anyActive notified.mSubscribers = true := by
    rw [hnotify]
    exact (anyActive_filter _).trans hactive
  have hds : notified.machineClass = .ds := by
    rw [hnotify]
    exact hreports.keeps.2.2.1.trans h.ds
  have hlog : NoCall notified.log := by
    rw [hnotify]
    exact hreports.noCall hquiet
  have hmRetries : notified.mRetries =
      if status = .denied then 0 else machine.mRetries := by
    rw [hnotify]
    exact hretries
  obtain ⟨log, mRetries, delayTimers, hsent, -⟩ :=
    notified.sendRsrcRequest_keeps .requestDataConn answer
  have hfinish : machine.finishReleasing status answer =
      (.pending, (notified.sendRsrcRequest .requestDataConn answer).1) := by
    rw [finishReleasing, hnotified, hasActiveSubscribers_eq, if_pos hlist]
  have hcall := sendRsrcRequest_call hcounted hlog hds hlist
  rw [hfinish, ← hmRetries]
  refine ⟨rfl, ?_⟩
  have hsame : (notified.sendRsrcRequest .requestDataConn answer).1.mSubscribers =
      notified.mSubscribers := by
    rw [hsent]
  rwa [hsame]

/-! ## Calls -/

/-- The count of retries and the answer with which a call asks to start a data
call, if it does. In Releasing a denial reaches the inactive clients first,
which resets the count. -/
def callAnswer (machine : AgpsStateMachine) : Label → Option (UInt8 × Int)
  | .subscribe _ answer =>
      if machine.mState = .released then some (machine.mRetries, answer) else none
  | .rsrcEvent .released answer =>
      if machine.mState = .releasing ∧ anyActive machine.mSubscribers = true then
        some (machine.mRetries, answer)
      else none
  | .rsrcEvent .denied answer =>
      if machine.mState = .releasing ∧ anyActive machine.mSubscribers = true then
        some (0, answer)
      else none
  | _ => none

/-- The answer a call gives to a request to start a data call. -/
def Label.answer : Label → Int
  | .subscribe _ answer | .unsubscribe _ answer | .rsrcEvent _ answer => answer
  | .setBearer _ | .setAPN _ | .retry => 0

/-- A release of the resource ends Releasing. -/
theorem dispatch_released_ne (machine : AgpsStateMachine) (answer : Int)
    (h : machine.mState = .releasing) :
    (machine.dispatch .released answer).mState ≠ .releasing := by
  obtain ⟨ret, hstate⟩ := machine.dispatch_mState_exists .released answer
  rw [hstate, h]
  simp only [stateAfter]
  split <;> simp

theorem DsShape.cleared {machine : AgpsStateMachine} (h : machine.DsShape) :
    DsShape { machine with log := [] } :=
  have hsame : SameRow { machine with log := [] } machine := ⟨rfl, rfl, rfl, rfl⟩
  h.of_sameRow hsame

theorem onRsrcEvent_ds {machine : AgpsStateMachine} (h : machine.machineClass = .ds)
    (event : AgpsRsrcStatus) (answer : Int) :
    machine.onRsrcEvent event answer = machine.onDsEvent event answer := by
  rw [onRsrcEvent, h]

theorem onDsEvent_noCall {machine : AgpsStateMachine} {event : AgpsRsrcStatus} (answer : Int)
    (hds : machine.machineClass = .ds) (h : NoCall machine.log)
    (hfinish : event = .released ∨ event = .denied →
      ¬ (machine.mState = .releasing ∧ anyActive machine.mSubscribers = true)) :
    NoCall (machine.onDsEvent event answer).log := by
  cases event with
  | subscribe | unsubscribe | statusMax => exact h
  | granted => exact dispatch_noCall answer hds h (by simp) (by simp)
  | denied => exact dispatch_noCall answer hds h (by simp) fun _ => hfinish (.inr rfl)
  | released =>
      have hreleased : NoCall (machine.dispatch .released answer).log :=
        dispatch_noCall answer hds h (by simp) fun _ => hfinish (.inl rfl)
      simp only [onDsEvent]
      split
      · rename_i hsame
        refine dispatch_noCall answer ((dispatch_keeps _ .released answer).2.1.trans hds)
          hreleased (by simp) fun _ hreleasing => ?_
        exact dispatch_released_ne machine answer (hsame.symm.trans hreleasing.1) hreleasing.1
      · exact hreleased

/-- A call that asks for no data call. -/
theorem noCall_of_callAnswer {machine next : AgpsStateMachine} {label : Label}
    (h : machine.DsShape) (hstep : machine.step .ds label = some next)
    (hcall : machine.callAnswer label = none) : NoCall next.log := by
  have hempty : NoCall [] := List.not_mem_nil
  cases label with
  | subscribe s answer =>
      obtain ⟨-, rfl⟩ := step_subscribe hstep
      have hreleased : machine.mState ≠ .released := by simpa [callAnswer] using hcall
      rw [subscribeRsrc, h.many]
      exact dispatch_noCall answer h.ds hempty (fun _ => hreleased) (by simp)
  | unsubscribe s answer =>
      obtain ⟨-, rfl⟩ := step_unsubscribe hstep
      unfold unsubscribeRsrc
      split
      · exact dispatch_noCall answer h.ds hempty (by simp) (by simp)
      · exact hempty
  | rsrcEvent event answer =>
      obtain rfl := Option.some.inj hstep
      rw [onRsrcEvent_ds h.cleared.ds]
      refine onDsEvent_noCall answer h.ds hempty ?_
      rintro (rfl | rfl) <;> simpa [callAnswer] using hcall
  | setBearer bearer =>
      obtain rfl := Option.some.inj hstep
      exact hempty
  | setAPN apn =>
      obtain rfl := Option.some.inj hstep
      exact hempty
  | retry =>
      obtain ⟨-, rfl⟩ := step_retry hstep
      unfold retryCallback
      split <;> simp [NoCall, emit]

theorem subscribeRsrc_call {machine : AgpsStateMachine} {answer : Int} {start : UInt8}
    (h : machine.DsShape) (hbooked : Booked answer start machine)
    (hquiet : NoCall machine.log) (hstate : machine.mState = .released) (s : Subscriber) :
    LogsCall start machine.mRetries answer (machine.subscribeRsrc s answer).mSubscribers
      (machine.subscribeRsrc s answer).log := by
  have hphase := h.phase
  rw [hstate] at hphase
  have hactive := (idle_allActive 0).active s hphase
  have hsubscribe : machine.subscribeRsrc s answer =
      machine.dispatch (.subscribe s) answer := by
    simp [subscribeRsrc, h.many]
  have hadded : Booked answer start { machine with
      mSubscribers := added machine.mSubscribers s } := hbooked
  have hcall := sendRsrcRequest_call hadded hquiet h.ds hactive
  have hlist : (machine.dispatch (.subscribe s) answer).mSubscribers =
      added machine.mSubscribers s := by
    rw [(machine.dispatch_keeps (.subscribe s) answer).1, hstate]
    rfl
  rw [hsubscribe, hlist]
  simp only [dispatch, hstate, releasedOnRsrcEvent, addSubscriber_eq] at hcall ⊢
  exact hcall

theorem onDsEvent_call {machine : AgpsStateMachine} {event : AgpsRsrcStatus} {answer : Int}
    {start : UInt8} (h : machine.DsShape) (hbooked : Booked answer start machine)
    (hquiet : NoCall machine.log) (hstate : machine.mState = .releasing)
    (hactive : anyActive machine.mSubscribers = true)
    (hevent : event = .denied ∨ event = .released) :
    (machine.onDsEvent event answer).mState = .pending ∧
      LogsCall start (if event = .denied then 0 else machine.mRetries) answer
        (machine.onDsEvent event answer).mSubscribers (machine.onDsEvent event answer).log := by
  obtain ⟨hpending, hcall⟩ := finishReleasing_call h hbooked hquiet hstate hactive hevent
  rcases hevent with rfl | rfl <;>
    simpa [onDsEvent, dispatch, hstate, releasingOnRsrcEvent, hpending] using hcall

/-- A call that asks for a data call logs the request and what follows the
answer. -/
theorem logsCall_of_callAnswer {machine next : AgpsStateMachine} {label : Label}
    {mRetries : UInt8} {answer : Int} (h : machine.DsShape)
    (hstep : machine.step .ds label = some next)
    (hcall : machine.callAnswer label = some (mRetries, answer)) :
    label.answer = answer ∧
      LogsCall machine.mRetries mRetries answer next.mSubscribers next.log := by
  have hbooked : Booked label.answer machine.mRetries { machine with log := [] } := rfl
  have hquiet : NoCall [] := List.not_mem_nil
  cases label with
  | subscribe s reply =>
      obtain ⟨-, rfl⟩ := step_subscribe hstep
      simp only [callAnswer, Option.ite_none_right_eq_some, Option.some.injEq,
        Prod.mk.injEq] at hcall
      obtain ⟨hstate, rfl, rfl⟩ := hcall
      exact ⟨rfl, subscribeRsrc_call h.cleared hbooked hquiet hstate s⟩
  | rsrcEvent event reply =>
      obtain rfl := Option.some.inj hstep
      rw [onRsrcEvent_ds h.cleared.ds]
      cases event with
      | released =>
          simp only [callAnswer, Option.ite_none_right_eq_some, Option.some.injEq,
            Prod.mk.injEq] at hcall
          obtain ⟨⟨hstate, hactive⟩, rfl, rfl⟩ := hcall
          exact ⟨rfl, (onDsEvent_call h.cleared hbooked hquiet hstate hactive (.inr rfl)).2⟩
      | denied =>
          simp only [callAnswer, Option.ite_none_right_eq_some, Option.some.injEq,
            Prod.mk.injEq] at hcall
          obtain ⟨⟨hstate, hactive⟩, rfl, rfl⟩ := hcall
          exact ⟨rfl, (onDsEvent_call h.cleared hbooked hquiet hstate hactive (.inl rfl)).2⟩
      | _ => cases hcall
  | unsubscribe | setBearer | setAPN | retry => cases hcall

/-- After a call the count of retries is the one its log tells. -/
theorem step_booked {kind : SubscriberKind} {machine next : AgpsStateMachine} {label : Label}
    (hstep : machine.step kind label = some next) :
    Booked label.answer machine.mRetries next := by
  have hbooked : ∀ answer, Booked answer machine.mRetries { machine with log := [] } :=
    fun _ => rfl
  cases label with
  | subscribe s answer =>
      obtain ⟨-, rfl⟩ := step_subscribe hstep
      unfold subscribeRsrc
      split
      · exact (hbooked answer).notifyRsrcStatus (.toGroup .broadcastAll .denied true) s
      · exact (hbooked answer).dispatch _
  | unsubscribe s answer =>
      obtain ⟨-, rfl⟩ := step_unsubscribe hstep
      unfold unsubscribeRsrc
      split
      · exact (hbooked answer).dispatch _
      · exact hbooked answer
  | rsrcEvent event answer =>
      obtain rfl := Option.some.inj hstep
      exact (hbooked answer).onRsrcEvent event
  | setBearer bearer =>
      obtain rfl := Option.some.inj hstep
      exact hbooked 0
  | setAPN apn =>
      obtain rfl := Option.some.inj hstep
      exact hbooked 0
  | retry =>
      obtain ⟨-, rfl⟩ := step_retry hstep
      unfold retryCallback
      split
      · exact (hbooked 0).emit fun _ => rfl
      · exact hbooked 0

end Msm8916.Agps.AgpsStateMachine
