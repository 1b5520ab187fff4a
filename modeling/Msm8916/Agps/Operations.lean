import Msm8916.Agps.StateMachine

/-!
What each method of the state machines does, once for each: which subscribers
it leaves on the list, and that all else it does is to report to clients, apart
from the requests to the servicer.
-/

namespace Msm8916.Agps

/-- An action that reports to a client or hands it over, as opposed to a
request to the servicer, a retry or a timer. -/
def Action.isReport : Action → Bool
  | .notified .. | .serverDataConn .. | .atlOpenStatus .. | .atlCloseStatus .. => true
  | .closeDataCall | .requestATL .. => true
  | .requestRsrc _ | .dataCall _ | .requestSuplES _ | .startDelayTimer _ => false

/-- The request an action makes of the servicer. -/
def Action.request? : Action → Option AGpsStatusValue
  | .requestRsrc nifRequest => some nifRequest.status
  | .dataCall action => some action
  | _ => none

/-- The requests to the servicer in a log, in order. -/
def requests (log : List Action) : List AGpsStatusValue := log.filterMap Action.request?

@[simp]
theorem requests_append (first second : List Action) :
    requests (first ++ second) = requests first ++ requests second :=
  List.filterMap_append

theorem requests_of_reports {log : List Action} (h : ∀ action ∈ log, action.isReport = true) :
    requests log = [] := by
  refine List.filterMap_eq_nil_iff.mpr fun action haction => ?_
  have hreport := h action haction
  cases action <;> first | rfl | cases hreport

/-! ## Who a notification is for -/

@[simp]
theorem forMe_toSubscriber (s subscriber : Subscriber) (status : AgpsRsrcStatus) (delete : Bool) :
    s.forMe (.toSubscriber subscriber status delete) = s.equals subscriber := rfl

@[simp]
theorem forMe_broadcastAll (s : Subscriber) (status : AgpsRsrcStatus) (delete : Bool) :
    s.forMe (.toGroup .broadcastAll status delete) = true := rfl

@[simp]
theorem forMe_broadcastActive (s : Subscriber) (status : AgpsRsrcStatus) (delete : Bool) :
    s.forMe (.toGroup .broadcastActive status delete) = !s.isInactive := by
  simp [Subscriber.forMe, Notification.toGroup]

@[simp]
theorem forMe_broadcastInactive (s : Subscriber) (status : AgpsRsrcStatus) (delete : Bool) :
    s.forMe (.toGroup .broadcastInactive status delete) = s.isInactive := by
  simp [Subscriber.forMe, Notification.toGroup]

namespace AgpsStateMachine

/-! ## Looking at the list -/

theorem findSubscriber_eq (machine : AgpsStateMachine) (notification : Notification) :
    machine.findSubscriber notification =
      machine.mSubscribers.find? (fun s => s.forMe notification) := by
  rw [findSubscriber, linkedListSearch_pure]

theorem firstActive_eq (machine : AgpsStateMachine) :
    machine.firstActive = machine.mSubscribers.find? (fun s => !s.isInactive) := by
  simp [firstActive, findSubscriber_eq]

theorem hasSubscribers_eq_false {machine : AgpsStateMachine} :
    machine.hasSubscribers = false ↔ machine.mSubscribers = [] := by
  simp [hasSubscribers]

theorem hasActiveSubscribers_iff {machine : AgpsStateMachine} :
    machine.hasActiveSubscribers = true ↔
      ∃ s ∈ machine.mSubscribers, s.isInactive = false := by
  simp [hasActiveSubscribers, firstActive_eq]

/-! ## Reporting -/

/-- `next` differs from `machine` in reports alone; a denial also resets the
count of retries. -/
def OnlyReports (next machine : AgpsStateMachine) : Prop :=
  ∃ log mRetries, next = { machine with log := machine.log ++ log, mRetries } ∧
    ∀ action ∈ log, action.isReport = true

theorem OnlyReports.refl (machine : AgpsStateMachine) : machine.OnlyReports machine :=
  ⟨[], machine.mRetries, by simp, by simp⟩

theorem OnlyReports.trans {first second third : AgpsStateMachine}
    (h₁ : second.OnlyReports first) (h₂ : third.OnlyReports second) :
    third.OnlyReports first := by
  obtain ⟨log₁, _, rfl, hlog₁⟩ := h₁
  obtain ⟨log₂, mRetries, rfl, hlog₂⟩ := h₂
  refine ⟨log₁ ++ log₂, mRetries, by simp, fun action haction => ?_⟩
  exact (List.mem_append.mp haction).elim (hlog₁ action) (hlog₂ action)

/-- What reporting leaves alone. -/
theorem OnlyReports.keeps {next machine : AgpsStateMachine} (h : next.OnlyReports machine) :
    next.mState = machine.mState ∧ next.mSubscribers = machine.mSubscribers ∧
      next.machineClass = machine.machineClass ∧
      next.mEnforceSingleSubscriber = machine.mEnforceSingleSubscriber := by
  obtain ⟨log, mRetries, rfl, -⟩ := h
  exact ⟨rfl, rfl, rfl, rfl⟩

theorem emit_onlyReports (machine : AgpsStateMachine) {action : Action}
    (h : action.isReport = true) : (machine.emit action).OnlyReports machine :=
  ⟨[action], machine.mRetries, rfl, by simpa using h⟩

theorem informStatus_onlyReports (machine : AgpsStateMachine) (status : AgpsRsrcStatus)
    (ID : Int32) : (machine.informStatus status ID).OnlyReports machine := by
  cases status with
  | denied => exact ⟨[.requestATL ID .supl], 0, rfl, by simp [Action.isReport]⟩
  | unsubscribe => exact emit_onlyReports machine rfl
  | released => exact emit_onlyReports machine rfl
  | granted => exact emit_onlyReports machine rfl
  | subscribe => exact .refl machine
  | statusMax => exact .refl machine

theorem sendStatus_onlyReports (machine : AgpsStateMachine) (subscriber : Subscriber)
    (status : AgpsRsrcStatus) : (machine.sendStatus subscriber status).OnlyReports machine := by
  cases subscriber with
  | ds ID mIsInactive =>
      have hinform := informStatus_onlyReports machine status ID.toInt32
      cases status <;> exact hinform
  | bit ID mIPv6Addr =>
      cases status <;> first | exact .refl machine | exact emit_onlyReports machine rfl
  | atl ID mBackwardCompatibleMode =>
      cases status <;> first | exact .refl machine | exact emit_onlyReports machine rfl
  | wifi senderId mSSID mPassword mIsInactive =>
      cases status <;> first | exact .refl machine | exact emit_onlyReports machine rfl

/-- What a subscriber does with a notification for it. -/
def receive (status : AgpsRsrcStatus) (subscriber : Subscriber)
    (machine : AgpsStateMachine) : AgpsStateMachine :=
  (machine.emit (.notified subscriber status)).sendStatus subscriber status

theorem receive_onlyReports (status : AgpsRsrcStatus) (subscriber : Subscriber)
    (machine : AgpsStateMachine) : (receive status subscriber machine).OnlyReports machine :=
  (emit_onlyReports machine rfl).trans (sendStatus_onlyReports _ subscriber status)

theorem notifyRsrcStatus_eq {notification : Notification}
    (h : handlesStatus notification.rsrcStatus = true) (subscriber : Subscriber)
    (machine : AgpsStateMachine) :
    notifyRsrcStatus notification subscriber machine =
      if subscriber.forMe notification then
        (receive notification.rsrcStatus subscriber machine, true)
      else (machine, false) := by
  simp [notifyRsrcStatus, receive, h]

theorem notifySubscriber_onlyReports (notification : Notification) (subscriber : Subscriber)
    (machine : AgpsStateMachine) :
    (notifySubscriber notification subscriber machine).1.OnlyReports machine := by
  have hnotify : (notifyRsrcStatus notification subscriber machine).1.OnlyReports machine := by
    unfold notifyRsrcStatus
    split
    · exact receive_onlyReports notification.rsrcStatus subscriber machine
    · exact .refl machine
  exact hnotify

theorem foldl_receive_onlyReports (status : AgpsRsrcStatus) (list : List Subscriber)
    (machine : AgpsStateMachine) :
    (list.foldl (fun machine s => receive status s machine) machine).OnlyReports machine := by
  induction list generalizing machine with
  | nil => exact .refl machine
  | cons s list ih => exact (receive_onlyReports status s machine).trans (ih _)

/-- A notification that deletes is received once by everyone it is for, and
takes them off the list. -/
theorem notifySubscribers_eq (machine : AgpsStateMachine) (notification : Notification)
    (h : handlesStatus notification.rsrcStatus = true)
    (hdelete : notification.postNotifyDelete = true) :
    machine.notifySubscribers notification =
      { (machine.mSubscribers.filter fun s => s.forMe notification).foldl
          (fun machine s => receive notification.rsrcStatus s machine) machine with
        mSubscribers := machine.mSubscribers.filter fun s => !s.forMe notification } := by
  have hacts : ActsOnAccepted (notifySubscriber notification)
      (fun s => s.forMe notification) (receive notification.rsrcStatus) := by
    intro s state
    simp only [notifySubscriber, notifyRsrcStatus_eq h, hdelete, Bool.and_true]
  rw [notifySubscribers, if_pos hdelete, searchUntilNone_eq hacts (Nat.lt_succ_self _)]

theorem notifySubscribers_delete (machine : AgpsStateMachine) (notification : Notification)
    (h : handlesStatus notification.rsrcStatus = true)
    (hdelete : notification.postNotifyDelete = true) :
    ∃ next : AgpsStateMachine, next.OnlyReports machine ∧ machine.notifySubscribers notification =
      { next with
        mSubscribers := machine.mSubscribers.filter fun s => !s.forMe notification } :=
  ⟨_, foldl_receive_onlyReports notification.rsrcStatus _ machine,
    notifySubscribers_eq machine notification h hdelete⟩

/-- A notification that does not delete leaves the list alone. -/
theorem notifySubscribers_keep (machine : AgpsStateMachine) (notification : Notification)
    (h : handlesStatus notification.rsrcStatus = true)
    (hkeep : notification.postNotifyDelete = false) :
    (machine.notifySubscribers notification).OnlyReports machine := by
  have hvisits : ∀ s state, notifySubscriber notification s state =
      (if s.forMe notification then receive notification.rsrcStatus s state else state,
        false) := by
    intro s state
    simp only [notifySubscriber, notifyRsrcStatus_eq h, hkeep, Bool.and_false]
    split <;> rfl
  rw [notifySubscribers, hkeep, linkedListSearch_visit hvisits]
  exact foldl_receive_onlyReports _ _ _

/-! ## Changing the list -/

/-- The list after `addSubscriber`. -/
def added (list : List Subscriber) (subscriber : Subscriber) : List Subscriber :=
  if list.any (fun s => s.equals subscriber) then list else subscriber.clone :: list

theorem addSubscriber_eq (machine : AgpsStateMachine) (subscriber : Subscriber) :
    machine.addSubscriber subscriber =
      { machine with mSubscribers := added machine.mSubscribers subscriber } := by
  rw [addSubscriber, findSubscriber_eq, added]
  simp only [forMe_toSubscriber]
  cases hfind : machine.mSubscribers.find? (fun s => s.equals subscriber) with
  | none =>
      have hany : machine.mSubscribers.any (fun s => s.equals subscriber) = false := by
        simpa using hfind
      rw [hany]
      rfl
  | some s =>
      have hany : machine.mSubscribers.any (fun s => s.equals subscriber) = true :=
        List.any_eq_true.mpr ⟨s, List.mem_of_find?_eq_some hfind, by
          simpa using List.find?_some hfind⟩
      rw [hany]
      rfl

/-- The list after a listed subscriber is taken out of service. -/
def dismissed (list : List Subscriber) (subscriber : Subscriber) : List Subscriber :=
  if subscriber.waitForCloseComplete then list.replace subscriber subscriber.deactivate
  else list.filter fun s => !s.equals subscriber

theorem setInactive_eq (machine : AgpsStateMachine) (subscriber : Subscriber) :
    ∃ next : AgpsStateMachine, next.OnlyReports machine ∧
      machine.setInactive subscriber = { next with
        mSubscribers := machine.mSubscribers.replace subscriber subscriber.deactivate } := by
  cases subscriber with
  | ds ID mIsInactive => exact ⟨_, informStatus_onlyReports machine .unsubscribe ID.toInt32, rfl⟩
  | bit ID mIPv6Addr => exact ⟨machine, .refl machine, rfl⟩
  | atl ID mBackwardCompatibleMode => exact ⟨machine, .refl machine, rfl⟩
  | wifi senderId mSSID mPassword mIsInactive => exact ⟨machine, .refl machine, rfl⟩

theorem dismiss_eq (machine : AgpsStateMachine) (subscriber : Subscriber) :
    ∃ next : AgpsStateMachine, next.OnlyReports machine ∧ machine.dismiss subscriber =
      { next with mSubscribers := dismissed machine.mSubscribers subscriber } := by
  unfold dismiss dismissed
  split
  · exact setInactive_eq machine subscriber
  · exact notifySubscribers_delete machine _ rfl rfl

/-! ## Requests to the servicer -/

/-- The guard of `AgpsStateMachine::sendRsrcRequest` lets a request through when
there is an active subscriber, and a release when there is none. -/
theorem sendNifRequest_eq {machine : AgpsStateMachine} {action : AGpsStatusValue}
    (h : machine.hasActiveSubscribers = decide (action = .requestDataConn)) :
    ∃ nifRequest : AGpsExtStatus, nifRequest.status = action ∧
      machine.sendNifRequest action = (machine.emit (.requestRsrc nifRequest), 0) := by
  have hguard : machine.firstActive.isNone = decide (action = .releaseDataConn) := by
    rw [← Option.not_isSome]
    rw [hasActiveSubscribers] at h
    cases action <;> simp_all
  refine ⟨machine.nifRequest action machine.firstActive, ?_, ?_⟩
  · cases machine.firstActive <;> rfl
  · rw [sendNifRequest, if_pos hguard]

/-- The answers to a request that end in a fallback: no profile, an error, or
one busy answer too many. -/
def fallsBack (mRetries : UInt8) (ret : Int) : Bool :=
  decide (ret = errUnsupported) || decide (ret = -1) ||
    (decide (ret = errEngineBusy) && decide (mRetries + 1 > maxStartDataCallRetries))

/-- What `DSStateMachine::sendRsrcRequest` does once the servicer has answered. -/
def afterAnswer (machine : AgpsStateMachine) (ret : Int) : List Action :=
  if fallsBack machine.mRetries ret then [.requestATL machine.connHandle .supl]
  else if ret = errEngineBusy then [.startDelayTimer dataCallRetryDelayMsec]
  else []

theorem sendDataCallRequest_eq (machine : AgpsStateMachine) (action : AGpsStatusValue)
    (answer : Int) :
    ∃ mRetries delayTimers, (machine.sendDataCallRequest action answer).1 =
      { machine with
        log := machine.log ++ .dataCall action ::
          machine.afterAnswer (dataCallCb action answer)
        mRetries
        delayTimers } := by
  unfold sendDataCallRequest afterAnswer fallsBack
  dsimp only [informStatus, emit]
  by_cases hbusy : dataCallCb action answer = errEngineBusy
  · by_cases hretries : machine.mRetries + 1 > maxStartDataCallRetries
    · exact ⟨0, machine.delayTimers, by simp [hbusy, hretries]⟩
    · exact ⟨machine.mRetries + 1, machine.delayTimers + 1, by
        simp [hbusy, hretries, errEngineBusy, errUnsupported]⟩
  · by_cases hunsupported : dataCallCb action answer = errUnsupported
    · exact ⟨0, machine.delayTimers, by
        simp [hunsupported, errEngineBusy, errUnsupported]⟩
    · by_cases hsuccess : dataCallCb action answer = errSuccess
      · exact ⟨machine.mRetries, machine.delayTimers, by
          simp [hsuccess, errEngineBusy, errUnsupported, errSuccess]⟩
      · by_cases herror : dataCallCb action answer = -1
        · exact ⟨0, machine.delayTimers, by
            simp [herror, errEngineBusy, errUnsupported, errSuccess]⟩
        · exact ⟨machine.mRetries, machine.delayTimers, by
            simp [hbusy, hunsupported, hsuccess, herror]⟩

/-- A request leaves the state and the list alone, notifies nobody and asks for
no retry. -/
theorem sendRsrcRequest_keeps (machine : AgpsStateMachine) (action : AGpsStatusValue)
    (answer : Int) :
    ∃ log mRetries delayTimers, (machine.sendRsrcRequest action answer).1 =
        { machine with log := machine.log ++ log, mRetries, delayTimers } ∧
      ∀ done ∈ log, (∀ s status, done ≠ .notified s status) ∧
        ∀ connHandle, done ≠ .requestSuplES connHandle := by
  unfold sendRsrcRequest
  split
  · unfold sendNifRequest
    dsimp only
    split
    · exact ⟨[.requestRsrc (machine.nifRequest action machine.firstActive)],
        machine.mRetries, machine.delayTimers, rfl, by simp⟩
    · exact ⟨[], machine.mRetries, machine.delayTimers, by simp, by simp⟩
  · obtain ⟨mRetries, delayTimers, heq⟩ := machine.sendDataCallRequest_eq action answer
    refine ⟨_, mRetries, delayTimers, heq, ?_⟩
    unfold afterAnswer
    split
    · simp
    · split <;> simp

/-! ## Calls -/

section Calls

variable {kind : SubscriberKind} {machine next : AgpsStateMachine} {s : Subscriber} {answer : Int}

theorem step_subscribe (h : machine.step kind (.subscribe s answer) = some next) :
    s.kind = kind ∧ next = { machine with log := [] }.subscribeRsrc s answer := by
  simpa [step, eq_comm] using h

theorem step_unsubscribe (h : machine.step kind (.unsubscribe s answer) = some next) :
    s.kind = kind ∧ next = ({ machine with log := [] }.unsubscribeRsrc s answer).1 := by
  simpa [step, eq_comm] using h

theorem step_retry (h : machine.step kind .retry = some next) :
    0 < machine.delayTimers ∧ next = { machine with
      log := [], delayTimers := machine.delayTimers - 1 }.retryCallback := by
  simpa [step, eq_comm] using h

/-- The subscriber an unsubscribe of a listed client finds. -/
theorem find?_equals {t : Subscriber} (ht : t ∈ machine.mSubscribers) (h : t.equals s = true) :
    ∃ u, machine.mSubscribers.find? (fun u => u.equals s) = some u :=
  Option.isSome_iff_exists.mp (List.find?_isSome.mpr ⟨t, ht, h⟩)

theorem unsubscribeRsrc_of_find (machine : AgpsStateMachine) {s t : Subscriber}
    (h : machine.mSubscribers.find? (fun u => u.equals s) = some t) (answer : Int) :
    machine.unsubscribeRsrc s answer = (machine.dispatch (.unsubscribe t) answer, true) := by
  rw [unsubscribeRsrc, findSubscriber_eq]
  simp only [forMe_toSubscriber, h]

end Calls

end AgpsStateMachine

end Msm8916.Agps
