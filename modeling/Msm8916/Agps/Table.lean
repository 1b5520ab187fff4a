import Msm8916.Agps.Operations

/-!
The transition table of the two state machines: the list an event leaves, the
request it ends with and the state it leads to, as functions of the state and
the list alone. `dispatch_eq` says that an event does what its row of the table
says and otherwise only reports.
-/

namespace Msm8916.Agps

/-- Whether a list has an active subscriber. -/
def anyActive (list : List Subscriber) : Bool := list.any fun s => !s.isInactive

theorem anyActive_iff {list : List Subscriber} :
    anyActive list = true ↔ ∃ s ∈ list, s.isInactive = false := by
  simp [anyActive]

namespace AgpsStateMachine

theorem hasActiveSubscribers_eq (machine : AgpsStateMachine) :
    machine.hasActiveSubscribers = anyActive machine.mSubscribers := by
  rw [Bool.eq_iff_iff, hasActiveSubscribers_iff, anyActive_iff]

/-- The list an event leaves. -/
def listAfter (state : AgpsState) (event : Event) (list : List Subscriber) : List Subscriber :=
  match state, event with
  | _, .subscribe s => added list s
  | .released, .unsubscribe _ => list
  | _, .unsubscribe s => dismissed list s
  | .pending, .denied => []
  | .acquired, .released => []
  | .releasing, .denied => list.filter fun s => !s.isInactive
  | .releasing, .released => list.filter fun s => !s.isInactive
  | _, _ => list

/-- The request to the servicer an event ends with, given the list it leaves. -/
def requestAfter (state : AgpsState) (event : Event) (list : List Subscriber) :
    Option AGpsStatusValue :=
  match state, event with
  | .released, .subscribe _ => some .requestDataConn
  | .pending, .unsubscribe _ | .acquired, .unsubscribe _ =>
      if anyActive list then none else some .releaseDataConn
  | .releasing, .denied | .releasing, .released =>
      if anyActive list then some .requestDataConn else none
  | _, _ => none

/-- The state after an unsubscribe that leaves `list`. -/
def stateIfUnused (this : AgpsState) (list : List Subscriber) : AgpsState :=
  if list = [] then .released else if anyActive list then this else .releasing

/-- The state an event leads to, given the list it leaves and what its request
returned. -/
def stateAfter (state : AgpsState) (event : Event) (list : List Subscriber) (ret : Int) :
    AgpsState :=
  match state, event with
  | .released, .subscribe _ => if ret = 0 then .pending else .released
  | .pending, .unsubscribe _ => stateIfUnused .pending list
  | .pending, .granted => .acquired
  | .pending, .denied => .released
  | .acquired, .unsubscribe _ => stateIfUnused .acquired list
  | .acquired, .released => .released
  | .releasing, .unsubscribe _ => if list = [] then .released else .releasing
  | .releasing, .denied | .releasing, .released =>
      if anyActive list then .pending else .released
  | state, _ => state

/-- A machine that has reported and now holds `list` goes on with the rest of
the row. -/
def follow (machine : AgpsStateMachine) (event : Event) (answer : Int) : AgpsStateMachine :=
  match requestAfter machine.mState event machine.mSubscribers with
  | none => { machine with mState := stateAfter machine.mState event machine.mSubscribers 0 }
  | some action =>
      { (machine.sendRsrcRequest action answer).1 with
        mState := stateAfter machine.mState event machine.mSubscribers
          (machine.sendRsrcRequest action answer).2 }

theorem releaseIfUnused_eq (machine : AgpsStateMachine) (this : AgpsState) (answer : Int) :
    machine.releaseIfUnused this answer =
      (stateIfUnused this machine.mSubscribers,
        if anyActive machine.mSubscribers then machine
        else (machine.sendRsrcRequest .releaseDataConn answer).1) := by
  simp only [releaseIfUnused, hasActiveSubscribers_eq, hasSubscribers, Bool.not_not,
    List.isEmpty_iff, stateIfUnused]
  by_cases hempty : machine.mSubscribers = []
  · simp [hempty, anyActive]
  · cases hactive : anyActive machine.mSubscribers <;> simp [hempty]

/-- The rest of a row that makes no request. -/
theorem follow_of_none {machine : AgpsStateMachine} {event : Event} {state : AgpsState}
    (answer : Int) (hrequest : requestAfter machine.mState event machine.mSubscribers = none)
    (hstate : stateAfter machine.mState event machine.mSubscribers 0 = state) :
    machine.follow event answer = { machine with mState := state } := by
  simp only [follow, hrequest, hstate]

/-- The rest of a row that makes a request. -/
theorem follow_of_some {machine : AgpsStateMachine} {event : Event} {action : AGpsStatusValue}
    {state : AgpsState} {answer : Int}
    (hrequest : requestAfter machine.mState event machine.mSubscribers = some action)
    (hstate : stateAfter machine.mState event machine.mSubscribers
      (machine.sendRsrcRequest action answer).2 = state) :
    machine.follow event answer =
      { (machine.sendRsrcRequest action answer).1 with mState := state } := by
  simp only [follow, hrequest, hstate]

/-- `machine` makes the step of the table to what a state's handler returns. -/
def FollowsRow (machine : AgpsStateMachine) (event : Event) (answer : Int)
    (handled : AgpsState × AgpsStateMachine) : Prop :=
  ∃ reported : AgpsStateMachine, reported.OnlyReports machine ∧
    { handled.2 with mState := handled.1 } =
      { reported with
        mSubscribers := listAfter machine.mState event machine.mSubscribers }.follow
          event answer

/-- A row that changes the list and the state and makes no request. -/
theorem followsRow_of_list {machine reported : AgpsStateMachine} {event : Event}
    {state : AgpsState} {list : List Subscriber} (answer : Int)
    (hreported : reported.OnlyReports machine)
    (hlist : listAfter machine.mState event machine.mSubscribers = list)
    (hrequest : requestAfter machine.mState event list = none)
    (hstate : stateAfter machine.mState event list 0 = state) :
    machine.FollowsRow event answer (state, { reported with mSubscribers := list }) := by
  have hkept := hreported.keeps.1
  refine ⟨reported, hreported, ?_⟩
  rw [hlist]
  exact (follow_of_none answer (by rwa [hkept]) (by rwa [hkept])).symm

/-- A row that only changes the state. -/
theorem followsRow_of_reports {machine reported : AgpsStateMachine} {event : Event}
    {state : AgpsState} (answer : Int) (hreported : reported.OnlyReports machine)
    (hlist : listAfter machine.mState event machine.mSubscribers = machine.mSubscribers)
    (hrequest : requestAfter machine.mState event machine.mSubscribers = none)
    (hstate : stateAfter machine.mState event machine.mSubscribers 0 = state) :
    machine.FollowsRow event answer (state, reported) := by
  have hrow := followsRow_of_list answer hreported hlist hrequest hstate
  have hself : { reported with mSubscribers := machine.mSubscribers } = reported := by
    rw [← hreported.keeps.2.1]
  rwa [hself] at hrow

/-- A subscribe in any state but Released, after the reports of the state. -/
theorem subscribe_row {machine reported : AgpsStateMachine} (s : Subscriber) (answer : Int)
    (hreported : reported.OnlyReports machine) (h : machine.mState ≠ .released) :
    machine.FollowsRow (.subscribe s) answer (machine.mState, reported.addSubscriber s) := by
  rw [addSubscriber_eq, hreported.keeps.2.1]
  refine followsRow_of_list answer hreported rfl ?_ ?_ <;>
    cases hstate : machine.mState <;> first | rfl | exact absurd hstate h

/-- An unsubscribe in Pending or Acquired. -/
theorem releaseIfUnused_row {machine : AgpsStateMachine} (s : Subscriber) (answer : Int)
    (h : machine.mState = .pending ∨ machine.mState = .acquired) :
    machine.FollowsRow (.unsubscribe s) answer
      ((machine.dismiss s).releaseIfUnused machine.mState answer) := by
  obtain ⟨next, hnext, hdismiss⟩ := dismiss_eq machine s
  have hlist : listAfter machine.mState (.unsubscribe s) machine.mSubscribers =
      dismissed machine.mSubscribers s := by
    rcases h with h | h <;> rw [h] <;> rfl
  have hkept := hnext.keeps.1
  refine ⟨next, hnext, ?_⟩
  rw [hdismiss, hlist, releaseIfUnused_eq]
  cases hactive : anyActive (dismissed machine.mSubscribers s) with
  | true =>
      refine (follow_of_none answer ?_ ?_).symm <;> dsimp only <;> rw [hkept] <;>
        rcases h with h | h <;> simp [h, requestAfter, stateAfter, hactive]
  | false =>
      refine (follow_of_some ?_ ?_).symm <;> dsimp only <;> rw [hkept] <;>
        rcases h with h | h <;> simp [h, requestAfter, stateAfter, hactive]

/-- A denial or a release in Releasing. -/
theorem finishReleasing_row {machine : AgpsStateMachine} {event : Event}
    {status : AgpsRsrcStatus} (answer : Int) (hstate : machine.mState = .releasing)
    (h : event = .denied ∧ status = .denied ∨ event = .released ∧ status = .released) :
    machine.FollowsRow event answer (machine.finishReleasing status answer) := by
  have hhandles : handlesStatus status = true := by
    rcases h with ⟨-, rfl⟩ | ⟨-, rfl⟩ <;> rfl
  obtain ⟨next, hnext, hnotify⟩ := notifySubscribers_delete machine
    (.toGroup .broadcastInactive status true) hhandles rfl
  simp only [forMe_broadcastInactive] at hnotify
  have hlist : listAfter machine.mState event machine.mSubscribers =
      machine.mSubscribers.filter fun s => !s.isInactive := by
    rcases h with ⟨rfl, -⟩ | ⟨rfl, -⟩ <;> rw [hstate] <;> rfl
  have hkept : next.mState = .releasing := hnext.keeps.1.trans hstate
  refine ⟨next, hnext, ?_⟩
  rw [finishReleasing, hnotify, hlist, hasActiveSubscribers_eq]
  cases hactive : anyActive (machine.mSubscribers.filter fun s => !s.isInactive) with
  | true =>
      refine (follow_of_some ?_ ?_).symm <;>
        rcases h with ⟨rfl, -⟩ | ⟨rfl, -⟩ <;> simp [hkept, requestAfter, stateAfter, hactive]
  | false =>
      refine (follow_of_none answer ?_ ?_).symm <;>
        rcases h with ⟨rfl, -⟩ | ⟨rfl, -⟩ <;> simp [hkept, requestAfter, stateAfter, hactive]

theorem released_row {machine : AgpsStateMachine} (hstate : machine.mState = .released)
    (event : Event) (answer : Int) :
    machine.FollowsRow event answer (machine.releasedOnRsrcEvent event answer) := by
  cases event with
  | subscribe s =>
      refine ⟨machine, .refl machine, ?_⟩
      simp [releasedOnRsrcEvent, addSubscriber_eq, follow, requestAfter, hstate,
        listAfter, stateAfter]
  | unsubscribe s =>
      have hnotify : (notifyRsrcStatus (.toSubscriber s .unsubscribe false) s
          machine).1.OnlyReports machine := by
        rw [notifyRsrcStatus_eq rfl, forMe_toSubscriber, Subscriber.equals_self]
        exact receive_onlyReports _ s machine
      exact followsRow_of_reports answer hnotify (by rw [hstate]; rfl) (by rw [hstate]; rfl)
        (by rw [hstate]; rfl)
  | granted | released | denied =>
      exact followsRow_of_reports answer (.refl machine) (by rw [hstate]; rfl)
        (by rw [hstate]; rfl) (by rw [hstate]; rfl)

theorem pending_row {machine : AgpsStateMachine} (hstate : machine.mState = .pending)
    (event : Event) (answer : Int) :
    machine.FollowsRow event answer (machine.pendingOnRsrcEvent event answer) := by
  cases event with
  | subscribe s =>
      have hrow := subscribe_row s answer (.refl machine) (by simp [hstate])
      rwa [hstate] at hrow
  | unsubscribe s =>
      have hrow := releaseIfUnused_row s answer (.inl hstate)
      rwa [hstate] at hrow
  | granted =>
      have hnotify := notifySubscribers_keep machine
        (.toGroup .broadcastActive .granted false) rfl rfl
      exact followsRow_of_reports answer hnotify (by rw [hstate]; rfl) (by rw [hstate]; rfl)
        (by rw [hstate]; rfl)
  | released =>
      exact followsRow_of_reports answer (.refl machine) (by rw [hstate]; rfl)
        (by rw [hstate]; rfl) (by rw [hstate]; rfl)
  | denied =>
      obtain ⟨next, hnext, hnotify⟩ := notifySubscribers_delete machine
        (.toGroup .broadcastAll .denied true) rfl rfl
      rw [pendingOnRsrcEvent, hnotify]
      exact followsRow_of_list answer hnext (by rw [hstate]; simp [listAfter])
        (by rw [hstate]; rfl) (by rw [hstate]; rfl)

theorem acquired_row {machine : AgpsStateMachine} (hstate : machine.mState = .acquired)
    (event : Event) (answer : Int) :
    machine.FollowsRow event answer (machine.acquiredOnRsrcEvent event answer) := by
  cases event with
  | subscribe s =>
      have hnotify : (notifyRsrcStatus (.toSubscriber s .granted false) s
          machine).1.OnlyReports machine := by
        rw [notifyRsrcStatus_eq rfl, forMe_toSubscriber, Subscriber.equals_self]
        exact receive_onlyReports _ s machine
      have hrow := subscribe_row s answer hnotify (by simp [hstate])
      rwa [hstate] at hrow
  | unsubscribe s =>
      have hrow := releaseIfUnused_row s answer (.inr hstate)
      rwa [hstate] at hrow
  | released =>
      obtain ⟨next, hnext, hnotify⟩ := notifySubscribers_delete machine
        (.toGroup .broadcastAll .released true) rfl rfl
      rw [acquiredOnRsrcEvent, hnotify]
      exact followsRow_of_list answer hnext (by rw [hstate]; simp [listAfter])
        (by rw [hstate]; rfl) (by rw [hstate]; rfl)
  | granted | denied =>
      exact followsRow_of_reports answer (.refl machine) (by rw [hstate]; rfl)
        (by rw [hstate]; rfl) (by rw [hstate]; rfl)

theorem releasing_row {machine : AgpsStateMachine} (hstate : machine.mState = .releasing)
    (event : Event) (answer : Int) :
    machine.FollowsRow event answer (machine.releasingOnRsrcEvent event answer) := by
  cases event with
  | subscribe s =>
      have hrow := subscribe_row s answer (.refl machine) (by simp [hstate])
      rwa [hstate] at hrow
  | unsubscribe s =>
      obtain ⟨next, hnext, hdismiss⟩ := dismiss_eq machine s
      simp only [releasingOnRsrcEvent, hdismiss]
      refine followsRow_of_list answer hnext (by rw [hstate]; rfl) (by rw [hstate]; rfl) ?_
      simp [hstate, stateAfter, hasSubscribers]
  | granted =>
      exact followsRow_of_reports answer (.refl machine) (by rw [hstate]; rfl)
        (by rw [hstate]; rfl) (by rw [hstate]; rfl)
  | released => exact finishReleasing_row answer hstate (.inr ⟨rfl, rfl⟩)
  | denied => exact finishReleasing_row answer hstate (.inl ⟨rfl, rfl⟩)

/-- `listed` is `machine` with the list an event leaves, after some reports. -/
structure Listed (machine : AgpsStateMachine) (event : Event) (listed : AgpsStateMachine) :
    Prop where
  mState : listed.mState = machine.mState
  mSubscribers : listed.mSubscribers = listAfter machine.mState event machine.mSubscribers
  machineClass : listed.machineClass = machine.machineClass
  enforce : listed.mEnforceSingleSubscriber = machine.mEnforceSingleSubscriber
  log : ∃ log, listed.log = machine.log ++ log ∧ ∀ action ∈ log, action.isReport = true

/-- One event: the reports, the list of the table, and the rest of its row. -/
theorem dispatch_eq (machine : AgpsStateMachine) (event : Event) (answer : Int) :
    ∃ listed, Listed machine event listed ∧
      machine.dispatch event answer = listed.follow event answer := by
  obtain ⟨handled, ⟨reported, hreported, heq⟩, hdispatch⟩ :
      ∃ handled, machine.FollowsRow event answer handled ∧
        machine.dispatch event answer = { handled.2 with mState := handled.1 } := by
    cases hstate : machine.mState with
    | released => exact ⟨_, released_row hstate event answer, by simp only [dispatch, hstate]⟩
    | pending => exact ⟨_, pending_row hstate event answer, by simp only [dispatch, hstate]⟩
    | acquired => exact ⟨_, acquired_row hstate event answer, by simp only [dispatch, hstate]⟩
    | releasing => exact ⟨_, releasing_row hstate event answer, by simp only [dispatch, hstate]⟩
  refine ⟨{ reported with
    mSubscribers := listAfter machine.mState event machine.mSubscribers }, ?_, hdispatch.trans heq⟩
  obtain ⟨hstate, -, hclass, henforce⟩ := hreported.keeps
  obtain ⟨log, mRetries, rfl, hlog⟩ := hreported
  exact ⟨hstate, rfl, hclass, henforce, log, rfl, hlog⟩

end AgpsStateMachine

end Msm8916.Agps
