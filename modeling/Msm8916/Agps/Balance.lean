import Msm8916.Agps.Shape

/-!
Requests and releases of the data connection balance: the servicer hears one
request for each time an `AgpsStateMachine` starts to wait and one release for
each time its last client leaves, whatever comes in between.
-/

namespace Msm8916.Agps.AgpsStateMachine

open Transition

/-- What the servicer is owed for a call with a status, given the states before and after: a
request on each way into Pending, a release on each unsubscribe that gives the
connection up, and nothing else. -/
def owed (status : AgpsRsrcStatus) (before after : AgpsState) : List AGpsStatusValue :=
  if before ≠ .pending ∧ after = .pending then [.requestDataConn]
  else if status = .unsubscribe ∧ (before = .pending ∨ before = .acquired) ∧
      (after = .released ∨ after = .releasing) then [.releaseDataConn]
  else []

/-- The `AgpsRsrcStatus` of an event. -/
def Event.status : Event → AgpsRsrcStatus
  | .subscribe _ => .subscribe
  | .unsubscribe _ => .unsubscribe
  | .granted => .granted
  | .released => .released
  | .denied => .denied

/-- The `AgpsRsrcStatus` a call stands for, `statusMax` if none. -/
def Label.status : Label → AgpsRsrcStatus
  | .subscribe .. => .subscribe
  | .unsubscribe .. => .unsubscribe
  | .rsrcEvent event _ => event
  | .setBearer _ | .setAPN _ | .retry => .statusMax

/-- The table makes the requests that are owed. -/
theorem requestAfter_owed (state : AgpsState) (event : Event) (list : List Subscriber) :
    (requestAfter state event list).toList =
      owed event.status state (stateAfter state event list 0) := by
  cases state with
  | released => cases event <;> rfl
  | pending | acquired =>
      cases event with
      | unsubscribe s =>
          by_cases hempty : list = []
          · subst hempty
            rfl
          · cases hactive : anyActive list <;>
              simp [requestAfter, stateAfter, stateIfUnused, owed, Event.status,
                hempty, hactive]
      | _ => rfl
  | releasing =>
      cases event with
      | unsubscribe s =>
          by_cases hempty : list = [] <;>
            simp [requestAfter, stateAfter, owed, hempty]
      | denied | released =>
          cases hactive : anyActive list <;>
            simp [requestAfter, stateAfter, owed, Event.status, hactive]
      | _ => rfl

/-- A request is made with an active subscriber on the list and a release with
none, which is what the guard of `sendRsrcRequest` asks for. -/
theorem anyActive_of_requestAfter {kind : SubscriberKind} {machine : AgpsStateMachine}
    {event : Event} {action : AGpsStatusValue} (h : machine.Shape kind)
    (hrequest : requestAfter machine.mState event
      (listAfter machine.mState event machine.mSubscribers) = some action) :
    anyActive (listAfter machine.mState event machine.mSubscribers) =
      decide (action = .requestDataConn) := by
  have hphase := h.phase
  cases hstate : machine.mState with
  | released =>
      rw [hstate] at hrequest hphase
      have hempty : machine.mSubscribers = [] := hphase
      cases event with
      | subscribe s =>
          obtain rfl := Option.some.inj hrequest
          rw [hempty]
          simp [listAfter, added, anyActive]
      | _ => cases hrequest
  | pending | acquired =>
      rw [hstate] at hrequest
      cases event with
      | unsubscribe s =>
          simp only [requestAfter, Option.ite_none_left_eq_some, Option.some.injEq] at hrequest
          obtain ⟨hnone, rfl⟩ := hrequest
          simpa using hnone
      | _ => cases hrequest
  | releasing =>
      rw [hstate] at hrequest
      cases event with
      | denied | released =>
          simp only [requestAfter, Option.ite_none_right_eq_some, Option.some.injEq] at hrequest
          obtain ⟨hactive, rfl⟩ := hrequest
          simpa using hactive
      | _ => cases hrequest

theorem dispatch_requests {kind : SubscriberKind} {machine : AgpsStateMachine}
    (h : machine.Shape kind) (event : Event) (answer : Int) :
    requests (machine.dispatch event answer).log = requests machine.log ++
      owed event.status machine.mState (machine.dispatch event answer).mState := by
  rw [dispatch_mState h.agps, ← requestAfter_owed]
  obtain ⟨listed, hlisted, heq⟩ := machine.dispatch_eq event answer
  obtain ⟨log, hlog, hreports⟩ := hlisted.log
  have hreported : requests listed.log = requests machine.log := by
    rw [hlog, requests_append, requests_of_reports hreports, List.append_nil]
  rw [heq, follow, hlisted.mState, hlisted.mSubscribers]
  cases hrequest : requestAfter machine.mState event
      (listAfter machine.mState event machine.mSubscribers) with
  | none => simp [hreported]
  | some action =>
      have hactive : listed.hasActiveSubscribers = decide (action = .requestDataConn) := by
        rw [hasActiveSubscribers_eq, hlisted.mSubscribers]
        exact anyActive_of_requestAfter h hrequest
      obtain ⟨nifRequest, rfl, hsent⟩ := sendNifRequest_eq hactive
      have hagps : listed.machineClass = .agps := hlisted.machineClass.trans h.agps
      simp only [sendRsrcRequest, hagps, hsent, emit, requests_append, hreported]
      rfl

/-! ## Calls -/

theorem owed_self (status : AgpsRsrcStatus) (state : AgpsState) :
    owed status state state = [] := by
  cases status <;> cases state <;> rfl

theorem OnlyReports.requests_eq {next machine : AgpsStateMachine}
    (h : next.OnlyReports machine) : requests next.log = requests machine.log := by
  obtain ⟨log, mRetries, rfl, hlog⟩ := h
  rw [requests_append, requests_of_reports hlog, List.append_nil]

/-- A call into an `AgpsStateMachine` brings one event, or it leaves the state
alone and asks nothing of the servicer. -/
theorem agps_step_cases {kind : SubscriberKind} {machine next : AgpsStateMachine}
    {label : Label} (h : machine.machineClass = .agps)
    (hstep : machine.step kind label = some next) :
    (∃ event answer, event.status = label.status ∧
        next = { machine with log := [] }.dispatch event answer) ∨
      (next.mState = machine.mState ∧ requests next.log = [] ∧
        label.status ≠ .released ∧ label.status ≠ .denied) := by
  cases label with
  | subscribe s answer =>
      obtain ⟨-, rfl⟩ := step_subscribe hstep
      unfold subscribeRsrc
      split
      · have hnotify := notifySubscriber_onlyReports (.toGroup .broadcastAll .denied true) s
          { machine with log := [] }
        exact .inr ⟨hnotify.keeps.1, hnotify.requests_eq, by simp [Label.status]⟩
      · exact .inl ⟨.subscribe s, answer, rfl, rfl⟩
  | unsubscribe s answer =>
      obtain ⟨-, rfl⟩ := step_unsubscribe hstep
      unfold unsubscribeRsrc
      split
      · rename_i listed _
        exact .inl ⟨.unsubscribe listed, answer, rfl, rfl⟩
      · exact .inr ⟨rfl, rfl, by simp [Label.status]⟩
  | rsrcEvent event answer =>
      obtain rfl := Option.some.inj hstep
      have hclass : { machine with log := [] }.onRsrcEvent event answer =
          { machine with log := [] }.onAgpsEvent event answer := by
        simp only [onRsrcEvent, h]
      rw [hclass]
      cases event with
      | granted => exact .inl ⟨.granted, answer, rfl, rfl⟩
      | released => exact .inl ⟨.released, answer, rfl, rfl⟩
      | denied => exact .inl ⟨.denied, answer, rfl, rfl⟩
      | subscribe | unsubscribe | statusMax =>
          exact .inr ⟨rfl, rfl, by simp [Label.status]⟩
  | setBearer bearer =>
      obtain rfl := Option.some.inj hstep
      exact .inr ⟨rfl, rfl, by simp [Label.status]⟩
  | setAPN apn =>
      obtain rfl := Option.some.inj hstep
      exact .inr ⟨rfl, rfl, by simp [Label.status]⟩
  | retry =>
      obtain ⟨-, rfl⟩ := step_retry hstep
      unfold retryCallback
      split <;> exact .inr ⟨rfl, rfl, by simp [Label.status]⟩

theorem Shape.cleared {kind : SubscriberKind} {machine : AgpsStateMachine}
    (h : machine.Shape kind) : { machine with log := [] }.Shape kind :=
  ⟨h.agps, h.listing, h.phase, h.single⟩

/-- One call makes the requests it owes. -/
theorem step_requests {kind : SubscriberKind} {machine next : AgpsStateMachine}
    {label : Label} (h : machine.Shape kind) (hstep : machine.step kind label = some next) :
    requests next.log = owed label.status machine.mState next.mState := by
  rcases agps_step_cases h.agps hstep with ⟨event, answer, hstatus, rfl⟩ | ⟨hstate, hlog, -⟩
  · rw [← hstatus]
    exact dispatch_requests h.cleared event answer
  · rw [hlog, hstate, owed_self]

/-! ## The flag over runs -/

/-- Whether the connection is asked for after a call: a request sets the flag, a
release, a denial in Pending or a forced release in Acquired clears it. -/
def connectionAfter (connection : Bool) (status : AgpsRsrcStatus) (before : AgpsState)
    (requests : List AGpsStatusValue) : Bool :=
  if .requestDataConn ∈ requests then true
  else if .releaseDataConn ∈ requests then false
  else
    match status, before with
    | .denied, .pending => false
    | .released, .acquired => false
    | _, _ => connection

/-- Whether a machine in this state waits for the connection or has it. -/
def wantsConnection : AgpsState → Bool
  | .pending | .acquired => true
  | .released | .releasing => false

/-- The flag follows the rows of the table. -/
theorem connectionAfter_row (state : AgpsState) (event : Event) (list : List Subscriber) :
    connectionAfter (wantsConnection state) event.status state
        (requestAfter state event list).toList =
      wantsConnection (stateAfter state event list 0) := by
  cases state with
  | released => cases event <;> rfl
  | pending | acquired =>
      cases event with
      | unsubscribe s =>
          by_cases hempty : list = []
          · subst hempty
            rfl
          · cases hactive : anyActive list <;>
              simp [requestAfter, stateAfter, stateIfUnused, connectionAfter, Event.status,
                wantsConnection, hempty, hactive]
      | _ => rfl
  | releasing =>
      cases event with
      | unsubscribe s =>
          by_cases hempty : list = [] <;>
            simp [requestAfter, stateAfter, connectionAfter, Event.status, wantsConnection,
              hempty]
      | denied | released =>
          cases hactive : anyActive list <;>
            simp [requestAfter, stateAfter, connectionAfter, Event.status, wantsConnection,
              hactive]
      | _ => rfl

/-- A machine and the flag kept from what its servicer and clients see. -/
structure Tracked where
  machine : AgpsStateMachine
  connection : Bool

namespace Tracked

def init (mType : AGpsExtType) (enforce : Bool) : Tracked := ⟨newAgps mType enforce, false⟩

def step (kind : SubscriberKind) (tracked : Tracked) (label : Label) : Option Tracked :=
  (tracked.machine.step kind label).map fun next =>
    ⟨next, connectionAfter tracked.connection label.status tracked.machine.mState
      (requests next.log)⟩

/-- The flag tells whether the machine waits for the connection or has it. -/
structure Balanced (kind : SubscriberKind) (tracked : Tracked) : Prop where
  shape : tracked.machine.Shape kind
  flag : tracked.connection = wantsConnection tracked.machine.mState

theorem Balanced.step {kind : SubscriberKind} {tracked next : Tracked} {label : Label}
    (h : tracked.Balanced kind) (hstep : tracked.step kind label = some next) :
    next.Balanced kind := by
  obtain ⟨machine, hmachine, rfl⟩ := Option.map_eq_some_iff.mp hstep
  refine ⟨h.shape.step hmachine, ?_⟩
  dsimp only
  rw [step_requests h.shape hmachine, h.flag]
  rcases agps_step_cases h.shape.agps hmachine with
    ⟨event, answer, hstatus, rfl⟩ | ⟨hstate, -, hreleased, hdenied⟩
  · have hrow := dispatch_mState h.shape.cleared.agps event answer
    rw [hrow, ← hstatus, ← requestAfter_owed]
    exact connectionAfter_row _ event _
  · rw [hstate, owed_self]
    cases hcase : label.status <;> first | rfl | contradiction

end Tracked

/-- In every run of an `AgpsStateMachine` whose clients are of one kind, each
call asks the servicer for exactly what it is owed, and the flag that requests
set and that releases, a denial in Pending and a release in Acquired clear is
set exactly in Pending and Acquired. -/
theorem request_release_balance {kind : SubscriberKind} {mType : AGpsExtType}
    {enforce : Bool} {tracked : Tracked}
    (hreach : Reachable (Tracked.step kind) (Tracked.init mType enforce) tracked) :
    (tracked.connection = true ↔
        tracked.machine.mState = .pending ∨ tracked.machine.mState = .acquired) ∧
      ∀ label next, tracked.machine.step kind label = some next →
        requests next.log = owed label.status tracked.machine.mState next.mState := by
  have hbalanced : tracked.Balanced kind :=
    invariant_of_step (fun _ _ _ h hstep => h.step hstep)
      ⟨newAgps_shape kind mType enforce, rfl⟩ hreach
  refine ⟨?_, fun label next hstep => step_requests hbalanced.shape hstep⟩
  rw [hbalanced.flag]
  cases tracked.machine.mState <;> simp [wantsConnection]

/-- A WIFI client comes back while its connection is being released: it waits for the
release, and nothing is asked for until then. -/
theorem request_release_balance_resubscribe :
    ∃ tracked,
      exec (Tracked.step .wifi) (Tracked.init .wifi false)
        [.subscribe (.wifi 1 none none false) 0, .rsrcEvent .granted 0,
          .unsubscribe (.wifi 1 none none false) 0,
          .subscribe (.wifi 2 none none false) 0] = some tracked ∧
      (tracked.connection = true ↔
        tracked.machine.mState = .pending ∨ tracked.machine.mState = .acquired) := by
  have hsome : (exec (Tracked.step .wifi) (Tracked.init .wifi false)
      [.subscribe (.wifi 1 none none false) 0, .rsrcEvent .granted 0,
        .unsubscribe (.wifi 1 none none false) 0,
        .subscribe (.wifi 2 none none false) 0]).isSome = true := by decide
  obtain ⟨tracked, hrun⟩ := Option.isSome_iff_exists.mp hsome
  exact ⟨tracked, hrun, (request_release_balance ⟨_, hrun⟩).1⟩

end Msm8916.Agps.AgpsStateMachine
