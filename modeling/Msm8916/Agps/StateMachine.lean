import Msm8916.Agps.Subscriber
import Msm8916.Lib.Transition

/-!
`AgpsStateMachine` and `DSStateMachine` of `loc_eng_agps.cpp`. Both are one
record, with the class as a field that the virtual methods look at. Calls that
leave the machine are appended to a log, which every event starts anew.
-/

namespace Msm8916.Agps

inductive AGpsExtType where
  | invalid
  | any
  | supl
  | c2k
  | wwanAny
  | wifi
  | suplEs
deriving DecidableEq, Repr

inductive AGpsBearerType where
  | invalid
  | ipv4
  | ipv6
  | ipv4v6
deriving DecidableEq, Repr

/-- `GPS_REQUEST_AGPS_DATA_CONN` and `GPS_RELEASE_AGPS_DATA_CONN`. -/
inductive AGpsStatusValue where
  | requestDataConn
  | releaseDataConn
deriving DecidableEq, Repr

/-- `sockaddr_storage` as a request fills it: zeroed, or only given the family
`AF_INET6`. -/
inductive SockaddrStorage where
  | zeroed
  | afInet6
deriving DecidableEq, Repr

/-- `AGpsExtStatus`; `ipv4_addr` is `none` where nothing is written to it. -/
structure AGpsExtStatus where
  type : AGpsExtType
  status : AGpsStatusValue
  ipv4_addr : Option UInt32
  addr : SockaddrStorage
  ssid : List UInt8
  password : List UInt8
deriving DecidableEq

/-- The results `loc_eng_dmn_conn_loc_api_server_data_conn` reports. -/
inductive IfStatus where
  | requestSuccess
  | releaseSuccess
  | failure
deriving DecidableEq, Repr

/-- `LOC_ENG_IF_REQUEST_SENDER_ID_GPSONE_DAEMON`. -/
def gpsoneDaemon : UInt32 := 3

def errSuccess : Int := 0
def errUnsupported : Int := 2
def errEngineBusy : Int := 6

/-- `MAX_START_DATA_CALL_RETRIES`. -/
def maxStartDataCallRetries : UInt8 := 4

/-- `DATA_CALL_RETRY_DELAY_MSEC`. -/
def dataCallRetryDelayMsec : UInt32 := 500

/-- A call out of the machine. `notified` records that a subscriber took a
notification to be for it, before what it then sends. -/
inductive Action where
  | notified (subscriber : Subscriber) (status : AgpsRsrcStatus)
  | serverDataConn (senderId : UInt32) (status : IfStatus)
  | atlOpenStatus (handle : Int32) (isSucc : Bool) (apn : Option (List UInt8))
      (bearer : AGpsBearerType) (agpsType : AGpsExtType)
  | atlCloseStatus (handle : Int32) (isSucc : Bool)
  | requestRsrc (nifRequest : AGpsExtStatus)
  | dataCall (action : AGpsStatusValue)
  | closeDataCall
  | requestATL (connHandle : Int32) (agpsType : AGpsExtType)
  | requestSuplES (connHandle : Int32)
  | startDelayTimer (msec : UInt32)
deriving DecidableEq

inductive AgpsState where
  | released
  | pending
  | acquired
  | releasing
deriving DecidableEq, Repr

inductive MachineClass where
  | agps
  | ds
deriving DecidableEq, Repr

/-- The fields of both classes; `mRetries` and the number of delay timers
running are those of a `DSStateMachine`. -/
structure AgpsStateMachine where
  machineClass : MachineClass
  mState : AgpsState
  mSubscribers : List Subscriber
  mType : AGpsExtType
  mAPN : Option (List UInt8)
  mBearer : AGpsBearerType
  mEnforceSingleSubscriber : Bool
  mRetries : UInt8
  delayTimers : Nat
  log : List Action

namespace AgpsStateMachine

/-- The constructor of `AgpsStateMachine`. -/
def newAgps (mType : AGpsExtType) (enforceSingleSubscriber : Bool) : AgpsStateMachine where
  machineClass := .agps
  mState := .released
  mSubscribers := []
  mType := mType
  mAPN := none
  mBearer := .invalid
  mEnforceSingleSubscriber := enforceSingleSubscriber
  mRetries := 0
  delayTimers := 0
  log := []

/-- The constructor of `DSStateMachine`. -/
def newDs : AgpsStateMachine := { newAgps .invalid false with machineClass := .ds }

def emit (machine : AgpsStateMachine) (action : Action) : AgpsStateMachine :=
  { machine with log := machine.log ++ [action] }

/-! ## Telling a subscriber -/

/-- `DSStateMachine::informStatus`. -/
def informStatus (machine : AgpsStateMachine) (status : AgpsRsrcStatus) (ID : Int32) :
    AgpsStateMachine :=
  match status with
  | .unsubscribe => machine.emit (.atlCloseStatus ID true)
  | .released => machine.emit .closeDataCall
  | .denied => { machine with mRetries := 0 }.emit (.requestATL ID .supl)
  | .granted => machine.emit (.atlOpenStatus ID true none .invalid .invalid)
  | .subscribe | .statusMax => machine

/-- The type an `ATLSubscriber` reports. -/
def reportedType (machine : AgpsStateMachine) (mBackwardCompatibleMode : Bool) : AGpsExtType :=
  if mBackwardCompatibleMode then .invalid else machine.mType

/-- What a subscriber sends for a status it handles. -/
def sendStatus (machine : AgpsStateMachine) (subscriber : Subscriber)
    (status : AgpsRsrcStatus) : AgpsStateMachine :=
  match subscriber, status with
  | .bit .., .unsubscribe => machine.emit (.serverDataConn gpsoneDaemon .releaseSuccess)
  | .bit .., .released => machine.emit (.serverDataConn gpsoneDaemon .releaseSuccess)
  | .bit .., .denied => machine.emit (.serverDataConn gpsoneDaemon .failure)
  | .bit .., .granted => machine.emit (.serverDataConn gpsoneDaemon .requestSuccess)
  | .atl ID _, .unsubscribe => machine.emit (.atlCloseStatus ID.toInt32 true)
  | .atl ID _, .released => machine.emit (.atlCloseStatus ID.toInt32 true)
  | .atl ID compatible, .denied =>
      machine.emit (.atlOpenStatus ID.toInt32 false machine.mAPN machine.mBearer
        (machine.reportedType compatible))
  | .atl ID compatible, .granted =>
      machine.emit (.atlOpenStatus ID.toInt32 true machine.mAPN machine.mBearer
        (machine.reportedType compatible))
  -- a WIFI client is told of its own unsubscribe only when the close completes
  | .wifi .., .unsubscribe => machine
  | .wifi senderId .., .released => machine.emit (.serverDataConn senderId .releaseSuccess)
  | .wifi senderId .., .denied => machine.emit (.serverDataConn senderId .failure)
  | .wifi senderId .., .granted => machine.emit (.serverDataConn senderId .requestSuccess)
  | .ds ID _, status => machine.informStatus status ID.toInt32
  | _, .subscribe => machine
  | _, .statusMax => machine

/-- The statuses the `notifyRsrcStatus` methods have a case for. -/
def handlesStatus : AgpsRsrcStatus → Bool
  | .unsubscribe | .released | .denied | .granted => true
  | .subscribe | .statusMax => false

/-- `notifyRsrcStatus` of each subscriber class. -/
def notifyRsrcStatus (notification : Notification) (subscriber : Subscriber)
    (machine : AgpsStateMachine) : AgpsStateMachine × Bool :=
  if subscriber.forMe notification && handlesStatus notification.rsrcStatus then
    ((machine.emit (.notified subscriber notification.rsrcStatus)).sendStatus subscriber
      notification.rsrcStatus, true)
  else (machine, false)

/-- The callback `notifySubscriber`. -/
def notifySubscriber (notification : Notification) (subscriber : Subscriber)
    (machine : AgpsStateMachine) : AgpsStateMachine × Bool :=
  let (machine, notify) := notifyRsrcStatus notification subscriber machine
  (machine, notify && notification.postNotifyDelete)

/-! ## The subscriber list -/

def hasSubscribers (machine : AgpsStateMachine) : Bool := !machine.mSubscribers.isEmpty

/-- A search of the list with the callback `hasSubscriber`. -/
def findSubscriber (machine : AgpsStateMachine) (notification : Notification) :
    Option Subscriber :=
  (linkedListSearch (fun subscriber state => (state, subscriber.forMe notification)) false
    machine.mSubscribers ()).2.1

/-- The search for an active subscriber that several methods begin with. -/
def firstActive (machine : AgpsStateMachine) : Option Subscriber :=
  machine.findSubscriber (.toGroup .broadcastActive .statusMax false)

def hasActiveSubscribers (machine : AgpsStateMachine) : Bool := machine.firstActive.isSome

/-- `notifySubscribers`. A round beyond the length of the list is never needed
for the loop that deletes. -/
def notifySubscribers (machine : AgpsStateMachine) (notification : Notification) :
    AgpsStateMachine :=
  if notification.postNotifyDelete then
    let (mSubscribers, machine) :=
      searchUntilNone (notifySubscriber notification) (machine.mSubscribers.length + 1)
        machine.mSubscribers machine
    { machine with mSubscribers }
  else
    (linkedListSearch (notifySubscriber notification) false machine.mSubscribers machine).2.2

/-- `addSubscriber`. -/
def addSubscriber (machine : AgpsStateMachine) (subscriber : Subscriber) : AgpsStateMachine :=
  match machine.findSubscriber (.toSubscriber subscriber .statusMax false) with
  | some _ => machine
  | none => { machine with mSubscribers := subscriber.clone :: machine.mSubscribers }

/-- `setInactive` of a listed subscriber. -/
def setInactive (machine : AgpsStateMachine) (subscriber : Subscriber) : AgpsStateMachine :=
  let machine :=
    { machine with
      mSubscribers := machine.mSubscribers.replace subscriber subscriber.deactivate }
  match subscriber with
  | .ds ID _ => machine.informStatus .unsubscribe ID.toInt32
  | _ => machine

/-! ## Requests to the servicer -/

/-- The request `AgpsStateMachine::sendRsrcRequest` puts together. -/
def nifRequest (machine : AgpsStateMachine) (action : AGpsStatusValue) :
    Option Subscriber → AGpsExtStatus
  | none => ⟨machine.mType, action, some inaddrNone, .zeroed, [], []⟩
  | some s => ⟨machine.mType, action, none, .afInet6, s.wifiInfo.1, s.wifiInfo.2⟩

/-- `AgpsStateMachine::sendRsrcRequest`. -/
def sendNifRequest (machine : AgpsStateMachine) (action : AGpsStatusValue) :
    AgpsStateMachine × Int :=
  let s := machine.firstActive
  if s.isNone = decide (action = .releaseDataConn) then
    (machine.emit (.requestRsrc (machine.nifRequest action s)), 0)
  else (machine, 0)

/-- `dataCallCb`, with the answer `openAndStartDataCall` gives if it is called. -/
def dataCallCb (action : AGpsStatusValue) (answer : Int) : Int :=
  match action with
  | .requestDataConn => answer
  | .releaseDataConn => 0

/-- The handle `DSStateMachine::sendRsrcRequest` falls back for. -/
def connHandle (machine : AgpsStateMachine) : Int32 :=
  match machine.firstActive with
  | some s => s.ID.toInt32
  | none => -1

/-- `DSStateMachine::sendRsrcRequest`. -/
def sendDataCallRequest (machine : AgpsStateMachine) (action : AGpsStatusValue)
    (answer : Int) : AgpsStateMachine × Int :=
  let connHandle := machine.connHandle
  let ret := dataCallCb action answer
  let machine := machine.emit (.dataCall action)
  if ret = errEngineBusy then
    let machine := { machine with mRetries := machine.mRetries + 1 }
    if machine.mRetries > maxStartDataCallRetries then
      (machine.informStatus .denied connHandle, ret)
    else
      -- `loc_timer_start` returns a handle, which is taken for a failure
      ({ machine with delayTimers := machine.delayTimers + 1 }.emit
        (.startDelayTimer dataCallRetryDelayMsec), -1)
  else if ret = errUnsupported then (machine.informStatus .denied connHandle, ret)
  else if ret = errSuccess then (machine, ret)
  else if ret = -1 then (machine.informStatus .denied connHandle, ret)
  else (machine, ret)

/-- The virtual `sendRsrcRequest`. -/
def sendRsrcRequest (machine : AgpsStateMachine) (action : AGpsStatusValue) (answer : Int) :
    AgpsStateMachine × Int :=
  match machine.machineClass with
  | .agps => machine.sendNifRequest action
  | .ds => machine.sendDataCallRequest action answer

/-! ## The four states -/

/-- An event with the subscriber that comes with it. -/
inductive Event where
  | subscribe (subscriber : Subscriber)
  | unsubscribe (subscriber : Subscriber)
  | granted
  | released
  | denied

/-- How Pending, Acquired and Releasing take a subscriber out of service. -/
def dismiss (machine : AgpsStateMachine) (subscriber : Subscriber) : AgpsStateMachine :=
  if subscriber.waitForCloseComplete then machine.setInactive subscriber
  else machine.notifySubscribers (.toSubscriber subscriber .unsubscribe true)

/-- How Pending and Acquired go on once a subscriber is out of service. -/
def releaseIfUnused (machine : AgpsStateMachine) (this : AgpsState) (answer : Int) :
    AgpsState × AgpsStateMachine :=
  if !machine.hasSubscribers then
    (.released, (machine.sendRsrcRequest .releaseDataConn answer).1)
  else if !machine.hasActiveSubscribers then
    (.releasing, (machine.sendRsrcRequest .releaseDataConn answer).1)
  else (this, machine)

/-- `AgpsReleasedState::onRsrcEvent`. -/
def releasedOnRsrcEvent (machine : AgpsStateMachine) (event : Event) (answer : Int) :
    AgpsState × AgpsStateMachine :=
  match event with
  | .subscribe subscriber =>
      match (machine.addSubscriber subscriber).sendRsrcRequest .requestDataConn answer with
      | (machine, ret) => (if ret = 0 then .pending else .released, machine)
  | .unsubscribe subscriber =>
      (.released,
        (notifyRsrcStatus (.toSubscriber subscriber .unsubscribe false) subscriber machine).1)
  | .granted | .released | .denied => (.released, machine)

/-- `AgpsPendingState::onRsrcEvent`. -/
def pendingOnRsrcEvent (machine : AgpsStateMachine) (event : Event) (answer : Int) :
    AgpsState × AgpsStateMachine :=
  match event with
  | .subscribe subscriber => (.pending, machine.addSubscriber subscriber)
  | .unsubscribe subscriber => (machine.dismiss subscriber).releaseIfUnused .pending answer
  | .granted =>
      (.acquired, machine.notifySubscribers (.toGroup .broadcastActive .granted false))
  | .released => (.pending, machine)
  | .denied => (.released, machine.notifySubscribers (.toGroup .broadcastAll .denied true))

/-- `AgpsAcquiredState::onRsrcEvent`. -/
def acquiredOnRsrcEvent (machine : AgpsStateMachine) (event : Event) (answer : Int) :
    AgpsState × AgpsStateMachine :=
  match event with
  | .subscribe subscriber =>
      (.acquired,
        (notifyRsrcStatus (.toSubscriber subscriber .granted false) subscriber
          machine).1.addSubscriber subscriber)
  | .unsubscribe subscriber => (machine.dismiss subscriber).releaseIfUnused .acquired answer
  | .granted => (.acquired, machine)
  | .released => (.released, machine.notifySubscribers (.toGroup .broadcastAll .released true))
  | .denied => (.acquired, machine)

/-- How Releasing ends: the inactive subscribers are told and dropped, and the
active ones wait for a new connection. -/
def finishReleasing (machine : AgpsStateMachine) (status : AgpsRsrcStatus) (answer : Int) :
    AgpsState × AgpsStateMachine :=
  let machine := machine.notifySubscribers (.toGroup .broadcastInactive status true)
  if machine.hasActiveSubscribers then
    (.pending, (machine.sendRsrcRequest .requestDataConn answer).1)
  else (.released, machine)

/-- `AgpsReleasingState::onRsrcEvent`. -/
def releasingOnRsrcEvent (machine : AgpsStateMachine) (event : Event) (answer : Int) :
    AgpsState × AgpsStateMachine :=
  match event with
  | .subscribe subscriber => (.releasing, machine.addSubscriber subscriber)
  | .unsubscribe subscriber =>
      let machine := machine.dismiss subscriber
      (if machine.hasSubscribers then .releasing else .released, machine)
  | .denied => machine.finishReleasing .denied answer
  | .released => machine.finishReleasing .released answer
  | .granted => (.releasing, machine)

/-- `mStatePtr = mStatePtr->onRsrcEvent(event, data)`. -/
def dispatch (machine : AgpsStateMachine) (event : Event) (answer : Int) :
    AgpsStateMachine :=
  let (mState, machine) :=
    match machine.mState with
    | .released => machine.releasedOnRsrcEvent event answer
    | .pending => machine.pendingOnRsrcEvent event answer
    | .acquired => machine.acquiredOnRsrcEvent event answer
    | .releasing => machine.releasingOnRsrcEvent event answer
  { machine with mState }

/-! ## Calls into the machine -/

/-- `AgpsStateMachine::onRsrcEvent`. -/
def onAgpsEvent (machine : AgpsStateMachine) (event : AgpsRsrcStatus) (answer : Int) :
    AgpsStateMachine :=
  match event with
  | .granted => machine.dispatch .granted answer
  | .released => machine.dispatch .released answer
  | .denied => machine.dispatch .denied answer
  | .subscribe | .unsubscribe | .statusMax => machine

/-- `DSStateMachine::onRsrcEvent`; a release that changes no state is taken for
a denial. -/
def onDsEvent (machine : AgpsStateMachine) (event : AgpsRsrcStatus) (answer : Int) :
    AgpsStateMachine :=
  match event with
  | .granted => machine.dispatch .granted answer
  | .released =>
      let next := machine.dispatch .released answer
      if next.mState = machine.mState then next.dispatch .denied answer else next
  | .denied => machine.dispatch .denied answer
  | .subscribe | .unsubscribe | .statusMax => machine

/-- The virtual `onRsrcEvent`. -/
def onRsrcEvent (machine : AgpsStateMachine) (event : AgpsRsrcStatus) (answer : Int) :
    AgpsStateMachine :=
  match machine.machineClass with
  | .agps => machine.onAgpsEvent event answer
  | .ds => machine.onDsEvent event answer

/-- `subscribeRsrc`. -/
def subscribeRsrc (machine : AgpsStateMachine) (subscriber : Subscriber) (answer : Int) :
    AgpsStateMachine :=
  if machine.mEnforceSingleSubscriber && machine.hasSubscribers then
    (notifySubscriber (.toGroup .broadcastAll .denied true) subscriber machine).1
  else machine.dispatch (.subscribe subscriber) answer

/-- `unsubscribeRsrc`. -/
def unsubscribeRsrc (machine : AgpsStateMachine) (subscriber : Subscriber) (answer : Int) :
    AgpsStateMachine × Bool :=
  match machine.findSubscriber (.toSubscriber subscriber .statusMax false) with
  | some s => (machine.dispatch (.unsubscribe s) answer, true)
  | none => (machine, false)

/-- `DSStateMachine::retryCallback`. -/
def retryCallback (machine : AgpsStateMachine) : AgpsStateMachine :=
  match machine.firstActive with
  | some subscriber => machine.emit (.requestSuplES subscriber.ID.toInt32)
  | none => machine

/-- A call into the machine. `answer` is what `openAndStartDataCall` would
return during it. -/
inductive Label where
  | subscribe (subscriber : Subscriber) (answer : Int)
  | unsubscribe (subscriber : Subscriber) (answer : Int)
  | rsrcEvent (event : AgpsRsrcStatus) (answer : Int)
  | setBearer (bearer : AGpsBearerType)
  | setAPN (apn : Option (List UInt8))
  | retry

/-- The next state of a machine whose clients are all of one kind. A retry
needs a delay timer to have expired. -/
def step (kind : SubscriberKind) (machine : AgpsStateMachine) :
    Label → Option AgpsStateMachine
  | .subscribe subscriber answer =>
      if subscriber.kind = kind then
        some ({ machine with log := [] }.subscribeRsrc subscriber answer)
      else none
  | .unsubscribe subscriber answer =>
      if subscriber.kind = kind then
        some ({ machine with log := [] }.unsubscribeRsrc subscriber answer).1
      else none
  | .rsrcEvent event answer => some ({ machine with log := [] }.onRsrcEvent event answer)
  | .setBearer bearer => some { machine with log := [], mBearer := bearer }
  | .setAPN apn => some { machine with log := [], mAPN := apn }
  | .retry =>
      if 0 < machine.delayTimers then
        some { machine with log := [], delayTimers := machine.delayTimers - 1 }.retryCallback
      else none

end AgpsStateMachine

end Msm8916.Agps
