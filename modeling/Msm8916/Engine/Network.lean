import Msm8916.Agps.StateMachine

/-!
The AGPS part of `loc_eng_data_s_type`: the four state machines, how a request of
the modem or of the daemon finds one of them, and how an answer of the framework,
which comes through the AGps interface of `loc.cpp`, does. Messages go through the
one queue of the message task.
-/

namespace Msm8916

namespace Agps.AgpsStateMachine

/-- `dropAllSubscribers`. -/
def dropAllSubscribers (machine : AgpsStateMachine) : AgpsStateMachine :=
  { machine with mSubscribers := [] }

end Agps.AgpsStateMachine

namespace Engine

open Agps

/-- The state machines of `loc_eng_data_s_type`: `agnss_nif`, `internet_nif`,
`wifi_nif` and `ds_nif`. -/
inductive Nif where
  | agnss
  | internet
  | wifi
  | ds
deriving DecidableEq, Repr

def gpsCapabilityMsb : UInt32 := 0x00000002
def gpsCapabilityMsa : UInt32 := 0x00000004

def maxApnLen : Nat := 100

/-- A call of the framework that answers a status. The IP type is an `ApnIpType`. -/
inductive AgpsCall where
  | open (apn : Option (List UInt8))
  | openWithApniptype (apn : Option (List UInt8)) (apnIpType : UInt16)
  | closed
  | openFailed
deriving DecidableEq

/-- What the call tells the machine it is for. -/
def AgpsCall.event : AgpsCall → AgpsRsrcStatus
  | .open _ | .openWithApniptype _ _ => .granted
  | .closed => .released
  | .openFailed => .denied

/-- The status the call answers. -/
def AgpsCall.answers : AgpsCall → AGpsStatusValue
  | .open _ | .openWithApniptype _ _ | .openFailed => .requestDataConn
  | .closed => .releaseDataConn

/-- The access point name an open comes with; the other calls have none to give. -/
def AgpsCall.apn? : AgpsCall → Option (Option (List UInt8))
  | .open apn | .openWithApniptype apn _ => some apn
  | .closed | .openFailed => none

/-- The messages on the state machines. A pointer to a machine is `none` when it
is null. -/
inductive AgpsMsg where
  | requestATL (mID : Int32) (mType : AGpsExtType)
  | releaseATL (mID : Int32)
  | requestSuplEs (mID : Int32)
  | suplEsOpened
  | suplEsClosed
  | reqRelBIT (mType : AGpsExtType) (mIPv4Addr : UInt32) (mIPv6Addr : Vector UInt8 16)
      (mIsReq : Bool)
  | reqRelWifi (mType : AGpsExtType) (mSenderId : UInt32)
      (mSSID mPassword : Option (List UInt8)) (mIsReq : Bool)
  | dataClientInit
  | atlOpenSuccess (mStateMachine : Option Nif) (mAPN : List UInt8)
      (mBearerType : AGpsBearerType)
  | atlClosed (mStateMachine : Option Nif)
  | atlOpenFailed (mStateMachine : Option Nif)
  | up
deriving DecidableEq

/-- The machine a message of the framework is for and what it tells it. -/
def AgpsMsg.reply? : AgpsMsg → Option (Option Nif × AgpsRsrcStatus)
  | .atlOpenSuccess mStateMachine _ _ => some (mStateMachine, .granted)
  | .atlClosed mStateMachine => some (mStateMachine, .released)
  | .atlOpenFailed mStateMachine => some (mStateMachine, .denied)
  | _ => none

/-- The AGPS fields of `loc_eng_data_s_type`, `mSupportsAgpsRequests` of the
adapter, whether the daemon's server is launched, and the queue. `log` has the
calls out of the engine in the last step. `asked` records which machine has sent
which status to the framework, `replies` the framework's answers with the machine
they are to, and `delivered` the answers that machines have been told. -/
structure AgpsEngine where
  mSupportsAgpsRequests : Bool
  agps_status_cb : Bool
  dmn_conn_server : Bool
  nif : Nif → Option AgpsStateMachine
  msgQ : List AgpsMsg
  log : List Action
  asked : List (Nif × AGpsStatusValue)
  replies : List (Nif × AgpsRsrcStatus)
  delivered : List (Nif × AgpsRsrcStatus)

namespace AgpsEngine

/-- The engine after `loc_init`. -/
def init (mSupportsAgpsRequests : Bool) : AgpsEngine where
  mSupportsAgpsRequests
  agps_status_cb := false
  dmn_conn_server := false
  nif _ := none
  msgQ := []
  log := []
  asked := []
  replies := []
  delivered := []

def emit (eng : AgpsEngine) (action : Action) : AgpsEngine :=
  { eng with log := eng.log ++ [action] }

/-- `sendMsg`. -/
def sendMsg (eng : AgpsEngine) (msg : AgpsMsg) : AgpsEngine :=
  { eng with msgQ := eng.msgQ ++ [msg] }

/-! ## Calls into a machine -/

/-- The status an action sends to the framework. -/
def statusOf : Action → Option AGpsStatusValue
  | .requestRsrc nifRequest => some nifRequest.status
  | _ => none

/-- The message an action makes the adapter send. -/
def msgOf (eng : AgpsEngine) : Action → Option AgpsMsg
  | .requestATL connHandle agpsType =>
      if eng.mSupportsAgpsRequests then some (.requestATL connHandle agpsType) else none
  | .requestSuplES connHandle =>
      if eng.mSupportsAgpsRequests then some (.requestSuplEs connHandle) else none
  | _ => none

/-- A machine is back from a call, with the calls it made in its log. -/
def afterCall (eng : AgpsEngine) (name : Nif) (machine : AgpsStateMachine) : AgpsEngine :=
  { eng with
    nif := Function.update eng.nif name (some machine)
    msgQ := eng.msgQ ++ machine.log.filterMap eng.msgOf
    log := eng.log ++ machine.log
    asked := eng.asked ++ (machine.log.filterMap statusOf).map (name, ·) }

/-- Call a machine through a pointer; a null one ends the process. -/
def callNif (eng : AgpsEngine) (name : Nif) (call : AgpsStateMachine → AgpsStateMachine) :
    Option AgpsEngine :=
  (eng.nif name).map fun machine => eng.afterCall name (call { machine with log := [] })

/-- The pointer to a machine. -/
def pointer (eng : AgpsEngine) (name : Nif) : Option Nif :=
  if (eng.nif name).isSome then some name else none

/-- `getAgpsStateMachine`. -/
def getAgpsStateMachine (eng : AgpsEngine) (agpsType : AGpsExtType) : Option Nif :=
  match agpsType with
  | .wifi => eng.pointer .wifi
  | .invalid | .supl => eng.pointer .agnss
  | .suplEs => if (eng.nif .ds).isSome then eng.pointer .ds else eng.pointer .agnss
  | .any | .c2k | .wwanAny => eng.pointer .internet

/-! ## The messages -/

/-- `LocEngRequestATL::proc`. -/
def requestATL (eng : AgpsEngine) (mID : Int32) (mType : AGpsExtType) (answer : Int) :
    Option AgpsEngine :=
  match eng.getAgpsStateMachine mType with
  | some name =>
      eng.callNif name (·.subscribeRsrc (.atl mID.toUInt32 (mType = .invalid)) answer)
  | none => some (eng.emit (.atlOpenStatus mID false none .invalid mType))

/-- The blocks of `LocEngReleaseATL::proc`: the first machine that lists the
subscriber given for it releases it. -/
def releaseFrom (eng : AgpsEngine) (answer : Int) : List (Nif × Subscriber) → Option AgpsEngine
  | [] => none
  | (name, s) :: rest =>
      match eng.nif name with
      | none => eng.releaseFrom answer rest
      | some machine =>
          match { machine with log := [] }.unsubscribeRsrc s answer with
          | (machine, true) => some (eng.afterCall name machine)
          | (_, false) => eng.releaseFrom answer rest

/-- `LocEngReleaseATL::proc`. -/
def releaseATL (eng : AgpsEngine) (mID : Int32) (answer : Int) : AgpsEngine :=
  (eng.releaseFrom answer
    [(.agnss, .atl mID.toUInt32 false), (.internet, .atl mID.toUInt32 false),
      (.ds, .ds mID.toUInt32 false)]).getD (eng.emit (.atlCloseStatus mID false))

/-- `LocEngRequestSuplEs::proc`. -/
def requestSuplEs (eng : AgpsEngine) (mID : Int32) (answer : Int) : Option AgpsEngine :=
  if (eng.nif .ds).isSome then
    eng.callNif .ds (·.subscribeRsrc (.ds mID.toUInt32 false) answer)
  else if (eng.nif .agnss).isSome then
    eng.callNif .agnss (·.subscribeRsrc (.atl mID.toUInt32 false) answer)
  else some (eng.emit (.atlOpenStatus mID false none .invalid .invalid))

/-- `LocEngSuplEsOpened::proc` and `LocEngSuplEsClosed::proc`. -/
def suplEs (eng : AgpsEngine) (event : AgpsRsrcStatus) (answer : Int) : Option AgpsEngine :=
  if (eng.nif .ds).isSome then eng.callNif .ds (·.onRsrcEvent event answer) else some eng

/-- A request or a release of the subscriber, as `mIsReq` says. -/
def reqRel (machine : AgpsStateMachine) (s : Subscriber) (mIsReq : Bool) (answer : Int) :
    AgpsStateMachine :=
  if mIsReq then machine.subscribeRsrc s answer else (machine.unsubscribeRsrc s answer).1

/-- `LocEngReqRelBIT::proc`, which does not look whether there is a machine. -/
def reqRelBIT (eng : AgpsEngine) (mType : AGpsExtType) (mIPv4Addr : UInt32)
    (mIPv6Addr : Vector UInt8 16) (mIsReq : Bool) (answer : Int) : Option AgpsEngine :=
  (eng.getAgpsStateMachine mType).bind fun name =>
    eng.callNif name (reqRel · (.bit mIPv4Addr mIPv6Addr) mIsReq answer)

/-- `LocEngReqRelWifi::proc`. -/
def reqRelWifi (eng : AgpsEngine) (mType : AGpsExtType) (mSenderId : UInt32)
    (mSSID mPassword : Option (List UInt8)) (mIsReq : Bool) (answer : Int) :
    Option AgpsEngine :=
  if (eng.nif .wifi).isSome then
    eng.callNif .wifi (reqRel ·
      (.wifi mSenderId (mSSID.map strlcpy) (mPassword.map strlcpy) false) mIsReq answer)
  else some (eng.emit (.atlOpenStatus mSenderId.toInt32 false none .invalid mType))

/-- `LocEngDataClientInit::proc`, with what `initDataServiceClient` returns. -/
def dataClientInit (eng : AgpsEngine) (answer : Int) : AgpsEngine :=
  if answer = 0 then { eng with nif := Function.update eng.nif .ds (some .newDs) } else eng

/-- `proc` of a message of the framework, after what it sets in the machine. -/
def tell (eng : AgpsEngine) (mStateMachine : Option Nif) (event : AgpsRsrcStatus)
    (set : AgpsStateMachine → AgpsStateMachine) (answer : Int) : Option AgpsEngine :=
  mStateMachine.bind fun name =>
    (eng.callNif name fun machine => (set machine).onRsrcEvent event answer).map fun eng =>
      { eng with delivered := eng.delivered ++ [(name, event)] }

/-- `loc_eng_handle_engine_up`: the subscribers of two machines are dropped. -/
def handleEngineUp (eng : AgpsEngine) : AgpsEngine :=
  if eng.agps_status_cb then
    { eng with
      nif := fun
        | .agnss => (eng.nif .agnss).map (·.dropAllSubscribers)
        | .internet => (eng.nif .internet).map (·.dropAllSubscribers)
        | name => eng.nif name }
  else eng

/-- `proc` of each message. `answer` is what the data services would return. -/
def proc (eng : AgpsEngine) (answer : Int) : AgpsMsg → Option AgpsEngine
  | .requestATL mID mType => eng.requestATL mID mType answer
  | .releaseATL mID => some (eng.releaseATL mID answer)
  | .requestSuplEs mID => eng.requestSuplEs mID answer
  | .suplEsOpened => eng.suplEs .granted answer
  | .suplEsClosed => eng.suplEs .released answer
  | .reqRelBIT mType mIPv4Addr mIPv6Addr mIsReq =>
      eng.reqRelBIT mType mIPv4Addr mIPv6Addr mIsReq answer
  | .reqRelWifi mType mSenderId mSSID mPassword mIsReq =>
      eng.reqRelWifi mType mSenderId mSSID mPassword mIsReq answer
  | .dataClientInit => some (eng.dataClientInit answer)
  | .atlOpenSuccess mStateMachine mAPN mBearerType =>
      eng.tell mStateMachine .granted
        (fun machine => { machine with mBearer := mBearerType, mAPN := some mAPN }) answer
  | .atlClosed mStateMachine => eng.tell mStateMachine .released id answer
  | .atlOpenFailed mStateMachine => eng.tell mStateMachine .denied id answer
  | .up => some eng.handleEngineUp

/-! ## Calls of the framework -/

/-- The machines `loc_eng_agps_init` makes whatever the engine is capable of. -/
def internetAndWifi (nif : Nif → Option AgpsStateMachine) : Nif → Option AgpsStateMachine :=
  Function.update (Function.update nif .internet (some (.newAgps .wwanAny false)))
    .wifi (some (.newAgps .wifi true))

/-- `loc_eng_agps_init`. -/
def agpsInit (eng : AgpsEngine)
    (CAPABILITIES USE_EMERGENCY_PDN_FOR_EMERGENCY_SUPL : UInt32) : AgpsEngine :=
  if eng.agps_status_cb then eng
  else
    let eng := { eng with agps_status_cb := true, nif := internetAndWifi eng.nif }
    if CAPABILITIES &&& gpsCapabilityMsa ≠ 0 ∨ CAPABILITIES &&& gpsCapabilityMsb ≠ 0 then
      let eng := { eng with
        nif := Function.update eng.nif .agnss (some (.newAgps .supl false)) }
      if eng.mSupportsAgpsRequests then
        let eng :=
          if USE_EMERGENCY_PDN_FOR_EMERGENCY_SUPL ≠ 0 then eng.sendMsg .dataClientInit else eng
        { eng with dmn_conn_server := true }
      else eng
    else eng

/-- `loc_eng_agps_open`. -/
def agpsOpen (eng : AgpsEngine) (agpsType : AGpsExtType) (apn : Option (List UInt8))
    (bearerType : AGpsBearerType) : AgpsEngine :=
  if eng.agps_status_cb then
    match apn with
    | none => eng
    | some apn =>
        eng.sendMsg (.atlOpenSuccess (eng.getAgpsStateMachine agpsType)
          ((apn.takeWhile (· != 0)).take maxApnLen) bearerType)
  else eng

/-- `loc_eng_agps_closed`. -/
def agpsClosed (eng : AgpsEngine) (agpsType : AGpsExtType) : AgpsEngine :=
  if eng.agps_status_cb then
    eng.sendMsg (.atlClosed (eng.getAgpsStateMachine agpsType))
  else eng

/-- `loc_eng_agps_open_failed`. -/
def agpsOpenFailed (eng : AgpsEngine) (agpsType : AGpsExtType) : AgpsEngine :=
  if eng.agps_status_cb then
    eng.sendMsg (.atlOpenFailed (eng.getAgpsStateMachine agpsType))
  else eng

/-- The bearer `loc_agps_open_with_apniptype` makes of an `ApnIpType`. -/
def bearerType (apnIpType : UInt16) : AGpsBearerType :=
  if apnIpType = 1 then .ipv4
  else if apnIpType = 2 then .ipv6
  else if apnIpType = 3 then .ipv4v6
  else .invalid

/-- `loc_agps_open`, `loc_agps_open_with_apniptype`, `loc_agps_closed` and
`loc_agps_open_failed`. -/
def agpsCall (eng : AgpsEngine) : AgpsCall → AgpsEngine
  | .open apn => eng.agpsOpen .supl apn .ipv4
  | .openWithApniptype apn apnIpType => eng.agpsOpen .supl apn (bearerType apnIpType)
  | .closed => eng.agpsClosed .supl
  | .openFailed => eng.agpsOpenFailed .supl

/-! ## The engine -/

/-- Whether the modem or the daemon may send the message: the adapter passes the
requests of the modem on only with `mSupportsAgpsRequests`, and the daemon needs
its server. -/
def maySend (eng : AgpsEngine) : AgpsMsg → Bool
  | .requestATL .. | .releaseATL _ | .requestSuplEs _ | .suplEsOpened | .suplEsClosed =>
      eng.mSupportsAgpsRequests
  | .reqRelBIT .. | .reqRelWifi .. => eng.dmn_conn_server
  | .up => true
  | .dataClientInit | .atlOpenSuccess .. | .atlClosed _ | .atlOpenFailed _ => false

/-- What happens to the engine: the framework begins to use it, the modem or the
daemon sends a message, the framework answers a status that `asker` has sent, a
delay timer of `ds_nif` expires, or the message task takes a message. -/
inductive Event where
  | agpsInit (CAPABILITIES USE_EMERGENCY_PDN_FOR_EMERGENCY_SUPL : UInt32)
  | send (msg : AgpsMsg)
  | reply (asker : Nif) (call : AgpsCall)
  | retry
  | run (answer : Int)
deriving DecidableEq

def step (eng : AgpsEngine) (event : Event) : Option AgpsEngine :=
  let eng := { eng with log := [] }
  match event with
  | .agpsInit CAPABILITIES USE_EMERGENCY_PDN_FOR_EMERGENCY_SUPL =>
      some (eng.agpsInit CAPABILITIES USE_EMERGENCY_PDN_FOR_EMERGENCY_SUPL)
  | .send msg => if eng.maySend msg then some (eng.sendMsg msg) else none
  | .reply asker call =>
      if (asker, call.answers) ∈ eng.asked then
        some { eng.agpsCall call with replies := eng.replies ++ [(asker, call.event)] }
      else none
  | .retry =>
      (eng.nif .ds).bind fun machine =>
        if 0 < machine.delayTimers then
          some (eng.afterCall .ds { machine with
            log := [], delayTimers := machine.delayTimers - 1 }.retryCallback)
        else none
  | .run answer =>
      match eng.msgQ with
      | [] => none
      | msg :: msgQ => { eng with msgQ }.proc answer msg

end AgpsEngine

end Engine

end Msm8916
