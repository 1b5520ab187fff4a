import Msm8916.Lib.Pool

/-!
The network-initiated requests of `loc_eng_ni.cpp`. Calls of the handler, of
`loc_eng_ni_respond` and of the reset on an engine restart, and the session
threads, are processes on one `loc_eng_ni_data_s_type`. Their atomic steps are
the unlocked reads and writes and the sections under `tLock`. A payload is named
by the process of the request that came with it.
-/

namespace Msm8916.Ni

open Transition

abbrev GpsUserResponseType := Int

def gpsNiResponseAccept : GpsUserResponseType := 1
def gpsNiResponseNoresp : GpsUserResponseType := 3
def gpsNiResponseIgnore : GpsUserResponseType := 4

/-- `LOC_NI_NO_RESPONSE_TIME`. -/
def locNiNoResponseTime : Int := 20

/-- `loc_eng_ni_session_s_type`. -/
structure NiSession where
  respTimeLeft : Int
  respRecvd : Bool
  rawRequest : Option Nat
  reqID : Int
  resp : GpsUserResponseType
deriving DecidableEq

/-- The two session records of `loc_eng_ni_data_s_type`. -/
inductive SessionName where
  | session
  | sessionEs
deriving DecidableEq, Repr

/-- What the NI module does that others see, and the responses and timeouts it
gets. `request` is the process of a call of the handler. -/
inductive Effect where
  | respond (notif_id : Int) (user_response : GpsUserResponseType)
  | timedOut (request : Nat)
  | notificationId (request : Nat) (notification_id : Int)
  | notifyCb (request : Nat) (notification_id : Int)
  | informNiResponse (resp : GpsUserResponseType) (payload : Nat)
  | free (payload : Nat)
deriving DecidableEq

/-- `loc_eng_ni_data_s_type`, whether `ni_notify_cb` is set, and the effects so
far. -/
structure NiData where
  session : NiSession
  sessionEs : NiSession
  reqIDCounter : Int
  niNotifyCb : Bool
  log : List Effect
deriving DecidableEq

namespace NiData

def get (data : NiData) : SessionName → NiSession
  | .session => data.session
  | .sessionEs => data.sessionEs

def put (data : NiData) (name : SessionName) (pSession : NiSession) : NiData :=
  match name with
  | .session => { data with session := pSession }
  | .sessionEs => { data with sessionEs := pSession }

def emit (data : NiData) (effect : Effect) : NiData :=
  { data with log := data.log ++ [effect] }

@[simp]
theorem get_put_self (data : NiData) (name : SessionName) (pSession : NiSession) :
    (data.put name pSession).get name = pSession := by
  cases name <;> rfl

theorem get_put_of_ne (data : NiData) {name other : SessionName} (pSession : NiSession)
    (h : other ≠ name) : (data.put name pSession).get other = data.get other := by
  cases name <;> cases other <;> first | rfl | exact absurd rfl h

@[simp]
theorem get_emit (data : NiData) (effect : Effect) (name : SessionName) :
    (data.emit effect).get name = data.get name := by
  cases name <;> rfl

@[simp]
theorem log_put (data : NiData) (name : SessionName) (pSession : NiSession) :
    (data.put name pSession).log = data.log := by
  cases name <;> rfl

@[simp]
theorem log_emit (data : NiData) (effect : Effect) :
    (data.emit effect).log = data.log ++ [effect] := rfl

end NiData

/-! ## The processes -/

/-- What the handler reads of a `GpsNiNotification` and whether the request came
with a payload. -/
structure Request where
  emergencySupl : Bool
  timeout : Int
  passThrough : Bool
deriving DecidableEq

/-- The session record a request is for. -/
def Request.pSession (request : Request) : SessionName :=
  if request.emergencySupl then .sessionEs else .session

/-- Where a call of `loc_eng_ni_request_handler` is. -/
inductive HandlerPc where
  | entered
  | checkSession
  | checkSessionEs
  | saveRequest
  | readCounter
  | writeCounter (count : Int)
  | writeReqID (count : Int)
  | fillNotification
  | setTimeLeft (notification_id : Int)
  | createThread (notification_id : Int)
  | notify (notification_id : Int)
  | returned
deriving DecidableEq

/-- Where a session thread is. `msg` is the message it has put together. -/
inductive ThreadPc where
  | started
  | waiting (respTimeLeft : Int)
  | clearTimeLeft (msg : Option (GpsUserResponseType × Nat))
  | clearReqID (msg : Option (GpsUserResponseType × Nat))
  | sendMsg (msg : Option (GpsUserResponseType × Nat))
  | exited
deriving DecidableEq

/-- Where a call of `loc_eng_ni_respond` is. -/
inductive RespondPc where
  | entered
  | checkReqIDEs
  | checkRequestEs
  | checkOther
  | ignoreOther
  | checkReqID
  | checkRequest
  | respond (pSession : SessionName)
  | returned
deriving DecidableEq

/-- Where a call of `loc_eng_ni_reset_on_engine_restart` is. -/
inductive RestartPc where
  | entered
  | check (pSession : SessionName)
  | freeRequest (pSession : SessionName)
  | clearRequest (pSession : SessionName)
  | wake (pSession : SessionName)
  | returned
deriving DecidableEq

/-- The thread of a session keeps the request it was created for, which the code
does not. -/
inductive Proc where
  | init (callbacks : Bool) (returned : Bool)
  | handler (request : Request) (pc : HandlerPc)
  | thread (pSession : SessionName) (request : Nat) (pc : ThreadPc)
  | respond (notif_id : Int) (user_response : GpsUserResponseType) (pc : RespondPc)
  | restart (pc : RestartPc)
deriving DecidableEq

/-! ## Their atomic steps -/

/-- `loc_eng_ni_init`. No other process gets past its check of `ni_notify_cb`
before it is over, so it is one step. -/
def initStep (data : NiData) (callbacks : Bool) : NiData :=
  if callbacks && !data.niNotifyCb then
    { data with
      sessionEs :=
        { data.sessionEs with
          respTimeLeft := 0, respRecvd := false, rawRequest := none, reqID := 0 }
      session :=
        { data.session with
          respTimeLeft := 0, respRecvd := false, rawRequest := none, reqID := 0 }
      niNotifyCb := true }
  else data

/-- The handler ignores a request and frees its payload. -/
def ignoreRequest (data : NiData) (self : Nat) (request : Request) : NiData :=
  if request.passThrough then data.emit (.free self) else data

/-- One step of `loc_eng_ni_request_handler`. When `fails` is set, a thread
cannot be created. -/
def handlerStep (data : NiData) (self : Nat) (request : Request) (fails : Bool) :
    HandlerPc → Option (NiData × HandlerPc × Option Proc)
  | .entered =>
      if data.niNotifyCb then
        some (data, if request.emergencySupl then .checkSessionEs else .checkSession, none)
      else some (data, .returned, none)
  | .checkSession =>
      if data.session.rawRequest.isSome then
        some (ignoreRequest data self request, .returned, none)
      else some (data, .checkSessionEs, none)
  | .checkSessionEs =>
      if data.sessionEs.rawRequest.isSome then
        some (ignoreRequest data self request, .returned, none)
      else some (data, .saveRequest, none)
  | .saveRequest =>
      let rawRequest := if request.passThrough then some self else none
      some (data.put request.pSession { data.get request.pSession with rawRequest },
        .readCounter, none)
  | .readCounter => some (data, .writeCounter (data.reqIDCounter + 1), none)
  | .writeCounter count => some ({ data with reqIDCounter := count }, .writeReqID count, none)
  | .writeReqID count =>
      some (data.put request.pSession { data.get request.pSession with reqID := count },
        .fillNotification, none)
  | .fillNotification =>
      let notification_id := (data.get request.pSession).reqID
      some (data.emit (.notificationId self notification_id), .setTimeLeft notification_id, none)
  | .setTimeLeft notification_id =>
      let respTimeLeft :=
        5 + if request.timeout ≠ 0 then request.timeout else locNiNoResponseTime
      some (data.put request.pSession { data.get request.pSession with respTimeLeft },
        .createThread notification_id, none)
  | .createThread notification_id =>
      some (data, .notify notification_id,
        if fails then none else some (.thread request.pSession self .started))
  | .notify notification_id =>
      some (data.emit (.notifyCb self notification_id), .returned, none)
  | .returned => none

/-- How `ni_thread_proc` ends its section under the lock. -/
def finish (data : NiData) (pSession : SessionName) : NiData × ThreadPc :=
  let s := data.get pSession
  let data := data.put pSession { s with respRecvd := false, rawRequest := none }
  match s.rawRequest with
  | none => (data, .clearTimeLeft none)
  | some payload =>
      if s.resp ≠ gpsNiResponseIgnore then (data, .clearTimeLeft (some (s.resp, payload)))
      else (data.emit (.free payload), .clearTimeLeft none)

/-- One step of `ni_thread_proc`. When `fails` is set, the wait times out; a
wakeup without it may be spurious. -/
def threadStep (data : NiData) (pSession : SessionName) (request : Nat) (fails : Bool) :
    ThreadPc → Option (NiData × ThreadPc)
  | .started =>
      if (data.get pSession).respRecvd then some (finish data pSession)
      else some (data, .waiting (data.get pSession).respTimeLeft)
  | .waiting respTimeLeft =>
      if fails then
        some (finish ((data.put pSession { data.get pSession with
          resp := gpsNiResponseNoresp }).emit (.timedOut request)) pSession)
      else if (data.get pSession).respRecvd then some (finish data pSession)
      else some (data, .waiting respTimeLeft)
  | .clearTimeLeft msg =>
      some (data.put pSession { data.get pSession with respTimeLeft := 0 }, .clearReqID msg)
  | .clearReqID msg =>
      some (data.put pSession { data.get pSession with reqID := 0 }, .sendMsg msg)
  | .sendMsg none => some (data, .exited)
  | .sendMsg (some (resp, payload)) => some (data.emit (.informNiResponse resp payload), .exited)
  | .exited => none

/-- What `loc_eng_ni_respond` writes under the lock. -/
def writeResponse (data : NiData) (pSession : SessionName) (resp : GpsUserResponseType) :
    NiData :=
  data.put pSession { data.get pSession with resp, respRecvd := true }

/-- One step of `loc_eng_ni_respond`. -/
def respondStep (data : NiData) (notif_id : Int) (user_response : GpsUserResponseType) :
    RespondPc → Option (NiData × RespondPc)
  | .entered => some (data, if data.niNotifyCb then .checkReqIDEs else .returned)
  | .checkReqIDEs =>
      some (data, if notif_id = data.sessionEs.reqID then .checkRequestEs else .checkReqID)
  | .checkRequestEs =>
      if data.sessionEs.rawRequest.isSome then
        some (data,
          if user_response = gpsNiResponseAccept then .checkOther else .respond .sessionEs)
      else some (data, .checkReqID)
  | .checkOther =>
      some (data,
        if data.session.rawRequest.isSome then .ignoreOther else .respond .sessionEs)
  | .ignoreOther =>
      some (writeResponse data .session gpsNiResponseIgnore, .respond .sessionEs)
  | .checkReqID =>
      some (data, if notif_id = data.session.reqID then .checkRequest else .returned)
  | .checkRequest =>
      some (data, if data.session.rawRequest.isSome then .respond .session else .returned)
  | .respond pSession => some (writeResponse data pSession user_response, .returned)
  | .returned => none

/-- Where the reset goes on after a session. -/
def RestartPc.after : SessionName → RestartPc
  | .sessionEs => .check .session
  | .session => .returned

/-- One step of `loc_eng_ni_reset_on_engine_restart`. -/
def restartStep (data : NiData) : RestartPc → Option (NiData × RestartPc)
  | .entered => some (data, if data.niNotifyCb then .check .sessionEs else .returned)
  | .check pSession =>
      some (data,
        if (data.get pSession).rawRequest.isSome then .freeRequest pSession else .after pSession)
  | .freeRequest pSession =>
      match (data.get pSession).rawRequest with
      | none => some (data, .clearRequest pSession)
      | some payload => some (data.emit (.free payload), .clearRequest pSession)
  | .clearRequest pSession =>
      some (data.put pSession { data.get pSession with rawRequest := none }, .wake pSession)
  | .wake pSession =>
      some (data.put pSession { data.get pSession with respRecvd := true }, .after pSession)
  | .returned => none

/-! ## The module -/

/-- A call into the module. -/
inductive Call where
  | init (callbacks : Bool)
  | request (request : Request)
  | respond (notif_id : Int) (user_response : GpsUserResponseType)
  | restart

def call (data : NiData) : Call → NiData × Proc
  | .init callbacks => (data, .init callbacks false)
  | .request request => (data, .handler request .entered)
  | .respond notif_id user_response =>
      (data.emit (.respond notif_id user_response), .respond notif_id user_response .entered)
  | .restart => (data, .restart .entered)

def advance (data : NiData) (self : Nat) (proc : Proc) (fails : Bool) :
    Option (NiData × Proc × Option Proc) :=
  match proc with
  | .init callbacks false => some (initStep data callbacks, .init callbacks true, none)
  | .init _ true => none
  | .handler request pc =>
      (handlerStep data self request fails pc).map fun (data, pc, started) =>
        (data, .handler request pc, started)
  | .thread pSession request pc =>
      (threadStep data pSession request fails pc).map fun (data, pc) =>
        (data, .thread pSession request pc, none)
  | .respond notif_id user_response pc =>
      (respondStep data notif_id user_response pc).map fun (data, pc) =>
        (data, .respond notif_id user_response pc, none)
  | .restart pc =>
      (restartStep data pc).map fun (data, pc) => (data, .restart pc, none)

/-- The steps of `advance`, by the kind of the process. -/
inductive Advances (data : NiData) (self : Nat) (fails : Bool) :
    NiData → Proc → Proc → Option Proc → Prop where
  | init (callbacks : Bool) :
      Advances data self fails (initStep data callbacks) (.init callbacks false)
        (.init callbacks true) none
  | handler {next : NiData} {request : Request} {pc after : HandlerPc} {started : Option Proc}
      (hhandler : handlerStep data self request fails pc = some (next, after, started)) :
      Advances data self fails next (.handler request pc) (.handler request after) started
  | thread {next : NiData} {pSession : SessionName} {request : Nat} {pc after : ThreadPc}
      (hthread : threadStep data pSession request fails pc = some (next, after)) :
      Advances data self fails next (.thread pSession request pc)
        (.thread pSession request after) none
  | respond {next : NiData} {notif_id : Int} {user_response : GpsUserResponseType}
      {pc after : RespondPc}
      (hrespond : respondStep data notif_id user_response pc = some (next, after)) :
      Advances data self fails next (.respond notif_id user_response pc)
        (.respond notif_id user_response after) none
  | restart {next : NiData} {pc after : RestartPc}
      (hrestart : restartStep data pc = some (next, after)) :
      Advances data self fails next (.restart pc) (.restart after) none

theorem advance_cases {data next : NiData} {self : Nat} {proc after : Proc} {fails : Bool}
    {started : Option Proc} (hstep : advance data self proc fails = some (next, after, started)) :
    Advances data self fails next proc after started := by
  cases proc with
  | init callbacks returned =>
      cases returned with
      | false =>
          cases hstep
          exact .init callbacks
      | true => cases hstep
  | handler request pc =>
      obtain ⟨⟨data, pc', child⟩, hhandler, heq⟩ := Option.map_eq_some_iff.mp hstep
      cases heq
      exact .handler hhandler
  | thread pSession request pc =>
      obtain ⟨⟨data, pc'⟩, hthread, heq⟩ := Option.map_eq_some_iff.mp hstep
      cases heq
      exact .thread hthread
  | respond notif_id user_response pc =>
      obtain ⟨⟨data, pc'⟩, hrespond, heq⟩ := Option.map_eq_some_iff.mp hstep
      cases heq
      exact .respond hrespond
  | restart pc =>
      obtain ⟨⟨data, pc'⟩, hrestart, heq⟩ := Option.map_eq_some_iff.mp hstep
      cases heq
      exact .restart hrestart

/-- Only a handler starts a process, the thread of its session. -/
theorem advance_started {data next : NiData} {self : Nat} {proc after child : Proc}
    {fails : Bool} (hstep : advance data self proc fails = some (next, after, some child)) :
    ∃ pSession, child = .thread pSession self .started := by
  cases advance_cases hstep with
  | @handler _ request pc after _ hhandler =>
      cases pc with
      | createThread notification_id =>
          cases fails with
          | true => cases hhandler
          | false =>
              cases hhandler
              exact ⟨request.pSession, rfl⟩
      | entered | checkSession | checkSessionEs =>
          change (if _ then some _ else some _) = some (_, _, some child) at hhandler
          split at hhandler <;> cases hhandler
      | _ => cases hhandler

def program : Program NiData Proc Call := ⟨call, advance⟩

abbrev NiModule := Pool NiData Proc

abbrev step : NiModule → Move Call → Option NiModule := Pool.step program

def zeroSession : NiSession where
  respTimeLeft := 0
  respRecvd := false
  rawRequest := none
  reqID := 0
  resp := 0

/-- The module when the library is loaded. -/
def loaded : NiModule where
  shared :=
    { session := zeroSession
      sessionEs := zeroSession
      reqIDCounter := 0
      niNotifyCb := false
      log := [] }
  procs := []

end Msm8916.Ni
