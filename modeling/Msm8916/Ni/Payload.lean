import Msm8916.Lib.Custody
import Msm8916.Ni.Session
import Mathlib.Data.List.Count

/-!
What becomes of the payload of a request. The session records are cells, and a step
of the module moves at most one payload.
-/

namespace Msm8916.Ni

open Transition Custody

/-! ## Where the payloads are -/

/-- The payload is freed or its message is sent. -/
def Effect.disposes (payload : Nat) : Effect → Bool
  | .free p | .informNiResponse _ p => p = payload
  | .respond .. | .timedOut _ | .notificationId .. | .notifyCb .. => false

/-- The payload of the message that the process has made and not sent. -/
def Proc.message : Proc → Option Nat
  | .thread _ _ (.clearTimeLeft msg) | .thread _ _ (.clearReqID msg)
  | .thread _ _ (.sendMsg msg) => msg.map Prod.snd
  | _ => none

/-- The message owns the payload. -/
def Proc.owns (payload : Nat) (proc : Proc) : Bool := proc.message = some payload

/-- A call of the handler with a payload. -/
def Proc.carries : Proc → Bool
  | .handler request _ => request.passThrough
  | _ => false

/-- The handler has not decided on the request. -/
def HandlerPc.waits : HandlerPc → Bool
  | .entered | .checkSession | .checkSessionEs | .saveRequest => true
  | _ => false

def Proc.waits : Proc → Bool
  | .handler request pc => request.passThrough && pc.waits
  | _ => false

/-- How often a payload was freed or given to a message. -/
def disposals (ni : NiModule) (payload : Nat) : Nat :=
  ni.shared.log.countP (Effect.disposes payload) + ni.procs.countP (Proc.owns payload)

/-- The process `pid`, if it is one, is as `f` says. -/
def At (ni : NiModule) (f : Proc → Bool) (pid : Nat) : Bool := ni.procs[pid]?.any f

def store (ni : NiModule) : Store Nat SessionName where
  known := { pid | At ni Proc.carries pid = true }
  waiting := { pid | At ni Proc.waits pid = true }
  cell name := (ni.shared.get name).rawRequest
  disposals := disposals ni

/-! ## What a step does to them -/

/-- The thread ends its wait in this step. -/
def ThreadPc.takes (data : NiData) (pSession : SessionName) (fails : Bool) : ThreadPc → Bool
  | .started => (data.get pSession).respRecvd
  | .waiting _ => fails || (data.get pSession).respRecvd
  | _ => false

def handlerMove (data : NiData) (pid : Nat) (request : Request) :
    HandlerPc → Custody.Move Nat SessionName
  | .entered => if data.niNotifyCb || !request.passThrough then .idle else .discard pid false
  | .checkSession =>
      if data.session.rawRequest.isSome && request.passThrough then .discard pid true else .idle
  | .checkSessionEs =>
      if data.sessionEs.rawRequest.isSome && request.passThrough then .discard pid true else .idle
  | .saveRequest =>
      if request.passThrough then .put pid request.pSession else .empty request.pSession
  | _ => .idle

def procMove (data : NiData) (pid : Nat) (fails : Bool) : Proc → Custody.Move Nat SessionName
  | .handler request pc => handlerMove data pid request pc
  | .thread pSession _ pc => if pc.takes data pSession fails then .take pSession else .idle
  | .restart (.freeRequest pSession) => .dispose pSession
  | .restart (.clearRequest pSession) => .empty pSession
  | _ => .idle

def custodyMove (ni : NiModule) : Transition.Move Call → Custody.Move Nat SessionName
  | .call (.request request) => if request.passThrough then .receive ni.procs.length else .idle
  | .call _ => .idle
  | .run pid fails =>
      match ni.procs[pid]? with
      | some proc => procMove ni.shared pid fails proc
      | none => .idle

/-! ## The store after a step -/

@[simp]
theorem known_store (ni : NiModule) (pid : Nat) :
    pid ∈ (store ni).known ↔ At ni Proc.carries pid = true := Iff.rfl

@[simp]
theorem waiting_store (ni : NiModule) (pid : Nat) :
    pid ∈ (store ni).waiting ↔ At ni Proc.waits pid = true := Iff.rfl

section Run

variable {ni : NiModule} {pid : Nat} {proc : Proc} {started : Option Proc}

/-- The thread that is started is no handler and has no message. -/
def Fresh (started : Option Proc) : Prop :=
  ∀ child, started = some child →
    child.carries = false ∧ child.waits = false ∧ child.message = none

theorem at_run (hproc : ni.procs[pid]? = some proc) {next : NiData} {after : Proc} {f : Proc → Bool}
    (hstarted : ∀ child, started = some child → f child = false) (p : Nat) :
    At ⟨next, ni.procs.set pid after ++ started.toList⟩ f p =
      if p = pid then f after else At ni f p := by
  have hlt : pid < ni.procs.length := (List.getElem?_eq_some_iff.mp hproc).1
  unfold At
  dsimp only
  by_cases hp : p < ni.procs.length
  · rw [List.getElem?_append_left (by rwa [List.length_set])]
    split
    · rename_i heq
      subst heq
      rw [List.getElem?_set_self hlt, Option.any_some]
    · rename_i hne
      rw [List.getElem?_set_ne fun heq => hne heq.symm]
  · have hne : p ≠ pid := by omega
    have hnone : ni.procs[p]? = none := List.getElem?_eq_none (by omega)
    rw [if_neg hne, hnone, Option.any_none,
      List.getElem?_append_right (by rw [List.length_set]; omega)]
    cases started with
    | none => rfl
    | some child =>
        have hchild := hstarted child rfl
        rw [Option.toList_some, List.getElem?_singleton]
        split
        · exact hchild
        · rfl

/-- What a step adds to a count over the log and the processes. -/
theorem tally_run (hproc : ni.procs[pid]? = some proc) (next : NiData) (after : Proc)
    (f : Effect → Bool) {g : Proc → Bool}
    (hstarted : ∀ child, started = some child → g child = false) :
    next.log.countP f + (ni.procs.set pid after ++ started.toList).countP g + (g proc).toNat +
        ni.shared.log.countP f =
      ni.shared.log.countP f + ni.procs.countP g + (g after).toNat + next.log.countP f := by
  obtain ⟨hlt, hget⟩ := List.getElem?_eq_some_iff.mp hproc
  have hchild : started.toList.countP g = 0 := by
    cases started with
    | none => rfl
    | some child => simp [hstarted child rfl]
  have hcount : (ni.procs.set pid after).countP g + (g proc).toNat =
      ni.procs.countP g + (g after).toNat := by
    have hpos : g proc = true → 0 < ni.procs.countP g := fun howns =>
      List.countP_pos_iff.mpr ⟨proc, List.mem_of_getElem? hproc, howns⟩
    rw [List.countP_set hlt, hget]
    cases hbefore : g proc <;> cases hafter : g after <;> simp
    · have := hpos hbefore
      omega
    · have := hpos hbefore
      omega
  rw [List.countP_append, hchild]
  omega

/-- A step moves what `cell` and `content` say, and the process leaves the waiting ones
or not. -/
theorem store_run (hproc : ni.procs[pid]? = some proc) {next : NiData} (after : Proc)
    (hstarted : Fresh started) (hcarries : after.carries = proc.carries) (leaves : Bool)
    (hwaits : after.waits = (proc.waits && !leaves)) {cell : SessionName → Option Nat}
    (hcell : ∀ name, (next.get name).rawRequest = cell name) (content : Option Nat)
    (hcount : ∀ p, next.log.countP (Effect.disposes p) + (after.owns p).toNat =
      ni.shared.log.countP (Effect.disposes p) + (proc.owns p).toNat +
        if content = some p then 1 else 0) :
    store ⟨next, ni.procs.set pid after ++ started.toList⟩ =
      { known := (store ni).known
        waiting := if leaves then (store ni).waiting \ {pid} else (store ni).waiting
        cell := cell
        disposals := fun p => disposals ni p + if content = some p then 1 else 0 } := by
  have hat : ∀ f : Proc → Bool, At ni f pid = f proc := fun f => by
    rw [At, hproc, Option.any_some]
  apply Store.ext
  · ext p
    rw [known_store, at_run hproc fun child h => (hstarted child h).1]
    split
    · rename_i heq
      rw [heq, hcarries]
      exact iff_of_eq (congrArg (· = true) (hat _).symm)
    · rfl
  · ext p
    rw [waiting_store, at_run hproc fun child h => (hstarted child h).2.1]
    split
    · rename_i heq
      rw [hwaits, heq]
      cases leaves <;> simp [hat]
    · rename_i hne
      cases leaves <;> simp [hne]
  · funext name
    exact hcell name
  · funext p
    have hchild : ∀ child, started = some child → child.owns p = false := fun child h => by
      simp [Proc.owns, (hstarted child h).2.2]
    have hrun := tally_run hproc next after (Effect.disposes p) hchild
    have hp := hcount p
    change disposals _ p = disposals ni p + if content = some p then 1 else 0
    unfold disposals
    dsimp only
    omega

end Run

/-! ## The steps of each process -/

theorem raw_put (data : NiData) (pSession : SessionName) (s : NiSession) (name : SessionName) :
    ((data.put pSession s).get name).rawRequest =
      Function.update (fun name => (data.get name).rawRequest) pSession s.rawRequest name := by
  by_cases h : name = pSession
  · subst h
    rw [NiData.get_put_self, Function.update_self]
  · rw [NiData.get_put_of_ne _ _ h, Function.update_of_ne h]

/-- A write to the other fields of a session. -/
theorem raw_put_same (data : NiData) (pSession : SessionName) {s : NiSession}
    (hraw : s.rawRequest = (data.get pSession).rawRequest) (name : SessionName) :
    ((data.put pSession s).get name).rawRequest = (data.get name).rawRequest := by
  rw [raw_put, hraw]
  exact congrFun (Function.update_eq_self pSession fun name => (data.get name).rawRequest) name

section Steps

variable {ni : NiModule} {pid : Nat} {next : NiData}

/-- A step of a process that concerns no payload. -/
theorem store_run_idle {proc after : Proc} {started : Option Proc}
    (hproc : ni.procs[pid]? = some proc) (hstarted : Fresh started)
    (hcarries : after.carries = proc.carries) (hwaits : after.waits = proc.waits)
    (hmessage : after.message = proc.message)
    (hraw : ∀ name, (next.get name).rawRequest = (ni.shared.get name).rawRequest)
    (hlog : ∀ p, next.log.countP (Effect.disposes p) = ni.shared.log.countP (Effect.disposes p)) :
    store ⟨next, ni.procs.set pid after ++ started.toList⟩ = store ni := by
  rw [store_run hproc after hstarted hcarries false (by rw [hwaits]; simp) hraw none
    fun p => by simp [hlog, Proc.owns, hmessage]]
  simp [store]

theorem fresh_none : Fresh none := fun _ h => by cases h

/-- The handler gives a waiting payload up, with or without freeing it. -/
theorem store_run_discard {request : Request} {pc : HandlerPc} (disposed : Bool)
    (hproc : ni.procs[pid]? = some (.handler request pc)) (hcarries : request.passThrough = true)
    (hwaits : pc.waits = true)
    (hraw : ∀ name, (next.get name).rawRequest = (ni.shared.get name).rawRequest)
    (hlog : next.log = ni.shared.log ++ if disposed then [.free pid] else []) :
    store ⟨next, ni.procs.set pid (.handler request .returned) ++ (none : Option Proc).toList⟩ =
        (store ni).apply (.discard pid disposed) ∧
      (store ni).Enabled (.discard pid disposed) := by
  constructor
  · rw [store_run hproc (.handler request .returned) fresh_none rfl true
      (by simp [Proc.waits, HandlerPc.waits]) hraw
      (if disposed then some pid else none) fun p => ?_]
    · rfl
    · rw [hlog, List.countP_append]
      cases disposed
      · simp [Proc.owns, Proc.message]
      · by_cases heq : pid = p
        · simp [Proc.owns, Proc.message, Effect.disposes, heq]
        · simp [Proc.owns, Proc.message, Effect.disposes, heq]
  · change At ni Proc.waits pid = true
    rw [At, hproc, Option.any_some, Proc.waits, hcarries, hwaits]
    rfl

theorem ignoreRequest_store {request : Request} {pc : HandlerPc}
    (hproc : ni.procs[pid]? = some (.handler request pc)) (hwaits : pc.waits = true) :
    store ⟨ignoreRequest ni.shared pid request,
          ni.procs.set pid (.handler request .returned) ++ (none : Option Proc).toList⟩ =
        (store ni).apply (if request.passThrough then .discard pid true else .idle) ∧
      (store ni).Enabled (if request.passThrough then .discard pid true else .idle) := by
  unfold ignoreRequest
  split
  · rename_i hpass
    exact store_run_discard true hproc hpass hwaits (fun _ => by rw [NiData.get_emit]) rfl
  · rename_i hpass
    refine ⟨store_run_idle hproc fresh_none rfl ?_ rfl (fun _ => rfl) fun _ => rfl, trivial⟩
    simp [Proc.waits, hpass]

theorem handler_store {request : Request} {fails : Bool} {pc after : HandlerPc}
    {started : Option Proc} (hproc : ni.procs[pid]? = some (.handler request pc))
    (hstep : handlerStep ni.shared pid request fails pc = some (next, after, started)) :
    store ⟨next, ni.procs.set pid (.handler request after) ++ started.toList⟩ =
        (store ni).apply (handlerMove ni.shared pid request pc) ∧
      (store ni).Enabled (handlerMove ni.shared pid request pc) := by
  cases pc with
  | entered =>
      simp only [handlerStep] at hstep
      split at hstep <;> cases hstep
      · rename_i hcb
        have hwaits : HandlerPc.waits (if request.emergencySupl then .checkSessionEs
            else .checkSession) = true := by
          split <;> rfl
        rw [handlerMove, hcb, Bool.true_or, if_pos rfl]
        refine ⟨store_run_idle hproc fresh_none rfl ?_ rfl (fun _ => rfl) fun _ => rfl, trivial⟩
        rw [Proc.waits, hwaits]
        rfl
      · rename_i hcb
        rw [Bool.not_eq_true] at hcb
        rw [handlerMove, hcb, Bool.false_or]
        cases hpass : request.passThrough with
        | true => exact store_run_discard false hproc hpass rfl (fun _ => rfl) (by simp)
        | false =>
            refine ⟨store_run_idle hproc fresh_none rfl ?_ rfl (fun _ => rfl) fun _ => rfl, trivial⟩
            simp [Proc.waits, hpass]
  | checkSession | checkSessionEs =>
      simp only [handlerStep] at hstep
      split at hstep <;> cases hstep
      · rename_i hraw
        simp only [handlerMove, hraw, Bool.true_and]
        exact ignoreRequest_store hproc rfl
      · rename_i hraw
        simp only [handlerMove, hraw, Bool.false_and]
        exact ⟨store_run_idle hproc fresh_none rfl rfl rfl (fun _ => rfl) fun _ => rfl, trivial⟩
  | saveRequest =>
      cases hstep
      have hcount : ∀ p, ((ni.shared.put request.pSession
          { ni.shared.get request.pSession with
            rawRequest := if request.passThrough then some pid else none }).log.countP
              (Effect.disposes p)) + ((Proc.handler request .readCounter).owns p).toNat =
          ni.shared.log.countP (Effect.disposes p) +
            ((Proc.handler request .saveRequest).owns p).toNat +
              if (none : Option Nat) = some p then 1 else 0 := by
        intro p
        rw [NiData.log_put]
        rfl
      rw [store_run hproc (.handler request .readCounter) fresh_none rfl request.passThrough
        (by simp [Proc.waits, HandlerPc.waits]) (raw_put _ _ _) none hcount, handlerMove]
      cases hpass : request.passThrough with
      | true =>
          refine ⟨rfl, ?_⟩
          change At ni Proc.waits pid = true
          rw [At, hproc, Option.any_some, Proc.waits, hpass]
          rfl
      | false => exact ⟨rfl, trivial⟩
  | readCounter =>
      cases hstep
      exact ⟨store_run_idle hproc fresh_none rfl rfl rfl (fun _ => rfl) fun _ => rfl, trivial⟩
  | writeCounter count =>
      cases hstep
      exact ⟨store_run_idle hproc fresh_none rfl rfl rfl
        (fun name => by cases name <;> rfl) fun _ => rfl, trivial⟩
  | writeReqID count =>
      cases hstep
      exact ⟨store_run_idle hproc fresh_none rfl rfl rfl (raw_put_same _ _ rfl)
        fun _ => by rw [NiData.log_put], trivial⟩
  | fillNotification =>
      cases hstep
      refine ⟨store_run_idle hproc fresh_none rfl rfl rfl (fun _ => by rw [NiData.get_emit])
        fun _ => ?_, trivial⟩
      simp [Effect.disposes]
  | setTimeLeft notification_id =>
      cases hstep
      exact ⟨store_run_idle hproc fresh_none rfl rfl rfl (raw_put_same _ _ rfl)
        fun _ => by rw [NiData.log_put], trivial⟩
  | createThread notification_id =>
      cases hstep
      refine ⟨store_run_idle hproc ?_ rfl rfl rfl (fun _ => rfl) fun _ => rfl, trivial⟩
      intro child hchild
      split at hchild
      · cases hchild
      · cases hchild
        exact ⟨rfl, rfl, rfl⟩
  | notify notification_id =>
      cases hstep
      refine ⟨store_run_idle hproc fresh_none rfl rfl rfl (fun _ => by rw [NiData.get_emit])
        fun _ => ?_, trivial⟩
      simp [Effect.disposes]
  | returned => cases hstep

/-- The end of a wait takes what the session holds, whatever else was written before in
the same section. -/
theorem finish_store {pSession : SessionName} {request : Nat} {pc : ThreadPc} {before : NiData}
    (hproc : ni.procs[pid]? = some (.thread pSession request pc))
    (hmessage : (Proc.thread pSession request pc).message = none)
    (hraw : ∀ name, (before.get name).rawRequest = (ni.shared.get name).rawRequest)
    (hlog : ∀ p, before.log.countP (Effect.disposes p) =
      ni.shared.log.countP (Effect.disposes p)) :
    store ⟨(finish before pSession).1,
        ni.procs.set pid (.thread pSession request (finish before pSession).2) ++
          (none : Option Proc).toList⟩ =
      (store ni).apply (.take pSession) := by
  have hcell : ∀ name, (((finish before pSession).1).get name).rawRequest =
      Function.update (fun name => (ni.shared.get name).rawRequest) pSession none name := by
    intro name
    rw [← funext hraw]
    unfold finish
    dsimp only
    split
    · exact raw_put _ _ _ _
    · split
      · exact raw_put _ _ _ _
      · rw [NiData.get_emit]
        exact raw_put _ _ _ _
  have hcount : ∀ p, ((finish before pSession).1).log.countP (Effect.disposes p) +
      ((Proc.thread pSession request (finish before pSession).2).owns p).toNat =
        ni.shared.log.countP (Effect.disposes p) +
          ((Proc.thread pSession request pc).owns p).toNat +
            if (ni.shared.get pSession).rawRequest = some p then 1 else 0 := by
    intro p
    rw [← hlog p, ← hraw pSession, Proc.owns, Proc.owns, hmessage]
    cases hpayload : (before.get pSession).rawRequest with
    | none => simp [finish, hpayload, Proc.message]
    | some payload =>
        by_cases hresp : (before.get pSession).resp = gpsNiResponseIgnore
        · by_cases heq : payload = p
          · simp [finish, hpayload, hresp, Proc.message, Effect.disposes, heq]
          · simp [finish, hpayload, hresp, Proc.message, Effect.disposes, heq]
        · by_cases heq : payload = p
          · simp [finish, hpayload, hresp, Proc.message, heq]
          · simp [finish, hpayload, hresp, Proc.message, heq]
  rw [store_run hproc (.thread pSession request (finish before pSession).2) fresh_none rfl false
    rfl hcell _ hcount]
  rfl

theorem thread_store {pSession : SessionName} {request : Nat} {fails : Bool}
    {pc after : ThreadPc} (hproc : ni.procs[pid]? = some (.thread pSession request pc))
    (hstep : threadStep ni.shared pSession request fails pc = some (next, after)) :
    store ⟨next, ni.procs.set pid (.thread pSession request after) ++
        (none : Option Proc).toList⟩ =
      (store ni).apply (if pc.takes ni.shared pSession fails then .take pSession else .idle) := by
  cases pc with
  | started =>
      simp only [threadStep] at hstep
      split at hstep
      · rename_i hrecvd
        obtain ⟨rfl, rfl⟩ := Prod.mk.inj (Option.some.inj hstep)
        rw [ThreadPc.takes, hrecvd, if_pos rfl]
        exact finish_store hproc rfl (fun _ => rfl) fun _ => rfl
      · rename_i hrecvd
        obtain ⟨rfl, rfl⟩ := Prod.mk.inj (Option.some.inj hstep)
        rw [ThreadPc.takes, if_neg hrecvd]
        exact store_run_idle hproc fresh_none rfl rfl rfl (fun _ => rfl) fun _ => rfl
  | waiting respTimeLeft =>
      simp only [threadStep] at hstep
      split at hstep
      · rename_i hfails
        obtain ⟨rfl, rfl⟩ := Prod.mk.inj (Option.some.inj hstep)
        rw [ThreadPc.takes, hfails, Bool.true_or, if_pos rfl]
        refine finish_store hproc rfl (fun name => ?_) fun p => ?_
        · rw [NiData.get_emit]
          apply raw_put_same
          rfl
        · simp [Effect.disposes]
      · rename_i hfails
        rw [Bool.not_eq_true] at hfails
        rw [ThreadPc.takes, hfails, Bool.false_or]
        split at hstep
        · rename_i hrecvd
          obtain ⟨rfl, rfl⟩ := Prod.mk.inj (Option.some.inj hstep)
          rw [hrecvd, if_pos rfl]
          exact finish_store hproc rfl (fun _ => rfl) fun _ => rfl
        · rename_i hrecvd
          obtain ⟨rfl, rfl⟩ := Prod.mk.inj (Option.some.inj hstep)
          rw [if_neg hrecvd]
          exact store_run_idle hproc fresh_none rfl rfl rfl (fun _ => rfl) fun _ => rfl
  | clearTimeLeft msg | clearReqID msg =>
      obtain ⟨rfl, rfl⟩ := Prod.mk.inj (Option.some.inj hstep)
      exact store_run_idle hproc fresh_none rfl rfl rfl (raw_put_same _ _ rfl) fun _ => by
        rw [NiData.log_put]
  | sendMsg msg =>
      cases msg with
      | none =>
          obtain ⟨rfl, rfl⟩ := Prod.mk.inj (Option.some.inj hstep)
          exact store_run_idle hproc fresh_none rfl rfl rfl (fun _ => rfl) fun _ => rfl
      | some msg =>
          -- the payload goes from the thread's message to the sent ones
          obtain ⟨resp, payload⟩ := msg
          obtain ⟨rfl, rfl⟩ := Prod.mk.inj (Option.some.inj hstep)
          rw [store_run hproc (.thread pSession request .exited) fresh_none rfl false rfl
            (fun _ => by rw [NiData.get_emit]) none fun p => ?_]
          · simp [store, Store.apply, ThreadPc.takes]
          · by_cases heq : payload = p
            · simp [Proc.owns, Proc.message, Effect.disposes, heq]
            · simp [Proc.owns, Proc.message, Effect.disposes, heq]
  | exited => cases hstep

theorem respond_store {notif_id : Int} {user_response : GpsUserResponseType}
    {pc after : RespondPc} (hproc : ni.procs[pid]? = some (.respond notif_id user_response pc))
    (hstep : respondStep ni.shared notif_id user_response pc = some (next, after)) :
    store ⟨next, ni.procs.set pid (.respond notif_id user_response after) ++
      (none : Option Proc).toList⟩ = store ni := by
  have hnext : (∀ name, (next.get name).rawRequest = (ni.shared.get name).rawRequest) ∧
      next.log = ni.shared.log := by
    cases pc with
    | ignoreOther | respond pSession =>
        obtain ⟨rfl, rfl⟩ := Prod.mk.inj (Option.some.inj hstep)
        exact ⟨raw_put_same _ _ rfl, NiData.log_put _ _ _⟩
    | entered | checkReqIDEs | checkOther | checkReqID | checkRequest =>
        obtain ⟨rfl, rfl⟩ := Prod.mk.inj (Option.some.inj hstep)
        exact ⟨fun _ => rfl, rfl⟩
    | checkRequestEs =>
        simp only [respondStep] at hstep
        split at hstep
        · obtain ⟨rfl, rfl⟩ := Prod.mk.inj (Option.some.inj hstep)
          exact ⟨fun _ => rfl, rfl⟩
        · obtain ⟨rfl, rfl⟩ := Prod.mk.inj (Option.some.inj hstep)
          exact ⟨fun _ => rfl, rfl⟩
    | returned => cases hstep
  exact store_run_idle hproc fresh_none rfl rfl rfl hnext.1 fun _ => by rw [hnext.2]

theorem restart_store {fails : Bool} {pc after : RestartPc}
    (hproc : ni.procs[pid]? = some (.restart pc))
    (hstep : restartStep ni.shared pc = some (next, after)) :
    store ⟨next, ni.procs.set pid (.restart after) ++ (none : Option Proc).toList⟩ =
        (store ni).apply (procMove ni.shared pid fails (.restart pc)) ∧
      (store ni).Enabled (procMove ni.shared pid fails (.restart pc)) := by
  cases pc with
  | entered | check pSession =>
      obtain ⟨rfl, rfl⟩ := Prod.mk.inj (Option.some.inj hstep)
      exact ⟨store_run_idle hproc fresh_none rfl rfl rfl (fun _ => rfl) fun _ => rfl, trivial⟩
  | freeRequest pSession =>
      refine ⟨?_, trivial⟩
      simp only [restartStep] at hstep
      split at hstep
      · rename_i hnone
        obtain ⟨rfl, rfl⟩ := Prod.mk.inj (Option.some.inj hstep)
        rw [store_run hproc (.restart (.clearRequest pSession)) fresh_none rfl false rfl
          (fun _ => rfl) none fun _ => rfl]
        simp [procMove, Store.apply, Store.disposeOf, store, hnone]
      · rename_i payload hsome
        obtain ⟨rfl, rfl⟩ := Prod.mk.inj (Option.some.inj hstep)
        rw [store_run hproc (.restart (.clearRequest pSession)) fresh_none rfl false rfl
          (fun _ => by rw [NiData.get_emit]) (ni.shared.get pSession).rawRequest fun p => ?_]
        · rfl
        · rw [hsome]
          by_cases heq : payload = p
          · simp [Proc.owns, Proc.message, Effect.disposes, heq]
          · simp [Proc.owns, Proc.message, Effect.disposes, heq]
  | clearRequest pSession =>
      obtain ⟨rfl, rfl⟩ := Prod.mk.inj (Option.some.inj hstep)
      refine ⟨?_, trivial⟩
      rw [store_run hproc (.restart (.wake pSession)) fresh_none rfl false rfl
        (raw_put _ _ _) none fun p => ?_]
      · rfl
      · rw [NiData.log_put]
        rfl
  | wake pSession =>
      obtain ⟨rfl, rfl⟩ := Prod.mk.inj (Option.some.inj hstep)
      exact ⟨store_run_idle hproc fresh_none rfl rfl rfl (raw_put_same _ _ rfl) fun _ => by
        rw [NiData.log_put], trivial⟩
  | returned => cases hstep

end Steps

/-! ## The callback -/

/-- The handler has passed its check of `ni_notify_cb`. -/
def Proc.admitted : Proc → Bool
  | .handler _ .entered | .handler _ .returned => false
  | .handler .. => true
  | _ => false

/-- Without the callback no request has been saved, and none is about to be. -/
structure Ready (ni : NiModule) : Prop where
  admitted : ni.Each fun data _ proc => proc.admitted = true → data.niNotifyCb = true
  saved : ∀ name payload, (ni.shared.get name).rawRequest = some payload →
    ni.shared.niNotifyCb = true

@[simp]
theorem niNotifyCb_put (data : NiData) (name : SessionName) (pSession : NiSession) :
    (data.put name pSession).niNotifyCb = data.niNotifyCb := by
  cases name <;> rfl

@[simp]
theorem niNotifyCb_emit (data : NiData) (effect : Effect) :
    (data.emit effect).niNotifyCb = data.niNotifyCb := rfl

/-- What a step of a process does about the callback. -/
structure KeepsCallback (data next : NiData) (proc after : Proc) (started : Option Proc) :
    Prop where
  callback : data.niNotifyCb = true → next.niNotifyCb = true
  admitted : after.admitted = true → proc.admitted = true ∨ data.niNotifyCb = true
  started : ∀ child, started = some child → child.admitted = false

theorem handlerStep_callback {data next : NiData} {pid : Nat} {request : Request}
    {fails : Bool} {pc after : HandlerPc} {started : Option Proc}
    (hstep : handlerStep data pid request fails pc = some (next, after, started)) :
    KeepsCallback data next (.handler request pc) (.handler request after) started := by
  cases pc with
  | entered =>
      simp only [handlerStep] at hstep
      split at hstep <;> cases hstep
      · rename_i hcb
        exact ⟨id, fun _ => .inr hcb, nofun⟩
      · exact ⟨id, fun h => .inl h, nofun⟩
  | checkSession | checkSessionEs =>
      simp only [handlerStep, ignoreRequest] at hstep
      split at hstep <;> cases hstep
      · refine ⟨fun h => ?_, fun _ => .inl rfl, nofun⟩
        split
        · exact h
        · exact h
      · exact ⟨id, fun _ => .inl rfl, nofun⟩
  | createThread notification_id =>
      cases hstep
      refine ⟨id, fun _ => .inl rfl, fun child hchild => ?_⟩
      split at hchild
      · cases hchild
      · cases hchild
        rfl
  | saveRequest | writeReqID count | setTimeLeft notification_id =>
      cases hstep
      exact ⟨fun h => (niNotifyCb_put _ _ _).trans h, fun _ => .inl rfl, nofun⟩
  | readCounter | writeCounter count | fillNotification | notify notification_id =>
      cases hstep
      exact ⟨id, fun _ => .inl rfl, nofun⟩
  | returned => cases hstep

theorem finish_callback (data : NiData) (pSession : SessionName) :
    (finish data pSession).1.niNotifyCb = data.niNotifyCb := by
  unfold finish
  dsimp only
  split
  · exact niNotifyCb_put _ _ _
  · split
    · exact niNotifyCb_put _ _ _
    · exact niNotifyCb_put _ _ _

theorem threadStep_callback {data next : NiData} {pSession : SessionName} {request : Nat}
    {fails : Bool} {pc after : ThreadPc}
    (hstep : threadStep data pSession request fails pc = some (next, after)) :
    next.niNotifyCb = data.niNotifyCb := by
  cases pc with
  | started =>
      simp only [threadStep] at hstep
      split at hstep
      · obtain ⟨rfl, -⟩ := Prod.mk.inj (Option.some.inj hstep)
        exact finish_callback _ _
      · obtain ⟨rfl, -⟩ := Prod.mk.inj (Option.some.inj hstep)
        rfl
  | waiting respTimeLeft =>
      simp only [threadStep] at hstep
      split at hstep
      · obtain ⟨rfl, -⟩ := Prod.mk.inj (Option.some.inj hstep)
        exact (finish_callback _ _).trans (niNotifyCb_put _ _ _)
      · split at hstep
        · obtain ⟨rfl, -⟩ := Prod.mk.inj (Option.some.inj hstep)
          exact finish_callback _ _
        · obtain ⟨rfl, -⟩ := Prod.mk.inj (Option.some.inj hstep)
          rfl
  | clearTimeLeft msg | clearReqID msg =>
      obtain ⟨rfl, -⟩ := Prod.mk.inj (Option.some.inj hstep)
      exact niNotifyCb_put _ _ _
  | sendMsg msg =>
      cases msg with
      | none | some msg =>
          obtain ⟨rfl, -⟩ := Prod.mk.inj (Option.some.inj hstep)
          rfl
  | exited => cases hstep

theorem respondStep_callback {data next : NiData} {notif_id : Int}
    {user_response : GpsUserResponseType} {pc after : RespondPc}
    (hstep : respondStep data notif_id user_response pc = some (next, after)) :
    next.niNotifyCb = data.niNotifyCb := by
  cases pc with
  | ignoreOther | respond pSession =>
      obtain ⟨rfl, -⟩ := Prod.mk.inj (Option.some.inj hstep)
      exact niNotifyCb_put _ _ _
  | checkRequestEs =>
      simp only [respondStep] at hstep
      split at hstep
      · obtain ⟨rfl, -⟩ := Prod.mk.inj (Option.some.inj hstep)
        rfl
      · obtain ⟨rfl, -⟩ := Prod.mk.inj (Option.some.inj hstep)
        rfl
  | entered | checkReqIDEs | checkOther | checkReqID | checkRequest =>
      obtain ⟨rfl, -⟩ := Prod.mk.inj (Option.some.inj hstep)
      rfl
  | returned => cases hstep

theorem restartStep_callback {data next : NiData} {pc after : RestartPc}
    (hstep : restartStep data pc = some (next, after)) : next.niNotifyCb = data.niNotifyCb := by
  cases pc with
  | entered | check pSession =>
      obtain ⟨rfl, -⟩ := Prod.mk.inj (Option.some.inj hstep)
      rfl
  | freeRequest pSession =>
      simp only [restartStep] at hstep
      split at hstep
      · obtain ⟨rfl, -⟩ := Prod.mk.inj (Option.some.inj hstep)
        rfl
      · obtain ⟨rfl, -⟩ := Prod.mk.inj (Option.some.inj hstep)
        rfl
  | clearRequest pSession | wake pSession =>
      obtain ⟨rfl, -⟩ := Prod.mk.inj (Option.some.inj hstep)
      exact niNotifyCb_put _ _ _
  | returned => cases hstep

theorem advance_callback {data next : NiData} {pid : Nat} {proc after : Proc} {fails : Bool}
    {started : Option Proc} (hstep : advance data pid proc fails = some (next, after, started)) :
    KeepsCallback data next proc after started := by
  cases advance_cases hstep with
  | init callbacks =>
      refine ⟨fun h => ?_, nofun, nofun⟩
      simp [initStep, h]
  | handler hhandler => exact handlerStep_callback hhandler
  | thread hthread => exact ⟨fun h => (threadStep_callback hthread).trans h, nofun, nofun⟩
  | respond hrespond => exact ⟨fun h => (respondStep_callback hrespond).trans h, nofun, nofun⟩
  | restart hrestart => exact ⟨fun h => (restartStep_callback hrestart).trans h, nofun, nofun⟩

/-! ## The module and its store -/

theorem initStep_store {ni : NiModule} {pid : Nat} {callbacks : Bool} (h : Ready ni)
    (hproc : ni.procs[pid]? = some (.init callbacks false)) :
    store ⟨initStep ni.shared callbacks, ni.procs.set pid (.init callbacks true) ++
      (none : Option Proc).toList⟩ = store ni := by
  have hnone : ni.shared.niNotifyCb = false → ∀ name, (ni.shared.get name).rawRequest = none := by
    intro hcb name
    refine Option.eq_none_iff_forall_ne_some.mpr fun payload hpayload => ?_
    cases hcb.symm.trans (h.saved name payload hpayload)
  unfold initStep
  split
  · rename_i hcond
    have hcb : ni.shared.niNotifyCb = false := by
      rw [Bool.and_eq_true, Bool.not_eq_true'] at hcond
      exact hcond.2
    refine store_run_idle hproc fresh_none rfl rfl rfl (fun name => ?_) fun _ => rfl
    rw [hnone hcb name]
    cases name <;> rfl
  · exact store_run_idle hproc fresh_none rfl rfl rfl (fun _ => rfl) fun _ => rfl

theorem advance_store {ni : NiModule} {pid : Nat} {proc after : Proc} {fails : Bool}
    {next : NiData} {started : Option Proc} (h : Ready ni) (hproc : ni.procs[pid]? = some proc)
    (hstep : advance ni.shared pid proc fails = some (next, after, started)) :
    store ⟨next, ni.procs.set pid after ++ started.toList⟩ =
        (store ni).apply (procMove ni.shared pid fails proc) ∧
      (store ni).Enabled (procMove ni.shared pid fails proc) := by
  cases advance_cases hstep with
  | init callbacks => exact ⟨initStep_store h hproc, trivial⟩
  | handler hhandler => exact handler_store hproc hhandler
  | thread hthread =>
      refine ⟨thread_store hproc hthread, ?_⟩
      unfold procMove
      dsimp only
      split <;> trivial
  | respond hrespond => exact ⟨respond_store hproc hrespond, trivial⟩
  | restart hrestart => exact restart_store hproc hrestart

theorem cell_apply {s : Store Nat SessionName} {move : Custody.Move Nat SessionName}
    {name : SessionName} {payload : Nat} (h : (s.apply move).cell name = some payload) :
    s.cell name = some payload ∨ ∃ pid c, move = .put pid c := by
  cases move with
  | put pid c => exact .inr ⟨pid, c, rfl⟩
  | idle | receive _ | discard _ _ | dispose _ => exact .inl h
  | empty c | take c =>
      rcases Store.update_eq_some.mp h with ⟨-, hnone⟩ | ⟨-, hold⟩
      · cases hnone
      · exact .inl hold

theorem admitted_of_put {data : NiData} {pid p : Nat} {fails : Bool} {proc : Proc}
    {c : SessionName} (h : procMove data pid fails proc = .put p c) : proc.admitted = true := by
  cases proc with
  | handler request pc =>
      cases pc with
      | entered =>
          simp only [procMove, handlerMove] at h
          split at h <;> cases h
      | checkSession | checkSessionEs | saveRequest => rfl
      | _ => cases h
  | thread pSession request pc =>
      simp only [procMove] at h
      split at h <;> cases h
  | restart pc => cases pc <;> cases h
  | init | respond => cases h

theorem at_call (ni : NiModule) (data : NiData) (proc : Proc) (f : Proc → Bool) (p : Nat) :
    At ⟨data, ni.procs ++ [proc]⟩ f p =
      if p = ni.procs.length then f proc else At ni f p := by
  unfold At
  dsimp only
  rcases Nat.lt_trichotomy p ni.procs.length with hlt | rfl | hgt
  · rw [List.getElem?_append_left hlt, if_neg (by omega)]
  · rw [List.getElem?_concat_length, if_pos rfl, Option.any_some]
  · rw [List.getElem?_eq_none (by simp; omega), List.getElem?_eq_none (by omega),
      if_neg (by omega)]

/-- A call brings a payload at most. -/
theorem call_store (ni : NiModule) (request : Call) :
    store ⟨(call ni.shared request).1, ni.procs ++ [(call ni.shared request).2]⟩ =
        (store ni).apply (custodyMove ni (.call request)) ∧
      (store ni).Enabled (custodyMove ni (.call request)) := by
  have hunknown : ∀ f, At ni f ni.procs.length = false := by
    intro f
    rw [At, List.getElem?_eq_none le_rfl, Option.any_none]
  have hplain : ∀ {data : NiData} {proc : Proc}, proc.carries = false → proc.waits = false →
      proc.message = none → (∀ name, data.get name = ni.shared.get name) →
      (∀ p, data.log.countP (Effect.disposes p) =
        ni.shared.log.countP (Effect.disposes p)) →
      store ⟨data, ni.procs ++ [proc]⟩ = store ni := by
    intro data proc hcarries hwaits hmessage hget hlog
    have hat : ∀ f : Proc → Bool, f proc = false → ∀ p,
        At ⟨data, ni.procs ++ [proc]⟩ f p = At ni f p := by
      intro f hf p
      rw [at_call, hf]
      split
      · rename_i heq
        rw [heq, hunknown]
      · rfl
    apply Store.ext
    · ext p
      rw [known_store, hat _ hcarries, known_store]
    · ext p
      rw [waiting_store, hat _ hwaits, waiting_store]
    · funext name
      exact congrArg NiSession.rawRequest (hget name)
    · funext p
      change disposals _ p = disposals ni p
      rw [disposals, disposals, hlog, List.countP_append]
      simp [Proc.owns, hmessage]
  cases request with
  | init | restart => exact ⟨hplain rfl rfl rfl (fun _ => rfl) fun _ => rfl, trivial⟩
  | respond notif_id user_response =>
      refine ⟨hplain rfl rfl rfl (fun _ => NiData.get_emit _ _ _) fun _ => ?_, trivial⟩
      simp [call, Effect.disposes]
  | request request =>
      cases hpass : request.passThrough with
      | false =>
          simp only [custodyMove, hpass]
          refine ⟨hplain hpass ?_ rfl (fun _ => rfl) fun _ => rfl, trivial⟩
          simp [call, Proc.waits, hpass]
      | true =>
          simp only [custodyMove, hpass, if_true]
          refine ⟨?_, ?_⟩
          · apply Store.ext
            · ext p
              rw [known_store, at_call]
              by_cases heq : p = ni.procs.length
              · simp [heq, call, Proc.carries, hpass, Store.apply, Store.enter]
              · simp [heq, Store.apply, Store.enter]
            · ext p
              rw [waiting_store, at_call]
              by_cases heq : p = ni.procs.length
              · simp [heq, call, Proc.waits, HandlerPc.waits, hpass, Store.apply, Store.enter]
              · simp [heq, Store.apply, Store.enter]
            · rfl
            · funext p
              change disposals _ p = disposals ni p
              simp [disposals, call, Proc.owns, Proc.message]
          · change ¬ At ni Proc.carries ni.procs.length = true
            rw [hunknown]
            exact Bool.false_ne_true

/-- Every step of the module is a move of its store. -/
theorem step_store {ni next : NiModule} {label : Transition.Move Call} (h : Ready ni)
    (hstep : Ni.step ni label = some next) :
    Ready next ∧ store next = (store ni).apply (custodyMove ni label) ∧
      (store ni).Enabled (custodyMove ni label) := by
  cases label with
  | call request =>
      obtain rfl := Option.some.inj hstep
      obtain ⟨hstore, henabled⟩ := call_store ni request
      have hcallback : (call ni.shared request).1.niNotifyCb = ni.shared.niNotifyCb := by
        cases request <;> rfl
      refine ⟨⟨.call ?_ fun i other hother hadmitted => ?_, fun name payload hsaved => ?_⟩, hstore,
        henabled⟩
      · cases request <;> exact fun h => by cases h
      · exact hcallback.trans (h.admitted i other hother hadmitted)
      · refine hcallback.trans (h.saved name payload ?_)
        cases request with
        | respond => rwa [← NiData.get_emit]
        | init | request | restart => exact hsaved
  | run pid fails =>
      obtain ⟨proc, shared, after, started, hproc, hadvance, rfl⟩ :=
        Pool.step_run_eq_some.mp hstep
      simp only [program] at hadvance
      have hcallback := advance_callback hadvance
      obtain ⟨hstore, henabled⟩ := advance_store h hproc hadvance
      rw [custodyMove, hproc]
      refine ⟨⟨.run ?_ ?_ ?_, fun name payload hsaved => ?_⟩, hstore, henabled⟩
      · intro hadmitted
        rcases hcallback.admitted hadmitted with hbefore | hcb
        · exact hcallback.callback (h.admitted pid proc hproc hbefore)
        · exact hcallback.callback hcb
      · intro child hchild hadmitted
        cases (hcallback.started child hchild).symm.trans hadmitted
      · exact fun i other _ hother hadmitted =>
          hcallback.callback (h.admitted i other hother hadmitted)
      · have hcell : (store ⟨shared, ni.procs.set pid after ++ started.toList⟩).cell name =
          some payload := hsaved
        rw [hstore] at hcell
        rcases cell_apply hcell with hold | ⟨p, c, hput⟩
        · exact hcallback.callback (h.saved name payload hold)
        · exact hcallback.callback (h.admitted pid proc hproc (admitted_of_put hput))

theorem loaded_ready : Ready loaded where
  admitted := nofun
  saved name payload h := by cases name <;> cases h

theorem loaded_wellFormed : (store loaded).WellFormed where
  waiting_known := fun _ h => by cases h
  held_known := fun _ c h => by cases c <;> cases h
  held_not_waiting := fun _ c h => by cases c <;> cases h
  held_once := fun _ c _ h => by cases c <;> cases h
  waiting_kept := fun _ h => by cases h
  unknown_kept := fun _ _ => rfl

end Msm8916.Ni
