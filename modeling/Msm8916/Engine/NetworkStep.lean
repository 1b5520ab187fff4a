import Msm8916.Engine.Network

/-!
What one step of the engine can do to its state machines: a message makes at most
one call into one of them, and everything else it does is to send or to record.
-/

namespace Msm8916.Engine

open Agps Transition

/-- A call into a machine by a client of any kind. -/
def anyStep (machine : AgpsStateMachine) (call : SubscriberKind × AgpsStateMachine.Label) :
    Option AgpsStateMachine :=
  machine.step call.1 call.2

/-- `after` is `machine` back from some calls. -/
abbrev NifCalls : AgpsStateMachine → AgpsStateMachine → Prop := Reachable anyStep

theorem NifCalls.subscribe (machine : AgpsStateMachine) (s : Subscriber) (answer : Int) :
    NifCalls machine ({ machine with log := [] }.subscribeRsrc s answer) :=
  ⟨[(s.kind, .subscribe s answer)], by simp [anyStep, AgpsStateMachine.step]⟩

theorem NifCalls.unsubscribe (machine : AgpsStateMachine) (s : Subscriber) (answer : Int) :
    NifCalls machine ({ machine with log := [] }.unsubscribeRsrc s answer).1 :=
  ⟨[(s.kind, .unsubscribe s answer)], by simp [anyStep, AgpsStateMachine.step]⟩

theorem NifCalls.event (machine : AgpsStateMachine) (event : AgpsRsrcStatus) (answer : Int) :
    NifCalls machine ({ machine with log := [] }.onRsrcEvent event answer) :=
  ⟨[(.atl, .rsrcEvent event answer)], rfl⟩

/-- The calls of `LocEngAtlOpenSuccess::proc`. -/
theorem NifCalls.opened (machine : AgpsStateMachine) (mBearer : AGpsBearerType)
    (mAPN : Option (List UInt8)) (answer : Int) :
    NifCalls machine ({ machine with log := [], mBearer, mAPN }.onRsrcEvent .granted answer) :=
  ⟨[(.atl, .setBearer mBearer), (.atl, .setAPN mAPN), (.atl, .rsrcEvent .granted answer)], rfl⟩

theorem NifCalls.retry {machine : AgpsStateMachine} (h : 0 < machine.delayTimers) :
    NifCalls machine { machine with
      log := [], delayTimers := machine.delayTimers - 1 }.retryCallback :=
  ⟨[(.ds, .retry)], by simp [anyStep, AgpsStateMachine.step, h]⟩

namespace AgpsEngine

/-- What a message that has called the machine `name` records. -/
def told (msg : AgpsMsg) (name : Nif) : List (Nif × AgpsRsrcStatus) :=
  match msg.reply? with
  | some (_, event) => [(name, event)]
  | none => []

/-- What the processing of a message can do to the engine. -/
inductive Processed (eng : AgpsEngine) (msg : AgpsMsg) : AgpsEngine → Prop where
  | call {name : Nif} {machine after : AgpsStateMachine} (hnif : eng.nif name = some machine)
      (hcall : NifCalls machine after)
      (htarget : ∀ target event, msg.reply? = some (target, event) → target = some name) :
      Processed eng msg
        { eng.afterCall name after with delivered := eng.delivered ++ told msg name }
  | quiet (log : List Action) (hmsg : msg.reply? = none) : Processed eng msg { eng with log }
  | dataClientInit (hmsg : msg = .dataClientInit) :
      Processed eng msg { eng with nif := Function.update eng.nif .ds (some .newDs) }
  | up (hmsg : msg = .up) : Processed eng msg eng.handleEngineUp

theorem callNif_eq_some {eng next : AgpsEngine} {name : Nif}
    {call : AgpsStateMachine → AgpsStateMachine} (h : eng.callNif name call = some next) :
    ∃ machine, eng.nif name = some machine ∧
      eng.afterCall name (call { machine with log := [] }) = next :=
  Option.map_eq_some_iff.mp h

/-- A message that is no answer of the framework and has made a call. -/
theorem Processed.of_callNif {eng next : AgpsEngine} {msg : AgpsMsg} {name : Nif}
    {call : AgpsStateMachine → AgpsStateMachine} (hmsg : msg.reply? = none)
    (hcall : ∀ machine, NifCalls machine (call { machine with log := [] }))
    (h : eng.callNif name call = some next) : Processed eng msg next := by
  obtain ⟨machine, hnif, rfl⟩ := callNif_eq_some h
  have htold : told msg name = [] := by simp [told, hmsg]
  have htarget : ∀ target event, msg.reply? = some (target, event) → target = some name := by
    simp [hmsg]
  have hprocessed := Processed.call hnif (hcall machine) htarget
  rw [htold, List.append_nil] at hprocessed
  exact hprocessed

/-- An answer of the framework that has reached a machine. -/
theorem Processed.of_tell {eng next : AgpsEngine} {msg : AgpsMsg} {mStateMachine : Option Nif}
    {event : AgpsRsrcStatus} {set : AgpsStateMachine → AgpsStateMachine} {answer : Int}
    (hmsg : msg.reply? = some (mStateMachine, event))
    (hcall : ∀ machine,
      NifCalls machine ((set { machine with log := [] }).onRsrcEvent event answer))
    (h : eng.tell mStateMachine event set answer = some next) : Processed eng msg next := by
  obtain ⟨name, rfl, htell⟩ := Option.bind_eq_some_iff.mp h
  obtain ⟨called, hcalled, rfl⟩ := Option.map_eq_some_iff.mp htell
  obtain ⟨machine, hnif, rfl⟩ := callNif_eq_some hcalled
  have htold : told msg name = [(name, event)] := by simp [told, hmsg]
  have htarget : ∀ target event, msg.reply? = some (target, event) → target = some name := by
    intro target event hreply
    exact (Prod.mk.inj (Option.some.inj (hreply.symm.trans hmsg))).1
  have hprocessed := Processed.call hnif (hcall machine) htarget
  rw [htold] at hprocessed
  exact hprocessed

theorem releaseFrom_eq_some {eng next : AgpsEngine} {answer : Int}
    {candidates : List (Nif × Subscriber)} (h : eng.releaseFrom answer candidates = some next) :
    ∃ name s machine, eng.nif name = some machine ∧
      next = eng.afterCall name ({ machine with log := [] }.unsubscribeRsrc s answer).1 := by
  induction candidates with
  | nil => cases h
  | cons candidate rest ih =>
      obtain ⟨name, s⟩ := candidate
      unfold releaseFrom at h
      cases hnif : eng.nif name with
      | none =>
          rw [hnif] at h
          exact ih h
      | some machine =>
          rw [hnif] at h
          dsimp only at h
          split at h
          · rename_i after hrelease
            exact ⟨name, s, machine, hnif, by rw [hrelease, ← Option.some.inj h]⟩
          · exact ih h

theorem proc_cases {eng next : AgpsEngine} {answer : Int} {msg : AgpsMsg}
    (h : eng.proc answer msg = some next) : Processed eng msg next := by
  cases msg with
  | requestATL mID mType =>
      simp only [proc, requestATL] at h
      split at h
      · exact .of_callNif rfl (fun machine => .subscribe machine _ answer) h
      · obtain rfl := Option.some.inj h
        exact .quiet _ rfl
  | releaseATL mID =>
      obtain rfl := Option.some.inj h
      unfold releaseATL
      cases hrelease : eng.releaseFrom answer
          [(.agnss, .atl mID.toUInt32 false), (.internet, .atl mID.toUInt32 false),
            (.ds, .ds mID.toUInt32 false)] with
      | none => exact .quiet _ rfl
      | some released =>
          obtain ⟨name, s, machine, hnif, rfl⟩ := releaseFrom_eq_some hrelease
          have hcall : eng.callNif name (fun machine => (machine.unsubscribeRsrc s answer).1) =
              some (eng.afterCall name
                ({ machine with log := [] }.unsubscribeRsrc s answer).1) := by
            rw [callNif, hnif]
            rfl
          exact .of_callNif rfl (fun machine => .unsubscribe machine s answer) hcall
  | requestSuplEs mID =>
      simp only [proc, requestSuplEs] at h
      split at h
      · exact .of_callNif rfl (fun machine => .subscribe machine _ answer) h
      · split at h
        · exact .of_callNif rfl (fun machine => .subscribe machine _ answer) h
        · obtain rfl := Option.some.inj h
          exact .quiet _ rfl
  | suplEsOpened =>
      simp only [proc, suplEs] at h
      split at h
      · exact .of_callNif rfl (fun machine => .event machine _ answer) h
      · obtain rfl := Option.some.inj h
        exact .quiet eng.log rfl
  | suplEsClosed =>
      simp only [proc, suplEs] at h
      split at h
      · exact .of_callNif rfl (fun machine => .event machine _ answer) h
      · obtain rfl := Option.some.inj h
        exact .quiet eng.log rfl
  | reqRelBIT mType mIPv4Addr mIPv6Addr mIsReq =>
      obtain ⟨name, -, hcall⟩ := Option.bind_eq_some_iff.mp h
      apply Processed.of_callNif rfl ?_ hcall
      intro machine
      cases mIsReq with
      | true => exact .subscribe machine _ answer
      | false => exact .unsubscribe machine _ answer
  | reqRelWifi mType mSenderId mSSID mPassword mIsReq =>
      simp only [proc, reqRelWifi] at h
      split at h
      · apply Processed.of_callNif rfl ?_ h
        intro machine
        cases mIsReq with
        | true => exact .subscribe machine _ answer
        | false => exact .unsubscribe machine _ answer
      · obtain rfl := Option.some.inj h
        exact .quiet _ rfl
  | dataClientInit =>
      obtain rfl := Option.some.inj h
      unfold dataClientInit
      split
      · exact .dataClientInit rfl
      · exact .quiet eng.log rfl
  | atlOpenSuccess mStateMachine mAPN mBearerType =>
      exact .of_tell rfl (fun machine => .opened machine mBearerType (some mAPN) answer) h
  | atlClosed mStateMachine => exact .of_tell rfl (fun machine => .event machine .released answer) h
  | atlOpenFailed mStateMachine =>
      exact .of_tell rfl (fun machine => .event machine .denied answer) h
  | up =>
      obtain rfl := Option.some.inj h
      exact .up rfl

/-! ## Steps -/

theorem step_agpsInit {eng next : AgpsEngine} {CAPABILITIES pdn : UInt32}
    (h : eng.step (.agpsInit CAPABILITIES pdn) = some next) :
    next = { eng with log := [] }.agpsInit CAPABILITIES pdn := (Option.some.inj h).symm

theorem step_send {eng next : AgpsEngine} {msg : AgpsMsg} (h : eng.step (.send msg) = some next) :
    eng.maySend msg = true ∧ next = { eng with log := [] }.sendMsg msg := by
  have hiff : eng.step (.send msg) =
      if eng.maySend msg then some ({ eng with log := [] }.sendMsg msg) else none := by
    cases msg <;> rfl
  rw [hiff] at h
  split at h
  · rename_i hmay
    exact ⟨hmay, (Option.some.inj h).symm⟩
  · cases h

/-- The modem and the daemon send no message of the framework or of the engine. -/
theorem reply?_of_maySend {eng : AgpsEngine} {msg : AgpsMsg} (h : eng.maySend msg = true) :
    msg.reply? = none ∧ msg ≠ .dataClientInit := by
  cases msg <;> simp_all [maySend, AgpsMsg.reply?]

theorem reply?_of_msgOf {eng : AgpsEngine} {action : Action} {msg : AgpsMsg}
    (h : eng.msgOf action = some msg) : msg.reply? = none := by
  cases action with
  | requestATL connHandle agpsType =>
      obtain ⟨-, rfl⟩ : _ ∧ .requestATL connHandle agpsType = msg := by simpa [msgOf] using h
      rfl
  | requestSuplES connHandle =>
      obtain ⟨-, rfl⟩ : _ ∧ .requestSuplEs connHandle = msg := by simpa [msgOf] using h
      rfl
  | _ => cases h

theorem agpsOpen_supl {eng : AgpsEngine} (hready : eng.agps_status_cb = true)
    (apn : List UInt8) (bearerType : AGpsBearerType) :
    eng.agpsOpen .supl (some apn) bearerType =
      eng.sendMsg (.atlOpenSuccess (eng.pointer .agnss)
        ((apn.takeWhile (· != 0)).take maxApnLen) bearerType) := by
  simp only [agpsOpen, hready, if_true]
  rfl

/-- A call of the framework queues its answer for `agnss_nif`, unless it has no
access point name or comes before `loc_eng_agps_init`. -/
theorem agpsCall_cases (eng : AgpsEngine) (call : AgpsCall) :
    ((eng.agps_status_cb = true → call.apn? = some none) ∧ eng.agpsCall call = eng) ∨
    (call.apn? ≠ some none ∧ ∃ msg, eng.agpsCall call = eng.sendMsg msg ∧
      msg.reply? = some (eng.pointer .agnss, call.event)) := by
  cases hready : eng.agps_status_cb with
  | false =>
      refine .inl ⟨by simp, ?_⟩
      cases call <;> simp [agpsCall, agpsOpen, agpsClosed, agpsOpenFailed, hready]
  | true =>
      cases call with
      | «open» apn =>
          cases apn with
          | none => exact .inl ⟨fun _ => rfl, by simp [agpsCall, agpsOpen]⟩
          | some apn => exact .inr ⟨by simp [AgpsCall.apn?], _, agpsOpen_supl hready apn _, rfl⟩
      | openWithApniptype apn apnIpType =>
          cases apn with
          | none => exact .inl ⟨fun _ => rfl, by simp [agpsCall, agpsOpen]⟩
          | some apn => exact .inr ⟨by simp [AgpsCall.apn?], _, agpsOpen_supl hready apn _, rfl⟩
      | closed =>
          have hsent : eng.agpsCall .closed = eng.sendMsg (.atlClosed (eng.pointer .agnss)) := by
            simp only [agpsCall, agpsClosed, hready, if_true]
            rfl
          exact .inr ⟨by simp [AgpsCall.apn?], _, hsent, rfl⟩
      | openFailed =>
          have hsent : eng.agpsCall .openFailed =
              eng.sendMsg (.atlOpenFailed (eng.pointer .agnss)) := by
            simp only [agpsCall, agpsOpenFailed, hready, if_true]
            rfl
          exact .inr ⟨by simp [AgpsCall.apn?], _, hsent, rfl⟩

theorem step_reply {eng next : AgpsEngine} {asker : Nif} {call : AgpsCall}
    (h : eng.step (.reply asker call) = some next) :
    (asker, call.answers) ∈ eng.asked ∧
      next = { { eng with log := [] }.agpsCall call with
        replies := eng.replies ++ [(asker, call.event)] } := by
  have hstep : eng.step (.reply asker call) =
      if (asker, call.answers) ∈ eng.asked then
        some { { eng with log := [] }.agpsCall call with
          replies := eng.replies ++ [(asker, call.event)] }
      else none := rfl
  rw [hstep] at h
  split at h
  · rename_i hasked
    exact ⟨hasked, (Option.some.inj h).symm⟩
  · cases h

theorem step_retry {eng next : AgpsEngine} (h : eng.step .retry = some next) :
    ∃ machine after, eng.nif .ds = some machine ∧ NifCalls machine after ∧
      next = { eng with log := [] }.afterCall .ds after := by
  obtain ⟨machine, hnif, hretry⟩ := Option.bind_eq_some_iff.mp h
  split at hretry
  · rename_i htimers
    exact ⟨machine, _, hnif, .retry htimers, (Option.some.inj hretry).symm⟩
  · cases hretry

theorem step_run {eng next : AgpsEngine} {answer : Int} (h : eng.step (.run answer) = some next) :
    ∃ msg msgQ, eng.msgQ = msg :: msgQ ∧ Processed { eng with log := [], msgQ } msg next := by
  cases hqueue : eng.msgQ with
  | nil => simp [step, hqueue] at h
  | cons msg msgQ =>
      have hproc : proc { eng with log := [], msgQ } answer msg = some next := by
        simpa [step, hqueue] using h
      exact ⟨msg, msgQ, rfl, proc_cases hproc⟩

/-! ## The machines -/

/-- What a step can do to one machine: nothing, calls into it, making it anew, or
dropping its subscribers. -/
inductive NifStep (name : Nif) (old : Option AgpsStateMachine) :
    Option AgpsStateMachine → Prop where
  | same : NifStep name old old
  | calls {machine after : AgpsStateMachine} (hold : old = some machine)
      (hcalls : NifCalls machine after) : NifStep name old (some after)
  | made (machine : AgpsStateMachine) (hreleased : machine.mState = .released) :
      NifStep name old (some machine)
  | dropped (hname : name = .agnss ∨ name = .internet) :
      NifStep name old (old.map (·.dropAllSubscribers))

theorem afterCall_nif {eng : AgpsEngine} {called : Nif} {machine after : AgpsStateMachine}
    (hnif : eng.nif called = some machine) (hcalls : NifCalls machine after) (name : Nif) :
    NifStep name (eng.nif name) ((eng.afterCall called after).nif name) := by
  by_cases hsame : name = called
  · subst hsame
    have hafter : (eng.afterCall name after).nif name = some after := Function.update_self ..
    rw [hnif, hafter]
    exact .calls rfl hcalls
  · have hother : (eng.afterCall called after).nif name = eng.nif name :=
      Function.update_of_ne hsame ..
    rw [hother]
    exact .same

theorem handleEngineUp_nif {eng : AgpsEngine} (h : eng.agps_status_cb = true) (name : Nif) :
    eng.handleEngineUp.nif name =
      if name = .agnss ∨ name = .internet then (eng.nif name).map (·.dropAllSubscribers)
      else eng.nif name := by
  cases name <;> simp [handleEngineUp, h]

theorem handleEngineUp_of_not_ready {eng : AgpsEngine} (h : eng.agps_status_cb = false) :
    eng.handleEngineUp = eng := by
  simp [handleEngineUp, h]

theorem Processed.nif {eng next : AgpsEngine} {msg : AgpsMsg} (h : Processed eng msg next)
    (name : Nif) : NifStep name (eng.nif name) (next.nif name) := by
  cases h with
  | call hnif hcalls _ => exact afterCall_nif hnif hcalls name
  | quiet log _ => exact .same
  | dataClientInit _ =>
      dsimp only
      by_cases hds : name = .ds
      · subst hds
        rw [Function.update_self]
        exact .made _ rfl
      · rw [Function.update_of_ne hds]
        exact .same
  | up _ =>
      cases hready : eng.agps_status_cb with
      | false =>
          rw [handleEngineUp_of_not_ready hready]
          exact .same
      | true =>
          rw [handleEngineUp_nif hready]
          split
          · exact .dropped ‹_›
          · exact .same

theorem agpsInit_nif (eng : AgpsEngine) (CAPABILITIES pdn : UInt32) (name : Nif) :
    NifStep name (eng.nif name) ((eng.agpsInit CAPABILITIES pdn).nif name) := by
  unfold agpsInit
  dsimp only
  split_ifs <;> cases name <;> first | exact .same | exact .made _ rfl

theorem agpsCall_nif (eng : AgpsEngine) (call : AgpsCall) :
    (eng.agpsCall call).nif = eng.nif := by
  rcases agpsCall_cases eng call with ⟨-, hsame⟩ | ⟨-, msg, hsent, -⟩
  · rw [hsame]
  · rw [hsent]
    rfl

theorem step_nif {eng next : AgpsEngine} {event : Event} (h : eng.step event = some next)
    (name : Nif) : NifStep name (eng.nif name) (next.nif name) := by
  cases event with
  | agpsInit CAPABILITIES pdn =>
      rw [step_agpsInit h]
      exact agpsInit_nif { eng with log := [] } CAPABILITIES pdn name
  | send msg =>
      obtain ⟨-, rfl⟩ := step_send h
      exact .same
  | reply asker call =>
      obtain ⟨-, rfl⟩ := step_reply h
      dsimp only
      rw [agpsCall_nif]
      exact .same
  | retry =>
      obtain ⟨machine, after, hnif, hcalls, rfl⟩ := step_retry h
      have hcleared : ({ eng with log := [] } : AgpsEngine).nif .ds = some machine := hnif
      exact afterCall_nif hcleared hcalls name
  | run answer =>
      obtain ⟨msg, msgQ, -, hprocessed⟩ := step_run h
      exact hprocessed.nif name

/-! ## The framework has begun to use the engine before there are machines -/

structure Ready (eng : AgpsEngine) : Prop where
  nif : ∀ name, (eng.nif name).isSome = true → eng.agps_status_cb = true
  queued : .dataClientInit ∈ eng.msgQ → eng.agps_status_cb = true

theorem Ready.of_set {eng : AgpsEngine} (h : eng.agps_status_cb = true) : eng.Ready :=
  ⟨fun _ _ => h, fun _ => h⟩

/-- A step after which the queue and the machines are those of before. -/
theorem Ready.congr {eng next : AgpsEngine} (h : eng.Ready) (hnif : next.nif = eng.nif)
    (hready : next.agps_status_cb = eng.agps_status_cb)
    (hqueue : .dataClientInit ∈ next.msgQ → .dataClientInit ∈ eng.msgQ) : next.Ready where
  nif name hname := by
    rw [hnif] at hname
    rw [hready]
    exact h.nif name hname
  queued hmem := by
    rw [hready]
    exact h.queued (hqueue hmem)

theorem Ready.sendMsg {eng : AgpsEngine} (h : eng.Ready) {msg : AgpsMsg}
    (hmsg : msg ≠ .dataClientInit) : (eng.sendMsg msg).Ready := by
  refine h.congr rfl rfl fun hmem => ?_
  rcases List.mem_append.mp hmem with hold | hnew
  · exact hold
  · exact absurd (List.mem_singleton.mp hnew).symm hmsg

theorem Ready.afterCall {eng : AgpsEngine} (h : eng.Ready) {name : Nif}
    {machine : AgpsStateMachine} (hnif : eng.nif name = some machine)
    (after : AgpsStateMachine) : (eng.afterCall name after).Ready :=
  .of_set (h.nif name (by simp [hnif]))

theorem Ready.processed {eng next : AgpsEngine} {msg : AgpsMsg} (h : eng.Ready)
    (hmsg : msg = .dataClientInit → eng.agps_status_cb = true)
    (hprocessed : Processed eng msg next) : next.Ready := by
  cases hprocessed with
  | call hnif _ _ => exact (h.afterCall hnif _).congr rfl rfl id
  | quiet log _ => exact h.congr rfl rfl id
  | dataClientInit heq => exact .of_set (hmsg heq)
  | up _ =>
      cases hready : eng.agps_status_cb with
      | false => rwa [handleEngineUp_of_not_ready hready]
      | true => exact .of_set (by simp [handleEngineUp, hready])

theorem Ready.step {eng next : AgpsEngine} {event : Event} (h : eng.Ready)
    (hstep : eng.step event = some next) : next.Ready := by
  have hcleared : ({ eng with log := [] } : AgpsEngine).Ready := h.congr rfl rfl id
  cases event with
  | agpsInit CAPABILITIES pdn =>
      rw [step_agpsInit hstep]
      apply Ready.of_set
      unfold agpsInit
      dsimp only
      split_ifs <;> first | assumption | rfl
  | send msg =>
      obtain ⟨hmay, rfl⟩ := step_send hstep
      exact hcleared.sendMsg (reply?_of_maySend hmay).2
  | reply asker call =>
      obtain ⟨-, rfl⟩ := step_reply hstep
      have hcalled : ({ eng with log := [] }.agpsCall call).Ready := by
        rcases agpsCall_cases { eng with log := [] } call with
          ⟨-, hsame⟩ | ⟨-, msg, hsent, hreply⟩
        · rwa [hsame]
        · rw [hsent]
          apply hcleared.sendMsg
          rintro rfl
          cases hreply
      exact hcalled.congr rfl rfl id
  | retry =>
      obtain ⟨machine, after, hnif, -, rfl⟩ := step_retry hstep
      exact hcleared.afterCall hnif after
  | run answer =>
      obtain ⟨msg, msgQ, hqueue, hprocessed⟩ := step_run hstep
      have hrest : ({ eng with log := [], msgQ } : AgpsEngine).Ready := by
        refine h.congr rfl rfl fun hmem => ?_
        rw [hqueue]
        exact List.mem_cons_of_mem _ hmem
      apply hrest.processed ?_ hprocessed
      rintro rfl
      apply h.queued
      rw [hqueue]
      exact List.mem_cons_self

theorem init_ready (mSupportsAgpsRequests : Bool) : (init mSupportsAgpsRequests).Ready where
  nif _ h := nomatch h
  queued h := nomatch h

end AgpsEngine

end Msm8916.Engine
