import Msm8916.Ni.Integrity
import Msm8916.Ni.Payload

/-!
When the session record of a request that the user is asked about keeps the id that
the user was told.
-/

namespace Msm8916.Ni

open Transition Custody

/-- The ids under which the framework was told of the request. -/
def announced (log : List Effect) (payload : Nat) : List Int :=
  log.filterMap fun
    | .notifyCb p notification_id => if p = payload then some notification_id else none
    | _ => none

theorem mem_announced {log : List Effect} {payload : Nat} {n : Int} :
    n ∈ announced log payload ↔ Effect.notifyCb payload n ∈ log := by
  rw [announced, List.mem_filterMap]
  constructor
  · rintro ⟨effect, heffect, heq⟩
    cases effect with
    | notifyCb p notification_id =>
        obtain ⟨rfl, rfl⟩ : p = payload ∧ notification_id = n := by simpa using heq
        exact heffect
    | respond | timedOut | notificationId | informNiResponse | free => cases heq
  · exact fun h => ⟨_, h, if_pos rfl⟩

/-- A request in a session that was announced has the id of the announcement. -/
def LiveId (ni : NiModule) : Prop :=
  ∀ name payload, (ni.shared.get name).rawRequest = some payload →
    ∀ notification_id, Effect.notifyCb payload notification_id ∈ ni.shared.log →
      (ni.shared.get name).reqID = notification_id

/-- The session holds no request that was announced under another id. -/
def Fits (data : NiData) (pSession : SessionName) (reqID : Int) : Prop :=
  ∀ payload ∈ (data.get pSession).rawRequest, ∀ n ∈ announced data.log payload, reqID = n

/-- A `reqID` is written only over that of a request which was announced under this id or
not at all, and a request that is in a session is announced under its `reqID`. -/
def Proc.KeepsId (data : NiData) (self : Nat) : Proc → Prop
  | .handler request (.writeReqID count) => Fits data request.pSession count
  | .handler _ (.notify notification_id) =>
      ∀ name, (data.get name).rawRequest = some self → (data.get name).reqID = notification_id
  | .thread pSession _ (.clearReqID _) => Fits data pSession 0
  | _ => True

def KeepsId (ni : NiModule) : Move Call → Prop
  | .call _ => True
  | .run pid _ => ∀ proc ∈ ni.procs[pid]?, proc.KeepsId ni.shared pid

theorem SessionName.forall_iff {P : SessionName → Prop} :
    (∀ name, P name) ↔ P .session ∧ P .sessionEs :=
  ⟨fun h => ⟨h _, h _⟩, fun h name => by cases name <;> [exact h.1; exact h.2]⟩

instance (data : NiData) (pSession : SessionName) (reqID : Int) :
    Decidable (Fits data pSession reqID) :=
  inferInstanceAs (Decidable (∀ payload ∈ (data.get pSession).rawRequest,
    ∀ n ∈ announced data.log payload, reqID = n))

instance (data : NiData) (self : Nat) : DecidablePred (Proc.KeepsId data self) := fun proc => by
  unfold Proc.KeepsId
  split
  · infer_instance
  · exact decidable_of_iff _ SessionName.forall_iff.symm
  · infer_instance
  · infer_instance

instance (ni : NiModule) : ∀ label, Decidable (KeepsId ni label)
  | .call _ => isTrue trivial
  | .run pid _ =>
      inferInstanceAs (Decidable (∀ proc ∈ ni.procs[pid]?, proc.KeepsId ni.shared pid))

/-! ## What a step announces and writes -/

/-- The id under which the process announces its request in this step. -/
def Proc.announces : Proc → Option Int
  | .handler _ (.notify notification_id) => some notification_id
  | _ => none

/-- What the step writes to the `reqID` of the session. -/
def Proc.reqIDWritten (name : SessionName) : Proc → Option Int
  | .handler request (.writeReqID count) => if name = request.pSession then some count else none
  | .thread pSession _ (.clearReqID _) => if name = pSession then some 0 else none
  | _ => none

structure Ids (data next : NiData) (pid : Nat) (proc : Proc) : Prop where
  announced : ∀ payload n, Effect.notifyCb payload n ∈ next.log ↔
    Effect.notifyCb payload n ∈ data.log ∨ payload = pid ∧ proc.announces = some n
  reqID : ∀ name, (next.get name).reqID = (proc.reqIDWritten name).getD (data.get name).reqID

theorem reqID_put_same (data : NiData) (pSession : SessionName) {s : NiSession}
    (hreqID : s.reqID = (data.get pSession).reqID) (name : SessionName) :
    ((data.put pSession s).get name).reqID = (data.get name).reqID := by
  by_cases h : name = pSession
  · subst h
    rw [NiData.get_put_self, hreqID]
  · rw [NiData.get_put_of_ne _ _ h]

theorem reqID_put (data : NiData) (pSession name : SessionName) (reqID : Int) :
    ((data.put pSession { data.get pSession with reqID }).get name).reqID =
      (if name = pSession then some reqID else none).getD (data.get name).reqID := by
  by_cases h : name = pSession
  · subst h
    rw [NiData.get_put_self, if_pos rfl, Option.getD_some]
  · rw [NiData.get_put_of_ne _ _ h, if_neg h, Option.getD_none]

/-- Effects that announce nothing. -/
def Unannouncing (data next : NiData) : Prop :=
  ∀ payload n, Effect.notifyCb payload n ∈ next.log ↔ Effect.notifyCb payload n ∈ data.log

theorem unannouncing_of_log {data next : NiData} (h : next.log = data.log) :
    Unannouncing data next := fun _ _ => by rw [h]

theorem unannouncing_emit (data : NiData) {effect : Effect}
    (h : ∀ payload n, effect ≠ .notifyCb payload n) : Unannouncing data (data.emit effect) := by
  intro payload n
  rw [NiData.log_emit, List.mem_append, List.mem_singleton, or_iff_left (h payload n).symm]

/-- A step that neither announces a request nor writes a `reqID`. -/
theorem ids_of_same {data next : NiData} {pid : Nat} {proc : Proc}
    (hannounces : proc.announces = none) (hwritten : ∀ name, proc.reqIDWritten name = none)
    (hlog : Unannouncing data next)
    (hreqID : ∀ name, (next.get name).reqID = (data.get name).reqID) :
    Ids data next pid proc where
  announced payload n := by simp [hlog payload n, hannounces]
  reqID name := by rw [hwritten, Option.getD_none, hreqID]

theorem handlerStep_ids {data next : NiData} {pid : Nat} {request : Request} {fails : Bool}
    {pc after : HandlerPc} {started : Option Proc}
    (hstep : handlerStep data pid request fails pc = some (next, after, started)) :
    Ids data next pid (.handler request pc) := by
  cases pc with
  | entered =>
      simp only [handlerStep] at hstep
      split at hstep <;> cases hstep <;>
        exact ids_of_same rfl (fun _ => rfl) (unannouncing_of_log rfl) fun _ => rfl
  | checkSession | checkSessionEs =>
      simp only [handlerStep, ignoreRequest] at hstep
      split at hstep <;> cases hstep
      · split
        · exact ids_of_same rfl (fun _ => rfl) (unannouncing_emit _ (by rintro _ _ ⟨⟩)) fun _ => by
            rw [NiData.get_emit]
        · exact ids_of_same rfl (fun _ => rfl) (unannouncing_of_log rfl) fun _ => rfl
      · exact ids_of_same rfl (fun _ => rfl) (unannouncing_of_log rfl) fun _ => rfl
  | saveRequest | setTimeLeft notification_id =>
      cases hstep
      exact ids_of_same rfl (fun _ => rfl) (unannouncing_of_log (NiData.log_put _ _ _))
        (reqID_put_same _ _ rfl)
  | writeReqID count =>
      cases hstep
      refine ⟨fun payload n => ?_, fun name => reqID_put _ _ _ _⟩
      simp [Proc.announces]
  | readCounter | createThread notification_id =>
      cases hstep
      exact ids_of_same rfl (fun _ => rfl) (unannouncing_of_log rfl) fun _ => rfl
  | writeCounter count =>
      cases hstep
      exact ids_of_same rfl (fun _ => rfl) (unannouncing_of_log rfl) fun name => by
        cases name <;> rfl
  | fillNotification =>
      cases hstep
      exact ids_of_same rfl (fun _ => rfl) (unannouncing_emit _ (by rintro _ _ ⟨⟩)) fun _ => by
        rw [NiData.get_emit]
  | notify notification_id =>
      cases hstep
      refine ⟨fun payload n => ?_, fun name => by rw [NiData.get_emit]; rfl⟩
      simp [Proc.announces, eq_comm]
  | returned => cases hstep

theorem finish_ids (data : NiData) (pSession : SessionName) :
    Unannouncing data (finish data pSession).1 ∧
      ∀ name, ((finish data pSession).1.get name).reqID = (data.get name).reqID := by
  unfold finish
  dsimp only
  have hput := reqID_put_same data pSession
    (s := { data.get pSession with respRecvd := false, rawRequest := none }) rfl
  split
  · exact ⟨unannouncing_of_log (NiData.log_put _ _ _), hput⟩
  · split
    · exact ⟨unannouncing_of_log (NiData.log_put _ _ _), hput⟩
    · refine ⟨fun payload n => ?_, fun name => by rw [NiData.get_emit, hput]⟩
      refine (unannouncing_emit _ ?_ payload n).trans ?_
      · exact fun _ _ => nofun
      · rw [NiData.log_put]

theorem threadStep_ids {data next : NiData} {pid : Nat} {pSession : SessionName}
    {request : Nat} {fails : Bool} {pc after : ThreadPc}
    (hstep : threadStep data pSession request fails pc = some (next, after)) :
    Ids data next pid (.thread pSession request pc) := by
  cases pc with
  | started =>
      simp only [threadStep] at hstep
      split at hstep
      · obtain ⟨rfl, -⟩ := Prod.mk.inj (Option.some.inj hstep)
        obtain ⟨hlog, hreqID⟩ := finish_ids data pSession
        exact ids_of_same rfl (fun _ => rfl) hlog hreqID
      · obtain ⟨rfl, -⟩ := Prod.mk.inj (Option.some.inj hstep)
        exact ids_of_same rfl (fun _ => rfl) (unannouncing_of_log rfl) fun _ => rfl
  | waiting respTimeLeft =>
      simp only [threadStep] at hstep
      split at hstep
      · obtain ⟨rfl, -⟩ := Prod.mk.inj (Option.some.inj hstep)
        obtain ⟨hlog, hreqID⟩ := finish_ids ((data.put pSession { data.get pSession with
          resp := gpsNiResponseNoresp }).emit (.timedOut request)) pSession
        refine ids_of_same rfl (fun _ => rfl) (fun payload n => (hlog payload n).trans ?_)
          fun name => (hreqID name).trans ?_
        · refine (unannouncing_emit _ ?_ payload n).trans ?_
          · rintro _ _ ⟨⟩
          · rw [NiData.log_put]
        · rw [NiData.get_emit]
          apply reqID_put_same
          rfl
      · split at hstep
        · obtain ⟨rfl, -⟩ := Prod.mk.inj (Option.some.inj hstep)
          obtain ⟨hlog, hreqID⟩ := finish_ids data pSession
          exact ids_of_same rfl (fun _ => rfl) hlog hreqID
        · obtain ⟨rfl, -⟩ := Prod.mk.inj (Option.some.inj hstep)
          exact ids_of_same rfl (fun _ => rfl) (unannouncing_of_log rfl) fun _ => rfl
  | clearTimeLeft msg =>
      obtain ⟨rfl, -⟩ := Prod.mk.inj (Option.some.inj hstep)
      exact ids_of_same rfl (fun _ => rfl) (unannouncing_of_log (NiData.log_put _ _ _))
        (reqID_put_same _ _ rfl)
  | clearReqID msg =>
      obtain ⟨rfl, -⟩ := Prod.mk.inj (Option.some.inj hstep)
      refine ⟨fun payload n => ?_, fun name => reqID_put _ _ _ _⟩
      simp [Proc.announces]
  | sendMsg msg =>
      cases msg with
      | none =>
          obtain ⟨rfl, -⟩ := Prod.mk.inj (Option.some.inj hstep)
          exact ids_of_same rfl (fun _ => rfl) (unannouncing_of_log rfl) fun _ => rfl
      | some msg =>
          obtain ⟨rfl, -⟩ := Prod.mk.inj (Option.some.inj hstep)
          exact ids_of_same rfl (fun _ => rfl) (unannouncing_emit _ (by rintro _ _ ⟨⟩)) fun _ => by
            rw [NiData.get_emit]
  | exited => cases hstep

theorem respondStep_ids {data next : NiData} {pid : Nat} {notif_id : Int}
    {user_response : GpsUserResponseType} {pc after : RespondPc}
    (hstep : respondStep data notif_id user_response pc = some (next, after)) :
    Ids data next pid (.respond notif_id user_response pc) := by
  cases pc with
  | ignoreOther | respond pSession =>
      obtain ⟨rfl, -⟩ := Prod.mk.inj (Option.some.inj hstep)
      exact ids_of_same rfl (fun _ => rfl) (unannouncing_of_log (NiData.log_put _ _ _))
        (reqID_put_same _ _ rfl)
  | checkRequestEs =>
      simp only [respondStep] at hstep
      split at hstep <;> cases hstep <;>
        exact ids_of_same rfl (fun _ => rfl) (unannouncing_of_log rfl) fun _ => rfl
  | entered | checkReqIDEs | checkOther | checkReqID | checkRequest =>
      obtain ⟨rfl, -⟩ := Prod.mk.inj (Option.some.inj hstep)
      exact ids_of_same rfl (fun _ => rfl) (unannouncing_of_log rfl) fun _ => rfl
  | returned => cases hstep

theorem restartStep_ids {data next : NiData} {pid : Nat} {pc after : RestartPc}
    (hstep : restartStep data pc = some (next, after)) : Ids data next pid (.restart pc) := by
  cases pc with
  | entered | check pSession =>
      obtain ⟨rfl, -⟩ := Prod.mk.inj (Option.some.inj hstep)
      exact ids_of_same rfl (fun _ => rfl) (unannouncing_of_log rfl) fun _ => rfl
  | freeRequest pSession =>
      simp only [restartStep] at hstep
      split at hstep
      · obtain ⟨rfl, -⟩ := Prod.mk.inj (Option.some.inj hstep)
        exact ids_of_same rfl (fun _ => rfl) (unannouncing_of_log rfl) fun _ => rfl
      · obtain ⟨rfl, -⟩ := Prod.mk.inj (Option.some.inj hstep)
        exact ids_of_same rfl (fun _ => rfl) (unannouncing_emit _ (by rintro _ _ ⟨⟩)) fun _ => by
          rw [NiData.get_emit]
  | clearRequest pSession | wake pSession =>
      obtain ⟨rfl, -⟩ := Prod.mk.inj (Option.some.inj hstep)
      exact ids_of_same rfl (fun _ => rfl) (unannouncing_of_log (NiData.log_put _ _ _))
        (reqID_put_same _ _ rfl)
  | returned => cases hstep

/-! ## The invariant -/

/-- A request is announced by its handler only, which then returns. -/
structure Traced (ni : NiModule) : Prop where
  ready : Ready ni
  unannounced : ni.Each fun data pid proc => ∀ request pc, proc = .handler request pc →
    pc ≠ .returned → ∀ n, Effect.notifyCb pid n ∉ data.log
  known : ∀ payload n, Effect.notifyCb payload n ∈ ni.shared.log → payload < ni.procs.length

theorem loaded_traced : Traced loaded where
  ready := loaded_ready
  unannounced := nofun
  known := nofun

/-- Every process but `loc_eng_ni_init`, which finds no request in a session. -/
theorem advance_ids {data next : NiData} {pid : Nat} {proc after : Proc} {fails : Bool}
    {started : Option Proc} (hstep : advance data pid proc fails = some (next, after, started)) :
    Ids data next pid proc ∨ ∃ callbacks, proc = .init callbacks false := by
  cases advance_cases hstep with
  | init callbacks => exact .inr ⟨callbacks, rfl⟩
  | handler hhandler => exact .inl (handlerStep_ids hhandler)
  | thread hthread => exact .inl (threadStep_ids hthread)
  | respond hrespond => exact .inl (respondStep_ids hrespond)
  | restart hrestart => exact .inl (restartStep_ids hrestart)

theorem initStep_of_callback {data : NiData} (h : data.niNotifyCb = true) (callbacks : Bool) :
    initStep data callbacks = data := by
  simp [initStep, h]

theorem log_initStep (data : NiData) (callbacks : Bool) :
    (initStep data callbacks).log = data.log := by
  unfold initStep
  split <;> rfl

theorem advance_announced {data next : NiData} {pid : Nat} {proc after : Proc} {fails : Bool}
    {started : Option Proc} (hstep : advance data pid proc fails = some (next, after, started))
    (payload : Nat) (n : Int) :
    Effect.notifyCb payload n ∈ next.log ↔
      Effect.notifyCb payload n ∈ data.log ∨ payload = pid ∧ proc.announces = some n := by
  rcases advance_ids hstep with hids | ⟨callbacks, rfl⟩
  · exact hids.announced payload n
  · cases hstep
    rw [log_initStep]
    exact (or_iff_left nofun).symm

/-- The handler that announces its request returns. -/
theorem returned_of_announces {data next : NiData} {pid : Nat} {proc : Proc} {fails : Bool}
    {started : Option Proc} {request : Request} {pc : HandlerPc}
    (hstep : advance data pid proc fails = some (next, .handler request pc, started)) :
    (∃ before, proc = .handler request before ∧ before ≠ .returned) ∧
      (proc.announces ≠ none → pc = .returned) := by
  cases advance_cases hstep with
  | @handler _ _ before _ _ hhandler =>
      refine ⟨⟨before, rfl, fun hreturned => ?_⟩, fun hannounces => ?_⟩
      · subst hreturned
        cases hhandler
      · cases before with
        | notify notification_id =>
            cases hhandler
            rfl
        | _ => exact absurd rfl hannounces

theorem Traced.step {ni next : NiModule} {label : Move Call} (h : Traced ni)
    (hstep : Ni.step ni label = some next) : Traced next := by
  obtain ⟨hready, -, -⟩ := step_store h.ready hstep
  cases label with
  | call request =>
      obtain rfl := Option.some.inj hstep
      have hlog : ∀ payload n, Effect.notifyCb payload n ∈ (call ni.shared request).1.log ↔
          Effect.notifyCb payload n ∈ ni.shared.log := fun payload n => by
        cases request <;> simp [call]
      refine ⟨hready,
        .call (fun _ _ _ _ n hn => ?_) fun i other hother request pc heq hpc n hn => ?_,
        fun payload n hn => ?_⟩
      · exact Nat.lt_irrefl _ (h.known _ n ((hlog _ n).mp hn))
      · exact h.unannounced i other hother request pc heq hpc n ((hlog _ n).mp hn)
      · have hlt := h.known payload n ((hlog payload n).mp hn)
        rw [List.length_append, List.length_singleton]
        omega
  | run pid fails =>
      obtain ⟨proc, shared, after, started, hproc, hadvance, rfl⟩ :=
        Pool.step_run_eq_some.mp hstep
      have hlt := (List.getElem?_eq_some_iff.mp hproc).1
      have hlog := advance_announced hadvance
      refine ⟨hready, .run ?_ ?_ ?_, fun payload n hn => ?_⟩
      · rintro request pc rfl hpc n hn
        obtain ⟨⟨before, rfl, hbefore⟩, hreturned⟩ := returned_of_announces hadvance
        rcases (hlog pid n).mp hn with hold | ⟨-, hnew⟩
        · exact h.unannounced pid _ hproc request before rfl hbefore n hold
        · have hannounces : (Proc.handler request before).announces ≠ none := by simp [hnew]
          exact hpc (hreturned hannounces)
      · intro child hchild request pc heq hpc n hn
        rcases (hlog _ n).mp hn with hold | ⟨hself, -⟩
        · exact Nat.lt_irrefl _ (h.known _ n hold)
        · omega
      · intro i other hne hother request pc heq hpc n hn
        rcases (hlog i n).mp hn with hold | ⟨hself, -⟩
        · exact h.unannounced i other hother request pc heq hpc n hold
        · exact hne hself
      · rw [List.length_append, List.length_set]
        rcases (hlog payload n).mp hn with hold | ⟨hself, -⟩
        · have hknown := h.known payload n hold
          omega
        · omega

/-! ## Steps that keep the id -/

theorem procMove_eq_put {data : NiData} {pid p : Nat} {fails : Bool} {proc : Proc}
    {c : SessionName} (h : procMove data pid fails proc = .put p c) :
    p = pid ∧ ∃ request, proc = .handler request .saveRequest ∧ c = request.pSession := by
  cases proc with
  | handler request pc =>
      cases pc with
      | entered | checkSession | checkSessionEs =>
          simp only [procMove, handlerMove] at h
          split at h <;> cases h
      | saveRequest =>
          simp only [procMove, handlerMove] at h
          split at h <;> cases h
          exact ⟨rfl, request, rfl, rfl⟩
      | _ => cases h
  | thread pSession request pc =>
      simp only [procMove] at h
      split at h <;> cases h
  | restart pc => cases pc <;> cases h
  | init | respond => cases h

/-- A request is in a session after a step if it was before or is saved in the step. -/
theorem raw_step {ni next : NiModule} {pid : Nat} {proc : Proc} {fails : Bool} (h : Ready ni)
    (hstep : Ni.step ni (.run pid fails) = some next) (hproc : ni.procs[pid]? = some proc)
    {name : SessionName} {payload : Nat}
    (hraw : (next.shared.get name).rawRequest = some payload) :
    (ni.shared.get name).rawRequest = some payload ∨ payload = pid ∧
      ∃ request, proc = .handler request .saveRequest ∧ name = request.pSession := by
  obtain ⟨-, hstore, -⟩ := step_store h hstep
  rw [custodyMove, hproc] at hstore
  have hcell : ((store ni).apply (procMove ni.shared pid fails proc)).cell name = some payload := by
    rw [← hstore]
    exact hraw
  rcases cell_apply hcell with hold | ⟨p, c, hput⟩
  · exact .inl hold
  · obtain ⟨rfl, request, rfl, rfl⟩ := procMove_eq_put hput
    rw [hput] at hcell
    rcases Store.update_eq_some.mp hcell with ⟨rfl, hnew⟩ | ⟨-, hold⟩
    · exact .inr ⟨(Option.some.inj hnew).symm, request, rfl, rfl⟩
    · exact .inl hold

/-- A step that moves no payload leaves the sessions their requests. -/
theorem raw_of_idle {ni next : NiModule} {pid : Nat} {proc : Proc} {fails : Bool} (h : Ready ni)
    (hstep : Ni.step ni (.run pid fails) = some next) (hproc : ni.procs[pid]? = some proc)
    (hidle : procMove ni.shared pid fails proc = .idle) (name : SessionName) :
    (next.shared.get name).rawRequest = (ni.shared.get name).rawRequest := by
  obtain ⟨-, hstore, -⟩ := step_store h hstep
  rw [custodyMove, hproc] at hstore
  dsimp only at hstore
  rw [hidle] at hstore
  exact congrFun (congrArg Store.cell hstore) name

/-- The condition is needed. -/
theorem keepsId_of_liveId {ni next : NiModule} {pid : Nat} {proc : Proc} {fails : Bool}
    (h : Ready ni) (hlive : LiveId next) (hstep : Ni.step ni (.run pid fails) = some next)
    (hproc : ni.procs[pid]? = some proc) (hids : Ids ni.shared next.shared pid proc) :
    proc.KeepsId ni.shared pid := by
  have hfits : ∀ pSession reqID, procMove ni.shared pid fails proc = .idle →
      proc.reqIDWritten pSession = some reqID → Fits ni.shared pSession reqID := by
    intro pSession reqID hidle hwritten payload hpayload n hn
    have hraw := (raw_of_idle h hstep hproc hidle pSession).trans (Option.mem_def.mp hpayload)
    have hlog := (hids.announced payload n).mpr (.inl (mem_announced.mp hn))
    rw [← hlive pSession payload hraw n hlog, hids.reqID, hwritten, Option.getD_some]
  cases proc with
  | handler request pc =>
      cases pc with
      | writeReqID count => exact hfits request.pSession count rfl (if_pos rfl)
      | notify notification_id =>
          intro name hself
          have hraw := (raw_of_idle h hstep hproc rfl name).trans hself
          have hlog := (hids.announced pid notification_id).mpr (.inr ⟨rfl, rfl⟩)
          exact (hids.reqID name).symm.trans (hlive name pid hraw notification_id hlog)
      | _ => trivial
  | thread pSession request pc =>
      cases pc with
      | clearReqID msg => exact hfits pSession 0 rfl (if_pos rfl)
      | _ => trivial
  | init | respond | restart => trivial

/-- What the step writes over a request in a session is the id it was announced under. -/
theorem Proc.KeepsId.reqIDWritten {data : NiData} {pid : Nat} {proc : Proc}
    (h : proc.KeepsId data pid) {name : SessionName} {reqID : Int}
    (hwritten : proc.reqIDWritten name = some reqID) : Fits data name reqID := by
  cases proc with
  | handler request pc =>
      cases pc with
      | writeReqID count =>
          simp only [Proc.reqIDWritten] at hwritten
          split at hwritten
          · rename_i heq
            obtain rfl := Option.some.inj hwritten
            exact heq ▸ h
          · cases hwritten
      | _ => cases hwritten
  | thread pSession request pc =>
      cases pc with
      | clearReqID msg =>
          simp only [Proc.reqIDWritten] at hwritten
          split at hwritten
          · rename_i heq
            obtain rfl := Option.some.inj hwritten
            exact heq ▸ h
          · cases hwritten
      | _ => cases hwritten
  | init | respond | restart => cases hwritten

theorem Proc.KeepsId.announces {data : NiData} {pid : Nat} {proc : Proc}
    (h : proc.KeepsId data pid) {n : Int} (hannounces : proc.announces = some n)
    {name : SessionName} (hself : (data.get name).rawRequest = some pid) :
    (data.get name).reqID = n ∧ proc.reqIDWritten name = none := by
  cases proc with
  | handler request pc =>
      cases pc with
      | notify notification_id =>
          obtain rfl := Option.some.inj hannounces
          exact ⟨h name hself, rfl⟩
      | _ => cases hannounces
  | init | thread | respond | restart => cases hannounces

/-- The condition is enough. -/
theorem liveId_of_keepsId {ni next : NiModule} {pid : Nat} {proc : Proc} {fails : Bool}
    (h : Traced ni) (hlive : LiveId ni) (hstep : Ni.step ni (.run pid fails) = some next)
    (hproc : ni.procs[pid]? = some proc) (hids : Ids ni.shared next.shared pid proc)
    (hkeeps : proc.KeepsId ni.shared pid) : LiveId next := by
  intro name payload hraw n hn
  rw [hids.reqID]
  rcases raw_step h.ready hstep hproc hraw with hold | ⟨rfl, request, rfl, rfl⟩
  · rcases (hids.announced payload n).mp hn with hlog | ⟨rfl, hannounces⟩
    · cases hwritten : proc.reqIDWritten name with
      | none => exact hlive name payload hold n hlog
      | some reqID => exact hkeeps.reqIDWritten hwritten payload hold n (mem_announced.mpr hlog)
    · obtain ⟨hreqID, hnone⟩ := hkeeps.announces hannounces hold
      rw [hnone, Option.getD_none, hreqID]
  -- the handler saves its request before it announces it
  · rcases (hids.announced payload n).mp hn with hlog | ⟨-, hannounces⟩
    · exact absurd hlog (h.unannounced payload _ hproc request _ rfl (by rintro ⟨⟩) n)
    · cases hannounces

theorem liveId_step_iff {ni next : NiModule} {label : Move Call} (h : Traced ni)
    (hlive : LiveId ni) (hstep : Ni.step ni label = some next) :
    LiveId next ↔ KeepsId ni label := by
  cases label with
  | call request =>
      obtain rfl := Option.some.inj hstep
      refine iff_of_true (fun name payload hraw n hn => ?_) trivial
      cases request with
      | respond notif_id user_response =>
          simp only [program, call, NiData.get_emit] at hraw ⊢
          refine hlive name payload hraw n ?_
          simpa [program, call] using hn
      | init | request | restart => exact hlive name payload hraw n hn
  | run pid fails =>
      obtain ⟨proc, shared, after, started, hproc, hadvance, hnext⟩ :=
        Pool.step_run_eq_some.mp hstep
      rw [KeepsId, hproc]
      simp only [Option.mem_some_iff, forall_eq']
      obtain rfl : next.shared = shared := by rw [hnext]
      rcases advance_ids hadvance with hids | ⟨callbacks, rfl⟩
      · exact ⟨fun hlive' => keepsId_of_liveId h.ready hlive' hstep hproc hids,
          liveId_of_keepsId h hlive hstep hproc hids⟩
      · refine iff_of_true (fun name payload hraw n hn => ?_) trivial
        have hidle := raw_of_idle h.ready hstep hproc rfl
        rw [hidle] at hraw
        have hcb := h.ready.saved name payload hraw
        have hsame : next.shared = ni.shared :=
          (congrArg Prod.fst (Option.some.inj hadvance)).symm.trans
            (initStep_of_callback hcb callbacks)
        rw [hsame] at hn ⊢
        exact hlive name payload hraw n hn

/-! ## A schedule that keeps the ids -/

/-- The handler has saved its request and not yet announced it. -/
def HandlerPc.numbers : HandlerPc → Bool
  | .notify _ => true
  | pc => pc.holds

/-- The thread has ended its wait and not yet cleared the id. -/
def ThreadPc.clears : ThreadPc → Bool
  | .clearTimeLeft _ | .clearReqID _ => true
  | _ => false

/-- The process is on the way to a write of the session's `reqID` or to its announcement. -/
def Proc.numbers (pSession : SessionName) : Proc → Bool
  | .handler request pc => decide (request.pSession = pSession) && pc.numbers
  | .thread name _ pc => decide (name = pSession) && pc.clears
  | _ => false

/-- The session in which the process saves its request now. -/
def Proc.saves : Proc → Option SessionName
  | .handler request .saveRequest => some request.pSession
  | _ => none

/-- A request is saved only in a session that nobody is numbering. -/
def SavedAfter (ni : NiModule) : Move Call → Prop
  | .call _ => True
  | .run pid _ => ∀ proc ∈ ni.procs[pid]?, ∀ pSession ∈ proc.saves,
      ∀ other ∈ ni.procs, other.numbers pSession = false

instance (ni : NiModule) : ∀ label, Decidable (SavedAfter ni label)
  | .call _ => isTrue trivial
  | .run pid _ =>
      inferInstanceAs (Decidable (∀ proc ∈ ni.procs[pid]?, ∀ pSession ∈ proc.saves,
        ∀ other ∈ ni.procs, other.numbers pSession = false))

/-- The id that the handler has filled in the notification. -/
def HandlerPc.filled : HandlerPc → Option Int
  | .setTimeLeft notification_id | .createThread notification_id | .notify notification_id =>
      some notification_id
  | _ => none

structure HandlerNumbers (data : NiData) (pid : Nat) (request : Request) (pc : HandlerPc) :
    Prop where
  own : ∀ name, (data.get name).rawRequest = some pid → name = request.pSession
  carries : pc.numbers = true → Carries data request.pSession pid
  filled : ∀ n ∈ pc.filled, (data.get request.pSession).rawRequest = some pid →
    (data.get request.pSession).reqID = n

/-- The session of a handler that numbers it has no other request, and that of a thread
which is about to clear the id has none. -/
def Proc.Numbers (data : NiData) (pid : Nat) : Proc → Prop
  | .handler request pc => HandlerNumbers data pid request pc
  | .thread pSession _ pc => pc.clears = true → (data.get pSession).rawRequest = none
  | _ => True

structure Numbered (ni : NiModule) : Prop where
  traced : Traced ni
  wellFormed : (store ni).WellFormed
  procs : ni.Each fun data pid proc => proc.Numbers data pid

theorem loaded_numbered : Numbered loaded where
  traced := loaded_traced
  wellFormed := loaded_wellFormed
  procs := nofun

theorem Numbered.proc_keepsId {ni : NiModule} {pid : Nat} {proc : Proc} (h : Numbered ni)
    (hproc : ni.procs[pid]? = some proc) : proc.KeepsId ni.shared pid := by
  have hnumbers := h.procs pid proc hproc
  cases proc with
  | handler request pc =>
      have hhandler : HandlerNumbers ni.shared pid request pc := hnumbers
      cases pc with
      | writeReqID count =>
          intro payload hpayload n hn
          obtain rfl := hhandler.carries rfl payload hpayload
          exact absurd (mem_announced.mp hn)
            (h.traced.unannounced payload _ hproc request _ rfl nofun n)
      | notify notification_id =>
          intro name hself
          obtain rfl := hhandler.own name hself
          exact hhandler.filled _ rfl hself
      | _ => trivial
  | thread pSession request pc =>
      cases pc with
      | clearReqID msg =>
          intro payload hpayload
          cases (hnumbers rfl).symm.trans hpayload
      | _ => trivial
  | init | respond | restart => trivial

theorem Numbered.keepsId {ni : NiModule} (h : Numbered ni) (label : Move Call) :
    KeepsId ni label := by
  cases label with
  | call request => trivial
  | run pid fails => exact fun proc hproc => h.proc_keepsId hproc

theorem HandlerNumbers.of_same {data next : NiData} {pid : Nat} {request : Request}
    {pc after : HandlerPc} (h : HandlerNumbers data pid request pc)
    (hraw : ∀ name, (next.get name).rawRequest = (data.get name).rawRequest)
    (hnumbers : after.numbers = true → pc.numbers = true)
    (hfilled : ∀ n ∈ after.filled, (data.get request.pSession).rawRequest = some pid →
      (next.get request.pSession).reqID = n) : HandlerNumbers next pid request after where
  own name hself := h.own name ((hraw name).symm.trans hself)
  carries hafter payload hpayload := by
    rw [hraw] at hpayload
    exact h.carries (hnumbers hafter) payload hpayload
  filled n hn hself := hfilled n hn ((hraw _).symm.trans hself)

theorem HandlerNumbers.of_unfilled {data next : NiData} {pid : Nat} {request : Request}
    {pc after : HandlerPc} (h : HandlerNumbers data pid request pc)
    (hraw : ∀ name, (next.get name).rawRequest = (data.get name).rawRequest)
    (hnumbers : after.numbers = true → pc.numbers = true) (hfilled : after.filled = none) :
    HandlerNumbers next pid request after := by
  refine h.of_same hraw hnumbers fun n hn => ?_
  rw [hfilled] at hn
  cases hn

theorem HandlerNumbers.of_done {data next : NiData} {pid : Nat} {request : Request}
    {pc after : HandlerPc} (h : HandlerNumbers data pid request pc)
    (hraw : ∀ name, (next.get name).rawRequest = (data.get name).rawRequest)
    (hnumbers : after.numbers = false) (hfilled : after.filled = none) :
    HandlerNumbers next pid request after := by
  refine h.of_unfilled hraw (fun hafter => ?_) hfilled
  cases hnumbers.symm.trans hafter

theorem handlerStep_numbers {data next : NiData} {pid : Nat} {request : Request} {fails : Bool}
    {pc after : HandlerPc} {started : Option Proc} (h : HandlerNumbers data pid request pc)
    (hstep : handlerStep data pid request fails pc = some (next, after, started)) :
    HandlerNumbers next pid request after := by
  cases pc with
  | entered =>
      simp only [handlerStep] at hstep
      split at hstep <;> cases hstep
      · split
        · exact h.of_done (fun _ => rfl) rfl rfl
        · exact h.of_done (fun _ => rfl) rfl rfl
      · exact h.of_done (fun _ => rfl) rfl rfl
  | checkSession | checkSessionEs =>
      simp only [handlerStep, ignoreRequest] at hstep
      split at hstep <;> cases hstep
      · split
        · exact h.of_done (fun _ => by rw [NiData.get_emit]) rfl rfl
        · exact h.of_done (fun _ => rfl) rfl rfl
      · exact h.of_done (fun _ => rfl) rfl rfl
  | saveRequest =>
      cases hstep
      refine ⟨fun name hself => ?_, fun _ payload hpayload => ?_, fun n hn => by cases hn⟩
      · rw [raw_put] at hself
        rcases Store.update_eq_some.mp hself with ⟨hname, -⟩ | ⟨-, hold⟩
        · exact hname
        · exact h.own name hold
      · rw [NiData.get_put_self] at hpayload
        split at hpayload <;> cases hpayload
        rfl
  | readCounter =>
      cases hstep
      exact h.of_unfilled (fun _ => rfl) id rfl
  | writeCounter count =>
      cases hstep
      exact h.of_unfilled (fun name => by cases name <;> rfl) id rfl
  | writeReqID count =>
      cases hstep
      exact h.of_unfilled (raw_put_same _ _ rfl) id rfl
  | fillNotification =>
      cases hstep
      refine h.of_same (fun _ => by rw [NiData.get_emit]) id fun n hn _ => ?_
      rw [NiData.get_emit]
      exact Option.some.inj hn
  | setTimeLeft notification_id =>
      cases hstep
      refine h.of_same (raw_put_same _ _ rfl) id fun n hn hself => ?_
      refine (reqID_put_same _ _ ?_ _).trans (h.filled n hn hself)
      rfl
  | createThread notification_id =>
      cases hstep
      exact h.of_same (fun _ => rfl) (fun _ => rfl) h.filled
  | notify notification_id =>
      cases hstep
      exact h.of_done (fun _ => by rw [NiData.get_emit]) rfl rfl
  | returned => cases hstep

theorem raw_finish (data : NiData) (pSession : SessionName) :
    ((finish data pSession).1.get pSession).rawRequest = none := by
  unfold finish
  dsimp only
  split
  · rw [NiData.get_put_self]
  · split
    · rw [NiData.get_put_self]
    · rw [NiData.get_emit, NiData.get_put_self]

theorem threadStep_numbers {data next : NiData} {pSession : SessionName} {request : Nat}
    {fails : Bool} {pc after : ThreadPc}
    (h : pc.clears = true → (data.get pSession).rawRequest = none)
    (hstep : threadStep data pSession request fails pc = some (next, after))
    (hafter : after.clears = true) : (next.get pSession).rawRequest = none := by
  cases pc with
  | started =>
      simp only [threadStep] at hstep
      split at hstep
      · obtain ⟨rfl, -⟩ := Prod.mk.inj (Option.some.inj hstep)
        exact raw_finish _ _
      · obtain ⟨-, rfl⟩ := Prod.mk.inj (Option.some.inj hstep)
        cases hafter
  | waiting respTimeLeft =>
      simp only [threadStep] at hstep
      split at hstep
      · obtain ⟨rfl, -⟩ := Prod.mk.inj (Option.some.inj hstep)
        exact raw_finish _ _
      · split at hstep
        · obtain ⟨rfl, -⟩ := Prod.mk.inj (Option.some.inj hstep)
          exact raw_finish _ _
        · obtain ⟨-, rfl⟩ := Prod.mk.inj (Option.some.inj hstep)
          cases hafter
  | clearTimeLeft msg =>
      obtain ⟨rfl, -⟩ := Prod.mk.inj (Option.some.inj hstep)
      refine (raw_put_same _ _ ?_ _).trans (h rfl)
      rfl
  | clearReqID msg =>
      obtain ⟨-, rfl⟩ := Prod.mk.inj (Option.some.inj hstep)
      cases hafter
  | sendMsg msg =>
      cases msg with
      | none | some msg =>
          obtain ⟨-, rfl⟩ := Prod.mk.inj (Option.some.inj hstep)
          cases hafter
  | exited => cases hstep

theorem advance_numbers {data next : NiData} {pid : Nat} {proc after : Proc} {fails : Bool}
    {started : Option Proc} (h : proc.Numbers data pid)
    (hstep : advance data pid proc fails = some (next, after, started)) :
    after.Numbers next pid := by
  cases advance_cases hstep with
  | handler hhandler => exact handlerStep_numbers h hhandler
  | thread hthread => exact threadStep_numbers h hthread
  | init | respond | restart => trivial

/-- A process that writes a `reqID` finds no request of another in the session. -/
theorem Proc.Numbers.reqIDWritten {data : NiData} {pid : Nat} {proc : Proc}
    (h : proc.Numbers data pid) {name : SessionName} {reqID : Int}
    (hwritten : proc.reqIDWritten name = some reqID) : Carries data name pid := by
  cases proc with
  | handler request pc =>
      cases pc with
      | writeReqID count =>
          simp only [Proc.reqIDWritten] at hwritten
          split at hwritten
          · rename_i heq
            exact heq ▸ HandlerNumbers.carries h rfl
          · cases hwritten
      | _ => cases hwritten
  | thread pSession request pc =>
      cases pc with
      | clearReqID msg =>
          simp only [Proc.reqIDWritten] at hwritten
          split at hwritten
          · rename_i heq
            intro payload hpayload
            rw [heq] at hpayload
            cases (h rfl).symm.trans hpayload
          · cases hwritten
      | _ => cases hwritten
  | init | respond | restart => cases hwritten

/-- The requests of the others keep the `reqID` of their sessions. -/
theorem Numbered.reqID_step {ni next : NiModule} {pid i : Nat} {fails : Bool} (h : Numbered ni)
    (hstep : Ni.step ni (.run pid fails) = some next) (hne : i ≠ pid) {name : SessionName}
    (hraw : (next.shared.get name).rawRequest = some i) :
    (next.shared.get name).reqID = (ni.shared.get name).reqID := by
  obtain ⟨proc, shared, after, started, hproc, hadvance, hnext⟩ :=
    Pool.step_run_eq_some.mp hstep
  obtain rfl : next.shared = shared := by rw [hnext]
  have hold := (raw_step h.traced.ready hstep hproc hraw).resolve_right fun hnew => hne hnew.1
  rcases advance_ids hadvance with hids | ⟨callbacks, rfl⟩
  · rw [hids.reqID]
    cases hwritten : proc.reqIDWritten name with
    | none => rfl
    | some reqID => exact absurd ((h.procs pid proc hproc).reqIDWritten hwritten i hold) hne
  · have hcb := h.traced.ready.saved name i hold
    have hsame : next.shared = ni.shared :=
      (congrArg Prod.fst (Option.some.inj hadvance)).symm.trans
        (initStep_of_callback hcb callbacks)
    rw [hsame]

/-- What the others number stays as it is. -/
theorem Proc.Numbers.other {data next : NiData} {i : Nat} {proc : Proc} (h : proc.Numbers data i)
    (hraw : ∀ name payload, (next.get name).rawRequest = some payload →
      (data.get name).rawRequest = some payload ∨ payload ≠ i ∧ proc.numbers name = false)
    (hreqID : ∀ name, (next.get name).rawRequest = some i →
      (next.get name).reqID = (data.get name).reqID) : proc.Numbers next i := by
  have hself : ∀ name, (next.get name).rawRequest = some i →
      (data.get name).rawRequest = some i :=
    fun name hnext => (hraw name i hnext).resolve_right fun hnew => hnew.1 rfl
  cases proc with
  | handler request pc =>
      have hhandler : HandlerNumbers data i request pc := h
      refine HandlerNumbers.mk (fun name hnext => hhandler.own name (hself name hnext))
        (fun hpc payload hpayload => ?_) fun n hn hnext => ?_
      · rcases hraw _ payload hpayload with hold | ⟨-, hnumbers⟩
        · exact hhandler.carries hpc payload hold
        · simp [Proc.numbers, hpc] at hnumbers
      · rw [hreqID _ hnext]
        exact hhandler.filled n hn (hself _ hnext)
  | thread pSession request pc =>
      intro hpc
      refine Option.eq_none_iff_forall_ne_some.mpr fun payload hpayload => ?_
      rcases hraw _ payload hpayload with hold | ⟨-, hnumbers⟩
      · cases (h hpc).symm.trans hold
      · simp [Proc.numbers, hpc] at hnumbers
  | init | respond | restart => trivial

theorem Numbered.step {ni next : NiModule} {label : Move Call} (h : Numbered ni)
    (hsaved : SavedAfter ni label) (hstep : Ni.step ni label = some next) : Numbered next := by
  obtain ⟨-, hstore, henabled⟩ := step_store h.traced.ready hstep
  refine ⟨h.traced.step hstep, hstore ▸ h.wellFormed.apply henabled, ?_⟩
  cases label with
  | call request =>
      obtain rfl := Option.some.inj hstep
      have hsame : ∀ name, (call ni.shared request).1.get name = ni.shared.get name := by
        intro name
        cases request with
        | respond => exact NiData.get_emit _ _ _
        | init | request | restart => rfl
      refine .call ?_ fun i other hother => (h.procs i other hother).other
        (fun name payload hraw => .inl ?_) fun name _ => ?_
      · cases request with
        | request request =>
            refine HandlerNumbers.mk (fun name hself => ?_) (fun hpc => by cases hpc)
              (fun n hn => by cases hn)
            have hknown : At ni Proc.carries ni.procs.length = true :=
              h.wellFormed.held_known _ name hself
            rw [At, List.getElem?_eq_none le_rfl] at hknown
            cases hknown
        | init | respond | restart => trivial
      · exact (congrArg NiSession.rawRequest (hsame name)).symm.trans hraw
      · exact congrArg NiSession.reqID (hsame name)
  | run pid fails =>
      obtain ⟨proc, shared, after, started, hproc, hadvance, hnext⟩ :=
        Pool.step_run_eq_some.mp hstep
      obtain rfl : next.shared = shared := by rw [hnext]
      rw [hnext]
      refine .run (advance_numbers (h.procs pid proc hproc) hadvance) (fun child hchild => ?_)
        fun i other hi hother => ?_
      · subst hchild
        obtain ⟨pSession, rfl⟩ := advance_started hadvance
        intro hclears
        cases hclears
      · refine (h.procs i other hother).other (fun name payload hpayload => ?_)
          fun name => h.reqID_step hstep hi
        rcases raw_step h.traced.ready hstep hproc hpayload with hold | ⟨rfl, request, rfl, rfl⟩
        · exact .inl hold
        · have hfree := hsaved _ hproc request.pSession rfl
          exact .inr ⟨hi.symm, hfree other (List.mem_of_getElem? hother)⟩

/-! ## Runs -/

/-- In every run, the announced requests in the sessions have their ids throughout if and
only if every step keeps them. They do when a request is saved only after the handler of
the one before has announced it and its thread has cleared the id. -/
theorem live_id_iff {labels : List (Move Call)} {final : NiModule}
    (hrun : exec step loaded labels = some final) :
    (Always step LiveId loaded labels ↔ Along step KeepsId loaded labels) ∧
      (Along step SavedAfter loaded labels → Along step KeepsId loaded labels) := by
  constructor
  · have hinit : LiveId loaded := fun name payload h => by cases name <;> cases h
    exact always_iff_of_step (fun _ _ _ h hstep => Traced.step h hstep)
      (fun _ _ _ h hlive hstep => liveId_step_iff h hlive hstep) loaded_traced hinit hrun
  · exact Along.imp (I := Numbered)
      (fun _ _ _ h hsaved hstep => ⟨h.step hsaved hstep, h.keepsId _⟩) loaded_numbered hrun

theorem live_id_iff_in_time : Always step LiveId loaded acceptInTime := by
  have hany : (exec step loaded acceptInTime).isSome = true := by decide +kernel
  obtain ⟨final, hrun⟩ := Option.isSome_iff_exists.mp hany
  obtain ⟨hiff, hkeeps⟩ := live_id_iff hrun
  exact hiff.mpr (hkeeps (by decide +kernel))

/-- A request times out, and the next one comes before the old thread has cleared the id. -/
def clearedTooLate : List (Move Call) :=
  waitingForUser ++ [.run 2 true, .run 2 false, .call (.request ⟨false, 20, true⟩)] ++
    List.replicate 11 (.run 3 false) ++ [.run 2 false]

/-- The user is told of the request under the id 2, and its session has the id 0. -/
theorem live_id_cleared :
    ¬ ∀ (labels : List (Move Call)) (final : NiModule),
      exec step loaded labels = some final → LiveId final := by
  intro hall
  have hany : (exec step loaded clearedTooLate).any (fun final =>
      decide (final.shared.session.rawRequest = some 3 ∧
        Effect.notifyCb 3 2 ∈ final.shared.log ∧ final.shared.session.reqID = 0)) = true := by
    decide +kernel
  obtain ⟨final, hrun, hfinal⟩ := (Option.any_eq_true _ _).mp hany
  obtain ⟨hraw, hnotified, hreqID⟩ := of_decide_eq_true hfinal
  cases hreqID.symm.trans (hall _ final hrun .session 3 hraw 2 hnotified)

end Msm8916.Ni
