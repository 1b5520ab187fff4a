import Msm8916.Ni.Session

/-!
Who a session belongs to. The session record is reused by the next request, so
an answer, a timeout or a restart that comes late may fall into the next
session. The invariant below says that none has, and the changes below interfere
with no process.
-/

namespace Msm8916.Ni

open Transition

/-! ## Who a session belongs to -/

/-- The handler has saved its request and has not created the thread. -/
def HandlerPc.holds : HandlerPc → Bool
  | .readCounter | .writeCounter _ | .writeReqID _ | .fillNotification => true
  | .setTimeLeft _ | .createThread _ => true
  | .entered | .checkSession | .checkSessionEs | .saveRequest | .notify _ | .returned => false

/-- The thread has not taken the response. -/
def ThreadPc.holds : ThreadPc → Bool
  | .started | .waiting _ => true
  | .clearTimeLeft _ | .clearReqID _ | .sendMsg _ | .exited => false

/-- The process is about to use what the session record holds. -/
def Proc.Busy (pSession : SessionName) : Proc → Bool
  | .handler request pc => decide (request.pSession = pSession) && pc.holds
  | .thread name _ pc => decide (name = pSession) && pc.holds
  | .restart (.wake name) => decide (name = pSession)
  | _ => false

/-- Nothing of an earlier request is left in the session. -/
def Quiet (ni : NiModule) (pSession : SessionName) : Prop :=
  (ni.shared.get pSession).respRecvd = false ∧
    ∀ proc ∈ ni.procs, proc.Busy pSession = false

/-- A request is saved in a quiet session only, and a response is written into
no session of another request. -/
def Guarded (ni : NiModule) : Move Call → Prop
  | .call _ => True
  | .run pid _ =>
      match ni.procs[pid]? with
      | some (.handler request .saveRequest) => Quiet ni request.pSession
      | some (.respond notif_id _ (.respond pSession)) =>
          ∀ payload ∈ (ni.shared.get pSession).rawRequest,
            Effect.notificationId payload notif_id ∈ ni.shared.log
      | _ => True

instance (ni : NiModule) (pSession : SessionName) : Decidable (Quiet ni pSession) :=
  inferInstanceAs (Decidable (_ ∧ _))

instance (ni : NiModule) : ∀ label, Decidable (Guarded ni label)
  | .call _ => isTrue trivial
  | .run pid _ => by
      unfold Guarded
      dsimp only
      split <;> infer_instance

/-! ## The invariant -/

/-- A response that was given for the request's own notification id. -/
def Given (log : List Effect) (request : Nat) (resp : GpsUserResponseType) : Prop :=
  ∃ n, Effect.notificationId request n ∈ log ∧ Effect.respond n resp ∈ log

/-- An answer the request may get. -/
def Answers (log : List Effect) (request : Nat) (resp : GpsUserResponseType) : Prop :=
  ∃ n, Effect.notificationId request n ∈ log ∧
    (Effect.respond n resp ∈ log ∨
      resp = gpsNiResponseNoresp ∧ Effect.timedOut request ∈ log)

/-- The session holds no payload but that of `request`. -/
def Carries (data : NiData) (pSession : SessionName) (request : Nat) : Prop :=
  ∀ payload ∈ (data.get pSession).rawRequest, payload = request

/-- The handler has not filled in the notification id. -/
def HandlerPc.unnumbered : HandlerPc → Bool
  | .setTimeLeft _ | .createThread _ | .notify _ | .returned => false
  | _ => true

/-- The handler has filled in the notification id and has not created the
thread. -/
def HandlerPc.numbered : HandlerPc → Bool
  | .setTimeLeft _ | .createThread _ => true
  | _ => false

/-- The message a thread has put together. -/
def ThreadPc.msg : ThreadPc → Option (GpsUserResponseType × Nat)
  | .clearTimeLeft msg | .clearReqID msg | .sendMsg msg => msg
  | .started | .waiting _ | .exited => none

structure HandlerSound (data : NiData) (pid : Nat) (request : Request) (pc : HandlerPc) :
    Prop where
  unnumbered : pc.unnumbered = true → ∀ n, Effect.notificationId pid n ∉ data.log
  numbered : pc.numbered = true → ∃ n, Effect.notificationId pid n ∈ data.log
  carries : pc.holds = true → Carries data request.pSession pid

structure ThreadSound (data : NiData) (pSession : SessionName) (request : Nat)
    (pc : ThreadPc) : Prop where
  numbered : ∃ n, Effect.notificationId request n ∈ data.log
  carries : pc.holds = true → Carries data pSession request
  msg : ∀ msg ∈ pc.msg, Answers data.log msg.2 msg.1

def Proc.Sound (data : NiData) (pid : Nat) : Proc → Prop
  | .init .. => True
  | .handler request pc => HandlerSound data pid request pc
  | .thread pSession request pc => ThreadSound data pSession request pc
  | .respond notif_id user_response _ => Effect.respond notif_id user_response ∈ data.log
  | .restart (.wake pSession) => (data.get pSession).rawRequest = none
  | .restart _ => True

/-- A response the thread of a session will take is for the payload it will take. -/
def Answered (data : NiData) : Prop :=
  ∀ pSession, ∀ payload ∈ (data.get pSession).rawRequest,
    (data.get pSession).respRecvd = true →
      (data.get pSession).resp = gpsNiResponseIgnore ∨
        Given data.log payload (data.get pSession).resp

structure Integrity (ni : NiModule) : Prop where
  procs : ni.Each fun data pid proc => proc.Sound data pid
  known : ∀ request n, Effect.notificationId request n ∈ ni.shared.log →
    request < ni.procs.length
  once : ∀ request m n, Effect.notificationId request m ∈ ni.shared.log →
    Effect.notificationId request n ∈ ni.shared.log → m = n
  answered : Answered ni.shared
  sent : ∀ resp payload, Effect.informNiResponse resp payload ∈ ni.shared.log →
    Answers ni.shared.log payload resp

/-! ## Steps that interfere with nobody -/

/-- An effect that neither numbers a request nor answers one. -/
def Effect.isQuiet : Effect → Bool
  | .notificationId .. | .informNiResponse .. => false
  | .respond .. | .timedOut _ | .notifyCb .. | .free _ => true

theorem Given.append {log : List Effect} {request : Nat} {resp : GpsUserResponseType}
    (h : Given log request resp) (more : List Effect) : Given (log ++ more) request resp := by
  obtain ⟨n, hid, hgiven⟩ := h
  exact ⟨n, List.mem_append_left _ hid, List.mem_append_left _ hgiven⟩

theorem Given.answers {log : List Effect} {request : Nat} {resp : GpsUserResponseType}
    (h : Given log request resp) : Answers log request resp := by
  obtain ⟨n, hid, hgiven⟩ := h
  exact ⟨n, hid, .inl hgiven⟩

theorem Answers.append {log : List Effect} {request : Nat} {resp : GpsUserResponseType}
    (h : Answers log request resp) (more : List Effect) :
    Answers (log ++ more) request resp := by
  obtain ⟨n, hid, hgiven | ⟨hresp, htimedOut⟩⟩ := h
  · exact ⟨n, List.mem_append_left _ hid, .inl (List.mem_append_left _ hgiven)⟩
  · exact ⟨n, List.mem_append_left _ hid, .inr ⟨hresp, List.mem_append_left _ htimedOut⟩⟩

/-- `next` comes from `data` by effects that number `pid` at most and by
sessions that give payloads up. -/
structure Extends (data next : NiData) (pid : Nat) : Prop where
  log : ∃ more, next.log = data.log ++ more
  ids : ∀ n, Effect.notificationId pid n ∈ next.log → Effect.notificationId pid n ∈ data.log
  raw : ∀ pSession, ∀ payload ∈ (next.get pSession).rawRequest,
    payload ∈ (data.get pSession).rawRequest

theorem Carries.extends {data next : NiData} {pid : Nat} {pSession : SessionName}
    {request : Nat} (h : Carries data pSession request) (hnext : Extends data next pid) :
    Carries next pSession request :=
  fun payload hpayload => h payload (hnext.raw pSession payload hpayload)

theorem HandlerSound.extends {data next : NiData} {pid : Nat} {request : Request}
    {pc : HandlerPc} (h : HandlerSound data pid request pc) (hnext : Extends data next pid) :
    HandlerSound next pid request pc where
  unnumbered hpc n hid := h.unnumbered hpc n (hnext.ids n hid)
  numbered hpc := by
    obtain ⟨n, hid⟩ := h.numbered hpc
    obtain ⟨more, hlog⟩ := hnext.log
    exact ⟨n, by rw [hlog]; exact List.mem_append_left _ hid⟩
  carries hpc := (h.carries hpc).extends hnext

theorem ThreadSound.extends {data next : NiData} {pid : Nat} {pSession : SessionName}
    {request : Nat} {pc : ThreadPc} (h : ThreadSound data pSession request pc)
    (hnext : Extends data next pid) : ThreadSound next pSession request pc := by
  obtain ⟨more, hlog⟩ := hnext.log
  obtain ⟨n, hid⟩ := h.numbered
  refine ⟨⟨n, by rw [hlog]; exact List.mem_append_left _ hid⟩, ?_, ?_⟩
  · exact fun hpc => (h.carries hpc).extends hnext
  · intro msg hmsg
    rw [hlog]
    exact (h.msg msg hmsg).append more

theorem Proc.Sound.extends {data next : NiData} {pid : Nat} {proc : Proc}
    (h : proc.Sound data pid) (hnext : Extends data next pid) : proc.Sound next pid := by
  cases proc with
  | init => trivial
  | handler request pc => exact HandlerSound.extends h hnext
  | thread pSession request pc => exact ThreadSound.extends h hnext
  | respond notif_id user_response pc =>
      obtain ⟨more, hlog⟩ := hnext.log
      rw [Sound, hlog]
      exact List.mem_append_left _ h
  | restart pc =>
      cases pc with
      | wake pSession =>
          refine Option.eq_none_iff_forall_not_mem.mpr fun payload hpayload => ?_
          have hold := hnext.raw pSession payload hpayload
          rw [show (data.get pSession).rawRequest = none from h] at hold
          cases hold
      | _ => trivial

/-- A change to the memory after which every answer still has its request. -/
structure Keeps (data next : NiData) : Prop where
  log : ∃ more, next.log = data.log ++ more ∧ ∀ effect ∈ more, effect.isQuiet = true
  raw : ∀ pSession, ∀ payload ∈ (next.get pSession).rawRequest,
    payload ∈ (data.get pSession).rawRequest
  answered : Answered data → Answered next

theorem Keeps.refl (data : NiData) : Keeps data data :=
  ⟨⟨[], by simp, by simp⟩, fun _ _ h => h, id⟩

theorem Keeps.mem_log {data next : NiData} (h : Keeps data next) {effect : Effect}
    (heffect : effect.isQuiet = false) : effect ∈ next.log ↔ effect ∈ data.log := by
  obtain ⟨more, hlog, hquiet⟩ := h.log
  rw [hlog, List.mem_append, or_iff_left]
  intro hmem
  rw [hquiet effect hmem] at heffect
  cases heffect

theorem Keeps.extends {data next : NiData} (h : Keeps data next) (pid : Nat) :
    Extends data next pid := by
  obtain ⟨more, hlog, -⟩ := h.log
  exact ⟨⟨more, hlog⟩, fun n hid => (h.mem_log rfl).mp hid, h.raw⟩

/-- A change of one session and quiet effects. -/
theorem keeps_of_get {data next : NiData} (pSession : SessionName)
    (hlog : ∃ more, next.log = data.log ++ more ∧ ∀ effect ∈ more, effect.isQuiet = true)
    (hother : ∀ name, name ≠ pSession → next.get name = data.get name)
    (hraw : ∀ payload ∈ (next.get pSession).rawRequest,
      payload ∈ (data.get pSession).rawRequest)
    (hanswered : ∀ payload ∈ (next.get pSession).rawRequest,
      (next.get pSession).respRecvd = true →
      (next.get pSession).resp = (data.get pSession).resp ∧
          (data.get pSession).respRecvd = true ∨
        (next.get pSession).resp = gpsNiResponseIgnore ∨
        Given data.log payload (next.get pSession).resp) :
    Keeps data next := by
  refine ⟨hlog, fun name payload hpayload => ?_, fun h name payload hpayload hrecvd => ?_⟩
  · by_cases hname : name = pSession
    · subst hname
      exact hraw payload hpayload
    · rwa [hother name hname] at hpayload
  · obtain ⟨more, hmore, -⟩ := hlog
    rw [hmore]
    by_cases hname : name = pSession
    · subst hname
      rcases hanswered payload hpayload hrecvd with ⟨hresp, hold⟩ | hignore | hgiven
      · rw [hresp]
        exact (h name payload (hraw payload hpayload) hold).imp_right (·.append more)
      · exact .inl hignore
      · exact .inr (hgiven.append more)
    · rw [hother name hname] at hpayload hrecvd ⊢
      exact (h name payload hpayload hrecvd).imp_right (·.append more)

theorem emit_keeps (data : NiData) {effect : Effect} (h : effect.isQuiet = true) :
    Keeps data (data.emit effect) := by
  refine ⟨⟨[effect], rfl, by simpa using h⟩, fun name payload hpayload => ?_,
    fun hold name payload hpayload hrecvd => ?_⟩
  · rwa [NiData.get_emit] at hpayload
  · rw [NiData.get_emit] at hpayload hrecvd ⊢
    exact (hold name payload hpayload hrecvd).imp_right (·.append [effect])

theorem put_keeps (data : NiData) (pSession : SessionName) {s : NiSession}
    (hraw : ∀ payload ∈ s.rawRequest, payload ∈ (data.get pSession).rawRequest)
    (hanswered : ∀ payload ∈ s.rawRequest, s.respRecvd = true →
      s.resp = (data.get pSession).resp ∧ (data.get pSession).respRecvd = true ∨
        s.resp = gpsNiResponseIgnore ∨ Given data.log payload s.resp) :
    Keeps data (data.put pSession s) := by
  refine keeps_of_get pSession ⟨[], by simp, by simp⟩ (fun name hname => ?_) ?_ ?_
  · exact data.get_put_of_ne s hname
  · rwa [NiData.get_put_self]
  · rwa [NiData.get_put_self]

/-- A write to fields that no answer depends on. -/
theorem put_same_keeps (data : NiData) (pSession : SessionName) {s : NiSession}
    (hraw : s.rawRequest = (data.get pSession).rawRequest)
    (hrecvd : s.respRecvd = (data.get pSession).respRecvd)
    (hresp : s.resp = (data.get pSession).resp) : Keeps data (data.put pSession s) := by
  refine put_keeps data pSession (fun payload hpayload => ?_) fun _ _ hset => .inl ⟨hresp, ?_⟩
  · rwa [hraw] at hpayload
  · rwa [hrecvd] at hset

/-- The end of a session takes its payload, whatever was written to the session
in the same section. -/
theorem finish_keeps {data before : NiData} {pSession : SessionName}
    (hlog : ∃ more, before.log = data.log ++ more ∧ ∀ effect ∈ more, effect.isQuiet = true)
    (hother : ∀ name, name ≠ pSession → before.get name = data.get name) :
    Keeps data (finish before pSession).1 := by
  obtain ⟨more, hmore, hquiet⟩ := hlog
  have hfinish : ∃ frees, (finish before pSession).1.log = before.log ++ frees ∧
      (∀ effect ∈ frees, effect.isQuiet = true) ∧
      (∀ name, name ≠ pSession → (finish before pSession).1.get name = before.get name) ∧
      ((finish before pSession).1.get pSession).rawRequest = none := by
    unfold finish
    dsimp only
    split
    · exact ⟨[], by simp, by simp, fun _ h => NiData.get_put_of_ne _ _ h, by simp⟩
    · split
      · exact ⟨[], by simp, by simp, fun _ h => NiData.get_put_of_ne _ _ h, by simp⟩
      · rename_i payload _ _
        refine ⟨[.free payload], by simp, by simp [Effect.isQuiet], fun _ h => ?_, by simp⟩
        rw [NiData.get_emit]
        exact NiData.get_put_of_ne _ _ h
  obtain ⟨frees, hfrees, hfreesQuiet, hothers, hnone⟩ := hfinish
  refine keeps_of_get pSession ⟨more ++ frees, ?_, ?_⟩ (fun name hname => ?_) ?_ ?_
  · rw [hfrees, hmore, List.append_assoc]
  · exact fun effect heffect => (List.mem_append.mp heffect).elim (hquiet _) (hfreesQuiet _)
  · rw [hothers name hname, hother name hname]
  · rw [hnone]
    nofun
  · rw [hnone]
    nofun

theorem Integrity.of_keeps {ni next : NiModule} (h : Integrity ni)
    (hkeeps : Keeps ni.shared next.shared) (hlength : ni.procs.length ≤ next.procs.length)
    (hprocs : next.Each fun data pid proc => proc.Sound data pid) : Integrity next where
  procs := hprocs
  known request n hid :=
    Nat.lt_of_lt_of_le (h.known request n ((hkeeps.mem_log rfl).mp hid)) hlength
  once request m n hm hn :=
    h.once request m n ((hkeeps.mem_log rfl).mp hm) ((hkeeps.mem_log rfl).mp hn)
  answered := hkeeps.answered h.answered
  sent resp payload hsent := by
    obtain ⟨more, hlog, -⟩ := hkeeps.log
    rw [hlog]
    exact (h.sent resp payload ((hkeeps.mem_log rfl).mp hsent)).append more

/-- A step that keeps the answers, of a process that is sound again. -/
theorem Integrity.run_keeps {ni : NiModule} {pid : Nat} {next : NiData} {proc : Proc}
    {started : Option Proc} (h : Integrity ni) (hkeeps : Keeps ni.shared next)
    (hproc : proc.Sound next pid)
    (hstarted : ∀ child, started = some child → child.Sound next ni.procs.length) :
    Integrity ⟨next, ni.procs.set pid proc ++ started.toList⟩ :=
  h.of_keeps hkeeps (by simp) <| .run hproc hstarted fun i other _ hother =>
    (h.procs i other hother).extends (hkeeps.extends i)

end Msm8916.Ni
