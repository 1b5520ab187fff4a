import Msm8916.Ni.Ownership

/-!
Whose answer a session thread sends: each step of each process keeps the
invariant when no answer, timeout or restart comes late, and so do the runs.
-/

namespace Msm8916.Ni

open Transition

/-! ## The steps of each process -/

theorem initStep_keeps (data : NiData) (callbacks : Bool) :
    Keeps data (initStep data callbacks) := by
  unfold initStep
  split
  · refine ⟨⟨[], by simp, by simp⟩, fun name payload hpayload => ?_,
      fun _ name payload hpayload => ?_⟩ <;> cases name <;> cases hpayload
  · exact .refl data

theorem restartStep_keeps {data next : NiData} {pc after : RestartPc} {pid : Nat}
    (h : (Proc.restart pc).Sound data pid) (hstep : restartStep data pc = some (next, after)) :
    Keeps data next ∧ (Proc.restart after).Sound next pid := by
  cases pc with
  | entered =>
      obtain ⟨rfl, rfl⟩ := Prod.mk.inj (Option.some.inj hstep)
      refine ⟨.refl _, ?_⟩
      split <;> trivial
  | check pSession =>
      obtain ⟨rfl, rfl⟩ := Prod.mk.inj (Option.some.inj hstep)
      refine ⟨.refl _, ?_⟩
      split
      · trivial
      · cases pSession <;> trivial
  | freeRequest pSession =>
      simp only [restartStep] at hstep
      split at hstep
      · obtain ⟨rfl, rfl⟩ := Prod.mk.inj (Option.some.inj hstep)
        exact ⟨.refl _, trivial⟩
      · obtain ⟨rfl, rfl⟩ := Prod.mk.inj (Option.some.inj hstep)
        exact ⟨emit_keeps data rfl, trivial⟩
  | clearRequest pSession =>
      obtain ⟨rfl, rfl⟩ := Prod.mk.inj (Option.some.inj hstep)
      exact ⟨put_keeps data pSession nofun nofun, by simp [Proc.Sound]⟩
  | wake pSession =>
      obtain ⟨rfl, rfl⟩ := Prod.mk.inj (Option.some.inj hstep)
      have hnone : (data.get pSession).rawRequest = none := h
      refine ⟨put_keeps data pSession ?_ ?_, by cases pSession <;> trivial⟩ <;>
        simp [hnone]
  | returned => cases hstep

/-- The response is written while the session holds the request it is for. -/
def RespondPc.Guarded (data : NiData) (notif_id : Int) : RespondPc → Prop
  | .respond pSession => ∀ payload ∈ (data.get pSession).rawRequest,
      Effect.notificationId payload notif_id ∈ data.log
  | _ => True

theorem respondStep_keeps {data next : NiData} {notif_id : Int}
    {user_response : GpsUserResponseType} {pc after : RespondPc}
    (h : Effect.respond notif_id user_response ∈ data.log) (hguard : pc.Guarded data notif_id)
    (hstep : respondStep data notif_id user_response pc = some (next, after)) :
    Keeps data next := by
  cases pc with
  | ignoreOther =>
      obtain ⟨rfl, rfl⟩ := Prod.mk.inj (Option.some.inj hstep)
      exact put_keeps data .session (fun _ h => h) fun _ _ _ => .inr (.inl rfl)
  | respond pSession =>
      obtain ⟨rfl, rfl⟩ := Prod.mk.inj (Option.some.inj hstep)
      refine put_keeps data pSession (fun _ h => h) fun payload hpayload _ => .inr (.inr ?_)
      exact ⟨notif_id, hguard payload hpayload, h⟩
  | entered | checkReqIDEs | checkOther | checkReqID | checkRequest =>
      obtain ⟨rfl, rfl⟩ := Prod.mk.inj (Option.some.inj hstep)
      exact .refl _
  | checkRequestEs =>
      simp only [respondStep] at hstep
      split at hstep <;> obtain ⟨rfl, rfl⟩ := Prod.mk.inj (Option.some.inj hstep) <;> exact .refl _
  | returned => cases hstep

/-- The message a thread puts together at the end of its session. -/
theorem finish_msg (data : NiData) (pSession : SessionName) :
    (finish data pSession).2.holds = false ∧ ∀ msg ∈ (finish data pSession).2.msg,
      msg.2 ∈ (data.get pSession).rawRequest ∧ msg.1 = (data.get pSession).resp ∧
        msg.1 ≠ gpsNiResponseIgnore := by
  unfold finish
  dsimp only
  split
  · exact ⟨rfl, nofun⟩
  · rename_i payload hpayload
    split
    · rename_i hresp
      refine ⟨rfl, fun msg hmsg => ?_⟩
      obtain rfl : (_, payload) = msg := Option.some.inj hmsg
      exact ⟨hpayload, rfl, hresp⟩
    · exact ⟨rfl, nofun⟩

/-- A thread that saw a response. -/
theorem finish_sound {data : NiData} {pSession : SessionName} {request : Nat}
    {pc : ThreadPc} (h : ThreadSound data pSession request pc) (hanswered : Answered data)
    (hrecvd : (data.get pSession).respRecvd = true) :
    Keeps data (finish data pSession).1 ∧
      ThreadSound (finish data pSession).1 pSession request (finish data pSession).2 := by
  have hkeeps : Keeps data (finish data pSession).1 :=
    finish_keeps ⟨[], by simp, by simp⟩ fun _ _ => rfl
  obtain ⟨hholds, hmsg⟩ := finish_msg data pSession
  obtain ⟨more, hlog⟩ := (hkeeps.extends 0).log
  refine ⟨hkeeps, (h.extends (hkeeps.extends 0)).numbered, ?_, fun msg hsent => ?_⟩
  · exact fun hpc => absurd (hholds.symm.trans hpc) Bool.false_ne_true
  · obtain ⟨hpayload, hresp, hignore⟩ := hmsg msg hsent
    have hgiven := (hanswered pSession msg.2 hpayload hrecvd).resolve_left (hresp ▸ hignore)
    rw [hlog, hresp]
    exact hgiven.answers.append more

/-- A thread whose wait timed out. -/
theorem timeout_sound {data : NiData} {pSession : SessionName} {request : Nat}
    {pc : ThreadPc} (h : ThreadSound data pSession request pc) (hpc : pc.holds = true) :
    let timedOut := (data.put pSession { data.get pSession with
      resp := gpsNiResponseNoresp }).emit (.timedOut request)
    Keeps data (finish timedOut pSession).1 ∧
      ThreadSound (finish timedOut pSession).1 pSession request (finish timedOut pSession).2 := by
  intro timedOut
  have hkeeps : Keeps data (finish timedOut pSession).1 := by
    refine finish_keeps ⟨[.timedOut request], by simp [timedOut], by simp [Effect.isQuiet]⟩ ?_
    intro name hname
    rw [NiData.get_emit, NiData.get_put_of_ne _ _ hname]
  obtain ⟨hholds, hmsg⟩ := finish_msg timedOut pSession
  have hfinished : Keeps timedOut (finish timedOut pSession).1 :=
    finish_keeps ⟨[], by simp, by simp⟩ fun _ _ => rfl
  obtain ⟨more, hlog⟩ := (hfinished.extends 0).log
  refine ⟨hkeeps, (h.extends (hkeeps.extends 0)).numbered, ?_, fun msg hsent => ?_⟩
  · exact fun hpc => absurd (hholds.symm.trans hpc) Bool.false_ne_true
  · obtain ⟨hpayload, hresp, -⟩ := hmsg msg hsent
    simp only [timedOut, NiData.get_emit, NiData.get_put_self] at hpayload hresp
    -- the session carries the thread's own request
    have hown : msg.2 = request := h.carries hpc msg.2 hpayload
    obtain ⟨n, hid⟩ := h.numbered
    rw [hlog, hresp, hown]
    refine Answers.append ⟨n, ?_, .inr ⟨rfl, ?_⟩⟩ more <;> simp [timedOut, hid]

theorem threadStep_sound {data next : NiData} {pSession : SessionName} {request : Nat}
    {fails : Bool} {pc after : ThreadPc} (h : ThreadSound data pSession request pc)
    (hanswered : Answered data) (hmsg : ∀ resp payload, pc ≠ .sendMsg (some (resp, payload)))
    (hstep : threadStep data pSession request fails pc = some (next, after)) :
    Keeps data next ∧ ThreadSound next pSession request after := by
  cases pc with
  | started =>
      simp only [threadStep] at hstep
      split at hstep
      · rename_i hrecvd
        obtain ⟨rfl, rfl⟩ := Prod.mk.inj (Option.some.inj hstep)
        exact finish_sound h hanswered hrecvd
      · obtain ⟨rfl, rfl⟩ := Prod.mk.inj (Option.some.inj hstep)
        exact ⟨.refl _, h.numbered, h.carries, nofun⟩
  | waiting respTimeLeft =>
      simp only [threadStep] at hstep
      split at hstep
      · obtain ⟨rfl, rfl⟩ := Prod.mk.inj (Option.some.inj hstep)
        exact timeout_sound h rfl
      · split at hstep
        · rename_i hrecvd
          obtain ⟨rfl, rfl⟩ := Prod.mk.inj (Option.some.inj hstep)
          exact finish_sound h hanswered hrecvd
        · obtain ⟨rfl, rfl⟩ := Prod.mk.inj (Option.some.inj hstep)
          exact ⟨.refl _, h.numbered, h.carries, nofun⟩
  | clearTimeLeft msg =>
      obtain ⟨rfl, rfl⟩ := Prod.mk.inj (Option.some.inj hstep)
      have hkeeps := put_same_keeps data pSession
        (s := { data.get pSession with respTimeLeft := 0 }) rfl rfl rfl
      have hnext := h.extends (hkeeps.extends 0)
      exact ⟨hkeeps, hnext.numbered, nofun, hnext.msg⟩
  | clearReqID msg =>
      obtain ⟨rfl, rfl⟩ := Prod.mk.inj (Option.some.inj hstep)
      have hkeeps := put_same_keeps data pSession
        (s := { data.get pSession with reqID := 0 }) rfl rfl rfl
      have hnext := h.extends (hkeeps.extends 0)
      exact ⟨hkeeps, hnext.numbered, nofun, hnext.msg⟩
  | sendMsg msg =>
      cases msg with
      | none =>
          obtain ⟨rfl, rfl⟩ := Prod.mk.inj (Option.some.inj hstep)
          exact ⟨.refl _, h.numbered, nofun, nofun⟩
      | some msg => exact absurd rfl (hmsg msg.1 msg.2)
  | exited => cases hstep

/-- The handler moves on to a place of which no more is known. -/
theorem HandlerSound.move {data next : NiData} {pid : Nat} {request : Request}
    {pc after : HandlerPc} (h : HandlerSound data pid request pc) (hkeeps : Keeps data next)
    (hunnumbered : after.unnumbered = true → pc.unnumbered = true)
    (hnumbered : after.numbered = true → pc.numbered = true)
    (hholds : after.holds = true → pc.holds = true) : HandlerSound next pid request after :=
  have hnext := h.extends (hkeeps.extends pid)
  ⟨fun hpc => hnext.unnumbered (hunnumbered hpc), fun hpc => hnext.numbered (hnumbered hpc),
    fun hpc => hnext.carries (hholds hpc)⟩

theorem ignoreRequest_keeps (data : NiData) (pid : Nat) (request : Request) :
    Keeps data (ignoreRequest data pid request) := by
  unfold ignoreRequest
  split
  · exact emit_keeps data rfl
  · exact .refl data

/-- The steps of the handler that neither save the request nor fill in its id. -/
theorem handlerStep_sound {data next : NiData} {pid : Nat} {request : Request} {fails : Bool}
    {pc after : HandlerPc} {started : Option Proc} (h : HandlerSound data pid request pc)
    (hsave : pc ≠ .saveRequest) (hfill : pc ≠ .fillNotification)
    (hstep : handlerStep data pid request fails pc = some (next, after, started)) :
    Keeps data next ∧ HandlerSound next pid request after ∧
      ∀ child, started = some child →
        child = .thread request.pSession pid .started ∧ pc.numbered = true ∧
          pc.holds = true := by
  cases pc with
  | entered =>
      simp only [handlerStep] at hstep
      split at hstep <;> cases hstep
      · refine ⟨.refl _, h.move (.refl _) (fun _ => rfl) ?_ ?_, nofun⟩ <;> split <;> nofun
      · exact ⟨.refl _, h.move (.refl _) nofun nofun nofun, nofun⟩
  | checkSession | checkSessionEs =>
      simp only [handlerStep] at hstep
      split at hstep <;> cases hstep
      · have hkeeps := ignoreRequest_keeps data pid request
        exact ⟨hkeeps, h.move hkeeps nofun nofun nofun, nofun⟩
      · exact ⟨.refl _, h.move (.refl _) (fun _ => rfl) nofun nofun, nofun⟩
  | saveRequest => exact absurd rfl hsave
  | readCounter =>
      cases hstep
      exact ⟨.refl _, h.move (.refl _) (fun _ => rfl) nofun (fun _ => rfl), nofun⟩
  | writeCounter count =>
      cases hstep
      have hkeeps : Keeps data { data with reqIDCounter := count } := by
        refine ⟨⟨[], by simp, by simp⟩, ?_, ?_⟩
        · rintro (_ | _) payload hpayload <;> exact hpayload
        · rintro hold (_ | _)
          · exact hold .session
          · exact hold .sessionEs
      exact ⟨hkeeps, h.move hkeeps (fun _ => rfl) nofun (fun _ => rfl), nofun⟩
  | writeReqID count =>
      cases hstep
      have hkeeps := put_same_keeps data request.pSession
        (s := { data.get request.pSession with reqID := count }) rfl rfl rfl
      exact ⟨hkeeps, h.move hkeeps (fun _ => rfl) nofun (fun _ => rfl), nofun⟩
  | fillNotification => exact absurd rfl hfill
  | setTimeLeft notification_id =>
      cases hstep
      have hkeeps : Keeps data (data.put request.pSession { data.get request.pSession with
          respTimeLeft :=
            5 + if request.timeout ≠ 0 then request.timeout else locNiNoResponseTime }) :=
        put_same_keeps data request.pSession rfl rfl rfl
      exact ⟨hkeeps, h.move hkeeps nofun (fun _ => rfl) (fun _ => rfl), nofun⟩
  | createThread notification_id =>
      simp only [handlerStep, Option.some.injEq, Prod.mk.injEq] at hstep
      obtain ⟨rfl, rfl, rfl⟩ := hstep
      refine ⟨.refl _, h.move (.refl _) nofun nofun nofun, fun child hchild => ?_⟩
      split at hchild <;> cases hchild
      exact ⟨rfl, rfl, rfl⟩
  | notify notification_id =>
      cases hstep
      have hkeeps : Keeps data (data.emit (.notifyCb pid notification_id)) := emit_keeps data rfl
      exact ⟨hkeeps, h.move hkeeps nofun nofun nofun, nofun⟩
  | returned => cases hstep

/-! ## The steps that save a request, number it and answer it -/

/-- A process that does not use the session does not notice its change. -/
theorem Proc.Sound.of_not_busy {data next : NiData} {pSession : SessionName} {pid : Nat}
    {proc : Proc} (hlog : next.log = data.log)
    (hother : ∀ name, name ≠ pSession → next.get name = data.get name)
    (hidle : proc.Busy pSession = false) (h : proc.Sound data pid) : proc.Sound next pid := by
  have hcarries : ∀ {name request}, name ≠ pSession → Carries data name request →
      Carries next name request := by
    intro name request hname hold
    rwa [Carries, hother name hname]
  cases proc with
  | init => trivial
  | handler request pc =>
      have hsound : HandlerSound data pid request pc := h
      refine ⟨by rw [hlog]; exact hsound.unnumbered, by rw [hlog]; exact hsound.numbered, ?_⟩
      intro hholds
      have hname : request.pSession ≠ pSession := by simpa [Busy, hholds] using hidle
      exact hcarries hname (hsound.carries hholds)
  | thread name request pc =>
      have hsound : ThreadSound data name request pc := h
      refine ⟨by rw [hlog]; exact hsound.numbered, ?_, by rw [hlog]; exact hsound.msg⟩
      intro hholds
      have hname : name ≠ pSession := by simpa [Busy, hholds] using hidle
      exact hcarries hname (hsound.carries hholds)
  | respond notif_id user_response pc => rwa [Sound, hlog]
  | restart pc =>
      cases pc with
      | wake name =>
          have hname : name ≠ pSession := by simpa [Busy] using hidle
          rwa [Sound, hother name hname]
      | _ => trivial

theorem saveRequest_integrity {ni : NiModule} {pid : Nat} {request : Request} (h : Integrity ni)
    (hproc : ni.procs[pid]? = some (.handler request .saveRequest))
    (hquiet : Quiet ni request.pSession) :
    let rawRequest := if request.passThrough then some pid else none
    Integrity ⟨ni.shared.put request.pSession
        { ni.shared.get request.pSession with rawRequest },
      ni.procs.set pid (.handler request .readCounter) ++ (none : Option Proc).toList⟩ := by
  intro rawRequest
  have hsound : HandlerSound ni.shared pid request .saveRequest := h.procs pid _ hproc
  have hlog := ni.shared.log_put request.pSession
    { ni.shared.get request.pSession with rawRequest }
  have hother : ∀ name, name ≠ request.pSession → (ni.shared.put request.pSession
      { ni.shared.get request.pSession with rawRequest }).get name = ni.shared.get name :=
    fun name hname => ni.shared.get_put_of_ne _ hname
  refine ⟨.run ⟨?_, nofun, ?_⟩ nofun ?_, ?_, ?_, ?_, ?_⟩
  · rw [hlog]
    exact fun _ => hsound.unnumbered rfl
  · intro _ payload hpayload
    rw [NiData.get_put_self] at hpayload
    by_cases hpassThrough : request.passThrough = true
    · simpa [rawRequest, hpassThrough, eq_comm] using hpayload
    · simp [rawRequest, hpassThrough] at hpayload
  · intro i other _ hprocs
    have hidle := hquiet.2 other (List.mem_of_getElem? hprocs)
    exact (h.procs i other hprocs).of_not_busy hlog hother hidle
  · intro q n hid
    dsimp only at hid
    rw [hlog] at hid
    have hold := h.known q n hid
    simpa using hold
  · dsimp only
    rw [hlog]
    exact h.once
  · intro name payload hpayload hrecvd
    dsimp only at hpayload hrecvd ⊢
    by_cases hname : name = request.pSession
    · subst hname
      rw [NiData.get_put_self] at hrecvd
      cases hquiet.1.symm.trans hrecvd
    · rw [hother name hname] at hpayload hrecvd ⊢
      rw [hlog]
      exact h.answered name payload hpayload hrecvd
  · dsimp only
    rw [hlog]
    exact h.sent

theorem fillNotification_integrity {ni : NiModule} {pid : Nat} {request : Request} (n : Int)
    (h : Integrity ni)
    (hproc : ni.procs[pid]? = some (.handler request .fillNotification)) :
    Integrity ⟨ni.shared.emit (.notificationId pid n),
      ni.procs.set pid (.handler request (.setTimeLeft n)) ++
        (none : Option Proc).toList⟩ := by
  have hsound : HandlerSound ni.shared pid request .fillNotification := h.procs pid _ hproc
  have hfresh := hsound.unnumbered rfl
  have hmem : ∀ {q m}, Effect.notificationId q m ∈ (ni.shared.emit (.notificationId pid n)).log ↔
      Effect.notificationId q m ∈ ni.shared.log ∨ q = pid ∧ m = n := by
    intro q m
    simp [NiData.emit]
  refine ⟨.run ⟨nofun, fun _ => ⟨n, hmem.mpr (.inr ⟨rfl, rfl⟩)⟩, ?_⟩ nofun ?_, ?_, ?_, ?_, ?_⟩
  · intro _ payload hpayload
    rw [NiData.get_emit] at hpayload
    exact hsound.carries rfl payload hpayload
  · intro i other hi hprocs
    refine (h.procs i other hprocs).extends ⟨⟨_, rfl⟩, fun m hid => ?_, fun name payload hold => ?_⟩
    · exact (hmem.mp hid).resolve_right fun heq => hi heq.1
    · rwa [NiData.get_emit] at hold
  · intro q m hid
    have hlength : pid < ni.procs.length := (List.getElem?_eq_some_iff.mp hproc).1
    rcases hmem.mp hid with hold | ⟨rfl, -⟩
    · simpa using h.known q m hold
    · simpa using hlength
  · intro q m m' hm hm'
    rcases hmem.mp hm with hold | ⟨rfl, rfl⟩ <;> rcases hmem.mp hm' with hold' | ⟨heq, rfl⟩
    · exact h.once q m m' hold hold'
    · exact absurd (heq ▸ hold) (hfresh m)
    · exact absurd hold' (hfresh m')
    · rfl
  · intro name payload hpayload hrecvd
    dsimp only at hpayload hrecvd ⊢
    rw [NiData.get_emit] at hpayload hrecvd ⊢
    exact (h.answered name payload hpayload hrecvd).imp_right (·.append _)
  · intro resp payload hsent
    have hold : Effect.informNiResponse resp payload ∈ ni.shared.log := by
      simpa [NiData.emit] using hsent
    exact (h.sent resp payload hold).append _

theorem sendMsg_integrity {ni : NiModule} {pid request payload : Nat} {pSession : SessionName}
    {resp : GpsUserResponseType} (h : Integrity ni)
    (hproc : ni.procs[pid]? = some (.thread pSession request (.sendMsg (some (resp, payload))))) :
    Integrity ⟨ni.shared.emit (.informNiResponse resp payload),
      ni.procs.set pid (.thread pSession request .exited) ++ (none : Option Proc).toList⟩ := by
  have hsound : ThreadSound ni.shared pSession request (.sendMsg (some (resp, payload))) :=
    h.procs pid _ hproc
  have hmem : ∀ {q m},
      Effect.notificationId q m ∈ (ni.shared.emit (.informNiResponse resp payload)).log ↔
        Effect.notificationId q m ∈ ni.shared.log := by
    intro q m
    simp [NiData.emit]
  have hextends : ∀ i, Extends ni.shared (ni.shared.emit (.informNiResponse resp payload)) i :=
    fun i => ⟨⟨_, rfl⟩, fun m hid => hmem.mp hid, fun name payload hold => by
      rwa [NiData.get_emit] at hold⟩
  refine ⟨.run ⟨(hsound.extends (hextends 0)).numbered, nofun, nofun⟩ nofun ?_, ?_, ?_, ?_, ?_⟩
  · exact fun i other _ hprocs => (h.procs i other hprocs).extends (hextends i)
  · intro q m hid
    simpa using h.known q m (hmem.mp hid)
  · exact fun q m m' hm hm' => h.once q m m' (hmem.mp hm) (hmem.mp hm')
  · intro name other hpayload hrecvd
    dsimp only at hpayload hrecvd ⊢
    rw [NiData.get_emit] at hpayload hrecvd ⊢
    exact (h.answered name other hpayload hrecvd).imp_right (·.append _)
  · intro other q hsent
    have hcases : Effect.informNiResponse other q ∈ ni.shared.log ∨ other = resp ∧ q = payload := by
      simpa [NiData.emit] using hsent
    rcases hcases with hold | ⟨rfl, rfl⟩
    · exact (h.sent other q hold).append _
    · exact (hsound.msg _ rfl).append _

/-! ## Runs -/

theorem loaded_integrity : Integrity loaded where
  procs := nofun
  known := nofun
  once := nofun
  answered pSession payload hpayload := by cases pSession <;> cases hpayload
  sent := nofun

theorem call_integrity {ni : NiModule} (h : Integrity ni) (request : Call) :
    Integrity ⟨(call ni.shared request).1, ni.procs ++ [(call ni.shared request).2]⟩ := by
  have hkeeps : Keeps ni.shared (call ni.shared request).1 := by
    cases request with
    | respond notif_id user_response => exact emit_keeps _ rfl
    | init | request | restart => exact .refl _
  refine h.of_keeps hkeeps (by simp) (.call ?_ fun i other hother =>
    (h.procs i other hother).extends (hkeeps.extends i))
  cases request with
  | init | restart => trivial
  | respond notif_id user_response => simp [call, Proc.Sound, NiData.emit]
  | request request =>
      refine ⟨fun _ n hid => ?_, fun hpc => absurd hpc Bool.false_ne_true,
        fun hpc => absurd hpc Bool.false_ne_true⟩
      exact Nat.lt_irrefl _ (h.known _ n hid)

theorem handler_integrity {ni : NiModule} {pid : Nat} {request : Request} {fails : Bool}
    {pc after : HandlerPc} {next : NiData} {started : Option Proc} (h : Integrity ni)
    (hproc : ni.procs[pid]? = some (.handler request pc))
    (hquiet : pc = .saveRequest → Quiet ni request.pSession)
    (hstep : handlerStep ni.shared pid request fails pc = some (next, after, started)) :
    Integrity ⟨next, ni.procs.set pid (.handler request after) ++ started.toList⟩ := by
  by_cases hsave : pc = .saveRequest
  · subst hsave
    obtain ⟨rfl, rfl, rfl⟩ := by simpa [handlerStep] using hstep
    exact saveRequest_integrity h hproc (hquiet rfl)
  · by_cases hfill : pc = .fillNotification
    · subst hfill
      obtain ⟨rfl, rfl, rfl⟩ := by simpa [handlerStep] using hstep
      exact fillNotification_integrity _ h hproc
    · have hsound : HandlerSound ni.shared pid request pc := h.procs pid _ hproc
      obtain ⟨hkeeps, hafter, hchild⟩ := handlerStep_sound hsound hsave hfill hstep
      refine h.run_keeps hkeeps hafter fun child hstarted => ?_
      obtain ⟨rfl, hnumbered, hholds⟩ := hchild child hstarted
      have hnext := hsound.extends (hkeeps.extends pid)
      exact ⟨hnext.numbered hnumbered, fun _ => hnext.carries hholds, nofun⟩

theorem thread_integrity {ni : NiModule} {pid request : Nat} {pSession : SessionName}
    {fails : Bool} {pc after : ThreadPc} {next : NiData} (h : Integrity ni)
    (hproc : ni.procs[pid]? = some (.thread pSession request pc))
    (hstep : threadStep ni.shared pSession request fails pc = some (next, after)) :
    Integrity ⟨next, ni.procs.set pid (.thread pSession request after) ++
      (none : Option Proc).toList⟩ := by
  by_cases hmsg : ∃ resp payload, pc = .sendMsg (some (resp, payload))
  · obtain ⟨resp, payload, rfl⟩ := hmsg
    obtain ⟨rfl, rfl⟩ := by simpa [threadStep] using hstep
    exact sendMsg_integrity h hproc
  · have hsound : ThreadSound ni.shared pSession request pc := h.procs pid _ hproc
    obtain ⟨hkeeps, hafter⟩ := threadStep_sound hsound h.answered
      (fun resp payload heq => hmsg ⟨resp, payload, heq⟩) hstep
    exact h.run_keeps hkeeps hafter nofun

/-- A step in which nothing comes late keeps every answer with its request. -/
theorem Integrity.step {ni next : NiModule} {label : Move Call} (h : Integrity ni)
    (hguard : Guarded ni label) (hstep : Ni.step ni label = some next) : Integrity next := by
  cases label with
  | call request =>
      obtain rfl := Option.some.inj hstep
      exact call_integrity h request
  | run pid fails =>
      obtain ⟨proc, shared, after, started, hproc, hadvance, rfl⟩ :=
        Pool.step_run_eq_some.mp hstep
      have hsound := h.procs pid proc hproc
      rw [Guarded, hproc] at hguard
      cases advance_cases hadvance with
      | init callbacks => exact h.run_keeps (initStep_keeps _ _) trivial nofun
      | handler hhandler =>
          refine handler_integrity h hproc ?_ hhandler
          rintro rfl
          exact hguard
      | thread hthread => exact thread_integrity h hproc hthread
      | @respond _ notif_id user_response pc _ hrespond =>
          have hgiven : Effect.respond notif_id user_response ∈ ni.shared.log := hsound
          have hkeeps : Keeps ni.shared shared := by
            refine respondStep_keeps hgiven ?_ hrespond
            cases pc <;> exact hguard
          have hafter : Effect.respond notif_id user_response ∈ shared.log := by
            obtain ⟨more, hlog, -⟩ := hkeeps.log
            rw [hlog]
            exact List.mem_append_left _ hgiven
          exact h.run_keeps hkeeps hafter nofun
      | restart hrestart =>
          obtain ⟨hkeeps, hafter⟩ := restartStep_keeps hsound hrestart
          exact h.run_keeps hkeeps hafter nofun

/-- In every run in which each request is saved in a quiet session and no
response is written into the session of another request, what is sent for the
payload of a request is a response that was given for its notification id, or
the lack of one after its own timeout. -/
theorem ni_response_integrity {labels : List (Move Call)} {final : NiModule}
    (hrun : exec step loaded labels = some final) (hguard : Along step Guarded loaded labels)
    {resp : GpsUserResponseType} {payload : Nat} {n : Int}
    (hsent : Effect.informNiResponse resp payload ∈ final.shared.log)
    (hid : Effect.notificationId payload n ∈ final.shared.log) :
    Effect.respond n resp ∈ final.shared.log ∨
      resp = gpsNiResponseNoresp ∧ Effect.timedOut payload ∈ final.shared.log := by
  have hintegrity : Integrity final :=
    invariant_of_along (fun _ _ _ h hlabel hstep => h.step hlabel hstep) loaded_integrity hguard
      hrun
  obtain ⟨m, hm, hanswer⟩ := hintegrity.sent resp payload hsent
  rwa [hintegrity.once payload n m hid hm]

/-- The module is initialised and an ordinary request comes, as process 1; its
thread, process 2, waits for the user. -/
def waitingForUser : List (Move Call) :=
  [.call (.init true), .run 0 false, .call (.request ⟨false, 20, true⟩)] ++
    List.replicate 11 (.run 1 false) ++ [.run 2 false]

/-- The user accepts the request before its timeout. -/
def acceptInTime : List (Move Call) :=
  waitingForUser ++ [.call (.respond 1 gpsNiResponseAccept)] ++
    List.replicate 5 (.run 3 false) ++ List.replicate 4 (.run 2 false)

/-- The user accepts the request while it times out: the response has passed its
check when the thread ends, and is written before the next request comes. -/
def acceptTooLate : List (Move Call) :=
  waitingForUser ++ [.call (.respond 1 gpsNiResponseAccept)] ++
    List.replicate 4 (.run 3 false) ++ [.run 2 true] ++ List.replicate 3 (.run 2 false) ++
    [.run 3 false, .call (.request ⟨false, 20, true⟩)] ++ List.replicate 11 (.run 4 false) ++
    List.replicate 4 (.run 5 false)

theorem ni_response_integrity_in_time :
    ∃ final, exec step loaded acceptInTime = some final ∧
      Effect.informNiResponse gpsNiResponseAccept 1 ∈ final.shared.log ∧
      (Effect.respond 1 gpsNiResponseAccept ∈ final.shared.log ∨
        gpsNiResponseAccept = gpsNiResponseNoresp ∧
          Effect.timedOut 1 ∈ final.shared.log) := by
  have hany : (exec step loaded acceptInTime).any (fun final =>
      decide (Effect.informNiResponse gpsNiResponseAccept 1 ∈ final.shared.log ∧
        Effect.notificationId 1 1 ∈ final.shared.log)) = true := by decide +kernel
  have hguard : Along step Guarded loaded acceptInTime := by decide +kernel
  obtain ⟨final, hrun, hlog⟩ := (Option.any_eq_true _ _).mp hany
  obtain ⟨hsent, hid⟩ := of_decide_eq_true hlog
  exact ⟨final, hrun, hsent, ni_response_integrity hrun hguard hsent hid⟩

/-- The acceptance of the first request is sent as the answer to the second. -/
theorem answer_crosses_requests :
    ¬ ∀ (labels : List (Move Call)) (final : NiModule) (resp : GpsUserResponseType)
      (payload : Nat) (n : Int),
      (∀ request, Move.call (.request request) ∈ labels → request.emergencySupl = false) →
      exec step loaded labels = some final →
      Effect.informNiResponse resp payload ∈ final.shared.log →
      Effect.notificationId payload n ∈ final.shared.log →
      Effect.respond n resp ∈ final.shared.log ∨
        resp = gpsNiResponseNoresp ∧ Effect.timedOut payload ∈ final.shared.log := by
  intro hall
  have hany : (exec step loaded acceptTooLate).any (fun final =>
      decide (Effect.informNiResponse gpsNiResponseAccept 4 ∈ final.shared.log ∧
        Effect.notificationId 4 2 ∈ final.shared.log ∧
        Effect.respond 2 gpsNiResponseAccept ∉ final.shared.log)) = true := by decide +kernel
  obtain ⟨final, hrun, hlog⟩ := (Option.any_eq_true _ _).mp hany
  obtain ⟨hsent, hid, hnever⟩ := of_decide_eq_true hlog
  have hordinary : ∀ request, Move.call (.request request) ∈ acceptTooLate →
      request.emergencySupl = false := by
    intro request hmem
    have heq : request = ⟨false, 20, true⟩ := by
      simpa [acceptTooLate, waitingForUser, List.mem_replicate] using hmem
    rw [heq]
  rcases hall _ final _ 4 2 hordinary hrun hsent hid with hgiven | ⟨hnoresp, -⟩
  · exact hnever hgiven
  · exact absurd hnoresp (by decide)

end Msm8916.Ni
