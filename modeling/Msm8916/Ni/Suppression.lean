import Msm8916.Ni.Integrity
import Msm8916.Ni.Payload

/-!
What keeps the answer to an ordinary request from being sent after an emergency request
was accepted.
-/

namespace Msm8916.Ni

open Transition Custody

/-! ## Answers -/

def Effect.informs (payload : Nat) : Effect → Bool
  | .informNiResponse _ p => p = payload
  | .respond .. | .timedOut _ | .notificationId .. | .notifyCb .. | .free _ => false

/-- How many answers for the payload were sent or are in the hands of a thread. -/
def answers (ni : NiModule) (payload : Nat) : Nat :=
  ni.shared.log.countP (Effect.informs payload) + ni.procs.countP (Proc.owns payload)

/-- The wait of the thread times out in this step. -/
def ThreadPc.timesOut (fails : Bool) : ThreadPc → Bool
  | .waiting _ => fails
  | _ => false

/-- The thread makes an answer for the payload in this step. -/
def Proc.answers (data : NiData) (fails : Bool) (payload : Nat) : Proc → Bool
  | .thread pSession _ pc =>
      pc.takes data pSession fails && (data.get pSession).rawRequest = some payload &&
        (pc.timesOut fails || (data.get pSession).resp ≠ gpsNiResponseIgnore)
  | _ => false

/-- If the thread ends its wait while the session holds the payload, the wait has not timed
out and the response is to be ignored. -/
def Proc.Spares (data : NiData) (fails : Bool) (payload : Nat) : Proc → Prop
  | .thread pSession _ pc =>
      pc.takes data pSession fails = true → (data.get pSession).rawRequest = some payload →
        pc.timesOut fails = false ∧ (data.get pSession).resp = gpsNiResponseIgnore
  | _ => True

def Spares (payload : Nat) (ni : NiModule) : Transition.Move Call → Prop
  | .call _ => True
  | .run pid fails => ∀ proc ∈ ni.procs[pid]?, proc.Spares ni.shared fails payload

instance (data : NiData) (fails : Bool) (payload : Nat) :
    DecidablePred (Proc.Spares data fails payload)
  | .thread pSession _ pc => inferInstanceAs (Decidable (pc.takes data pSession fails = true →
      (data.get pSession).rawRequest = some payload →
        pc.timesOut fails = false ∧ (data.get pSession).resp = gpsNiResponseIgnore))
  | .init .. => isTrue trivial
  | .handler .. => isTrue trivial
  | .respond .. => isTrue trivial
  | .restart .. => isTrue trivial

instance (payload : Nat) (ni : NiModule) : ∀ label, Decidable (Spares payload ni label)
  | .call _ => isTrue trivial
  | .run pid fails =>
      inferInstanceAs (Decidable (∀ proc ∈ ni.procs[pid]?, proc.Spares ni.shared fails payload))

theorem Proc.spares_iff (data : NiData) (fails : Bool) (payload : Nat) (proc : Proc) :
    proc.Spares data fails payload ↔ proc.answers data fails payload = false := by
  cases proc with
  | thread pSession request pc =>
      simp only [Proc.Spares, Proc.answers, Bool.and_eq_false_iff, Bool.or_eq_false_iff,
        decide_eq_false_iff_not, not_not]
      constructor
      · intro h
        by_cases htakes : pc.takes data pSession fails = true
        · by_cases hraw : (data.get pSession).rawRequest = some payload
          · exact .inr (h htakes hraw)
          · exact .inl (.inr hraw)
        · exact .inl (.inl (Bool.eq_false_iff.mpr htakes))
      · rintro ((htakes | hraw) | hspared) htakes' hraw'
        · cases htakes.symm.trans htakes'
        · exact absurd hraw' hraw
        · exact hspared
  | init | handler | respond | restart => exact iff_of_true trivial rfl

/-! ## What a step adds -/

/-- A step of a process appends to the log what is no answer. -/
def Quietly (data next : NiData) : Prop :=
  ∃ more, next.log = data.log ++ more ∧ ∀ payload, ∀ effect ∈ more, effect.informs payload = false

theorem quietly_of_log {data next : NiData} (h : next.log = data.log) : Quietly data next :=
  ⟨[], by rw [h, List.append_nil], fun _ _ => nofun⟩

theorem Quietly.refl (data : NiData) : Quietly data data := quietly_of_log rfl

theorem quietly_emit (data : NiData) {effect : Effect}
    (h : ∀ payload, effect.informs payload = false) : Quietly data (data.emit effect) := by
  refine ⟨[effect], rfl, fun payload other hother => ?_⟩
  rw [List.mem_singleton.mp hother]
  exact h payload

/-- Such a step that starts no process. -/
theorem Quietly.alone {data next : NiData} (h : Quietly data next) :
    Quietly data next ∧ ∀ child, (none : Option Proc) = some child → child.message = none :=
  ⟨h, fun child hchild => absurd hchild.symm (Option.some_ne_none child)⟩

theorem Quietly.countP {data next : NiData} (h : Quietly data next) (payload : Nat) :
    next.log.countP (Effect.informs payload) = data.log.countP (Effect.informs payload) := by
  obtain ⟨more, hlog, hquiet⟩ := h
  have hnone : more.countP (Effect.informs payload) = 0 :=
    List.countP_eq_zero.mpr fun effect heffect => by simp [hquiet payload effect heffect]
  rw [hlog, List.countP_append, hnone, Nat.add_zero]

theorem handlerStep_quietly {data next : NiData} {pid : Nat} {request : Request}
    {fails : Bool} {pc after : HandlerPc} {started : Option Proc}
    (hstep : handlerStep data pid request fails pc = some (next, after, started)) :
    Quietly data next ∧ ∀ child, started = some child → child.message = none := by
  cases pc with
  | entered =>
      simp only [handlerStep] at hstep
      split at hstep <;> cases hstep
      · exact (quietly_of_log rfl).alone
      · exact (quietly_of_log rfl).alone
  | checkSession | checkSessionEs =>
      simp only [handlerStep, ignoreRequest] at hstep
      split at hstep <;> cases hstep
      · apply Quietly.alone
        split
        · exact quietly_emit data fun _ => rfl
        · exact quietly_of_log rfl
      · exact (quietly_of_log rfl).alone
  | createThread notification_id =>
      cases hstep
      refine ⟨quietly_of_log rfl, fun child hchild => ?_⟩
      split at hchild
      · cases hchild
      · cases hchild
        rfl
  | saveRequest | writeReqID count | setTimeLeft notification_id =>
      cases hstep
      exact (quietly_of_log (NiData.log_put _ _ _)).alone
  | readCounter | writeCounter count =>
      cases hstep
      exact (quietly_of_log rfl).alone
  | fillNotification | notify notification_id =>
      cases hstep
      exact (quietly_emit data fun _ => rfl).alone
  | returned => cases hstep

theorem respondStep_quietly {data next : NiData} {notif_id : Int}
    {user_response : GpsUserResponseType} {pc after : RespondPc}
    (hstep : respondStep data notif_id user_response pc = some (next, after)) :
    Quietly data next := by
  cases pc with
  | ignoreOther | respond pSession =>
      obtain ⟨rfl, -⟩ := Prod.mk.inj (Option.some.inj hstep)
      exact quietly_of_log (NiData.log_put _ _ _)
  | checkRequestEs =>
      simp only [respondStep] at hstep
      split at hstep
      · obtain ⟨rfl, -⟩ := Prod.mk.inj (Option.some.inj hstep)
        exact quietly_of_log rfl
      · obtain ⟨rfl, -⟩ := Prod.mk.inj (Option.some.inj hstep)
        exact quietly_of_log rfl
  | entered | checkReqIDEs | checkOther | checkReqID | checkRequest =>
      obtain ⟨rfl, -⟩ := Prod.mk.inj (Option.some.inj hstep)
      exact quietly_of_log rfl
  | returned => cases hstep

theorem restartStep_quietly {data next : NiData} {pc after : RestartPc}
    (hstep : restartStep data pc = some (next, after)) : Quietly data next := by
  cases pc with
  | entered | check pSession =>
      obtain ⟨rfl, -⟩ := Prod.mk.inj (Option.some.inj hstep)
      exact quietly_of_log rfl
  | freeRequest pSession =>
      simp only [restartStep] at hstep
      split at hstep
      · obtain ⟨rfl, -⟩ := Prod.mk.inj (Option.some.inj hstep)
        exact quietly_of_log rfl
      · obtain ⟨rfl, -⟩ := Prod.mk.inj (Option.some.inj hstep)
        exact quietly_emit data fun _ => rfl
  | clearRequest pSession | wake pSession =>
      obtain ⟨rfl, -⟩ := Prod.mk.inj (Option.some.inj hstep)
      exact quietly_of_log (NiData.log_put _ _ _)
  | returned => cases hstep

theorem finish_quietly {data before : NiData} (h : Quietly data before) (pSession : SessionName) :
    Quietly data (finish before pSession).1 := by
  obtain ⟨more, hlog, hquiet⟩ := h
  unfold finish
  dsimp only
  split
  · exact ⟨more, (NiData.log_put _ _ _).trans hlog, hquiet⟩
  · rename_i payload _
    split
    · exact ⟨more, (NiData.log_put _ _ _).trans hlog, hquiet⟩
    · refine ⟨more ++ [.free payload], by simp [hlog], fun p effect heffect => ?_⟩
      rcases List.mem_append.mp heffect with hmore | hfree
      · exact hquiet p effect hmore
      · rw [List.mem_singleton.mp hfree]
        rfl

theorem finish_message (data : NiData) (pSession : SessionName) (request : Nat) :
    (Proc.thread pSession request (finish data pSession).2).message =
      if (data.get pSession).resp ≠ gpsNiResponseIgnore then (data.get pSession).rawRequest
      else none := by
  cases hraw : (data.get pSession).rawRequest with
  | none => simp [finish, hraw, Proc.message]
  | some payload =>
      by_cases hresp : (data.get pSession).resp = gpsNiResponseIgnore
      · simp [finish, hraw, hresp, Proc.message]
      · simp [finish, hraw, hresp, Proc.message]

/-- The end of a wait makes an answer of what the session holds, unless it is to be
ignored. -/
theorem finish_answers {data before : NiData} (pSession : SessionName) (request payload : Nat)
    (ignored : Bool) (hquiet : Quietly data before)
    (hraw : (before.get pSession).rawRequest = (data.get pSession).rawRequest)
    (hresp : (before.get pSession).resp = gpsNiResponseIgnore ↔ ignored = true) :
    ((finish before pSession).1).log.countP (Effect.informs payload) +
        ((Proc.thread pSession request (finish before pSession).2).owns payload).toNat =
      data.log.countP (Effect.informs payload) +
        ((decide ((data.get pSession).rawRequest = some payload)) && !ignored).toNat := by
  rw [(finish_quietly hquiet pSession).countP, Proc.owns, finish_message, hraw]
  cases ignored with
  | true => simp [hresp.mpr rfl]
  | false =>
      have hne : (before.get pSession).resp ≠ gpsNiResponseIgnore := fun h => by cases hresp.mp h
      simp [hne]

theorem threadStep_answers {data next : NiData} {pSession : SessionName} {request : Nat}
    {fails : Bool} {pc after : ThreadPc} (payload : Nat)
    (hstep : threadStep data pSession request fails pc = some (next, after)) :
    next.log.countP (Effect.informs payload) +
        ((Proc.thread pSession request after).owns payload).toNat =
      data.log.countP (Effect.informs payload) +
        ((Proc.thread pSession request pc).owns payload).toNat +
          ((Proc.thread pSession request pc).answers data fails payload).toNat := by
  cases pc with
  | started =>
      simp only [threadStep] at hstep
      split at hstep
      · rename_i hrecvd
        have hfinish := finish_answers pSession request payload
          (decide ((data.get pSession).resp = gpsNiResponseIgnore)) (Quietly.refl data) rfl
          (by simp)
        rw [Option.some.inj hstep] at hfinish
        rw [hfinish]
        simp [Proc.owns, Proc.message, Proc.answers, ThreadPc.takes, ThreadPc.timesOut, hrecvd]
      · rename_i hrecvd
        obtain ⟨rfl, rfl⟩ := Prod.mk.inj (Option.some.inj hstep)
        simp [Proc.owns, Proc.message, Proc.answers, ThreadPc.takes, hrecvd]
  | waiting respTimeLeft =>
      simp only [threadStep] at hstep
      split at hstep
      · rename_i hfails
        have hquiet : Quietly data ((data.put pSession { data.get pSession with
            resp := gpsNiResponseNoresp }).emit (.timedOut request)) :=
          ⟨[.timedOut request], by simp, by simp [Effect.informs]⟩
        have hfinish := finish_answers pSession request payload false hquiet (by simp)
          (by simp [gpsNiResponseNoresp, gpsNiResponseIgnore])
        rw [Option.some.inj hstep] at hfinish
        rw [hfinish]
        simp [Proc.owns, Proc.message, Proc.answers, ThreadPc.takes, ThreadPc.timesOut, hfails]
      · rename_i hfails
        split at hstep
        · rename_i hrecvd
          have hfinish := finish_answers pSession request payload
            (decide ((data.get pSession).resp = gpsNiResponseIgnore)) (Quietly.refl data) rfl
            (by simp)
          rw [Option.some.inj hstep] at hfinish
          rw [hfinish]
          simp [Proc.owns, Proc.message, Proc.answers, ThreadPc.takes, ThreadPc.timesOut, hrecvd,
            hfails]
        · rename_i hrecvd
          obtain ⟨rfl, rfl⟩ := Prod.mk.inj (Option.some.inj hstep)
          simp [Proc.owns, Proc.message, Proc.answers, ThreadPc.takes, hrecvd, hfails]
  | clearTimeLeft msg | clearReqID msg =>
      obtain ⟨rfl, rfl⟩ := Prod.mk.inj (Option.some.inj hstep)
      rw [NiData.log_put]
      rfl
  | sendMsg msg =>
      cases msg with
      | none =>
          obtain ⟨rfl, rfl⟩ := Prod.mk.inj (Option.some.inj hstep)
          simp [Proc.owns, Proc.message, Proc.answers, ThreadPc.takes]
      | some msg =>
          obtain ⟨resp, p⟩ := msg
          obtain ⟨rfl, rfl⟩ := Prod.mk.inj (Option.some.inj hstep)
          by_cases heq : p = payload
          · simp [Proc.owns, Proc.message, Proc.answers, ThreadPc.takes, Effect.informs, heq]
          · simp [Proc.owns, Proc.message, Proc.answers, ThreadPc.takes, Effect.informs, heq]
  | exited => cases hstep

theorem advance_answers {data next : NiData} {pid : Nat} {proc after : Proc} {fails : Bool}
    {started : Option Proc} (payload : Nat)
    (hstep : advance data pid proc fails = some (next, after, started)) :
    next.log.countP (Effect.informs payload) + (after.owns payload).toNat =
        data.log.countP (Effect.informs payload) + (proc.owns payload).toNat +
          (proc.answers data fails payload).toNat ∧
      ∀ child, started = some child → child.message = none := by
  cases advance_cases hstep with
  | init callbacks =>
      refine ⟨?_, nofun⟩
      rw [initStep]
      split <;> rfl
  | handler hhandler =>
      obtain ⟨hquiet, hstarted⟩ := handlerStep_quietly hhandler
      exact ⟨congrArg (· + 0) (hquiet.countP payload), hstarted⟩
  | thread hthread => exact ⟨threadStep_answers payload hthread, nofun⟩
  | respond hrespond =>
      exact ⟨congrArg (· + 0) ((respondStep_quietly hrespond).countP payload), nofun⟩
  | restart hrestart =>
      exact ⟨congrArg (· + 0) ((restartStep_quietly hrestart).countP payload), nofun⟩

/-- A step that spares the payload makes no answer for it, and any other makes one. -/
theorem step_answers {ni next : NiModule} {label : Transition.Move Call} (payload : Nat)
    (hstep : Ni.step ni label = some next) :
    answers next payload = answers ni payload + if Spares payload ni label then 0 else 1 := by
  cases label with
  | call request =>
      obtain rfl := Option.some.inj hstep
      have hspares : Spares payload ni (.call request) := trivial
      rw [if_pos hspares, Nat.add_zero]
      cases request <;> simp [answers, program, call, Proc.owns, Proc.message, Effect.informs]
  | run pid fails =>
      obtain ⟨proc, shared, after, started, hproc, hadvance, rfl⟩ :=
        Pool.step_run_eq_some.mp hstep
      obtain ⟨hadded, hchild⟩ := advance_answers payload hadvance
      have hstarted : ∀ child, started = some child → child.owns payload = false := by
        intro child h
        simp [Proc.owns, hchild child h]
      have hrun := tally_run hproc shared after (Effect.informs payload)
        hstarted
      have hspares : Spares payload ni (.run pid fails) ↔
          proc.answers ni.shared fails payload = false := by
        rw [← Proc.spares_iff, Spares, hproc]
        simp
      have hone : (if Spares payload ni (.run pid fails) then 0 else 1) =
          (proc.answers ni.shared fails payload).toNat := by
        cases hanswers : proc.answers ni.shared fails payload with
        | false => rw [if_pos (hspares.mpr hanswers), Bool.toNat_false]
        | true =>
            have hnot : ¬ Spares payload ni (.run pid fails) := by
              rw [hspares, hanswers]
              exact Bool.true_eq_false_eq_False
            rw [if_neg hnot, Bool.toNat_true]
      rw [hone]
      unfold answers
      dsimp only
      omega

/-! ## Runs -/

/-- A request that was answered neither waits nor is in a session. -/
structure Settled (ni : NiModule) : Prop where
  ready : Ready ni
  wellFormed : (store ni).WellFormed
  answered : ∀ payload, answers ni payload ≠ 0 → (store ni).Gone payload

theorem loaded_settled : Settled loaded where
  ready := loaded_ready
  wellFormed := loaded_wellFormed
  answered _ h := absurd rfl h

/-- A payload that a step does not spare is taken out of its session. -/
theorem gone_of_not_spares {ni : NiModule} {label : Transition.Move Call} {payload : Nat}
    (h : (store ni).WellFormed) (hspares : ¬ Spares payload ni label) :
    ((store ni).apply (custodyMove ni label)).Gone payload := by
  cases label with
  | call request => exact absurd trivial hspares
  | run pid fails =>
      simp only [Spares, not_forall] at hspares
      obtain ⟨proc, hproc, hnot⟩ := hspares
      cases proc with
      | thread pSession request pc =>
          simp only [Proc.Spares, not_forall] at hnot
          obtain ⟨htakes, hraw, -⟩ := hnot
          rw [custodyMove, Option.mem_def.mp hproc]
          simp only [procMove, htakes, if_true]
          exact Store.gone_take h hraw
      | init | handler | respond | restart => exact absurd trivial hnot

theorem Settled.step {ni next : NiModule} {label : Transition.Move Call} (h : Settled ni)
    (hstep : Ni.step ni label = some next) : Settled next := by
  obtain ⟨hready, hstore, henabled⟩ := step_store h.ready hstep
  refine ⟨hready, hstore ▸ h.wellFormed.apply henabled, fun payload hanswered => ?_⟩
  rw [hstore]
  by_cases hspares : Spares payload ni label
  · rw [step_answers payload hstep, if_pos hspares, Nat.add_zero] at hanswered
    exact (h.answered payload hanswered).apply henabled
  · exact gone_of_not_spares h.wellFormed hspares

/-- From a state in which it is in a session on, the payload is not answered if and only if
each step spares it. -/
theorem answers_eq_zero_iff {ni final : NiModule} {labels : List (Transition.Move Call)}
    {payload : Nat} {name : SessionName} (h : Settled ni)
    (hraw : (ni.shared.get name).rawRequest = some payload)
    (hrun : exec step ni labels = some final) :
    answers final payload = 0 ↔ Along step (Spares payload) ni labels := by
  have hnone : answers ni payload = 0 := by
    by_contra hanswered
    exact (h.answered payload hanswered).2.2 ⟨name, hraw⟩
  have hiff := @along_iff_of_step _ _ step (Spares payload) (fun _ => True)
    (fun ni => answers ni payload = 0) (fun _ _ _ _ _ => trivial)
    (fun ni label next _ hstep => by
      rw [step_answers payload hstep]
      split
      · rename_i hspares
        rw [Nat.add_zero, and_iff_left hspares]
      · rename_i hspares
        exact iff_of_false (by omega) fun h => hspares h.2) _ _ _ trivial hrun
  rw [hiff, and_iff_right hnone]

/-! ## Responses -/

theorem resp_put_same (data : NiData) (pSession : SessionName) {s : NiSession}
    (hresp : s.resp = (data.get pSession).resp) (name : SessionName) :
    ((data.put pSession s).get name).resp = (data.get name).resp := by
  by_cases h : name = pSession
  · subst h
    rw [NiData.get_put_self, hresp]
  · rw [NiData.get_put_of_ne _ _ h]

theorem finish_resp (data : NiData) (pSession name : SessionName) :
    ((finish data pSession).1.get name).resp = (data.get name).resp := by
  unfold finish
  dsimp only
  split
  · apply resp_put_same
    rfl
  · split
    · apply resp_put_same
      rfl
    · rw [NiData.get_emit]
      apply resp_put_same
      rfl

theorem handlerStep_resp {data next : NiData} {pid : Nat} {request : Request} {fails : Bool}
    {pc after : HandlerPc} {started : Option Proc}
    (hstep : handlerStep data pid request fails pc = some (next, after, started))
    (name : SessionName) : (next.get name).resp = (data.get name).resp := by
  cases pc with
  | entered =>
      simp only [handlerStep] at hstep
      split at hstep <;> cases hstep <;> rfl
  | checkSession | checkSessionEs =>
      simp only [handlerStep, ignoreRequest] at hstep
      split at hstep <;> cases hstep
      · split
        · rw [NiData.get_emit]
        · rfl
      · rfl
  | saveRequest | writeReqID count | setTimeLeft notification_id =>
      cases hstep
      apply resp_put_same
      rfl
  | writeCounter count =>
      cases hstep
      cases name <;> rfl
  | fillNotification | notify notification_id =>
      cases hstep
      rw [NiData.get_emit]
  | readCounter | createThread notification_id =>
      cases hstep
      rfl
  | returned => cases hstep

theorem restartStep_resp {data next : NiData} {pc after : RestartPc}
    (hstep : restartStep data pc = some (next, after)) (name : SessionName) :
    (next.get name).resp = (data.get name).resp := by
  cases pc with
  | entered | check pSession =>
      obtain ⟨rfl, -⟩ := Prod.mk.inj (Option.some.inj hstep)
      rfl
  | freeRequest pSession =>
      simp only [restartStep] at hstep
      split at hstep
      · obtain ⟨rfl, -⟩ := Prod.mk.inj (Option.some.inj hstep)
        rfl
      · obtain ⟨rfl, -⟩ := Prod.mk.inj (Option.some.inj hstep)
        rw [NiData.get_emit]
  | clearRequest pSession | wake pSession =>
      obtain ⟨rfl, -⟩ := Prod.mk.inj (Option.some.inj hstep)
      apply resp_put_same
      rfl
  | returned => cases hstep

theorem threadStep_resp {data next : NiData} {pSession : SessionName} {request : Nat}
    {fails : Bool} {pc after : ThreadPc}
    (hstep : threadStep data pSession request fails pc = some (next, after))
    (name : SessionName) (hwait : name = pSession → pc.timesOut fails = false) :
    (next.get name).resp = (data.get name).resp := by
  cases pc with
  | started =>
      simp only [threadStep] at hstep
      split at hstep
      · rw [← finish_resp data pSession name, Option.some.inj hstep]
      · obtain ⟨rfl, -⟩ := Prod.mk.inj (Option.some.inj hstep)
        rfl
  | waiting respTimeLeft =>
      simp only [threadStep] at hstep
      split at hstep
      · rename_i hfails
        have hne : name ≠ pSession := fun heq => by cases hfails.symm.trans (hwait heq)
        have hresp := finish_resp ((data.put pSession { data.get pSession with
          resp := gpsNiResponseNoresp }).emit (.timedOut request)) pSession name
        rwa [Option.some.inj hstep, NiData.get_emit, NiData.get_put_of_ne _ _ hne] at hresp
      · split at hstep
        · rw [← finish_resp data pSession name, Option.some.inj hstep]
        · obtain ⟨rfl, -⟩ := Prod.mk.inj (Option.some.inj hstep)
          rfl
  | clearTimeLeft msg | clearReqID msg =>
      obtain ⟨rfl, -⟩ := Prod.mk.inj (Option.some.inj hstep)
      apply resp_put_same
      rfl
  | sendMsg msg =>
      cases msg with
      | none =>
          obtain ⟨rfl, -⟩ := Prod.mk.inj (Option.some.inj hstep)
          rfl
      | some msg =>
          obtain ⟨rfl, -⟩ := Prod.mk.inj (Option.some.inj hstep)
          rw [NiData.get_emit]
  | exited => cases hstep

/-! ## The accepted request and the ordinary one -/

/-- The call has found an ordinary session in progress and has not written its response. -/
def Proc.ignoring : Proc → Bool
  | .respond _ _ .ignoreOther => true
  | _ => false

/-- The step neither ends the wait of the ordinary session before the ignoring response is
`written`, nor lets the wait time out, nor overwrites that response. -/
def Proc.Undisturbed (data : NiData) (written fails : Bool) : Proc → Prop
  | .thread .session _ pc =>
      pc.takes data .session fails = true → written = true ∧ pc.timesOut fails = false
  | .respond _ user_response (.respond .session) =>
      written = true → user_response = gpsNiResponseIgnore
  | _ => True

/-- While the ordinary session holds the payload, nothing disturbs the response that the
call `pid` writes. -/
def Undisturbed (pid payload : Nat) (ni : NiModule) : Transition.Move Call → Prop
  | .call _ => True
  | .run other fails =>
      ni.shared.session.rawRequest = some payload →
        ∀ proc ∈ ni.procs[other]?, proc.Undisturbed ni.shared (!At ni Proc.ignoring pid) fails

instance (data : NiData) (written fails : Bool) :
    DecidablePred (Proc.Undisturbed data written fails) := fun proc => by
  unfold Proc.Undisturbed
  split <;> infer_instance

instance (pid payload : Nat) (ni : NiModule) : ∀ label, Decidable (Undisturbed pid payload ni label)
  | .call _ => isTrue trivial
  | .run other fails =>
      inferInstanceAs (Decidable (_ → ∀ proc ∈ ni.procs[other]?,
        proc.Undisturbed ni.shared (!At ni Proc.ignoring pid) fails))

/-- The call is about to write the ignoring response, or it has, and then that response
stands as long as the session holds the payload. -/
structure Watched (pid payload : Nat) (ni : NiModule) : Prop where
  settled : Settled ni
  accepted : ∃ notif_id user_response pc,
    ni.procs[pid]? = some (.respond notif_id user_response pc) ∧
      (pc = .ignoreOther ∨ pc = .respond .sessionEs ∨ pc = .returned)
  place : ni.shared.session.rawRequest = some payload ∨ (store ni).Gone payload
  ignored : At ni Proc.ignoring pid = false → ni.shared.session.rawRequest = some payload →
    ni.shared.session.resp = gpsNiResponseIgnore

/-- Only the ordinary session holds the payload. -/
theorem Watched.session_of_held {pid payload : Nat} {ni : NiModule} (h : Watched pid payload ni)
    {name : SessionName} (hheld : (ni.shared.get name).rawRequest = some payload) :
    name = .session := by
  rcases h.place with hsession | hgone
  · exact h.settled.wellFormed.held_once payload .session name hsession hheld
  · exact absurd ⟨name, hheld⟩ hgone.2.2

theorem Watched.spares {pid payload : Nat} {ni : NiModule} {label : Transition.Move Call}
    (h : Watched pid payload ni) (hundisturbed : Undisturbed pid payload ni label) :
    Spares payload ni label := by
  cases label with
  | call request => trivial
  | run other fails =>
      intro proc hproc
      cases proc with
      | thread pSession request pc =>
          intro htakes hraw
          obtain rfl := h.session_of_held hraw
          obtain ⟨hwritten, hwait⟩ := hundisturbed hraw _ hproc htakes
          exact ⟨hwait, h.ignored (by simpa using hwritten) hraw⟩
      | init | handler | respond | restart => trivial

/-- The payload leaves the ordinary session for good. -/
theorem Watched.place_step {pid payload : Nat} {ni next : NiModule}
    {label : Transition.Move Call} (h : Watched pid payload ni)
    (hstep : Ni.step ni label = some next) :
    (ni.shared.session.rawRequest = some payload ∧
        next.shared.session.rawRequest = some payload) ∨ (store next).Gone payload := by
  obtain ⟨-, hstore, henabled⟩ := step_store h.settled.ready hstep
  have hcell : ∀ name, (next.shared.get name).rawRequest =
      ((store ni).apply (custodyMove ni label)).cell name := by
    rw [← hstore]
    exact fun _ => rfl
  rw [hstore]
  rcases h.place with hsession | hgone
  · have hheld : (store ni).cell .session = some payload := hsession
    rcases Store.held_apply h.settled.wellFormed henabled hheld with hkept | hgone
    · exact .inl ⟨hsession, (hcell .session).trans hkept⟩
    · exact .inr hgone
  · exact .inr (hgone.apply henabled)

theorem respondStep_ignored {data next : NiData} {notif_id : Int}
    {user_response : GpsUserResponseType} {pc after : RespondPc} {fails : Bool}
    (hstep : respondStep data notif_id user_response pc = some (next, after))
    (hundisturbed : (Proc.respond notif_id user_response pc).Undisturbed data true fails)
    (hresp : data.session.resp = gpsNiResponseIgnore) :
    next.session.resp = gpsNiResponseIgnore := by
  cases pc with
  | ignoreOther =>
      obtain ⟨rfl, -⟩ := Prod.mk.inj (Option.some.inj hstep)
      rfl
  | respond pSession =>
      obtain ⟨rfl, -⟩ := Prod.mk.inj (Option.some.inj hstep)
      cases pSession with
      | session => exact hundisturbed rfl
      | sessionEs => exact hresp
  | checkRequestEs =>
      simp only [respondStep] at hstep
      split at hstep
      · obtain ⟨rfl, -⟩ := Prod.mk.inj (Option.some.inj hstep)
        exact hresp
      · obtain ⟨rfl, -⟩ := Prod.mk.inj (Option.some.inj hstep)
        exact hresp
  | entered | checkReqIDEs | checkOther | checkReqID | checkRequest =>
      obtain ⟨rfl, -⟩ := Prod.mk.inj (Option.some.inj hstep)
      exact hresp
  | returned => cases hstep

/-- The ignoring response stands over an undisturbed step. -/
theorem advance_ignored {data next : NiData} {pid : Nat} {proc after : Proc} {fails : Bool}
    {started : Option Proc} (hstep : advance data pid proc fails = some (next, after, started))
    (hcb : data.niNotifyCb = true) (hundisturbed : proc.Undisturbed data true fails)
    (hresp : data.session.resp = gpsNiResponseIgnore) :
    next.session.resp = gpsNiResponseIgnore := by
  cases advance_cases hstep with
  | init callbacks => simpa [initStep, hcb] using hresp
  | handler hhandler => exact (handlerStep_resp hhandler .session).trans hresp
  | @thread _ _ _ pc _ hthread =>
      refine (threadStep_resp hthread .session ?_).trans hresp
      rintro rfl
      -- a wait that times out is one that ends
      cases pc with
      | waiting respTimeLeft =>
          apply Bool.eq_false_iff.mpr
          intro hfails
          have htakes : (ThreadPc.waiting respTimeLeft).takes data .session fails = true :=
            Bool.or_eq_true_iff.mpr (.inl hfails)
          cases hfails.symm.trans (hundisturbed htakes).2
      | _ => rfl
  | respond hrespond => exact respondStep_ignored hrespond hundisturbed hresp
  | restart hrestart => exact (restartStep_resp hrestart .session).trans hresp

/-- The call that ignores the ordinary session goes on to respond to the other. -/
theorem Watched.accepted_step {pid payload : Nat} {ni next : NiModule}
    {label : Transition.Move Call} (h : Watched pid payload ni)
    (hstep : Ni.step ni label = some next) :
    (∃ notif_id user_response pc,
      next.procs[pid]? = some (.respond notif_id user_response pc) ∧
        (pc = .ignoreOther ∨ pc = .respond .sessionEs ∨ pc = .returned)) ∧
      (At ni Proc.ignoring pid = true → At next Proc.ignoring pid = true ∨
        next.shared.session.resp = gpsNiResponseIgnore) := by
  obtain ⟨notif_id, user_response, pc, hproc, hpc⟩ := h.accepted
  have hat : ∀ {module : NiModule} {proc : Proc}, module.procs[pid]? = some proc →
      At module Proc.ignoring pid = proc.ignoring := fun hproc => by
    rw [At, hproc, Option.any_some]
  rw [hat hproc]
  rcases Pool.proc_of_step hproc hstep with
    hkept | ⟨fails, shared, after, started, -, hadvance, hshared, hself⟩
  · rw [hat hkept]
    exact ⟨⟨notif_id, user_response, pc, hkept, hpc⟩, .inl⟩
  · rcases hpc with rfl | rfl | rfl
    · cases hadvance
      refine ⟨⟨_, _, _, hself, .inr (.inl rfl)⟩, fun _ => .inr ?_⟩
      rw [hshared]
      rfl
    · cases hadvance
      exact ⟨⟨_, _, _, hself, .inr (.inr rfl)⟩, by rintro ⟨⟩⟩
    · cases hadvance

theorem Watched.step {pid payload : Nat} {ni next : NiModule} {label : Transition.Move Call}
    (h : Watched pid payload ni) (hundisturbed : Undisturbed pid payload ni label)
    (hstep : Ni.step ni label = some next) : Watched pid payload next := by
  obtain ⟨haccepted, hwrites⟩ := h.accepted_step hstep
  refine ⟨h.settled.step hstep, haccepted, (h.place_step hstep).imp_left And.right,
    fun hwritten hheld => ?_⟩
  rcases h.place_step hstep with ⟨hsession, -⟩ | hgone
  · cases hbefore : At ni Proc.ignoring pid with
    | true =>
        rcases hwrites hbefore with hstill | hresp
        · cases hwritten.symm.trans hstill
        · exact hresp
    | false =>
        have hresp := h.ignored hbefore hsession
        cases label with
        | call request =>
            obtain rfl := Option.some.inj hstep
            cases request <;> exact hresp
        | run other fails =>
            obtain ⟨proc, shared, after, started, hproc, hadvance, rfl⟩ :=
              Pool.step_run_eq_some.mp hstep
            have hproc' := hundisturbed hsession proc hproc
            rw [hbefore, Bool.not_false] at hproc'
            exact advance_ignored hadvance (h.settled.ready.saved .session payload hsession) hproc'
              hresp
  · exact absurd ⟨.session, hheld⟩ hgone.2.2

/-- No answer for the payload was sent, and no thread has one to send. -/
def Unanswered (ni : NiModule) (payload : Nat) : Prop :=
  (∀ resp, Effect.informNiResponse resp payload ∉ ni.shared.log) ∧
    ∀ proc ∈ ni.procs, proc.message ≠ some payload

theorem unanswered_iff (ni : NiModule) (payload : Nat) :
    Unanswered ni payload ↔ answers ni payload = 0 := by
  rw [answers, Nat.add_eq_zero_iff, List.countP_eq_zero, List.countP_eq_zero]
  constructor
  · rintro ⟨hlog, hprocs⟩
    refine ⟨fun effect heffect hinforms => ?_, fun proc hproc howns => ?_⟩
    · cases effect with
      | informNiResponse resp p =>
          obtain rfl : p = payload := of_decide_eq_true hinforms
          exact hlog resp heffect
      | respond | timedOut | notificationId | notifyCb | free => cases hinforms
    · exact hprocs proc hproc (of_decide_eq_true howns)
  · rintro ⟨hlog, hprocs⟩
    exact ⟨fun resp hmem => hlog _ hmem (decide_eq_true rfl),
      fun proc hproc hmessage => hprocs proc hproc (decide_eq_true hmessage)⟩

/-- The call that finds the ordinary session in progress is from then on watched. -/
theorem watched_of_check {pid payload : Nat} {ni next : NiModule} {notif_id : Int}
    {fails : Bool} (h : Settled ni)
    (hproc : ni.procs[pid]? = some (.respond notif_id gpsNiResponseAccept .checkOther))
    (hraw : ni.shared.session.rawRequest = some payload)
    (hstep : Ni.step ni (.run pid fails) = some next) : Watched pid payload next := by
  have hsettled := h.step hstep
  obtain ⟨proc, shared, after, started, hmoved, hadvance, rfl⟩ := Pool.step_run_eq_some.mp hstep
  obtain rfl := Option.some.inj (hproc.symm.trans hmoved)
  have hlt := (List.getElem?_eq_some_iff.mp hproc).1
  have hsome : ni.shared.session.rawRequest.isSome = true := by rw [hraw, Option.isSome_some]
  simp only [program, advance, respondStep, hsome, if_true, Option.map_some] at hadvance
  cases hadvance
  have hself : (ni.procs.set pid (.respond notif_id gpsNiResponseAccept .ignoreOther) ++
      (none : Option Proc).toList)[pid]? =
        some (.respond notif_id gpsNiResponseAccept .ignoreOther) := by
    rw [List.getElem?_append_left (by rwa [List.length_set]), List.getElem?_set_self hlt]
  refine ⟨hsettled, ⟨_, _, _, hself, .inl rfl⟩, .inl hraw, fun hwritten _ => ?_⟩
  rw [At, hself] at hwritten
  cases hwritten

/-- After an emergency request was accepted, the ordinary request in progress is not
answered if and only if its thread ends the wait without a timeout and finds that it is to
ignore the request. This it does unless the wait ends before the ignoring response is
written or in a timeout, or that response is overwritten. -/
theorem accept_suppresses_iff {first rest : List (Transition.Move Call)}
    {middle final : NiModule} {pid payload : Nat} {notif_id : Int} {outcome : Bool}
    (hfirst : exec step loaded first = some middle)
    (haccept : middle.procs[pid]? = some (.respond notif_id gpsNiResponseAccept .checkOther))
    (hsession : middle.shared.session.rawRequest = some payload)
    (hrest : exec step middle (.run pid outcome :: rest) = some final) :
    (Unanswered final payload ↔
        Along step (Spares payload) middle (.run pid outcome :: rest)) ∧
      (Along step (Undisturbed pid payload) middle (.run pid outcome :: rest) →
        Along step (Spares payload) middle (.run pid outcome :: rest)) := by
  have hsettled : Settled middle :=
    invariant_of_step (fun _ _ _ h hstep => h.step hstep) loaded_settled ⟨first, hfirst⟩
  rw [unanswered_iff]
  have hheld : (middle.shared.get .session).rawRequest = some payload := hsession
  refine ⟨answers_eq_zero_iff hsettled hheld hrest, fun hundisturbed => ?_⟩
  obtain ⟨next, hnext, hafter⟩ := exec_cons_eq_some.mp hrest
  refine ⟨fun proc hproc => ?_, fun other hother => ?_⟩
  · obtain rfl := Option.some.inj (haccept.symm.trans hproc)
    trivial
  · obtain rfl : next = other := Option.some.inj (hnext.symm.trans hother)
    refine Along.imp (I := Watched pid payload) ?_
      (watched_of_check hsettled haccept hsession hnext) hafter (hundisturbed.2 next hnext)
    exact fun ni label after h hlabel hstep => ⟨h.step hlabel hstep, h.spares hlabel⟩

/-- While an ordinary request waits for the user, an emergency request comes and is accepted:
the response is about to look at the ordinary session. -/
def acceptingEmergency : List (Transition.Move Call) :=
  waitingForUser ++ [.call (.request ⟨true, 20, true⟩)] ++ List.replicate 10 (.run 3 false) ++
    [.run 4 false, .call (.respond 2 gpsNiResponseAccept)] ++ List.replicate 3 (.run 5 false)

/-- The ordinary session's thread wakes up after it. -/
def ordinaryIgnored : List (Transition.Move Call) :=
  .run 5 false :: (List.replicate 2 (.run 5 false) ++ List.replicate 4 (.run 2 false))

/-- The user also denies the ordinary request before its thread wakes up. -/
def ordinaryDenied : List (Transition.Move Call) :=
  .run 5 false :: (List.replicate 2 (.run 5 false) ++ [.call (.respond 1 2)] ++
    List.replicate 5 (.run 6 false) ++ List.replicate 4 (.run 2 false))

theorem accept_suppresses_iff_ignored :
    ∃ middle final, exec step loaded acceptingEmergency = some middle ∧
      exec step middle ordinaryIgnored = some final ∧ Unanswered final 1 := by
  have hany : (exec step loaded acceptingEmergency).any (fun middle =>
      decide (middle.procs[5]? = some (.respond 2 gpsNiResponseAccept .checkOther) ∧
        middle.shared.session.rawRequest = some 1) &&
        (exec step middle ordinaryIgnored).isSome &&
          decide (Along step (Undisturbed 5 1) middle ordinaryIgnored)) = true := by
    decide +kernel
  obtain ⟨middle, hfirst, hmiddle⟩ := (Option.any_eq_true _ _).mp hany
  rw [Bool.and_eq_true, Bool.and_eq_true] at hmiddle
  obtain ⟨⟨hready, hsome⟩, hundisturbed⟩ := hmiddle
  obtain ⟨haccept, hsession⟩ := of_decide_eq_true hready
  obtain ⟨final, hrest⟩ := Option.isSome_iff_exists.mp hsome
  obtain ⟨hiff, hspares⟩ := accept_suppresses_iff hfirst haccept hsession hrest
  exact ⟨middle, final, hfirst, hrest, hiff.mpr (hspares (of_decide_eq_true hundisturbed))⟩

/-- The later response takes the place of the one that ignores the ordinary request. -/
theorem denied_after_accept :
    ¬ ∀ (first rest : List (Transition.Move Call)) (middle final : NiModule)
        (pid payload : Nat) (notif_id : Int) (outcome : Bool),
      exec step loaded first = some middle →
      middle.procs[pid]? = some (.respond notif_id gpsNiResponseAccept .checkOther) →
      middle.shared.session.rawRequest = some payload →
      exec step middle (.run pid outcome :: rest) = some final →
        ∀ resp, Effect.informNiResponse resp payload ∉ final.shared.log := by
  intro hall
  have hany : (exec step loaded acceptingEmergency).any (fun middle =>
      decide (middle.procs[5]? = some (.respond 2 gpsNiResponseAccept .checkOther) ∧
        middle.shared.session.rawRequest = some 1) &&
        (exec step middle ordinaryDenied).any (fun final =>
          decide (Effect.informNiResponse 2 1 ∈ final.shared.log))) = true := by
    decide +kernel
  obtain ⟨middle, hfirst, hmiddle⟩ := (Option.any_eq_true _ _).mp hany
  rw [Bool.and_eq_true] at hmiddle
  obtain ⟨hready, hdenied⟩ := hmiddle
  obtain ⟨haccept, hsession⟩ := of_decide_eq_true hready
  obtain ⟨final, hrest, hsent⟩ := (Option.any_eq_true _ _).mp hdenied
  exact hall _ _ _ _ 5 1 2 false hfirst haccept hsession hrest 2 (of_decide_eq_true hsent)

end Msm8916.Ni
