import Msm8916.Engine.NetworkStep

/-!
Where the answers of the framework go. A request picks its machine by the AGPS
type, and the AGps interface of `loc.cpp` passes every answer on with the type
`AGPS_TYPE_SUPL`; so an answer reaches the machine that asked if that is
`agnss_nif`.
-/

namespace Msm8916.Engine.AgpsEngine

open Agps Transition

/-- Where the answers have gone and where those still queued will, in order: the
machine, or `none` for a null pointer, and what it is told. -/
def answers (eng : AgpsEngine) : List (Option Nif × AgpsRsrcStatus) :=
  eng.delivered.map (fun told => (some told.1, told.2)) ++ eng.msgQ.filterMap AgpsMsg.reply?

/-- Each answer of the framework has gone or will go to the machine whose status
it answers, and nowhere else. -/
def Answered (eng : AgpsEngine) : Prop :=
  eng.answers = eng.replies.map fun reply => (some reply.1, reply.2)

/-- The condition on one step: an answer is to a status of `agnss_nif`, and an open
comes with an access point name. -/
def AnswersAgnss (_ : AgpsEngine) : Event → Prop
  | .reply asker call => asker = .agnss ∧ call.apn? ≠ some none
  | _ => True

/-- What holds in every run: the machines that have asked exist, and no call has
made two answers. -/
structure Routed (eng : AgpsEngine) : Prop where
  ready : eng.Ready
  asked : ∀ name status, (name, status) ∈ eng.asked → (eng.nif name).isSome = true
  length : eng.answers.length ≤ eng.replies.length

theorem init_routed (mSupportsAgpsRequests : Bool) : (init mSupportsAgpsRequests).Routed where
  ready := init_ready mSupportsAgpsRequests
  asked _ _ h := nomatch h
  length := Nat.le_refl 0

/-! ## Answers -/

theorem answers_sendMsg (eng : AgpsEngine) (msg : AgpsMsg) :
    (eng.sendMsg msg).answers = eng.answers ++ msg.reply?.toList := by
  cases hreply : msg.reply? <;> simp [answers, sendMsg, hreply]

/-- A machine sends no answers. -/
theorem answers_afterCall (eng : AgpsEngine) (name : Nif) (machine : AgpsStateMachine) :
    (eng.afterCall name machine).answers = eng.answers := by
  have hnone : (machine.log.filterMap eng.msgOf).filterMap AgpsMsg.reply? = [] := by
    apply List.filterMap_eq_nil_iff.mpr
    intro msg hmsg
    obtain ⟨action, -, hsent⟩ := List.mem_filterMap.mp hmsg
    exact reply?_of_msgOf hsent
  simp [answers, afterCall, hnone]

/-- Processing a message keeps the answers: one that was queued is delivered. -/
theorem answers_processed {eng next : AgpsEngine} {msg : AgpsMsg} {msgQ : List AgpsMsg}
    (hqueue : eng.msgQ = msg :: msgQ)
    (h : Processed { eng with log := [], msgQ } msg next) : next.answers = eng.answers := by
  have hsplit : eng.answers = eng.delivered.map (fun told => (some told.1, told.2)) ++
      msg.reply?.toList ++ msgQ.filterMap AgpsMsg.reply? := by
    cases hreply : msg.reply? <;> simp [answers, hqueue, hreply]
  rw [hsplit]
  cases h with
  | @call name machine after hnif hcalls htarget =>
      have hcalled := answers_afterCall { eng with log := [], msgQ } name after
      cases hreply : msg.reply? with
      | none => simpa [told, hreply, answers, afterCall] using hcalled
      | some reply =>
          obtain ⟨target, event⟩ := reply
          obtain rfl := htarget target event hreply
          have hplain : ((after.log.filterMap (msgOf { eng with log := [], msgQ })).filterMap
              AgpsMsg.reply?) = [] := by simpa [answers, afterCall] using hcalled
          simp [told, hreply, answers, afterCall, hplain]
  | quiet log hmsg => simp [answers, hmsg]
  | dataClientInit hmsg => simp [answers, hmsg, AgpsMsg.reply?]
  | up hmsg =>
      subst hmsg
      unfold handleEngineUp
      split <;> simp [answers, AgpsMsg.reply?]

theorem answers_agpsInit (eng : AgpsEngine) (CAPABILITIES pdn : UInt32) :
    (eng.agpsInit CAPABILITIES pdn).answers = eng.answers := by
  unfold agpsInit
  dsimp only
  split_ifs <;> simp [answers, sendMsg, AgpsMsg.reply?]

/-- Only a call of the framework makes an answer or records a reply. -/
theorem answers_step {eng next : AgpsEngine} {event : Event}
    (h : eng.step event = some next) (hevent : ∀ asker call, event ≠ .reply asker call) :
    next.answers = eng.answers ∧ next.replies = eng.replies := by
  cases event with
  | agpsInit CAPABILITIES pdn =>
      rw [step_agpsInit h]
      refine ⟨answers_agpsInit { eng with log := [] } CAPABILITIES pdn, ?_⟩
      unfold agpsInit
      dsimp only
      split_ifs <;> rfl
  | send msg =>
      obtain ⟨hmay, rfl⟩ := step_send h
      refine ⟨?_, rfl⟩
      rw [answers_sendMsg, (reply?_of_maySend hmay).1]
      exact List.append_nil _
  | reply asker call => exact absurd rfl (hevent asker call)
  | retry =>
      obtain ⟨machine, after, -, -, rfl⟩ := step_retry h
      exact ⟨answers_afterCall { eng with log := [] } .ds after, rfl⟩
  | run answer =>
      obtain ⟨msg, msgQ, hqueue, hprocessed⟩ := step_run h
      refine ⟨answers_processed hqueue hprocessed, ?_⟩
      cases hprocessed with
      | up _ =>
          unfold handleEngineUp
          split <;> rfl
      | _ => rfl

/-- What an answer of the framework adds. -/
theorem answers_reply {eng next : AgpsEngine} {asker : Nif} {call : AgpsCall}
    (hready : eng.agps_status_cb = true) (h : eng.step (.reply asker call) = some next) :
    next.replies = eng.replies ++ [(asker, call.event)] ∧
      ((call.apn? = some none ∧ next.answers = eng.answers) ∨
        (call.apn? ≠ some none ∧
          next.answers = eng.answers ++ [(eng.pointer .agnss, call.event)])) := by
  obtain ⟨-, rfl⟩ := step_reply h
  refine ⟨rfl, ?_⟩
  rcases agpsCall_cases { eng with log := [] } call with
    ⟨hapn, hsame⟩ | ⟨hapn, msg, hsent, hreply⟩
  · left
    refine ⟨hapn hready, ?_⟩
    show ({ eng with log := [] }.agpsCall call).answers = eng.answers
    rw [hsame]
    rfl
  · right
    refine ⟨hapn, ?_⟩
    show ({ eng with log := [] }.agpsCall call).answers = _
    rw [hsent, answers_sendMsg, hreply]
    rfl

/-! ## Who has asked -/

theorem NifStep.isSome {name : Nif} {old new : Option AgpsStateMachine}
    (h : NifStep name old new) (hold : old.isSome = true) : new.isSome = true := by
  cases h with
  | same => exact hold
  | calls _ _ => rfl
  | made _ _ => rfl
  | dropped _ => simpa using hold

/-- Only a machine that is called sends a status. -/
theorem asked_processed {eng next : AgpsEngine} {msg : AgpsMsg} (h : Processed eng msg next)
    {name : Nif} {status : AGpsStatusValue} (hasked : (name, status) ∈ next.asked) :
    (name, status) ∈ eng.asked ∨ (eng.nif name).isSome = true := by
  cases h with
  | call hnif _ _ =>
      rcases List.mem_append.mp hasked with hold | hnew
      · exact .inl hold
      · obtain ⟨sent, -, heq⟩ := List.mem_map.mp hnew
        obtain ⟨rfl, -⟩ := Prod.mk.inj heq
        exact .inr (by simp [hnif])
  | quiet log _ => exact .inl hasked
  | dataClientInit _ => exact .inl hasked
  | up _ =>
      left
      unfold handleEngineUp at hasked
      split at hasked <;> exact hasked

theorem asked_step {eng next : AgpsEngine} {event : Event} (h : eng.step event = some next)
    {name : Nif} {status : AGpsStatusValue} (hasked : (name, status) ∈ next.asked) :
    (name, status) ∈ eng.asked ∨ (eng.nif name).isSome = true := by
  cases event with
  | agpsInit CAPABILITIES pdn =>
      left
      rw [step_agpsInit h] at hasked
      unfold agpsInit at hasked
      dsimp only at hasked
      split_ifs at hasked <;> exact hasked
  | send msg =>
      obtain ⟨-, rfl⟩ := step_send h
      exact .inl hasked
  | reply asker call =>
      obtain ⟨-, rfl⟩ := step_reply h
      left
      rcases agpsCall_cases { eng with log := [] } call with ⟨-, hsame⟩ | ⟨-, msg, hsent, -⟩
      · simpa only [hsame] using hasked
      · simpa only [hsent, sendMsg] using hasked
  | retry =>
      obtain ⟨machine, after, hnif, -, rfl⟩ := step_retry h
      rcases List.mem_append.mp hasked with hold | hnew
      · exact .inl hold
      · obtain ⟨sent, -, heq⟩ := List.mem_map.mp hnew
        obtain ⟨rfl, -⟩ := Prod.mk.inj heq
        exact .inr (by simp [hnif])
  | run answer =>
      obtain ⟨msg, msgQ, -, hprocessed⟩ := step_run h
      exact asked_processed hprocessed hasked

/-! ## Runs -/

theorem Routed.status_set {eng : AgpsEngine} (h : eng.Routed) {name : Nif}
    {status : AGpsStatusValue} (hasked : (name, status) ∈ eng.asked) :
    eng.agps_status_cb = true :=
  h.ready.nif name (h.asked name status hasked)

theorem Routed.step {eng next : AgpsEngine} {event : Event} (h : eng.Routed)
    (hstep : eng.step event = some next) : next.Routed where
  ready := h.ready.step hstep
  asked name status hasked := by
    apply (step_nif hstep name).isSome
    rcases asked_step hstep hasked with hold | hnif
    · exact h.asked name status hold
    · exact hnif
  length := by
    by_cases hreply : ∃ asker call, event = .reply asker call
    · obtain ⟨asker, call, rfl⟩ := hreply
      have hset := h.status_set (step_reply hstep).1
      have hlength := h.length
      obtain ⟨hreplies, ⟨-, hanswers⟩ | ⟨-, hanswers⟩⟩ := answers_reply hset hstep
      · rw [hanswers, hreplies, List.length_append]
        omega
      · rw [hanswers, hreplies, List.length_append, List.length_append]
        exact Nat.add_le_add_right hlength 1
    · push Not at hreply
      obtain ⟨hanswers, hreplies⟩ := answers_step hstep hreply
      rw [hanswers, hreplies]
      exact h.length

/-- The pointer an answer is sent to is that of the machine that asked exactly if
the machine is `agnss_nif`. -/
theorem Routed.pointer_eq_iff {eng : AgpsEngine} (h : eng.Routed) {asker : Nif}
    {status : AGpsStatusValue} (hasked : (asker, status) ∈ eng.asked) :
    eng.pointer .agnss = some asker ↔ asker = .agnss := by
  unfold pointer
  constructor
  · intro heq
    split at heq
    · exact (Option.some.inj heq).symm
    · cases heq
  · rintro rfl
    exact if_pos (h.asked .agnss status hasked)

theorem answered_step {eng next : AgpsEngine} {event : Event} (h : eng.Routed)
    (hstep : eng.step event = some next) :
    next.Answered ↔ eng.Answered ∧ eng.AnswersAgnss event := by
  by_cases hreply : ∃ asker call, event = .reply asker call
  · obtain ⟨asker, call, rfl⟩ := hreply
    have hasked := (step_reply hstep).1
    have hlength := h.length
    obtain ⟨hreplies, ⟨hapn, hanswers⟩ | ⟨hapn, hanswers⟩⟩ :=
      answers_reply (h.status_set hasked) hstep
    · -- the answer is dropped: one is missing from now on
      have hnot : ¬ next.Answered := by
        intro hnext
        have hcount := congrArg List.length hnext
        rw [hanswers, hreplies] at hcount
        simp at hcount
        omega
      simp [hnot, AnswersAgnss, hapn]
    · unfold Answered
      rw [hanswers, hreplies, List.map_append]
      simp only [AnswersAgnss, hapn, ne_eq, not_false_eq_true, and_true]
      rw [← h.pointer_eq_iff hasked]
      constructor
      · intro heq
        obtain ⟨hold, hnew⟩ := List.append_inj' heq rfl
        exact ⟨hold, (Prod.mk.inj (List.singleton_inj.mp hnew)).1⟩
      · rintro ⟨hold, hpointer⟩
        rw [hold, hpointer]
        rfl
  · push Not at hreply
    obtain ⟨hanswers, hreplies⟩ := answers_step hstep hreply
    have htrue : eng.AnswersAgnss event := by
      cases event with
      | reply asker call => exact absurd rfl (hreply asker call)
      | _ => trivial
    rw [Answered, hanswers, hreplies]
    exact (and_iff_left htrue).symm

/-- Whatever the engine is capable of, the answers of the framework reach the
machines that asked, and no others, exactly if each answers a status of `agnss_nif`
and each open comes with an access point name. -/
theorem answered_iff {mSupportsAgpsRequests : Bool} {events : List Event} {eng : AgpsEngine}
    (hrun : exec step (init mSupportsAgpsRequests) events = some eng) :
    eng.Answered ↔ Along step AnswersAgnss (init mSupportsAgpsRequests) events := by
  have hgood : ∀ (eng : AgpsEngine) (event : Event) (next : AgpsEngine), eng.Routed →
      eng.step event = some next → (next.Answered ↔ eng.Answered ∧ eng.AnswersAgnss event) :=
    fun _ _ _ h hstep => answered_step h hstep
  have hiff := along_iff_of_step (fun _ _ _ h hstep => h.step hstep) hgood
    (init_routed mSupportsAgpsRequests) hrun
  rw [hiff]
  exact and_iff_right rfl

/-- An open for a connection that `agnss_nif` has asked for. -/
theorem answered_iff_supl :
    ∃ eng, exec step (init true)
      [.agpsInit gpsCapabilityMsb 0, .send (.requestATL 1 .supl), .run 0,
        .reply .agnss (.open (some [0x61])), .run 0] = some eng ∧ eng.Answered := by
  have hany : (exec step (init true)
      [.agpsInit gpsCapabilityMsb 0, .send (.requestATL 1 .supl), .run 0,
        .reply .agnss (.open (some [0x61])), .run 0]).any
      (fun eng => decide (eng.msgQ = [])) = true := by decide
  obtain ⟨eng, hrun, -⟩ := (Option.any_eq_true _ _).mp hany
  refine ⟨eng, hrun, (answered_iff hrun).mpr ?_⟩
  exact ⟨trivial, fun _ _ => ⟨trivial, fun _ _ => ⟨trivial, fun _ _ =>
    ⟨⟨rfl, by simp [AgpsCall.apn?]⟩, fun _ _ => ⟨trivial, fun _ _ => trivial⟩⟩⟩⟩⟩

/-- `internet_nif` has asked for a connection, and the open is for `agnss_nif`: with
one, that machine is told and `internet_nif` waits on; without one, the message has
a null pointer. -/
theorem open_misrouted :
    (∃ eng machine, exec step (init true)
      [.agpsInit gpsCapabilityMsb 0, .send (.requestATL 1 .wwanAny), .run 0,
        .reply .internet (.open (some [0x61])), .run 0] = some eng ∧
      eng.replies = [(.internet, .granted)] ∧ eng.delivered = [(.agnss, .granted)] ∧
      eng.nif .internet = some machine ∧ machine.mState = .pending) ∧
    ∃ eng, exec step (init true)
      [.agpsInit 0 0, .send (.requestATL 1 .wwanAny), .run 0,
        .reply .internet (.open (some [0x61]))] = some eng ∧
      eng.replies = [(.internet, .granted)] ∧
      eng.msgQ = [.atlOpenSuccess none [0x61] .ipv4] ∧ eng.step (.run 0) = none :=
  ⟨⟨_, _, rfl, rfl, rfl, rfl, rfl⟩, _, rfl, rfl, rfl, rfl⟩

end Msm8916.Engine.AgpsEngine
