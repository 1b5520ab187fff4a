import Msm8916.Engine.LocEng

/-!
Sessions across an engine restart. The engine processes its messages in the order
of the queue; `loc_eng_handle_engine_up` appends a `LocEngStartFix` of its own when
it finds a session. It has told the modem that the session is over by then, which
leaves no valid mode in the fix criteria for that message to start with.
-/

namespace Msm8916.Engine

open Transition

variable {P : Payload}

/-- A call that begins, ends or positions a session. -/
def Effect.onSession : Effect P → Bool
  | .startFix _ | .setInSession _ | .setPositionMode _ | .sendStartFix => true
  | _ => false

def Effect.sendsStart : Effect P → Bool
  | .sendStartFix => true
  | _ => false

/-- Whether the modem answers that the session is on, or will be. -/
def Starts (answer : LocApiAdapterErr) : Prop :=
  answer = errSuccess ∨ answer = errPhoneOffline ∨ answer = errInternal

instance (answer : LocApiAdapterErr) : Decidable (Starts answer) :=
  inferInstanceAs (Decidable (_ ∨ _))

/-- A position mode that the framework sends is a valid one. -/
def Msg.Valid : Msg P → Prop
  | .positionMode mPosMode => mPosMode.mode ≠ .invalid
  | _ => True

instance : (msg : Msg P) → Decidable msg.Valid
  | .positionMode mPosMode => inferInstanceAs (Decidable (mPosMode.mode ≠ .invalid))
  | .reportPosition _ | .reportSv _ _ _ | .reportStatus _ | .reportNmea _
  | .reportGpsMeasurement _ | .startFix _ | .stopFix | .delAidData _ | .down | .up =>
      isTrue trivial

/-- A message in the queue. A `LocEngStartFix` of `loc_eng_handle_engine_up` comes
with the criteria of the session that was interrupted. -/
structure Queued (P : Payload) where
  msg : Msg P
  interrupted : Option LocPosMode

/-- The engine and its queue, and the position mode processed since a session last
ended. -/
structure Sessions (P : Payload) where
  eng : LocEng P
  msgQ : List (Queued P)
  positioned : Option LocPosMode

/-- What a message's calls make of `positioned`. -/
def positionedAfter (positioned : Option LocPosMode) (log : List (Effect P)) :
    Option LocPosMode :=
  log.foldl (fun positioned effect =>
    match effect with
    | .setPositionMode posMode => some posMode
    | .setInSession false => none
    | _ => positioned) positioned

namespace Sessions

/-- The framework or the modem sends a message, or the next one is processed;
`answer` is what the modem will answer to a `LocEngStartFix` sent by it. -/
inductive Label (P : Payload) where
  | send (msg : Msg P)
  | run (answer : LocApiAdapterErr)

/-- The framework sends a position mode before its first start, and between a stop
and the next start. -/
def PositionsFirst : Bool → List (Label P) → Prop
  | _, [] => True
  | _, .send (.positionMode _) :: labels => PositionsFirst true labels
  | _, .send .stopFix :: labels => PositionsFirst false labels
  | sent, .send (.startFix _) :: labels => sent = true ∧ PositionsFirst sent labels
  | sent, _ :: labels => PositionsFirst sent labels

def init (callbacks : LocCallbacks) (event : UInt32) (gps_conf : LocGpsCfg) : Sessions P :=
  ⟨LocEng.init callbacks event gps_conf, [], none⟩

def step (nmea : NmeaGenerator P) (state : Sessions P) : Label P → Option (Sessions P)
  | .send msg =>
      if msg.Valid then some { state with msgQ := state.msgQ ++ [⟨msg, none⟩] } else none
  | .run answer =>
      match state.msgQ with
      | [] => none
      | queued :: msgQ =>
          (LocEng.step nmea state.eng (.msg queued.msg)).map fun next =>
            { eng := next
              msgQ :=
                if next.log.any Effect.sendsStart then
                  msgQ ++ [⟨.startFix answer, some state.eng.adapter.mFixCriteria⟩]
                else msgQ
              positioned := positionedAfter state.positioned next.log }

def head? (state : Sessions P) : Label P → Option (Queued P)
  | .send _ => none
  | .run _ => state.msgQ.head?

/-- A session that is on has a valid mode. -/
def HasMode (state : Sessions P) : Prop :=
  state.eng.adapter.mNavigating = true → state.eng.adapter.mFixCriteria.mode ≠ .invalid

/-- The step leaves a session that is on with a valid mode, and a restart starts
with the criteria of the session that was interrupted. -/
def KeepsCriteria (nmea : NmeaGenerator P) (state : Sessions P) (label : Label P) : Prop :=
  ∀ next, state.step nmea label = some next → next.HasMode ∧
    ∀ queued criteria, state.head? label = some queued → queued.interrupted = some criteria →
      ∀ fixCriteria, .startFix fixCriteria ∈ next.eng.log → fixCriteria = criteria

/-- A `LocEngStartFix` that finds no session on comes after a position mode that was
processed since the last session ended; the one of a restart comes after the
position mode of the session that was interrupted. -/
def Positioned (state : Sessions P) (label : Label P) : Prop :=
  ∀ queued answer, state.head? label = some queued → queued.msg = .startFix answer →
    state.eng.adapter.mNavigating = false →
      (queued.interrupted = none → Starts answer → state.positioned ≠ none) ∧
      ∀ criteria, queued.interrupted = some criteria → state.positioned = some criteria

end Sessions

/-! ## The session part of the engine -/

namespace LocEng

/-- The adapter, and what has been called for the session since the event began. -/
def session (eng : LocEng P) : LocEngAdapter × List (Effect P) :=
  (eng.adapter, eng.log.filter Effect.onSession)

theorem emit_session (eng : LocEng P) {effect : Effect P} (h : effect.onSession = false) :
    (eng.emit effect).session = eng.session := by
  simp [session, emit, h]

theorem setInSession_session (eng : LocEng P) (inSession : Bool) :
    (eng.setInSession inSession).session =
      (if inSession then { eng.adapter with mNavigating := true }
        else ⟨{ eng.adapter.mFixCriteria with mode := .invalid }, false⟩,
        eng.session.2 ++ [.setInSession inSession]) := by
  cases inSession <;> simp [setInSession, session, emit, Effect.onSession]

theorem session_unreported :
    Unreported (session : LocEng P → LocEngAdapter × List (Effect P)) where
  emit eng effect heffect := by
    apply emit_session
    cases effect <;> first | rfl | cases heffect
  nmeaData _ _ := rfl

/-- What a message does for the session, from an engine that has called nothing yet. -/
inductive Turn (adapter : LocEngAdapter) : Msg P → LocEngAdapter × List (Effect P) → Prop where
  | same {msg : Msg P} (h : ∀ answer, msg = .startFix answer → adapter.mNavigating = true) :
      Turn adapter msg (adapter, [])
  | positioned (posMode : LocPosMode) :
      Turn adapter (.positionMode posMode)
        ({ adapter with mFixCriteria := posMode }, [.setPositionMode posMode])
  | started {answer : LocApiAdapterErr} (hidle : adapter.mNavigating = false)
      (hstarts : Starts answer) :
      Turn adapter (.startFix answer) ({ adapter with mNavigating := true },
        [.startFix adapter.mFixCriteria, .setInSession true])
  | refused {answer : LocApiAdapterErr} (hidle : adapter.mNavigating = false)
      (hrefused : ¬ Starts answer) :
      Turn adapter (.startFix answer) (adapter, [.startFix adapter.mFixCriteria])
  | ended {msg : Msg P} (h : ∀ answer, msg ≠ .startFix answer) :
      Turn adapter msg (⟨{ adapter.mFixCriteria with mode := .invalid }, false⟩,
        [.setInSession false])
  | restarted (hnavigating : adapter.mNavigating = true) :
      Turn adapter .up (⟨{ adapter.mFixCriteria with mode := .invalid }, false⟩,
        [.setInSession false, .sendStartFix])

theorem session_of_fresh {eng : LocEng P} (h : eng.log = []) : eng.session = (eng.adapter, []) := by
  simp [session, h]

theorem startHandler_turn {eng : LocEng P} (h : eng.log = []) (answer : LocApiAdapterErr) :
    Turn eng.adapter (.startFix answer) (eng.startHandler answer).session := by
  unfold startHandler
  split
  · rename_i hnavigating
    rw [session_of_fresh h]
    exact .same fun _ _ => hnavigating
  · rename_i hidle
    have hemit : (eng.emit (.startFix eng.adapter.mFixCriteria)).session =
        (eng.adapter, [.startFix eng.adapter.mFixCriteria]) := by
      simp [session, emit, h, Effect.onSession]
    dsimp only
    split
    · rename_i hstarts
      rw [setInSession_session, hemit]
      exact .started (Bool.not_eq_true _ ▸ hidle) hstarts
    · rename_i hrefused
      rw [hemit]
      exact .refused (Bool.not_eq_true _ ▸ hidle) hrefused

theorem stopHandler_turn {eng : LocEng P} (h : eng.log = []) :
    Turn eng.adapter .stopFix eng.stopHandler.session := by
  unfold stopHandler
  split
  · rw [setInSession_session, emit_session eng rfl, session_of_fresh h]
    exact .ended (by simp)
  · rw [session_of_fresh h]
    exact .same (by simp)

theorem endSingleShot_session (eng : LocEng P) (mStatus : LocSessStatus) :
    (eng.endSingleShot mStatus).session = eng.session ∨
      (eng.endSingleShot mStatus).session =
        (⟨{ eng.adapter.mFixCriteria with mode := .invalid }, false⟩,
          eng.session.2 ++ [.setInSession false]) := by
  unfold endSingleShot
  split_ifs
  · right
    rw [setInSession_session, emit_session eng rfl]
    rfl
  · right
    rw [setInSession_session]
    rfl
  · exact .inl rfl

theorem reportPosition_turn (nmea : NmeaGenerator P) {eng : LocEng P} (h : eng.log = [])
    (report : ReportPosition P) :
    Turn eng.adapter (.reportPosition report) (eng.reportPosition nmea report).session := by
  have htold := session_unreported.tellLocation eng report
  rw [session_of_fresh h] at htold
  rcases session_unreported.reportPosition nmea eng report with hsame | hended
  · rw [hsame, session_of_fresh h]
    exact .same (by simp)
  · rw [hended]
    rcases endSingleShot_session (eng.tellLocation report).1 report.mStatus with hsame | hshot
    · rw [hsame, htold]
      exact .same (by simp)
    · have hadapter : (eng.tellLocation report).1.adapter = eng.adapter := congrArg Prod.fst htold
      rw [hshot, htold, hadapter]
      exact .ended (by simp)

theorem handleEngineUp_turn {eng : LocEng P} (h : eng.log = []) :
    Turn eng.adapter .up eng.handleEngineUp.session := by
  unfold handleEngineUp
  split
  · rename_i hnavigating
    have hemit : ((eng.setInSession false).emit .sendStartFix).session =
        ((eng.setInSession false).session.1,
          (eng.setInSession false).session.2 ++ [.sendStartFix]) := by
      simp [session, emit, Effect.onSession]
    rw [hemit, setInSession_session, session_of_fresh h]
    exact .restarted hnavigating
  · rw [session_of_fresh h]
    exact .same (by simp)

theorem proc_turn (nmea : NmeaGenerator P) {eng : LocEng P} (h : eng.log = []) (msg : Msg P) :
    Turn eng.adapter msg (eng.proc nmea msg).session := by
  have hsame : ∀ {next : LocEng P}, next.session = eng.session →
      (∀ answer, msg ≠ .startFix answer) → Turn eng.adapter msg next.session := by
    intro next hnext hmsg
    rw [hnext, session_of_fresh h]
    exact .same fun answer heq => absurd heq (hmsg answer)
  have hupdate : ∀ next : LocEng P, next.updateAidingDataForDeletion.session = next.session := by
    intro next
    unfold updateAidingDataForDeletion
    split
    · exact emit_session next rfl
    · rfl
  cases msg with
  | reportPosition report => exact reportPosition_turn nmea h report
  | reportSv mSvStatus mLocationExtended mSvExt =>
      exact hsame (session_unreported.reportSv nmea eng _ _ _) (by simp)
  | reportStatus mStatus =>
      have hreport := session_unreported.reportStatus eng mStatus fun _ _ _ _ => rfl
      exact hsame ((hupdate _).trans hreport) (by simp)
  | reportNmea mNmea => exact hsame (session_unreported.reportNmea eng mNmea) (by simp)
  | reportGpsMeasurement mGpsData =>
      exact hsame (session_unreported.reportGpsMeasurement eng mGpsData) (by simp)
  | startFix answer => exact startHandler_turn h answer
  | stopFix => exact stopHandler_turn h
  | positionMode mPosMode =>
      have hpositioned : (eng.setPositionMode mPosMode).session =
          ({ eng.adapter with mFixCriteria := mPosMode }, [.setPositionMode mPosMode]) := by
        simp [session, setPositionMode, emit, h, Effect.onSession]
      rw [proc, hpositioned]
      exact .positioned mPosMode
  | delAidData mType => exact hsame (hupdate _) (by simp)
  | down =>
      exact hsame (session_unreported.reportStatus eng _ fun _ _ _ _ => rfl) (by simp)
  | up => exact handleEngineUp_turn h

theorem startFix_mem_session {eng : LocEng P} {fixCriteria : LocPosMode} :
    .startFix fixCriteria ∈ eng.log ↔ .startFix fixCriteria ∈ eng.session.2 := by
  simp [session, Effect.onSession]

theorem any_session {eng : LocEng P} :
    eng.log.any Effect.sendsStart = eng.session.2.any Effect.sendsStart := by
  rw [session, List.any_filter]
  congr 1
  funext effect
  cases effect <;> rfl

theorem positionedAfter_session (eng : LocEng P) (positioned : Option LocPosMode) :
    positionedAfter positioned eng.log = positionedAfter positioned eng.session.2 := by
  have hfilter : ∀ (log : List (Effect P)) (positioned : Option LocPosMode),
      positionedAfter positioned log =
        positionedAfter positioned (log.filter Effect.onSession) := by
    intro log
    induction log with
    | nil => exact fun _ => rfl
    | cons effect log ih =>
        intro positioned
        cases effect <;> exact ih _
  exact hfilter eng.log positioned

end LocEng

namespace Sessions

/-! ## One step -/

/-- What the fix criteria hold as long as every step has kept them. -/
structure Consistent (state : Sessions P) : Prop where
  positioned : ∀ posMode, state.positioned = some posMode →
    state.eng.adapter.mFixCriteria = posMode ∧ posMode.mode ≠ .invalid
  cleared : state.positioned = none → state.eng.adapter.mFixCriteria.mode = .invalid
  hasMode : state.HasMode
  valid : ∀ queued ∈ state.msgQ, queued.msg.Valid
  restarts : ∀ queued ∈ state.msgQ, ∀ criteria, queued.interrupted = some criteria →
    criteria.mode ≠ .invalid

theorem step_run {nmea : NmeaGenerator P} {state next : Sessions P} {answer : LocApiAdapterErr}
    (h : state.step nmea (.run answer) = some next) :
    ∃ msg interrupted msgQ session, state.msgQ = ⟨msg, interrupted⟩ :: msgQ ∧
      next.eng.session = session ∧ LocEng.Turn state.eng.adapter msg session ∧
      next.msgQ = (if session.2.any Effect.sendsStart then
        msgQ ++ [⟨.startFix answer, some state.eng.adapter.mFixCriteria⟩] else msgQ) ∧
      next.positioned = positionedAfter state.positioned session.2 := by
  cases hqueue : state.msgQ with
  | nil => simp [step, hqueue] at h
  | cons queued msgQ =>
      obtain ⟨msg, interrupted⟩ := queued
      have hfresh : ({ state.eng with log := [] } : LocEng P).log = [] := rfl
      have hturn := LocEng.proc_turn nmea hfresh msg
      simp only [step, hqueue, LocEng.step, Option.map_some, Option.some.injEq] at h
      subst h
      refine ⟨msg, interrupted, msgQ, _, rfl, rfl, hturn, ?_, ?_⟩
      · dsimp only
        rw [LocEng.any_session]
      · exact LocEng.positionedAfter_session _ _

theorem step_send {nmea : NmeaGenerator P} {state next : Sessions P} {msg : Msg P}
    (h : state.step nmea (.send msg) = some next) :
    msg.Valid ∧ next = { state with msgQ := state.msgQ ++ [⟨msg, none⟩] } := by
  rw [step] at h
  split at h
  · rename_i hvalid
    exact ⟨hvalid, (Option.some.inj h).symm⟩
  · cases h

theorem Consistent.criteria_iff {state : Sessions P} (h : state.Consistent)
    {criteria : LocPosMode} (hmode : criteria.mode ≠ .invalid) :
    state.eng.adapter.mFixCriteria = criteria ↔ state.positioned = some criteria := by
  cases hpositioned : state.positioned with
  | none =>
      constructor
      · intro heq
        exact absurd (heq ▸ h.cleared hpositioned) hmode
      · intro heq
        cases heq
  | some posMode =>
      rw [(h.positioned posMode hpositioned).1]
      exact ⟨congrArg some, Option.some.inj⟩

theorem Consistent.mode_iff {state : Sessions P} (h : state.Consistent) :
    state.eng.adapter.mFixCriteria.mode ≠ .invalid ↔ state.positioned ≠ none := by
  cases hpositioned : state.positioned with
  | none => simp [h.cleared hpositioned]
  | some posMode =>
      obtain ⟨heq, hmode⟩ := h.positioned posMode hpositioned
      simp [heq, hmode]

/-- The mode and the positions after a message, if it kept the criteria. -/
theorem Consistent.turn {state next : Sessions P} {msg : Msg P}
    {session : LocEngAdapter × List (Effect P)} (h : state.Consistent) (hvalid : msg.Valid)
    (hsession : next.eng.session = session) (hturn : LocEng.Turn state.eng.adapter msg session)
    (hpositioned : next.positioned = positionedAfter state.positioned session.2) :
    (∀ posMode, next.positioned = some posMode →
      next.eng.adapter.mFixCriteria = posMode ∧ posMode.mode ≠ .invalid) ∧
    (next.positioned = none → next.eng.adapter.mFixCriteria.mode = .invalid) := by
  have hadapter : next.eng.adapter = session.1 := congrArg Prod.fst hsession
  rw [hadapter, hpositioned]
  cases hturn with
  | same _ => exact ⟨h.positioned, h.cleared⟩
  | positioned posMode =>
      exact ⟨fun other heq => ⟨Option.some.inj heq, Option.some.inj heq ▸ hvalid⟩, nofun⟩
  | started _ _ => exact ⟨h.positioned, h.cleared⟩
  | refused _ _ => exact ⟨h.positioned, h.cleared⟩
  | ended _ => exact ⟨nofun, fun _ => rfl⟩
  | restarted _ => exact ⟨nofun, fun _ => rfl⟩

theorem Consistent.step {nmea : NmeaGenerator P} {state next : Sessions P} {label : Label P}
    (h : state.Consistent) (hmode : next.HasMode) (hstep : state.step nmea label = some next) :
    next.Consistent := by
  cases label with
  | send msg =>
      obtain ⟨hvalid, rfl⟩ := step_send hstep
      refine ⟨h.positioned, h.cleared, h.hasMode, fun queued hqueued => ?_,
        fun queued hqueued criteria hinterrupted => ?_⟩
      · rcases List.mem_append.mp hqueued with hold | hnew
        · exact h.valid queued hold
        · rw [List.mem_singleton.mp hnew]
          exact hvalid
      · rcases List.mem_append.mp hqueued with hold | hnew
        · exact h.restarts queued hold criteria hinterrupted
        · rw [List.mem_singleton.mp hnew] at hinterrupted
          cases hinterrupted
  | run answer =>
      obtain ⟨msg, interrupted, msgQ, session, hqueue, hsession, hturn, hmsgQ, hpositioned⟩ :=
        step_run hstep
      have hold : ∀ other ∈ msgQ, other ∈ state.msgQ :=
        fun other hother => hqueue ▸ List.mem_cons_of_mem _ hother
      have hvalid : msg.Valid := h.valid ⟨msg, interrupted⟩ (hqueue ▸ List.mem_cons_self)
      obtain ⟨hset, hcleared⟩ := h.turn hvalid hsession hturn hpositioned
      -- only a restart queues a message, with the criteria of a session that was on
      have hnew : ∀ other ∈ next.msgQ, other ∈ msgQ ∨ (∃ answer, other.msg = .startFix answer) ∧
          state.eng.adapter.mNavigating = true ∧
          other.interrupted = some state.eng.adapter.mFixCriteria := by
        rw [hmsgQ]
        cases hturn with
        | restarted hnavigating =>
            intro other hother
            rcases List.mem_append.mp hother with hold | hnew
            · exact .inl hold
            · rw [List.mem_singleton.mp hnew]
              exact .inr ⟨⟨answer, rfl⟩, hnavigating, rfl⟩
        | _ => exact fun other hother => .inl hother
      refine ⟨hset, hcleared, hmode, fun other hother => ?_,
        fun other hother criteria hinterrupted => ?_⟩
      · rcases hnew other hother with hkept | ⟨⟨answer, hstart⟩, -⟩
        · exact h.valid other (hold other hkept)
        · rw [hstart]
          trivial
      · rcases hnew other hother with hkept | ⟨-, hnavigating, heq⟩
        · exact h.restarts other (hold other hkept) criteria hinterrupted
        · obtain rfl := Option.some.inj (heq.symm.trans hinterrupted)
          exact h.hasMode hnavigating

theorem keepsCriteria_run {nmea : NmeaGenerator P} {state next : Sessions P}
    {answer : LocApiAdapterErr} {msg : Msg P} {interrupted : Option LocPosMode}
    {msgQ : List (Queued P)} (hqueue : state.msgQ = ⟨msg, interrupted⟩ :: msgQ)
    (hnext : state.step nmea (.run answer) = some next) :
    state.KeepsCriteria nmea (.run answer) ↔ next.HasMode ∧
      ∀ criteria, interrupted = some criteria →
        ∀ fixCriteria, .startFix fixCriteria ∈ next.eng.session.2 → fixCriteria = criteria := by
  have hhead : state.head? (.run answer) = some ⟨msg, interrupted⟩ := by simp [head?, hqueue]
  constructor
  · intro hkeeps
    obtain ⟨hmode, hcriteria⟩ := hkeeps next hnext
    refine ⟨hmode, fun criteria hinterrupted fixCriteria hfix => ?_⟩
    exact hcriteria _ criteria hhead hinterrupted fixCriteria (LocEng.startFix_mem_session.mpr hfix)
  · rintro ⟨hmode, hcriteria⟩ other hother
    obtain rfl := Option.some.inj (hnext.symm.trans hother)
    refine ⟨hmode, fun queued criteria hqueued hinterrupted fixCriteria hfix => ?_⟩
    obtain rfl := Option.some.inj (hhead.symm.trans hqueued)
    exact hcriteria criteria hinterrupted fixCriteria (LocEng.startFix_mem_session.mp hfix)

theorem positioned_run {state : Sessions P} {answer : LocApiAdapterErr} {msg : Msg P}
    {interrupted : Option LocPosMode} {msgQ : List (Queued P)}
    (hqueue : state.msgQ = ⟨msg, interrupted⟩ :: msgQ) :
    state.Positioned (.run answer) ↔ ∀ answer, msg = .startFix answer →
      state.eng.adapter.mNavigating = false →
        (interrupted = none → Starts answer → state.positioned ≠ none) ∧
        ∀ criteria, interrupted = some criteria → state.positioned = some criteria := by
  have hhead : state.head? (.run answer) = some ⟨msg, interrupted⟩ := by simp [head?, hqueue]
  constructor
  · exact fun hpositioned answer => hpositioned _ answer hhead
  · intro hstart queued answer hqueued
    obtain rfl := Option.some.inj (hhead.symm.trans hqueued)
    exact hstart answer

/-- As long as the criteria have been kept, a step keeps them exactly if the
position mode it depends on has been processed. -/
theorem Consistent.keepsCriteria_iff {nmea : NmeaGenerator P} {state : Sessions P}
    (h : state.Consistent) (label : Label P) :
    state.KeepsCriteria nmea label ↔ state.Positioned label := by
  cases label with
  | send msg =>
      constructor
      · intro _ queued answer hhead
        cases hhead
      · intro _ next hstep
        obtain ⟨-, rfl⟩ := step_send hstep
        exact ⟨h.hasMode, fun queued criteria hhead => nomatch hhead⟩
  | run answer =>
      cases hqueue : state.msgQ with
      | nil => simp [KeepsCriteria, Positioned, head?, Sessions.step, hqueue]
      | cons queued msgQ =>
          obtain ⟨msg, interrupted⟩ := queued
          obtain ⟨next, hnext⟩ : ∃ next, state.step nmea (.run answer) = some next := by
            simp [Sessions.step, hqueue, LocEng.step]
          rw [keepsCriteria_run hqueue hnext, positioned_run hqueue]
          obtain ⟨_, _, _, session, heq, hsession, hturn, -, -⟩ := step_run hnext
          obtain ⟨⟨rfl, rfl⟩, rfl⟩ : (msg = _ ∧ interrupted = _) ∧ msgQ = _ := by
            simpa using hqueue.symm.trans heq
          have hvalid : msg.Valid := h.valid ⟨msg, interrupted⟩ (hqueue ▸ List.mem_cons_self)
          have hrestart : ∀ criteria, interrupted = some criteria → criteria.mode ≠ .invalid :=
            h.restarts ⟨msg, interrupted⟩ (hqueue ▸ List.mem_cons_self)
          have hadapter : next.eng.adapter = session.1 := congrArg Prod.fst hsession
          rw [HasMode, hadapter, hsession]
          cases hturn with
          | same hmsg =>
              constructor
              · rintro - answer rfl hidle
                exact absurd (hmsg answer rfl) (by simp [hidle])
              · exact fun _ => ⟨h.hasMode, fun _ _ _ hfix => absurd hfix (by simp)⟩
          | positioned posMode =>
              constructor
              · exact fun _ => nofun
              · exact fun _ => ⟨fun _ => hvalid, fun _ _ _ hfix => absurd hfix (by simp)⟩
          | started hidle hstarts =>
              have hfix : ∀ criteria, (∀ fixCriteria, Effect.startFix fixCriteria ∈
                  [Effect.startFix (P := P) state.eng.adapter.mFixCriteria, .setInSession true] →
                    fixCriteria = criteria) ↔ state.eng.adapter.mFixCriteria = criteria := by
                simp
              simp only [hfix, Msg.startFix.injEq, forall_eq', hidle, hstarts, true_imp_iff]
              cases interrupted with
              | none => simpa using h.mode_iff
              | some criteria =>
                  have hcriteria := h.criteria_iff (hrestart criteria rfl)
                  constructor
                  · rintro ⟨-, hsame⟩
                    exact ⟨nofun, fun other hother =>
                      Option.some.inj hother ▸ hcriteria.mp (hsame criteria rfl)⟩
                  · rintro ⟨-, hpositioned⟩
                    have hsame := hcriteria.mpr (hpositioned criteria rfl)
                    refine ⟨hsame ▸ hrestart criteria rfl, fun other hother => ?_⟩
                    rw [hsame]
                    exact Option.some.inj hother
          | refused hidle hrefused =>
              have hfix : ∀ criteria, (∀ fixCriteria, Effect.startFix fixCriteria ∈
                  [Effect.startFix (P := P) state.eng.adapter.mFixCriteria] →
                    fixCriteria = criteria) ↔ state.eng.adapter.mFixCriteria = criteria := by
                simp
              simp only [hfix, Msg.startFix.injEq, forall_eq', hidle, hrefused, true_imp_iff,
                false_imp_iff, implies_true, true_and, Bool.false_eq_true]
              exact forall_congr' fun criteria => forall_congr' fun hinterrupted =>
                h.criteria_iff (hrestart criteria hinterrupted)
          | ended hmsg =>
              constructor
              · exact fun _ answer hstart => absurd hstart (hmsg answer)
              · exact fun _ => ⟨nofun, fun _ _ _ hfix => absurd hfix (by simp)⟩
          | restarted hnavigating =>
              constructor
              · exact fun _ => nofun
              · exact fun _ => ⟨nofun, fun _ _ _ hfix => absurd hfix (by simp)⟩

/-! ## Runs -/

theorem init_consistent (callbacks : LocCallbacks) (event : UInt32) (gps_conf : LocGpsCfg) :
    (init callbacks event gps_conf : Sessions P).Consistent :=
  ⟨nofun, fun _ => rfl, nofun, fun _ hmem => absurd hmem List.not_mem_nil,
    fun _ hmem => absurd hmem List.not_mem_nil⟩

/-- Along a run every session has a valid mode, and is restarted with the criteria it
had, exactly if each `LocEngStartFix` comes after the position mode it depends on. -/
theorem criteria_kept_iff (nmea : NmeaGenerator P) (callbacks : LocCallbacks) (event : UInt32)
    (gps_conf : LocGpsCfg) (labels : List (Label P)) :
    Along (step nmea) (KeepsCriteria nmea) (init callbacks event gps_conf) labels ↔
      Along (step nmea) Positioned (init callbacks event gps_conf) labels :=
  along_congr (I := Consistent)
    (fun _ _ next h hkept hstep => h.step (hkept next hstep).1 hstep)
    (fun _ label h => h.keepsCriteria_iff label) (init_consistent callbacks event gps_conf) labels

/-- The modem restarts in a session of standalone fixes. The restart is started
without a mode, and the session goes on without one. -/
theorem restart_without_mode :
    ¬ ∀ (nmea : NmeaGenerator ⟨Unit, Unit, Unit, Unit, Unit⟩) (callbacks : LocCallbacks)
      (event : UInt32) (gps_conf : LocGpsCfg) (labels : List (Label _)) (state : Sessions _),
      PositionsFirst false labels →
      exec (step nmea) (init callbacks event gps_conf) labels = some state →
      state.HasMode := by
  intro hall
  have hmode : LocPositionMode.invalid ≠ .invalid :=
    hall ⟨fun data _ _ _ => (data, []), fun data _ _ => (data, [])⟩
      ⟨true, true, true, true⟩ bitNmea1HzReport ⟨0, 0, 0⟩
      [.send (.positionMode ⟨.standalone, 0, 1000, 50, 120000, [], []⟩),
        .send (.startFix errSuccess), .send .up,
        .run errSuccess, .run errSuccess, .run errSuccess, .run errSuccess] _ ⟨rfl, trivial⟩ rfl rfl
  exact hmode rfl

end Sessions

end Msm8916.Engine
