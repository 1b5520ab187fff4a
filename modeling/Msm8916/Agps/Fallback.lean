import Msm8916.Agps.DataCall

/-!
The fallback of a `DSStateMachine` to normal ATL. A client whose data call could
not be started is handed to the ATL machine by `requestATL`, under the same
handle; the runs below remember who was.
-/

namespace Msm8916.Agps.AgpsStateMachine

open Transition

/-- The handle that `sendRsrcRequest` fell back for: a `requestATL` that follows
the request to start a data call. -/
def fallbackOf (log : List Action) : Option Int32 :=
  match log.reverse with
  | .requestATL connHandle _ :: .dataCall .requestDataConn :: _ => some connHandle
  | _ => none

/-- The call does not end in a fallback: a data call that it asks for is
answered by neither an error nor one busy answer too many. -/
def NoFallback (machine : AgpsStateMachine) (label : Label) : Prop :=
  ∀ mRetries answer, machine.callAnswer label = some (mRetries, answer) →
    fallsBack mRetries answer = false

/-! ## Logs -/

theorem NoCall.fallbackOf {log : List Action} (h : NoCall log) : fallbackOf log = none := by
  unfold AgpsStateMachine.fallbackOf
  split
  · rename_i heq
    refine absurd (List.mem_reverse.mp ?_) h
    rw [heq]
    exact List.mem_cons_of_mem _ List.mem_cons_self
  · rfl

/-- A request to start a data call falls back for a listed client, if it does. -/
theorem LogsCall.fallbackOf {start mRetries : UInt8} {answer : Int} {list : List Subscriber}
    {log : List Action} (h : LogsCall start mRetries answer list log) :
    ∃ t ∈ list, fallbackOf log =
      if fallsBack mRetries answer then some t.ID.toInt32 else none := by
  obtain ⟨reports, -, -, t, ht, rfl⟩ := h
  refine ⟨t, ht, ?_⟩
  unfold answered
  split
  · simp [AgpsStateMachine.fallbackOf]
  · by_cases hbusy : answer = errEngineBusy <;> simp [AgpsStateMachine.fallbackOf, hbusy]

/-! ## The last client -/

/-- Dismissing the client that every active subscriber is leaves none. -/
theorem anyActive_dismissed_last {list : List Subscriber} (hlisting : Listing .ds list)
    {s t : Subscriber} (hs : s.kind = .ds) (hfind : list.find? (fun u => u.equals s) = some t)
    (hlast : ∀ u ∈ list, u.isInactive = false → u.equals s = true) :
    anyActive (dismissed list t) = false := by
  rw [← Bool.not_eq_true, anyActive_iff]
  rintro ⟨u, hu, hactive⟩
  refine not_listedActive_dismissed hlisting hs hfind ⟨u, hu, hactive, ?_⟩
  rcases (hlisting.mem_dismissed (List.mem_of_find?_eq_some hfind) u).mp hu with
    ⟨hu, -⟩ | ⟨hwait, rfl⟩
  · exact hlast u hu hactive
  · rw [Subscriber.isInactive_deactivate hwait] at hactive
    cases hactive

/-- An unsubscribe in Acquired that leaves nobody active asks to stop the data
call, and that alone. -/
theorem dispatch_unsubscribe_unused {machine : AgpsStateMachine} {t : Subscriber}
    (hds : machine.machineClass = .ds) (hstate : machine.mState = .acquired)
    (hunused : anyActive (dismissed machine.mSubscribers t) = false) (answer : Int) :
    (machine.dispatch (.unsubscribe t) answer).mState ≠ .acquired ∧
      requests (machine.dispatch (.unsubscribe t) answer).log =
        requests machine.log ++ [.releaseDataConn] := by
  obtain ⟨listed, hlisted, heq⟩ := machine.dispatch_eq (.unsubscribe t) answer
  have hlist : listed.mSubscribers = dismissed machine.mSubscribers t := by
    rw [hlisted.mSubscribers, hstate]
    rfl
  have hacquired : listed.mState = .acquired := hlisted.mState.trans hstate
  have hclass : listed.machineClass = .ds := hlisted.machineClass.trans hds
  obtain ⟨log, hlog, hreports⟩ := hlisted.log
  obtain ⟨mRetries, delayTimers, hsent⟩ :=
    listed.sendDataCallRequest_eq .releaseDataConn answer
  have hrequest : requestAfter listed.mState (.unsubscribe t) listed.mSubscribers =
      some .releaseDataConn := by
    simp [requestAfter, hacquired, hlist, hunused]
  rw [heq, follow_of_some hrequest rfl]
  constructor
  · simp only [hacquired, stateAfter, stateIfUnused, hlist, hunused]
    split <;> simp
  · simp only [sendRsrcRequest, hclass, hsent, hlog, requests_append, requests_of_reports hreports]
    simp [requests, Action.request?, afterAnswer, dataCallCb, fallsBack, errUnsupported,
      errEngineBusy]

/-- When the last active client leaves, the machine leaves Acquired and stops
the data call. -/
theorem unsubscribe_last {machine next : AgpsStateMachine} {s : Subscriber} {answer : Int}
    (h : machine.DsShape) (hstep : machine.step .ds (.unsubscribe s answer) = some next)
    (hstate : machine.mState = .acquired) (hlisted : ListedActive machine.mSubscribers s)
    (hlast : ∀ t ∈ machine.mSubscribers, t.isInactive = false → t.equals s = true) :
    next.mState ≠ .acquired ∧ requests next.log = [.releaseDataConn] := by
  obtain ⟨hs, rfl⟩ := step_unsubscribe hstep
  obtain ⟨t, ht, -, hequals⟩ := hlisted
  obtain ⟨u, hfind⟩ := find?_equals ht hequals
  rw [unsubscribeRsrc_of_find { machine with log := [] } hfind]
  exact dispatch_unsubscribe_unused h.cleared.ds hstate
    (anyActive_dismissed_last h.listing hs hfind hlast) answer

/-! ## Runs -/

/-- A machine with the handles that were handed to ATL and have not subscribed
since. -/
structure Watched where
  machine : AgpsStateMachine
  handedOver : List Int32

namespace Watched

def init : Watched := ⟨newDs, []⟩

/-- The handles handed over after a call with the log `log`. -/
def handedOverAfter (handedOver : List Int32) (label : Label) (log : List Action) : List Int32 :=
  (fallbackOf log).toList ++
    match label with
    | .subscribe s _ => handedOver.filter (· ≠ s.ID.toInt32)
    | _ => handedOver

def step (watched : Watched) (label : Label) : Option Watched :=
  (watched.machine.step .ds label).map fun next =>
    ⟨next, handedOverAfter watched.handedOver label next.log⟩

/-- No client that was handed over is listed. -/
def NoneStale (watched : Watched) : Prop :=
  ∀ t ∈ watched.machine.mSubscribers, t.ID.toInt32 ∉ watched.handedOver

/-- The data connection is really in use for the listed subscriber `t`. -/
def InUse (watched : Watched) (t : Subscriber) : Prop :=
  t ∈ watched.machine.mSubscribers ∧ t.isInactive = false ∧
    t.ID.toInt32 ∉ watched.handedOver

/-- `s` is the last client an acquired connection is really in use for. -/
def LastInUse (watched : Watched) (s : Subscriber) : Prop :=
  watched.machine.mState = .acquired ∧ (∃ t, watched.InUse t ∧ t.equals s = true) ∧
    ∀ t, watched.InUse t → t.equals s = true

/-- After the call no client that was handed over is listed, and if the last
client the connection is in use for has left, the machine has left Acquired and
has asked to stop the data call. -/
def KeepsPromise (watched : Watched) (label : Label) : Prop :=
  ∀ next, watched.step label = some next → next.NoneStale ∧
    ∀ s answer, label = .unsubscribe s answer → watched.LastInUse s →
      next.machine.mState ≠ .acquired ∧ requests next.machine.log = [.releaseDataConn]

theorem step_eq_some {watched next : Watched} {label : Label} :
    watched.step label = some next ↔
      ∃ machine, watched.machine.step .ds label = some machine ∧
        next = ⟨machine, handedOverAfter watched.handedOver label machine.log⟩ := by
  rw [step, Option.map_eq_some_iff]
  exact exists_congr fun _ => and_congr_right fun _ => eq_comm

/-- A fallback leaves its client listed. -/
theorem KeepsPromise.noFallback {watched next : Watched} {label : Label}
    (hshape : watched.machine.DsShape) (h : watched.KeepsPromise label)
    (hstep : watched.step label = some next) : watched.machine.NoFallback label := by
  intro mRetries answer hcall
  have hstale := (h next hstep).1
  obtain ⟨machine, hmachine, rfl⟩ := step_eq_some.mp hstep
  obtain ⟨t, ht, hfallback⟩ := (logsCall_of_callAnswer hshape hmachine hcall).2.fallbackOf
  by_contra hfalls
  rw [Bool.not_eq_false] at hfalls
  rw [hfalls, if_pos rfl] at hfallback
  refine hstale t ht ?_
  simp [handedOverAfter, hfallback]

/-- A call that does not fall back hands nobody over. -/
theorem handedOver_of_noFallback {watched next : Watched} {label : Label}
    (hshape : watched.machine.DsShape) (hnone : watched.handedOver = [])
    (h : watched.machine.NoFallback label) (hstep : watched.step label = some next) :
    next.handedOver = [] := by
  obtain ⟨machine, hmachine, rfl⟩ := step_eq_some.mp hstep
  have hfallback : fallbackOf machine.log = none := by
    cases hcall : watched.machine.callAnswer label with
    | none => exact (noCall_of_callAnswer hshape hmachine hcall).fallbackOf
    | some call =>
        obtain ⟨t, -, hlog⟩ := (logsCall_of_callAnswer hshape hmachine hcall).2.fallbackOf
        rw [hlog, h call.1 call.2 hcall]
        rfl
  cases label <;> simp [handedOverAfter, hfallback, hnone]

theorem keepsPromise_of_noFallback {watched : Watched} {label : Label}
    (hshape : watched.machine.DsShape) (hnone : watched.handedOver = [])
    (h : watched.machine.NoFallback label) : watched.KeepsPromise label := by
  intro next hstep
  have hempty := handedOver_of_noFallback hshape hnone h hstep
  refine ⟨fun t _ => by rw [hempty]; exact List.not_mem_nil, ?_⟩
  rintro s answer rfl ⟨hstate, ⟨t, ⟨ht, hactive, -⟩, hequals⟩, hlast⟩
  obtain ⟨machine, hmachine, rfl⟩ := step_eq_some.mp hstep
  refine unsubscribe_last hshape hmachine hstate ⟨t, ht, hactive, hequals⟩ fun u hu huactive => ?_
  exact hlast u ⟨hu, huactive, by rw [hnone]; exact List.not_mem_nil⟩

/-- In a run of a DS machine no client that was handed to ATL stays listed, and
the connection is given up when the last client it is in use for leaves, exactly
if no start of a data call in the run is answered by an error or one busy answer
too many. -/
theorem fallback_leaves_no_stale_iff {labels : List Label} {final : Watched}
    (hrun : exec step init labels = some final) :
    Along step KeepsPromise init labels ↔
      Along step (fun watched label => watched.machine.NoFallback label) init labels := by
  constructor
  · refine Along.imp (I := fun watched => watched.machine.DsShape) ?_ newDs_shape hrun
    intro watched label next hshape hkeeps hstep
    refine ⟨?_, hkeeps.noFallback hshape hstep⟩
    obtain ⟨machine, hmachine, rfl⟩ := step_eq_some.mp hstep
    exact hshape.step hmachine
  · refine Along.imp (I := fun watched => watched.machine.DsShape ∧ watched.handedOver = [])
      ?_ ⟨newDs_shape, rfl⟩ hrun
    rintro watched label next ⟨hshape, hnone⟩ hfallback hstep
    refine ⟨⟨?_, handedOver_of_noFallback hshape hnone hfallback hstep⟩,
      keepsPromise_of_noFallback hshape hnone hfallback⟩
    obtain ⟨machine, hmachine, rfl⟩ := step_eq_some.mp hstep
    exact hshape.step hmachine

/-- A client whose data call is busy once and starts at the retry. -/
theorem fallback_leaves_no_stale_iff_busy :
    ∃ labels final, exec step init labels = some final ∧
      (Along step KeepsPromise init labels ↔
        Along step (fun watched label => watched.machine.NoFallback label) init labels) := by
  have hsome : (exec step init [.subscribe (.ds 1 false) errEngineBusy, .retry,
      .subscribe (.ds 1 false) errSuccess, .rsrcEvent .granted 0,
      .unsubscribe (.ds 1 false) 0]).isSome = true := by decide
  obtain ⟨final, hrun⟩ := Option.isSome_iff_exists.mp hsome
  exact ⟨_, final, hrun, fallback_leaves_no_stale_iff hrun⟩

/-- A client with no profile for the data call is handed to ATL and stays
listed. -/
theorem stale_after_fallback :
    ¬ ∀ labels final, exec step init labels = some final →
      Along step KeepsPromise init labels := by
  intro hall
  have hany : (init.step (.subscribe (.ds 1 false) errUnsupported)).any (fun next =>
      next.machine.mSubscribers.any fun t => decide (t.ID.toInt32 ∈ next.handedOver)) = true := by
    decide
  obtain ⟨next, hstep, hstale⟩ := (Option.any_eq_true _ _).mp hany
  obtain ⟨t, ht, hhanded⟩ := List.any_eq_true.mp hstale
  have hrun : exec step init [.subscribe (.ds 1 false) errUnsupported] = some next := by
    rw [exec_cons, hstep]
    rfl
  exact ((hall _ next hrun).1 next hstep).1 t ht (of_decide_eq_true hhanded)

end Watched

end Msm8916.Agps.AgpsStateMachine
