import Msm8916.Agps.DataServices
import Msm8916.Engine.NetworkStep

/-!
What an engine restart leaves of the network connections. The subscribers of two
machines are dropped, since the restarted modem knows none of them, and the states
of the machines are not looked at.
-/

namespace Msm8916

namespace Agps.AgpsStateMachine

open Transition Engine

/-- A connection that is wanted, held or being given up has a subscriber. -/
def Attended (machine : AgpsStateMachine) : Prop :=
  machine.mState ≠ .released → machine.mSubscribers ≠ []

theorem added_ne_nil (list : List Subscriber) (s : Subscriber) : added list s ≠ [] := by
  rcases added_eq_or list s with ⟨heq, hne⟩ | heq
  · rw [heq]
    exact hne
  · simp [heq]

/-- An unsubscribe that leaves no subscriber leads to Released. -/
theorem ne_nil_of_stateIfUnused {this : AgpsState} {list : List Subscriber}
    (h : stateIfUnused this list ≠ .released) : list ≠ [] := by
  rintro rfl
  exact h rfl

theorem ne_nil_of_anyActive {list : List Subscriber} (h : anyActive list = true) : list ≠ [] := by
  rintro rfl
  cases h

/-- A row of the table that does not lead to Released leaves a subscriber. -/
theorem ne_nil_of_row {state : AgpsState} {list : List Subscriber}
    (h : state ≠ .released → list ≠ []) (event : Event) (ret : Int)
    (hafter : stateAfter state event (listAfter state event list) ret ≠ .released) :
    listAfter state event list ≠ [] := by
  cases event with
  | subscribe s => cases state <;> exact added_ne_nil list s
  | unsubscribe s =>
      cases state with
      | released => exact absurd rfl hafter
      | pending => exact ne_nil_of_stateIfUnused hafter
      | acquired => exact ne_nil_of_stateIfUnused hafter
      | releasing =>
          intro hempty
          exact hafter (if_pos hempty)
  | granted =>
      cases state with
      | released => exact absurd rfl hafter
      | _ => exact h (by simp)
  | released =>
      cases state with
      | released => exact absurd rfl hafter
      | acquired => exact absurd rfl hafter
      | pending => exact h (by simp)
      | releasing =>
          apply ne_nil_of_anyActive
          by_contra hactive
          exact hafter (if_neg hactive)
  | denied =>
      cases state with
      | released => exact absurd rfl hafter
      | pending => exact absurd rfl hafter
      | acquired => exact h (by simp)
      | releasing =>
          apply ne_nil_of_anyActive
          by_contra hactive
          exact hafter (if_neg hactive)

theorem Attended.dispatch {machine : AgpsStateMachine} (h : machine.Attended) (event : Event)
    (answer : Int) : (machine.dispatch event answer).Attended := by
  obtain ⟨hlist, -, -⟩ := machine.dispatch_keeps event answer
  obtain ⟨ret, hstate⟩ := machine.dispatch_mState_exists event answer
  unfold Attended
  rw [hlist, hstate]
  exact ne_nil_of_row h event ret

theorem Attended.calls {machine after : AgpsStateMachine} (h : machine.Attended)
    (hcalls : NifCalls machine after) : after.Attended := by
  apply invariant_of_step (I := Attended) ?_ h hcalls
  intro machine call next h hstep
  refine step_preserves (A := fun _ => True) ?_ (fun answer h _ _ => h.dispatch _ answer)
    (fun _ _ _ => trivial) h hstep
  intro machine next hsame h
  unfold Attended
  rw [hsame.mState, hsame.mSubscribers]
  exact h

theorem dropAllSubscribers_attended_iff (machine : AgpsStateMachine) :
    machine.dropAllSubscribers.Attended ↔ machine.mState = .released := by
  simp [dropAllSubscribers, Attended]

end Agps.AgpsStateMachine

namespace Engine.AgpsEngine

open Agps Transition

/-- The machines whose subscribers are never dropped are attended. -/
def Staffed (eng : AgpsEngine) : Prop :=
  ∀ name machine, name = .wifi ∨ name = .ds → eng.nif name = some machine → machine.Attended

theorem NifStep.attended {name : Nif} (hname : name = .wifi ∨ name = .ds)
    {old new : Option AgpsStateMachine} (h : NifStep name old new)
    (hold : ∀ machine, old = some machine → machine.Attended) :
    ∀ machine, new = some machine → machine.Attended := by
  intro machine hfound
  cases h with
  | same => exact hold machine hfound
  | calls hbefore hcalls =>
      obtain rfl := Option.some.inj hfound
      exact (hold _ hbefore).calls hcalls
  | made fresh hreleased =>
      obtain rfl := Option.some.inj hfound
      exact fun hstate => absurd hreleased hstate
  | dropped hother => rcases hname with rfl | rfl <;> simp at hother

theorem Staffed.step {eng next : AgpsEngine} {event : Event} (h : eng.Staffed)
    (hstep : eng.step event = some next) : next.Staffed := fun name machine hname =>
  (step_nif hstep name).attended hname (fun old => h name old hname) machine

theorem init_staffed (mSupportsAgpsRequests : Bool) : (init mSupportsAgpsRequests).Staffed := by
  intro name machine _ hfound
  cases hfound

theorem staffed_of_reachable {mSupportsAgpsRequests : Bool} {eng : AgpsEngine}
    (h : Reachable step (init mSupportsAgpsRequests) eng) : eng.Staffed :=
  invariant_of_step (fun _ _ _ h hstep => h.step hstep) (init_staffed mSupportsAgpsRequests) h

/-- After a restart every connection has a subscriber exactly if neither machine
whose subscribers are dropped had one. -/
theorem restart_attended_iff {mSupportsAgpsRequests : Bool} {eng : AgpsEngine}
    (hreach : Reachable step (init mSupportsAgpsRequests) eng) :
    (∀ name machine, eng.handleEngineUp.nif name = some machine →
      machine.mState ≠ .released → ∃ s, s ∈ machine.mSubscribers) ↔
    ∀ name machine, name = .agnss ∨ name = .internet → eng.nif name = some machine →
      machine.mState = .released := by
  have h := staffed_of_reachable hreach
  have hready : eng.Ready :=
    invariant_of_step (fun _ _ _ h hstep => h.step hstep) (init_ready mSupportsAgpsRequests) hreach
  constructor
  · intro hall name machine hname hfound
    have hset := hready.nif name (by simp [hfound])
    apply machine.dropAllSubscribers_attended_iff.mp
    intro hstate
    obtain ⟨s, hs⟩ := hall name machine.dropAllSubscribers
      (by rw [handleEngineUp_nif hset, if_pos hname, hfound]; rfl) hstate
    exact List.ne_nil_of_mem hs
  · intro hreleased name machine hfound hstate
    apply List.exists_mem_of_ne_nil
    cases hset : eng.agps_status_cb with
    | false =>
        rw [handleEngineUp_of_not_ready hset] at hfound
        exact absurd (hready.nif name (by simp [hfound])) (by simp [hset])
    | true =>
        rw [handleEngineUp_nif hset] at hfound
        split at hfound
        · rename_i hname
          obtain ⟨old, hold, rfl⟩ := Option.map_eq_some_iff.mp hfound
          exact absurd (hreleased name old hname hold) hstate
        · rename_i hname
          have hother : name = .wifi ∨ name = .ds := by
            cases name <;> simp_all
          exact h name machine hother hfound hstate

/-- A restart while a WIFI client waits for its connection. -/
theorem restart_attended_iff_wifi :
    ∃ eng, exec step (init true)
      [.agpsInit gpsCapabilityMsb 0, .send (.reqRelWifi .wifi 1 none none true), .run 0] =
        some eng ∧
      ∀ name machine, eng.handleEngineUp.nif name = some machine →
        machine.mState ≠ .released → ∃ s, s ∈ machine.mSubscribers := by
  have hany : (exec step (init true)
      [.agpsInit gpsCapabilityMsb 0, .send (.reqRelWifi .wifi 1 none none true), .run 0]).any
      (fun eng => (eng.nif .agnss).all (fun machine => decide (machine.mState = .released)) &&
        (eng.nif .internet).all (fun machine => decide (machine.mState = .released))) =
        true := by decide
  obtain ⟨eng, hrun, hreleased⟩ := (Option.any_eq_true _ _).mp hany
  refine ⟨eng, hrun, (restart_attended_iff ⟨_, hrun⟩).mpr ?_⟩
  obtain ⟨hagnss, hinternet⟩ := Bool.and_eq_true_iff.mp hreleased
  rintro name machine (rfl | rfl) hfound
  · simpa [hfound] using hagnss
  · simpa [hfound] using hinternet

/-- A restart while the modem waits for a connection for SUPL: `agnss_nif` stays in
Pending on behalf of nobody. -/
theorem restart_leaves_unattended :
    ∃ eng machine, exec step (init true)
      [.agpsInit gpsCapabilityMsb 0, .send (.requestATL 1 .supl), .run 0] = some eng ∧
      eng.handleEngineUp.nif .agnss = some machine ∧ machine.mState = .pending ∧
      machine.mSubscribers = [] :=
  ⟨_, _, rfl, rfl, rfl, rfl⟩

end Engine.AgpsEngine

end Msm8916
