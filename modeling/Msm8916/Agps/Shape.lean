import Msm8916.Agps.Listing

/-!
The shape of an `AgpsStateMachine`: what its state says about its list.
-/

namespace Msm8916.Agps.AgpsStateMachine

open Transition

/-- What a state says about the list, given what Released says. -/
def PhaseShape (idle : List Subscriber → Prop) (list : List Subscriber) : AgpsState → Prop
  | .released => idle list
  | .pending | .acquired => anyActive list = true
  | .releasing => ∃ s ∈ list, s.isInactive = true

structure Shape (kind : SubscriberKind) (machine : AgpsStateMachine) : Prop where
  agps : machine.machineClass = .agps
  listing : Listing kind machine.mSubscribers
  phase : PhaseShape (fun list => list = []) machine.mSubscribers machine.mState
  single : machine.mEnforceSingleSubscriber = true → machine.mSubscribers.length ≤ 1

/-! ## Rows of the table -/

theorem anyActive_added {list : List Subscriber} (s : Subscriber)
    (h : anyActive list = true) : anyActive (added list s) = true := by
  unfold added
  split
  · exact h
  · obtain ⟨t, ht, hactive⟩ := anyActive_iff.mp h
    exact anyActive_iff.mpr ⟨t, List.mem_cons_of_mem _ ht, hactive⟩

theorem mem_added_of_mem {list : List Subscriber} {t : Subscriber} (s : Subscriber)
    (h : t ∈ list) : t ∈ added list s := by
  unfold added
  split
  · exact h
  · exact List.mem_cons_of_mem _ h

/-- An unsubscribe in Pending or Acquired leads to a state that fits the list,
whatever list it leaves. -/
theorem phaseShape_stateIfUnused {idle : List Subscriber → Prop} (hnil : idle [])
    {this : AgpsState} (h : this = .pending ∨ this = .acquired) (list : List Subscriber) :
    PhaseShape idle list (stateIfUnused this list) := by
  unfold stateIfUnused
  split
  · rename_i hempty
    exact hempty ▸ hnil
  · rename_i hne
    split
    · rcases h with rfl | rfl <;> assumption
    · rename_i hactive
      obtain ⟨s, hs⟩ := List.exists_mem_of_ne_nil list hne
      refine ⟨s, hs, ?_⟩
      by_contra hinactive
      exact hactive (anyActive_iff.mpr ⟨s, hs, by simpa using hinactive⟩)

/-- Only subscribers that wait for the close to complete are ever inactive. -/
theorem waits_of_inactive {s t : Subscriber} (hkind : s.kind = t.kind)
    (h : t.isInactive = true) : s.waitForCloseComplete = true := by
  cases t with
  | bit | atl => cases h
  | wifi =>
      cases s with
      | wifi => rfl
      | bit | atl | ds => cases hkind
  | ds =>
      cases s with
      | ds => rfl
      | bit | atl | wifi => cases hkind

/-- An unsubscribe in Releasing leaves the client on the list as inactive. -/
theorem inactive_dismissed {kind : SubscriberKind} {list : List Subscriber}
    (hlisting : Listing kind list) {s : Subscriber} (hs : s ∈ list)
    (h : ∃ t ∈ list, t.isInactive = true) :
    ∃ t ∈ dismissed list s, t.isInactive = true := by
  obtain ⟨t, ht, hinactive⟩ := h
  have hwait : s.waitForCloseComplete = true :=
    waits_of_inactive ((hlisting.kinds s hs).trans (hlisting.kinds t ht).symm) hinactive
  exact ⟨s.deactivate, (hlisting.mem_dismissed hs _).mpr (.inr ⟨hwait, rfl⟩),
    Subscriber.isInactive_deactivate hwait⟩

/-- Releasing ends with the active subscribers on the list, if there are any. -/
theorem phaseShape_finished {idle : List Subscriber → Prop} (hnil : idle [])
    (list : List Subscriber) :
    PhaseShape idle (list.filter fun s => !s.isInactive)
      (if anyActive (list.filter fun s => !s.isInactive) then .pending else .released) := by
  split
  · assumption
  · rename_i hactive
    have hempty : list.filter (fun s => !s.isInactive) = [] := by
      refine List.eq_nil_iff_forall_not_mem.mpr fun s hs => hactive ?_
      refine anyActive_iff.mpr ⟨s, hs, ?_⟩
      simpa using (List.mem_filter.mp hs).2
    rw [hempty]
    exact hnil

/-- What Released says about the list, for the rows that lead out of Released
or back to it. -/
structure Idle (idle : List Subscriber → Prop) (ret : Int) : Prop where
  nil : idle []
  active : ∀ {list} s, idle list → anyActive (added list s) = true
  failed : ret ≠ 0 → ∀ {list} s, idle list → idle (added list s)

/-- Each event leads to a state that fits the list it leaves. -/
theorem phaseShape_after {idle : List Subscriber → Prop} {ret : Int} (hidle : Idle idle ret)
    {kind : SubscriberKind} {machine : AgpsStateMachine} {event : Event}
    (hlisting : Listing kind machine.mSubscribers)
    (hphase : PhaseShape idle machine.mSubscribers machine.mState)
    (hoccurs : event.Occurs kind machine) :
    PhaseShape idle (listAfter machine.mState event machine.mSubscribers)
      (stateAfter machine.mState event
        (listAfter machine.mState event machine.mSubscribers) ret) := by
  cases hstate : machine.mState with
  | released =>
      rw [hstate] at hphase
      cases event with
      | subscribe s =>
          by_cases hret : ret = 0
          · simp only [stateAfter, hret, if_true]
            exact hidle.active s hphase
          · simp only [stateAfter, hret, if_false]
            exact hidle.failed hret s hphase
      | unsubscribe s => exact hphase
      | granted | released | denied => exact hphase
  | pending =>
      rw [hstate] at hphase
      cases event with
      | subscribe s => exact anyActive_added s hphase
      | unsubscribe s => exact phaseShape_stateIfUnused hidle.nil (.inl rfl) _
      | granted | released => exact hphase
      | denied => exact hidle.nil
  | acquired =>
      rw [hstate] at hphase
      cases event with
      | subscribe s => exact anyActive_added s hphase
      | unsubscribe s => exact phaseShape_stateIfUnused hidle.nil (.inr rfl) _
      | granted | denied => exact hphase
      | released => exact hidle.nil
  | releasing =>
      rw [hstate] at hphase
      cases event with
      | subscribe s =>
          obtain ⟨t, ht, hinactive⟩ := hphase
          exact ⟨t, mem_added_of_mem s ht, hinactive⟩
      | unsubscribe s =>
          have hinactive := inactive_dismissed hlisting hoccurs hphase
          have hne : dismissed machine.mSubscribers s ≠ [] := by
            obtain ⟨t, ht, -⟩ := hinactive
            exact List.ne_nil_of_mem ht
          simp only [listAfter, stateAfter, hne, if_false]
          exact hinactive
      | granted => exact hphase
      | released | denied => exact phaseShape_finished hidle.nil _

/-- An `AgpsStateMachine` is in Released with an empty list, and never comes
back to it from a request. -/
theorem idle_nil : Idle (fun list => list = []) 0 where
  nil := rfl
  active s h := by simp [h, added, anyActive]
  failed h := absurd rfl h

theorem length_dismissed_le (list : List Subscriber) (s : Subscriber) :
    (dismissed list s).length ≤ list.length := by
  unfold dismissed
  split
  · exact Nat.le_of_eq (List.length_replace ..)
  · exact List.length_filter_le _ list

/-- In the single-subscriber mode the list never outgrows one subscriber. -/
theorem length_after {kind : SubscriberKind} {machine : AgpsStateMachine} {event : Event}
    (h : machine.mSubscribers.length ≤ 1) (hoccurs : event.Occurs kind machine)
    (henforce : machine.mEnforceSingleSubscriber = true) :
    (listAfter machine.mState event machine.mSubscribers).length ≤ 1 := by
  cases event with
  | subscribe s =>
      have hempty := hoccurs.2 henforce
      cases machine.mState <;> simp [listAfter, hempty, added]
  | unsubscribe s =>
      have hless := Nat.le_trans (length_dismissed_le machine.mSubscribers s) h
      cases machine.mState <;> first | exact h | exact hless
  | granted => cases machine.mState <;> exact h
  | released =>
      cases machine.mState <;>
        first
        | exact h
        | exact Nat.zero_le 1
        | exact Nat.le_trans (List.length_filter_le _ _) h
  | denied =>
      cases machine.mState <;>
        first
        | exact h
        | exact Nat.zero_le 1
        | exact Nat.le_trans (List.length_filter_le _ _) h

/-! ## Runs -/

theorem sendRsrcRequest_ret {machine : AgpsStateMachine} (h : machine.machineClass = .agps)
    (action : AGpsStatusValue) (answer : Int) :
    (machine.sendRsrcRequest action answer).2 = 0 := by
  unfold sendRsrcRequest sendNifRequest
  rw [h]
  dsimp only
  split <;> rfl

/-- The request of an `AgpsStateMachine` always succeeds, so its next state is
that of the table. -/
theorem follow_mState {machine : AgpsStateMachine} (h : machine.machineClass = .agps)
    (event : Event) (answer : Int) :
    (machine.follow event answer).mState =
      stateAfter machine.mState event machine.mSubscribers 0 := by
  unfold follow
  split
  · rfl
  · dsimp only
    rw [sendRsrcRequest_ret h]

theorem dispatch_mState {machine : AgpsStateMachine} (h : machine.machineClass = .agps)
    (event : Event) (answer : Int) :
    (machine.dispatch event answer).mState = stateAfter machine.mState event
      (listAfter machine.mState event machine.mSubscribers) 0 := by
  obtain ⟨listed, hlisted, heq⟩ := machine.dispatch_eq event answer
  rw [heq, follow_mState (hlisted.machineClass.trans h), hlisted.mState, hlisted.mSubscribers]

theorem Shape.dispatch {kind : SubscriberKind} {machine : AgpsStateMachine} {event : Event}
    (h : machine.Shape kind) (answer : Int) (hoccurs : event.Occurs kind machine) :
    (machine.dispatch event answer).Shape kind := by
  obtain ⟨hlist, hclass, henforce⟩ := machine.dispatch_keeps event answer
  refine ⟨hclass.trans h.agps, ?_, ?_, ?_⟩
  · rw [hlist]
    exact listing_listAfter h.listing hoccurs
  · rw [hlist, dispatch_mState h.agps]
    exact phaseShape_after idle_nil h.listing h.phase hoccurs
  · rw [henforce, hlist]
    exact fun hmode => length_after (h.single hmode) hoccurs hmode

theorem Shape.step {kind : SubscriberKind} {machine next : AgpsStateMachine} {label : Label}
    (h : machine.Shape kind) (hstep : machine.step kind label = some next) :
    next.Shape kind := by
  refine step_preserves (A := fun _ => True) ?_
    (fun answer h hoccurs _ => h.dispatch answer hoccurs) (fun _ _ _ => trivial) h hstep
  intro machine next hsame h
  refine ⟨hsame.machineClass.trans h.agps, ?_, ?_, ?_⟩
  · rw [hsame.mSubscribers]
    exact h.listing
  · rw [hsame.mSubscribers, hsame.mState]
    exact h.phase
  · rw [hsame.mSubscribers, hsame.enforce]
    exact h.single

theorem newAgps_shape (kind : SubscriberKind) (mType : AGpsExtType) (enforce : Bool) :
    (newAgps mType enforce).Shape kind :=
  ⟨rfl, .nil, rfl, fun _ => Nat.zero_le 1⟩

theorem shape_of_reachable {kind : SubscriberKind} {mType : AGpsExtType} {enforce : Bool}
    {machine : AgpsStateMachine}
    (hreach : Reachable (step kind) (newAgps mType enforce) machine) : machine.Shape kind :=
  invariant_of_step (fun _ _ _ h hstep => h.step hstep) (newAgps_shape kind mType enforce)
    hreach

/-- After any calls into an `AgpsStateMachine` whose clients are of one kind,
its state tells who is listed, no client is listed twice, and in the
single-subscriber mode at most one is. -/
theorem agps_state_shape {kind : SubscriberKind} {mType : AGpsExtType} {enforce : Bool}
    {machine : AgpsStateMachine}
    (hreach : Reachable (step kind) (newAgps mType enforce) machine) :
    (machine.mState = .released → machine.mSubscribers = []) ∧
      (machine.mState = .pending ∨ machine.mState = .acquired →
        ∃ s ∈ machine.mSubscribers, s.isInactive = false) ∧
      (machine.mState = .releasing → ∃ s ∈ machine.mSubscribers, s.isInactive = true) ∧
      (machine.mSubscribers.Pairwise fun s t => s.equals t = false ∧ t.equals s = false) ∧
      (machine.mEnforceSingleSubscriber = true → machine.mSubscribers.length ≤ 1) := by
  have hshape := shape_of_reachable hreach
  have hphase := hshape.phase
  refine ⟨fun h => ?_, fun h => ?_, fun h => ?_, ?_, hshape.single⟩
  · rwa [h] at hphase
  · rcases h with h | h <;> rw [h] at hphase <;> exact anyActive_iff.mp hphase
  · rwa [h] at hphase
  · have hdistinct := List.pairwise_map.mp hshape.listing.distinct
    refine hdistinct.imp_of_mem fun {s t} hs ht hkey => ?_
    have hlisting := hshape.listing
    rw [← Bool.not_eq_true, ← Bool.not_eq_true, hlisting.equals_iff hs (hlisting.kinds t ht),
      hlisting.equals_iff ht (hlisting.kinds s hs)]
    exact ⟨hkey, Ne.symm hkey⟩

/-- A WIFI client that unsubscribes from an acquired connection. -/
theorem agps_state_shape_wifi :
    ∃ machine,
      exec (step .wifi) (newAgps .wifi true)
        [.subscribe (.wifi 1 none none false) 0, .rsrcEvent .granted 0,
          .unsubscribe (.wifi 1 none none false) 0] = some machine ∧
      ∃ s ∈ machine.mSubscribers, s.isInactive = true := by
  have hany : (exec (step .wifi) (newAgps .wifi true)
      [.subscribe (.wifi 1 none none false) 0, .rsrcEvent .granted 0,
        .unsubscribe (.wifi 1 none none false) 0]).any
      (fun machine => decide (machine.mState = .releasing)) = true := by decide
  obtain ⟨machine, hrun, hstate⟩ := (Option.any_eq_true _ _).mp hany
  exact ⟨machine, hrun, (agps_state_shape ⟨_, hrun⟩).2.2.1 (of_decide_eq_true hstate)⟩

end Msm8916.Agps.AgpsStateMachine
