import Msm8916.Agps.Shape
import Msm8916.Agps.Subscription

/-!
The `DSStateMachine`. Its start of a data call may fail, which leaves it in
Released with subscribers on the list; the handlers of Released were written
for an empty one.
-/

namespace Msm8916.Agps.AgpsStateMachine

open Transition

/-- The next state is that of the table for some answer to the request. -/
theorem dispatch_mState_exists (machine : AgpsStateMachine) (event : Event) (answer : Int) :
    ∃ ret, (machine.dispatch event answer).mState = stateAfter machine.mState event
      (listAfter machine.mState event machine.mSubscribers) ret := by
  obtain ⟨listed, hlisted, heq⟩ := machine.dispatch_eq event answer
  rw [heq, follow, ← hlisted.mSubscribers, ← hlisted.mState]
  split
  · exact ⟨0, rfl⟩
  · exact ⟨_, rfl⟩

/-! ## The shape of a DS machine -/

/-- No subscriber on the list is inactive. -/
def AllActive (list : List Subscriber) : Prop := ∀ s ∈ list, s.isInactive = false

structure DsShape (machine : AgpsStateMachine) : Prop where
  ds : machine.machineClass = .ds
  many : machine.mEnforceSingleSubscriber = false
  listing : Listing .ds machine.mSubscribers
  phase : PhaseShape AllActive machine.mSubscribers machine.mState

theorem added_eq_or (list : List Subscriber) (s : Subscriber) :
    (added list s = list ∧ list ≠ []) ∨ added list s = s.clone :: list := by
  unfold added
  split
  · rename_i hany
    refine .inl ⟨rfl, ?_⟩
    rintro rfl
    cases hany
  · exact .inr rfl

/-- A DS machine is in Released with active subscribers only: those it could
not start a data call for. -/
theorem idle_allActive (ret : Int) : Idle AllActive ret where
  nil := by simp [AllActive]
  active {list} s h := by
    rcases added_eq_or list s with ⟨heq, hne⟩ | heq
    · rw [heq]
      obtain ⟨t, ht⟩ := List.exists_mem_of_ne_nil list hne
      exact anyActive_iff.mpr ⟨t, ht, h t ht⟩
    · rw [heq]
      exact anyActive_iff.mpr ⟨s.clone, List.mem_cons_self, by simp⟩
  failed _ {list} s h := by
    rcases added_eq_or list s with ⟨heq, -⟩ | heq
    · rwa [heq]
    · rw [heq]
      intro t ht
      rcases List.mem_cons.mp ht with rfl | ht
      · simp
      · exact h t ht

theorem DsShape.dispatch {machine : AgpsStateMachine} {event : Event} (h : machine.DsShape)
    (answer : Int) (hoccurs : event.Occurs .ds machine) :
    (machine.dispatch event answer).DsShape := by
  obtain ⟨hlist, hclass, henforce⟩ := machine.dispatch_keeps event answer
  obtain ⟨ret, hstate⟩ := machine.dispatch_mState_exists event answer
  refine ⟨hclass.trans h.ds, henforce.trans h.many, ?_, ?_⟩
  · rw [hlist]
    exact listing_listAfter h.listing hoccurs
  · rw [hlist, hstate]
    exact phaseShape_after (idle_allActive ret) h.listing h.phase hoccurs

theorem DsShape.of_sameRow {next machine : AgpsStateMachine} (hsame : SameRow next machine)
    (h : machine.DsShape) : next.DsShape := by
  refine ⟨hsame.machineClass.trans h.ds, hsame.enforce.trans h.many, ?_, ?_⟩
  · rw [hsame.mSubscribers]
    exact h.listing
  · rw [hsame.mSubscribers, hsame.mState]
    exact h.phase

theorem DsShape.step {machine next : AgpsStateMachine} {label : Label} (h : machine.DsShape)
    (hstep : machine.step .ds label = some next) : next.DsShape :=
  step_preserves (A := fun _ => True) (fun hsame h => h.of_sameRow hsame)
    (fun answer h hoccurs _ => h.dispatch answer hoccurs) (fun _ _ _ => trivial) h hstep

theorem newDs_shape : newDs.DsShape :=
  ⟨rfl, rfl, .nil, (idle_allActive 0).nil⟩

theorem dsShape_of_reachable {machine : AgpsStateMachine}
    (hreach : Reachable (step .ds) newDs machine) : machine.DsShape :=
  invariant_of_step (fun _ _ _ h hstep => h.step hstep) newDs_shape hreach

/-! ## Who a retry asks for -/

/-- The log asks for no retry. -/
def NoRetry (machine : AgpsStateMachine) : Prop :=
  ∀ connHandle, Action.requestSuplES connHandle ∉ machine.log

theorem NoRetry.dispatch {machine : AgpsStateMachine} (h : machine.NoRetry) (event : Event)
    (answer : Int) : (machine.dispatch event answer).NoRetry := by
  intro connHandle
  obtain ⟨listed, hlisted, heq⟩ := machine.dispatch_eq event answer
  obtain ⟨log, hlog, hreports⟩ := hlisted.log
  have hnone : Action.requestSuplES connHandle ∉ listed.log := by
    rw [hlog, List.mem_append, not_or]
    exact ⟨h connHandle, fun hmem => nomatch hreports _ hmem⟩
  rw [heq, follow]
  split
  · exact hnone
  · rename_i action _
    obtain ⟨log', mRetries, delayTimers, hsent, hlog'⟩ :=
      listed.sendRsrcRequest_keeps action answer
    rw [hsent, List.mem_append, not_or]
    exact ⟨hnone, fun hmem => (hlog' _ hmem).2 connHandle rfl⟩

theorem OnlyReports.noRetry {next machine : AgpsStateMachine} (hnext : next.OnlyReports machine)
    (h : machine.NoRetry) : next.NoRetry := by
  obtain ⟨log, mRetries, rfl, hreports⟩ := hnext
  intro connHandle
  rw [List.mem_append, not_or]
  exact ⟨h connHandle, fun hmem => nomatch hreports _ hmem⟩

theorem unsubscribeRsrc_noRetry {machine : AgpsStateMachine} (h : machine.NoRetry)
    (s : Subscriber) (answer : Int) : (machine.unsubscribeRsrc s answer).1.NoRetry := by
  unfold unsubscribeRsrc
  split
  · exact h.dispatch _ answer
  · exact h

/-- Only a retry asks to start a data call again, and it asks for an active
subscriber. -/
theorem retry_asks_active {kind : SubscriberKind} {machine next : AgpsStateMachine}
    {label : Label} (hstep : machine.step kind label = some next) {connHandle : Int32}
    (hasked : Action.requestSuplES connHandle ∈ next.log) :
    ∃ s ∈ machine.mSubscribers, s.isInactive = false ∧ s.ID.toInt32 = connHandle := by
  have hcleared : NoRetry { machine with log := [] } := fun _ => List.not_mem_nil
  cases label with
  | subscribe s answer =>
      obtain ⟨-, rfl⟩ := step_subscribe hstep
      have hnone : NoRetry ({ machine with log := [] }.subscribeRsrc s answer) := by
        unfold subscribeRsrc
        split
        · exact (notifySubscriber_onlyReports _ s _).noRetry hcleared
        · exact hcleared.dispatch _ answer
      exact absurd hasked (hnone connHandle)
  | unsubscribe s answer =>
      obtain ⟨-, rfl⟩ := step_unsubscribe hstep
      exact absurd hasked (unsubscribeRsrc_noRetry hcleared s answer connHandle)
  | rsrcEvent event answer =>
      obtain rfl := Option.some.inj hstep
      have hnone : NoRetry ({ machine with log := [] }.onRsrcEvent event answer) :=
        onRsrcEvent_preserves (A := fun _ => True)
          (fun {machine event} answer h (_ : event.Occurs kind machine) _ =>
            h.dispatch event answer) hcleared event answer
      exact absurd hasked (hnone connHandle)
  | setBearer bearer =>
      obtain rfl := Option.some.inj hstep
      cases hasked
  | setAPN apn =>
      obtain rfl := Option.some.inj hstep
      cases hasked
  | retry =>
      obtain ⟨-, rfl⟩ := step_retry hstep
      rw [retryCallback, firstActive_eq] at hasked
      split at hasked
      · rename_i s hfind
        have hhandle : Action.requestSuplES connHandle = .requestSuplES s.ID.toInt32 := by
          simpa [emit] using hasked
        refine ⟨s, List.mem_of_find?_eq_some hfind, ?_, (Action.requestSuplES.inj hhandle).symm⟩
        simpa using List.find?_some hfind
      · cases hasked

/-! ## Unsubscribing -/

theorem equals_iff_ID {s t : Subscriber} (hs : s.kind = .ds) (ht : t.kind = .ds) :
    s.equals t = true ↔ s.ID = t.ID := by
  cases s <;> cases hs
  cases t <;> cases ht
  simp [Subscriber.equals]

/-- A call that subscribes the client `s`. -/
def Label.Subscribes (s : Subscriber) : Label → Prop
  | .subscribe t _ => t.equals s = true
  | _ => False

/-- Only its own subscribe lists a client as active. -/
theorem not_listedActive_after {machine : AgpsStateMachine} {event : Event} {s : Subscriber}
    (hs : s.kind = .ds) (hlisting : Listing .ds machine.mSubscribers)
    (h : ¬ ListedActive machine.mSubscribers s) (hoccurs : event.Occurs .ds machine)
    (hfresh : ∀ t, event = .subscribe t → t.equals s = false) :
    ¬ ListedActive (listAfter machine.mState event machine.mSubscribers) s := by
  rintro ⟨u, hu, hactive, hequals⟩
  have hold : u ∉ machine.mSubscribers := fun hmem => h ⟨u, hmem, hactive, hequals⟩
  cases event with
  | subscribe t =>
      have hu : u ∈ added machine.mSubscribers t := by
        cases hstate : machine.mState <;> rwa [hstate] at hu
      obtain ⟨rfl, -⟩ := ((hlisting.mem_added hoccurs.1 u).mp hu).resolve_left hold
      rw [Subscriber.equals_iff_key (by rw [Subscriber.kind_clone, hoccurs.1, hs]),
        Subscriber.key_clone] at hequals
      have hsame := (Subscriber.equals_iff_key (hoccurs.1.trans hs.symm)).mpr hequals
      rw [hfresh t rfl] at hsame
      cases hsame
  | unsubscribe t =>
      have hu : u ∈ dismissed machine.mSubscribers t := by
        cases hstate : machine.mState with
        | released => rw [hstate] at hu; exact absurd hu hold
        | _ => rwa [hstate] at hu
      rcases (hlisting.mem_dismissed hoccurs u).mp hu with ⟨hmem, -⟩ | ⟨hwait, rfl⟩
      · exact hold hmem
      · rw [Subscriber.isInactive_deactivate hwait] at hactive
        cases hactive
  | granted => cases hstate : machine.mState <;> rw [hstate] at hu <;> exact hold hu
  | released =>
      cases hstate : machine.mState <;> rw [hstate] at hu <;>
        first
        | exact hold hu
        | exact hold (List.mem_of_mem_filter hu)
        | exact absurd hu List.not_mem_nil
  | denied =>
      cases hstate : machine.mState <;> rw [hstate] at hu <;>
        first
        | exact hold hu
        | exact hold (List.mem_of_mem_filter hu)
        | exact absurd hu List.not_mem_nil

/-- A client that is not listed as active stays so until it subscribes. -/
theorem step_not_listedActive {machine next : AgpsStateMachine} {label : Label}
    {s : Subscriber} (hs : s.kind = .ds) (hlisting : Listing .ds machine.mSubscribers)
    (h : ¬ ListedActive machine.mSubscribers s) (hlabel : ¬ label.Subscribes s)
    (hstep : machine.step .ds label = some next) : ¬ ListedActive next.mSubscribers s := by
  have hboth : Listing .ds next.mSubscribers ∧ ¬ ListedActive next.mSubscribers s := by
    refine step_preserves (A := fun t => t.equals s = false)
      (P := fun machine => Listing .ds machine.mSubscribers ∧
        ¬ ListedActive machine.mSubscribers s) ?_ ?_ ?_ ⟨hlisting, h⟩ hstep
    · intro machine next hsame h
      rwa [hsame.mSubscribers]
    · intro machine event answer h hoccurs hfresh
      rw [(machine.dispatch_keeps event answer).1]
      exact ⟨listing_listAfter h.1 hoccurs,
        not_listedActive_after hs h.1 h.2 hoccurs hfresh⟩
    · rintro t answer rfl
      simpa [Label.Subscribes] using hlabel
  exact hboth.2

/-- What an unsubscribe of a listed client does to the list. -/
theorem mSubscribers_unsubscribeRsrc (machine : AgpsStateMachine) {s t : Subscriber}
    (hfind : machine.mSubscribers.find? (fun u => u.equals s) = some t) (answer : Int) :
    (machine.unsubscribeRsrc s answer).1.mSubscribers =
      if machine.mState = .released then machine.mSubscribers
      else dismissed machine.mSubscribers t := by
  rw [unsubscribeRsrc_of_find machine hfind, (machine.dispatch_keeps _ answer).1]
  cases machine.mState <;> rfl

/-- `unsubscribeRsrc` returns true for a listed client. -/
theorem unsubscribeRsrc_snd (machine : AgpsStateMachine) (s : Subscriber) (answer : Int) :
    (machine.unsubscribeRsrc s answer).2 = true ↔
      ∃ t, machine.mSubscribers.find? (fun u => u.equals s) = some t := by
  rw [unsubscribeRsrc, findSubscriber_eq]
  simp only [forMe_toSubscriber]
  cases machine.mSubscribers.find? (fun u => u.equals s) <;> simp

/-- Dismissing the listed client leaves it inactive or takes it off the list. -/
theorem not_listedActive_dismissed {list : List Subscriber} (hlisting : Listing .ds list)
    {s t : Subscriber} (hs : s.kind = .ds)
    (hfind : list.find? (fun u => u.equals s) = some t) :
    ¬ ListedActive (dismissed list t) s := by
  have ht : t ∈ list := List.mem_of_find?_eq_some hfind
  have hsame : t.equals s = true := by simpa using List.find?_some hfind
  rintro ⟨u, hu, hactive, hequals⟩
  rcases (hlisting.mem_dismissed ht u).mp hu with ⟨hmem, hkey⟩ | ⟨hwait, rfl⟩
  · have hukey := (hlisting.equals_iff hmem hs).mp hequals
    have htkey := (hlisting.equals_iff ht hs).mp hsame
    exact hkey (hukey.trans htkey.symm)
  · rw [Subscriber.isInactive_deactivate hwait] at hactive
    cases hactive

/-- A client that is not listed as active is asked for by no retry of a run in
which it does not subscribe. -/
theorem not_asked_of_not_listedActive {machine final : AgpsStateMachine} {s : Subscriber}
    {labels : List Label} (hs : s.kind = .ds) (hshape : machine.DsShape)
    (h : ¬ ListedActive machine.mSubscribers s)
    (hlog : Action.requestSuplES s.ID.toInt32 ∉ machine.log)
    (hlabels : ∀ label ∈ labels, ¬ label.Subscribes s)
    (hrun : exec (step .ds) machine labels = some final) :
    Action.requestSuplES s.ID.toInt32 ∉ final.log := by
  induction labels generalizing machine with
  | nil =>
      obtain rfl : machine = final := Option.some.inj hrun
      exact hlog
  | cons label labels ih =>
      obtain ⟨next, hnext, hrest⟩ := exec_cons_eq_some.mp hrun
      have hlabel := hlabels label List.mem_cons_self
      refine ih (hshape.step hnext)
        (step_not_listedActive hs hshape.listing h hlabel hnext) ?_
        (fun other hother => hlabels other (List.mem_cons_of_mem _ hother)) hrest
      intro hasked
      obtain ⟨t, ht, hactive, hID⟩ := retry_asks_active hnext hasked
      have hsame : t.ID = s.ID := by simpa using congrArg Int32.toUInt32 hID
      exact h ⟨t, ht, hactive, (equals_iff_ID (hshape.listing.kinds t ht) hs).mpr hsame⟩

/-- At every reachable state of a DS machine an unsubscribe that returns true
leaves the client off the active list, and no later retry asks to start a data
call for it before it subscribes again, exactly if the machine is not in
Released or the client is not listed. -/
theorem unsubscribe_takes_effect_iff {machine next : AgpsStateMachine}
    (hreach : Reachable (step .ds) newDs machine) {s : Subscriber} {answer : Int}
    (hstep : machine.step .ds (.unsubscribe s answer) = some next) :
    ((machine.unsubscribeRsrc s answer).2 = true →
        ¬ ListedActive next.mSubscribers s ∧
          ∀ labels final, (∀ label ∈ labels, ¬ label.Subscribes s) →
            exec (step .ds) next labels = some final →
            Action.requestSuplES s.ID.toInt32 ∉ final.log) ↔
      machine.mState ≠ .released ∨ ∀ t ∈ machine.mSubscribers, t.equals s = false := by
  have hshape := dsShape_of_reachable hreach
  have hnext := hshape.step hstep
  obtain ⟨hs, rfl⟩ := step_unsubscribe hstep
  rw [unsubscribeRsrc_snd]
  constructor
  · intro hproperty
    by_contra hcondition
    push Not at hcondition
    obtain ⟨hreleased, t, ht, hequals⟩ := hcondition
    rw [ne_eq, Bool.not_eq_false] at hequals
    obtain ⟨u, hfind⟩ := find?_equals ht hequals
    refine (hproperty ⟨u, hfind⟩).1 ?_
    -- the handler of Released leaves the list alone, and all on it are active
    have hlist := mSubscribers_unsubscribeRsrc { machine with log := [] } hfind answer
    rw [hlist, if_pos hreleased]
    have hphase := hshape.phase
    rw [hreleased] at hphase
    exact ⟨t, ht, hphase t ht, hequals⟩
  · rintro hcondition ⟨t, hfind⟩
    have hequals : t.equals s = true := by simpa using List.find?_some hfind
    have hstate : machine.mState ≠ .released := by
      refine hcondition.resolve_right fun hnone => ?_
      rw [hnone t (List.mem_of_find?_eq_some hfind)] at hequals
      cases hequals
    have hlist := mSubscribers_unsubscribeRsrc { machine with log := [] } hfind answer
    rw [if_neg hstate] at hlist
    have hgone := not_listedActive_dismissed hshape.listing hs hfind
    refine ⟨by rwa [hlist], fun labels final hlabels hrun => ?_⟩
    exact not_asked_of_not_listedActive hs hnext (by rwa [hlist])
      (unsubscribeRsrc_noRetry (fun _ => List.not_mem_nil) s answer _) hlabels hrun

/-- A client unsubscribes from a granted data connection. -/
theorem unsubscribe_takes_effect_iff_granted :
    ∃ machine next,
      exec (step .ds) newDs [.subscribe (.ds 1 false) 0, .rsrcEvent .granted 0] =
        some machine ∧
      machine.step .ds (.unsubscribe (.ds 1 false) 0) = some next ∧
      (((machine.unsubscribeRsrc (.ds 1 false) 0).2 = true →
          ¬ ListedActive next.mSubscribers (.ds 1 false) ∧
            ∀ labels final, (∀ label ∈ labels, ¬ label.Subscribes (.ds 1 false)) →
              exec (step .ds) next labels = some final →
              Action.requestSuplES (Subscriber.ds 1 false).ID.toInt32 ∉ final.log) ↔
        machine.mState ≠ .released ∨
          ∀ t ∈ machine.mSubscribers, t.equals (.ds 1 false) = false) := by
  have hany : (exec (step .ds) newDs
      [.subscribe (.ds 1 false) 0, .rsrcEvent .granted 0]).any
      (fun machine => (machine.step .ds (.unsubscribe (.ds 1 false) 0)).isSome) = true := by
    decide
  obtain ⟨machine, hrun, hsome⟩ := (Option.any_eq_true _ _).mp hany
  obtain ⟨next, hstep⟩ := Option.isSome_iff_exists.mp hsome
  exact ⟨machine, next, hrun, hstep, unsubscribe_takes_effect_iff ⟨_, hrun⟩ hstep⟩

/-- A client gives up while the servicer is busy, and the retry that was
scheduled for it starts its data call again. -/
theorem unsubscribe_forgotten_busy :
    ¬ ∀ (machine next : AgpsStateMachine) (s : Subscriber) (answer : Int),
      Reachable (step .ds) newDs machine →
      machine.step .ds (.unsubscribe s answer) = some next →
      (machine.unsubscribeRsrc s answer).2 = true →
      ¬ ListedActive next.mSubscribers s ∧
        ∀ labels final, (∀ label ∈ labels, ¬ label.Subscribes s) →
          exec (step .ds) next labels = some final →
          Action.requestSuplES s.ID.toInt32 ∉ final.log := by
  intro hall
  have hany : (exec (step .ds) newDs [.subscribe (.ds 1 false) errEngineBusy]).any
      (fun machine =>
        (machine.unsubscribeRsrc (.ds 1 false) 0).2 &&
          (machine.step .ds (.unsubscribe (.ds 1 false) 0)).any fun next =>
            (exec (step .ds) next [.retry]).any fun final =>
              decide (Action.requestSuplES 1 ∈ final.log)) = true := by
    decide
  obtain ⟨machine, hrun, htrue⟩ := (Option.any_eq_true _ _).mp hany
  obtain ⟨hreturned, hnext⟩ := (Bool.and_eq_true _ _).mp htrue
  obtain ⟨next, hstep, hfinal⟩ := (Option.any_eq_true _ _).mp hnext
  obtain ⟨final, hretry, hasked⟩ := (Option.any_eq_true _ _).mp hfinal
  have hsilent := (hall machine next (.ds 1 false) 0 ⟨_, hrun⟩ hstep hreturned).2 [.retry] final
    (by simp [Label.Subscribes]) hretry
  exact hsilent (of_decide_eq_true hasked)

end Msm8916.Agps.AgpsStateMachine
