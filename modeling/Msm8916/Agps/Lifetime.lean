import Msm8916.Agps.ObjectUse
import Msm8916.Agps.Subscription

/-!
The lifetime of the listed subscribers over whole runs, of either class and with
clients of any kinds.
-/

namespace Msm8916.Agps

open Transition AgpsStateMachine

namespace Store

variable {store : Store}

/-! ## The object of a caller -/

/-- A caller's object is made for the call. -/
theorem Sound.construct (h : store.Sound []) :
    Sound [store.arena.construct.1] { store with arena := store.arena.construct.2 } where
  arena := h.arena.construct
  live data hdata := List.mem_cons_of_mem _ (h.live data hdata)
  nodup := h.nodup
  distinct := h.distinct
  held object hobject := by
    obtain rfl := List.mem_singleton.mp hobject
    exact ⟨List.mem_cons_self, fun hmem => h.arena.construct_fresh (h.mem_live hmem)⟩

/-- At the end of the call nothing listed is lost with it. -/
theorem Sound.leave {object : Nat} (h : store.Sound [object]) :
    Sound [] { store with arena := store.arena.leave object } where
  arena := h.arena.leave object
  live data hdata := by
    refine Arena.mem_live_leave.mpr ⟨h.live data hdata, ?_⟩
    rintro rfl
    exact (h.held _ List.mem_cons_self).2 (List.mem_map_of_mem hdata)
  nodup := h.nodup
  distinct := h.distinct
  held := by simp

/-! ## Dropping the list -/

theorem deleteAll_sound {arena : Arena} (h : arena.Sound) {list : List (Nat × Subscriber)}
    (hlive : ∀ data ∈ list, data.1 ∈ arena.live) (hnodup : (list.map Prod.fst).Nodup) :
    (list.foldl (fun arena data => arena.delete data.1) arena).Sound := by
  induction list generalizing arena with
  | nil => exact h
  | cons data list ih =>
      obtain ⟨hfree, hnodup⟩ := List.nodup_cons.mp hnodup
      refine ih (h.delete (hlive data List.mem_cons_self)) (fun other hother => ?_) hnodup
      refine Arena.mem_live_leave.mpr ⟨hlive other (List.mem_cons_of_mem _ hother), ?_⟩
      intro heq
      exact hfree (heq ▸ List.mem_map_of_mem hother)

theorem uses_deleteAll (list : List (Nat × Subscriber)) (arena : Arena) :
    (list.foldl (fun arena data => arena.delete data.1) arena).uses = arena.uses := by
  induction list generalizing arena with
  | nil => rfl
  | cons data list ih => exact ih _

theorem Sound.dropAllSubscribers (h : store.Sound []) : Tidy [] store store.dropAllSubscribers where
  sound := ⟨deleteAll_sound h.arena h.live h.nodup, by simp [Store.dropAllSubscribers],
    List.nodup_nil, .nil, by simp⟩
  clean := by
    rw [Arena.Clean, Arena.Clean, Store.dropAllSubscribers, uses_deleteAll]

end Store

namespace Housed

variable {housed : Housed}

/-! ## Calls -/

/-- What holds between calls: the objects are those of the machine's list. -/
structure Kept (housed : Housed) : Prop where
  sound : housed.store.Sound []
  agrees : housed.store.values = housed.machine.mSubscribers

/-- The condition on a call: a client that does not wait for the close to
complete unsubscribes as the only one listed. -/
def OnlyReceiver (machine : AgpsStateMachine) : AgpsStateMachine.Label → Prop
  | .unsubscribe s _ => ∀ t, machine.mSubscribers.find? (fun u => u.equals s) = some t →
      machine.mState ≠ .released → t.waitForCloseComplete = false → machine.mSubscribers = [t]
  | _ => True

theorem dispatch_effect {held : List Nat} (h : housed.store.Sound held)
    (hagrees : housed.store.values = housed.machine.mSubscribers) {event : Event} {object : Nat}
    (hobject : ∀ s, event = .subscribe s → object ∈ housed.store.arena.live)
    (hlisted : ∀ t, event = .unsubscribe t → (object, t) ∈ housed.store.listed) (answer : Int) :
    Store.Effect held
      (Store.Harmless housed.machine.mState event housed.machine.mSubscribers)
      (housed.dispatch event object answer).machine.mSubscribers housed.store
      (housed.dispatch event object answer).store := by
  have heffect := h.dispatch_effect housed.machine.mState hobject hlisted
  rw [hagrees] at heffect
  have hlist := (housed.machine.dispatch_keeps event answer).1
  exact ⟨heffect.sound, heffect.clean, heffect.values.trans hlist.symm⟩

/-- A resource event comes without a receiver. -/
theorem dispatch_event {held : List Nat} (h : housed.store.Sound held)
    (hagrees : housed.store.values = housed.machine.mSubscribers) (event : Event)
    (hevent : event = .granted ∨ event = .released ∨ event = .denied) (answer : Int) :
    Store.Tidy held housed.store (housed.dispatch event 0 answer).store ∧
      (housed.dispatch event 0 answer).store.values =
        (housed.dispatch event 0 answer).machine.mSubscribers := by
  have hsubscribe : ∀ s, event ≠ .subscribe s := by
    rcases hevent with rfl | rfl | rfl <;> simp
  have hunsubscribe : ∀ t, event ≠ .unsubscribe t := by
    rcases hevent with rfl | rfl | rfl <;> simp
  have hobject : ∀ s, event = .subscribe s → 0 ∈ housed.store.arena.live :=
    fun s heq => absurd heq (hsubscribe s)
  have hlisted : ∀ t, event = .unsubscribe t → (0, t) ∈ housed.store.listed :=
    fun t heq => absurd heq (hunsubscribe t)
  have heffect := dispatch_effect h hagrees hobject hlisted answer
  refine ⟨⟨heffect.sound, heffect.clean.trans (and_iff_left fun t heq => ?_)⟩, heffect.values⟩
  exact absurd heq (hunsubscribe t)

theorem onRsrcEvent_kept (h : housed.Kept) (event : AgpsRsrcStatus) (answer : Int) :
    (housed.onRsrcEvent event answer).Kept ∧
      ((housed.onRsrcEvent event answer).store.arena.Clean ↔ housed.store.arena.Clean) := by
  have hdispatch : ∀ event, event = Event.granted ∨ event = .released ∨ event = .denied →
      (housed.dispatch event 0 answer).Kept ∧
        ((housed.dispatch event 0 answer).store.arena.Clean ↔ housed.store.arena.Clean) := by
    intro event hevent
    obtain ⟨htidy, hagrees⟩ := dispatch_event h.sound h.agrees event hevent answer
    exact ⟨⟨htidy.sound, hagrees⟩, htidy.clean⟩
  have hsame : housed.Kept ∧ (housed.store.arena.Clean ↔ housed.store.arena.Clean) := ⟨h, .rfl⟩
  unfold onRsrcEvent
  cases housed.machine.machineClass with
  | agps => cases event <;> first | exact hdispatch _ (by simp) | exact hsame
  | ds =>
      cases event with
      | released =>
          obtain ⟨hnext, hclean⟩ := hdispatch .released (by simp)
          dsimp only
          split
          · obtain ⟨htidy, hagrees⟩ :=
              dispatch_event hnext.sound hnext.agrees .denied (by simp) answer
            exact ⟨⟨htidy.sound, hagrees⟩, htidy.clean.trans hclean⟩
          · exact ⟨hnext, hclean⟩
      | granted | denied => exact hdispatch _ (by simp)
      | subscribe | unsubscribe | statusMax => exact hsame

theorem subscribeRsrc_kept (h : housed.Kept) (s : Subscriber) (answer : Int) :
    (housed.subscribeRsrc s answer).Kept ∧
      ((housed.subscribeRsrc s answer).store.arena.Clean ↔ housed.store.arena.Clean) := by
  have hheld := h.sound.construct
  have hlive := (hheld.held _ List.mem_cons_self).1
  have hlist := mSubscribers_subscribeRsrc housed.machine s answer
  unfold subscribeRsrc
  dsimp only
  split
  · rename_i hsingle
    have htold := hheld.use_tidy [housed.store.arena.construct.1] (by simpa using hlive)
    rw [if_pos hsingle] at hlist
    exact ⟨⟨htold.sound.leave, h.agrees.trans hlist.symm⟩, htold.clean⟩
  · rename_i hsingle
    have heffect := hheld.dispatch_effect housed.machine.mState
      (fun t (_ : Event.subscribe s = .subscribe t) => hlive) (by simp)
    rw [if_neg hsingle] at hlist
    refine ⟨⟨heffect.sound.leave, heffect.values.trans ?_⟩,
      heffect.clean.trans (and_iff_left fun t heq => by simp at heq)⟩
    rw [hlist, ← h.agrees]
    cases housed.machine.mState <;> rfl

/-- The subscriber found on the list is that of the machine. -/
theorem find?_values (store : Store) (s : Subscriber) :
    store.values.find? (fun u => u.equals s) =
      (store.listed.find? fun data => data.2.equals s).map Prod.snd := by
  rw [Store.values, List.find?_map]
  rfl

theorem unsubscribeRsrc_kept (h : housed.Kept) (s : Subscriber) (answer : Int) :
    (housed.unsubscribeRsrc s answer).Kept ∧
      ((housed.unsubscribeRsrc s answer).store.arena.Clean ↔
        housed.store.arena.Clean ∧ OnlyReceiver housed.machine (.unsubscribe s answer)) := by
  have hheld := h.sound.construct
  have hlive := (hheld.held _ List.mem_cons_self).1
  have hvalues := find?_values housed.store s
  rw [h.agrees] at hvalues
  have hsearch := hheld.findSubscriber_tidy s hlive
  obtain ⟨hlisted, hfind⟩ := Store.findSubscriber_eq s housed.store.arena.construct.1
    { housed.store with arena := housed.store.arena.construct.2 }
  unfold unsubscribeRsrc
  dsimp only
  split
  · rename_i searched data heq
    rw [heq] at hsearch hlisted hfind
    have hvalue : housed.machine.mSubscribers.find? (fun u => u.equals s) = some data.2 := by
      rw [hvalues, ← hfind]
      rfl
    have hmem : data ∈ searched.listed := by
      rw [hlisted]
      exact List.mem_of_find?_eq_some hfind.symm
    have hagrees : searched.values = housed.machine.mSubscribers :=
      (Store.values_of_listed hlisted).trans h.agrees
    have hlisted : ∀ t, Event.unsubscribe data.2 = .unsubscribe t →
        (data.1, t) ∈ searched.listed := by
      intro t hevent
      rwa [← Event.unsubscribe.inj hevent]
    have heffect := hsearch.sound.dispatch_effect housed.machine.mState (by simp) hlisted
    have hlist := (housed.machine.dispatch_keeps (.unsubscribe data.2) answer).1
    rw [hagrees] at heffect
    refine ⟨⟨heffect.sound.leave, heffect.values.trans ?_⟩,
      heffect.clean.trans (and_congr hsearch.clean ?_)⟩
    · rw [unsubscribeRsrc_of_find housed.machine hvalue, hlist]
    · constructor
      · intro hharmless t ht
        obtain rfl : data.2 = t := Option.some.inj (hvalue.symm.trans ht)
        exact hharmless _ rfl
      · rintro honly t hevent
        obtain rfl := Event.unsubscribe.inj hevent
        exact honly _ hvalue
  · rename_i searched heq
    rw [heq] at hsearch hlisted hfind
    have hvalue : housed.machine.mSubscribers.find? (fun u => u.equals s) = none := by
      rw [hvalues, ← hfind]
      rfl
    have hsame : (housed.machine.unsubscribeRsrc s answer).1 = housed.machine := by
      rw [AgpsStateMachine.unsubscribeRsrc, AgpsStateMachine.findSubscriber_eq]
      simp only [forMe_toSubscriber, hvalue]
    refine ⟨⟨hsearch.sound.leave, ?_⟩, hsearch.clean.trans (and_iff_left fun t ht => ?_).symm⟩
    · rw [hsame]
      exact (Store.values_of_listed hlisted).trans h.agrees
    · rw [hvalue] at ht
      cases ht

/-! ## Runs -/

theorem machine_onRsrcEvent (housed : Housed) (event : AgpsRsrcStatus) (answer : Int) :
    (housed.onRsrcEvent event answer).machine = housed.machine.onRsrcEvent event answer := by
  unfold onRsrcEvent AgpsStateMachine.onRsrcEvent
  cases housed.machine.machineClass with
  | agps => cases event <;> rfl
  | ds =>
      cases event with
      | released =>
          dsimp only [onDsEvent, dispatch]
          split <;> rfl
      | _ => rfl

/-- The machine of a step moves as the model of the machine does. -/
theorem step_machine {next : Housed} {label : AgpsStateMachine.Label} {kind : SubscriberKind}
    (hkind : ∀ s answer, label = .subscribe s answer ∨ label = .unsubscribe s answer →
      s.kind = kind)
    (hstep : housed.step (.call label) = some next) :
    housed.machine.step kind label = some next.machine := by
  cases label with
  | subscribe s answer =>
      obtain rfl := Option.some.inj hstep
      rw [AgpsStateMachine.step, if_pos (hkind s answer (.inl rfl))]
      rfl
  | unsubscribe s answer =>
      obtain rfl := Option.some.inj hstep
      rw [AgpsStateMachine.step, if_pos (hkind s answer (.inr rfl))]
      rfl
  | rsrcEvent event answer =>
      obtain rfl := Option.some.inj hstep
      rw [AgpsStateMachine.step, machine_onRsrcEvent]
  | setBearer bearer =>
      obtain rfl := Option.some.inj hstep
      rfl
  | setAPN apn =>
      obtain rfl := Option.some.inj hstep
      rfl
  | retry =>
      simp only [step, call, Option.ite_none_right_eq_some, Option.some.injEq] at hstep
      obtain ⟨htimer, rfl⟩ := hstep
      rw [AgpsStateMachine.step, if_pos htimer]
      rfl

/-- The condition on a step. -/
def Proper (housed : Housed) : Label → Prop
  | .call label => OnlyReceiver housed.machine label
  | .dropAllSubscribers => True

theorem Kept.step {next : Housed} {label : Label} (h : housed.Kept)
    (hstep : housed.step label = some next) :
    next.Kept ∧ (next.store.arena.Clean ↔ housed.store.arena.Clean ∧ housed.Proper label) := by
  have hcleared : Kept { housed with machine := { housed.machine with log := [] } } :=
    ⟨h.sound, h.agrees⟩
  cases label with
  | dropAllSubscribers =>
      obtain rfl := Option.some.inj hstep
      have hdropped := h.sound.dropAllSubscribers
      exact ⟨⟨hdropped.sound, rfl⟩, hdropped.clean.trans (and_iff_left trivial).symm⟩
  | call label =>
      cases label with
      | subscribe s answer =>
          obtain rfl := Option.some.inj hstep
          obtain ⟨hnext, hclean⟩ := subscribeRsrc_kept hcleared s answer
          exact ⟨hnext, hclean.trans (and_iff_left trivial).symm⟩
      | unsubscribe s answer =>
          obtain rfl := Option.some.inj hstep
          exact unsubscribeRsrc_kept hcleared s answer
      | rsrcEvent event answer =>
          obtain rfl := Option.some.inj hstep
          obtain ⟨hnext, hclean⟩ := onRsrcEvent_kept hcleared event answer
          exact ⟨hnext, hclean.trans (and_iff_left trivial).symm⟩
      | setBearer bearer =>
          obtain rfl := Option.some.inj hstep
          exact ⟨⟨h.sound, h.agrees⟩, (and_iff_left trivial).symm⟩
      | setAPN apn =>
          obtain rfl := Option.some.inj hstep
          exact ⟨⟨h.sound, h.agrees⟩, (and_iff_left trivial).symm⟩
      | retry =>
          simp only [Housed.step, call, Option.ite_none_right_eq_some, Option.some.injEq] at hstep
          obtain ⟨-, rfl⟩ := hstep
          have hactive := h.sound.firstActive_tidy
          refine ⟨⟨hactive.sound, ?_⟩, hactive.clean.trans (and_iff_left trivial).symm⟩
          refine (Store.values_firstActive _).trans (h.agrees.trans ?_)
          unfold retryCallback AgpsStateMachine.retryCallback
          dsimp only
          split <;> rfl

theorem new_kept {machine : AgpsStateMachine} (h : machine.Initial) : (new machine).Kept := by
  refine ⟨Store.empty_sound, ?_⟩
  rcases h with rfl | ⟨mType, enforce, rfl⟩ <;> rfl

theorem kept_of_run {machine : AgpsStateMachine} (hinit : machine.Initial) {labels : List Label}
    {final : Housed} (hrun : exec step (new machine) labels = some final) : final.Kept :=
  invariant_of_step (fun _ _ _ h hstep => (h.step hstep).1) (new_kept hinit) ⟨labels, hrun⟩

/-- In a run of a machine of either class every subscriber was live whenever
`forMe` or `equals` compared it, and none was deleted twice, exactly if every
client that does not wait for the close to complete, and unsubscribed outside
Released, was the only one listed. -/
theorem lifetime_protocol_iff {machine : AgpsStateMachine} (hinit : machine.Initial)
    {labels : List Label} {final : Housed}
    (hrun : exec step (new machine) labels = some final) :
    (final.store.arena.Clean ∧ final.store.arena.deletions.Nodup) ↔
      Along step Proper (new machine) labels := by
  have honce := (kept_of_run hinit hrun).sound.arena.once
  have hclean : final.store.arena.Clean ↔
      (new machine).store.arena.Clean ∧ Along step Proper (new machine) labels :=
    along_iff_of_step (I := Kept) (fun _ _ _ h hstep => (h.step hstep).1)
      (fun _ _ _ h hstep => (h.step hstep).2) (new_kept hinit) hrun
  rw [and_iff_left honce, hclean]
  exact and_iff_right Arena.empty_clean

/-- Two WIFI clients come and go. -/
theorem lifetime_protocol_iff_wifi :
    ∃ labels final, exec step (new (newAgps .wifi false)) labels = some final ∧
      final.store.arena.deletions ≠ [] ∧
      ((final.store.arena.Clean ∧ final.store.arena.deletions.Nodup) ↔
        Along step Proper (new (newAgps .wifi false)) labels) := by
  have hany : (exec step (new (newAgps .wifi false))
      [.call (.subscribe (.wifi 1 none none false) 0),
        .call (.subscribe (.wifi 2 none none false) 0), .call (.rsrcEvent .granted 0),
        .call (.unsubscribe (.wifi 1 none none false) 0),
        .call (.unsubscribe (.wifi 2 none none false) 0), .call (.rsrcEvent .released 0)]).any
      (fun final => decide (final.store.arena.deletions ≠ [])) = true := by decide
  obtain ⟨final, hrun, hdeleted⟩ := (Option.any_eq_true _ _).mp hany
  exact ⟨_, final, hrun, of_decide_eq_true hdeleted,
    lifetime_protocol_iff (.inr ⟨.wifi, false, rfl⟩) hrun⟩

/-- One of two ATL clients unsubscribes, and the other is compared with the
object that was just deleted. -/
theorem receiver_compared_deleted :
    ¬ ∀ (machine : AgpsStateMachine) (labels : List Label) (final : Housed), machine.Initial →
      exec step (new machine) labels = some final →
      final.store.arena.Clean ∧ final.store.arena.deletions.Nodup := by
  intro hall
  have hany : (exec step (new (newAgps .supl false))
      [.call (.subscribe (.atl 1 false) 0), .call (.subscribe (.atl 2 false) 0),
        .call (.unsubscribe (.atl 1 false) 0)]).any
      (fun final => final.store.arena.uses.any fun used => !used.2) = true := by decide
  obtain ⟨final, hrun, hdead⟩ := (Option.any_eq_true _ _).mp hany
  obtain ⟨used, hused, hfalse⟩ := List.any_eq_true.mp hdead
  have hlive := (hall _ _ final (.inr ⟨.supl, false, rfl⟩) hrun).1 used hused
  rw [hlive] at hfalse
  cases hfalse

end Housed

end Msm8916.Agps
