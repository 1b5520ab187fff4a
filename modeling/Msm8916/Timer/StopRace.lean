import Msm8916.Timer.Wrapper
import Msm8916.Timer.Punctual

/-!
When `loc_timer_stop` is safe. A wrapper is deleted under `mMutex`, but the
message task uses it between its critical sections without knowing; a stop that
comes in between leaves the task with a deleted wrapper.
-/

namespace Msm8916.Timer.LocTimerApi

open Heap Transition

/-- What the interface owes its callers: no use of a deleted wrapper, no second
deletion, and once `loc_timer_stop` has returned the wrapper is deleted and its
callback is not called. -/
structure Safe (state : LocTimerApi) : Prop where
  clean : state.wrappers.Clean
  once : state.wrappers.deletions.Nodup
  deleted : ∀ wrapper ∈ state.returned, wrapper ∈ state.wrappers.deletions
  silent : ∀ call ∈ state.invoked, call.2 = false

/-- The condition on one step. `loc_timer_stop` begins to destroy a wrapper that
still exists and that the message task does not hold, and the message task reads
the client of a timer whose wrapper no thread is deleting. -/
def StopsUnheld (state : LocTimerApi) : Label → Prop
  | .thread i => ∀ wrapper, state.calls[i]? = some ⟨wrapper, .entered⟩ →
      wrapper ∈ state.wrappers.live ∧ state.point.client? ≠ some wrapper
  | .task => ∀ timer, state.point = .popped timer →
      ∀ wrapper, state.timers.mClient timer = some wrapper →
        (⟨wrapper, .deleting⟩ : StopCall) ∉ state.calls
  | _ => True

/-- Nothing has gone wrong, and the wrapper the message task holds exists. -/
def Sane (state : LocTimerApi) : Prop :=
  state.wrappers.Clean ∧ (∀ call ∈ state.invoked, call.2 = false) ∧
    ∀ wrapper, state.point.client? = some wrapper → wrapper ∈ state.wrappers.live

/-- Someone is inside `delete this` of the wrapper. -/
def Deleting (state : LocTimerApi) (wrapper : Nat) : Prop :=
  state.point = .deleting wrapper ∨ (⟨wrapper, .deleting⟩ : StopCall) ∈ state.calls

structure Consistent (state : LocTimerApi) : Prop where
  sound : state.wrappers.Sound
  linked : state.timers.Linked
  mCb : ∀ wrapper, (state.fields wrapper).mCb = true ↔ wrapper ∈ state.wrappers.live
  mMe : ∀ wrapper, (state.fields wrapper).mMe = (state.fields wrapper).mCb
  known : ∀ wrapper < state.wrappers.next,
    wrapper ∈ state.wrappers.live ∨ wrapper ∈ state.wrappers.deletions
  handled : ∀ wrapper, state.handle wrapper = true → wrapper < state.wrappers.next
  entered : ∀ call ∈ state.calls, call.wrapper < state.wrappers.next
  held : ∀ wrapper, state.point.client? = some wrapper → wrapper < state.wrappers.next
  clients : ∀ timer wrapper, state.timers.mClient timer = some wrapper →
    wrapper ∈ state.wrappers.live ∨ state.Deleting wrapper
  mutex : state.mMutex = true → ∃ wrapper, state.Deleting wrapper
  deleting : ∀ wrapper, state.point = .deleting wrapper → wrapper ∈ state.wrappers.deletions
  destroyed : ∀ call ∈ state.calls, call.point ≠ .entered →
    call.wrapper ∈ state.wrappers.deletions
  returned : ∀ wrapper ∈ state.returned, wrapper ∈ state.wrappers.deletions

theorem init_consistent (now : BootTime) : (init now).Consistent where
  sound := Arena.empty_sound
  linked := LocTimers.init_linked now
  mCb _ := by simp [init, Arena.empty]
  mMe _ := rfl
  known _ h := absurd h (Nat.not_lt_zero _)
  handled _ h := nomatch h
  entered _ h := nomatch h
  held _ h := nomatch h
  clients _ _ h := nomatch h
  mutex h := nomatch h
  deleting _ h := nomatch h
  destroyed _ h := nomatch h
  returned _ h := nomatch h

theorem init_sane (now : BootTime) : (init now).Sane := by
  simp [Sane, init, Arena.empty_clean, TaskPoint.client?]

theorem Consistent.safe {state : LocTimerApi} (h : state.Consistent) (hsane : state.Sane) :
    state.Safe :=
  ⟨hsane.1, h.sound.once, h.returned, hsane.2.1⟩

/-! ## Steps that delete nothing -/

/-- The message task moves on, and timers may lose their clients. -/
theorem Consistent.move {state : LocTimerApi} (h : state.Consistent) {timers : LocTimers}
    {point : TaskPoint} {uses : List (Nat × Bool)} {container : Bool}
    {timerOfNow : LocTimerDelegate} {invoked : List (Nat × Bool)} (hlinked : timers.Linked)
    (hclients : ∀ timer wrapper, timers.mClient timer = some wrapper →
      state.timers.mClient timer = some wrapper)
    (hheld : ∀ wrapper, point.client? = some wrapper → wrapper < state.wrappers.next)
    (hdeleting : ∀ wrapper, state.point = .deleting wrapper ↔ point = .deleting wrapper) :
    { state with
      timers, point, container, timerOfNow, invoked
      wrappers := { state.wrappers with uses } }.Consistent where
  sound := ⟨h.sound.fresh, h.sound.dead, h.sound.once⟩
  linked := hlinked
  mCb := h.mCb
  mMe := h.mMe
  known := h.known
  handled := h.handled
  entered := h.entered
  held := hheld
  clients timer wrapper hclient :=
    (h.clients timer wrapper (hclients timer wrapper hclient)).imp id
      (Or.imp (hdeleting wrapper).mp id)
  mutex hlocked :=
    let ⟨wrapper, hwrapper⟩ := h.mutex hlocked
    ⟨wrapper, hwrapper.imp (hdeleting wrapper).mp id⟩
  deleting wrapper hpoint := h.deleting wrapper ((hdeleting wrapper).mpr hpoint)
  destroyed := h.destroyed
  returned := h.returned

/-- The calls are as before but for one of a wrapper that is deleted, and nobody
leaves a deletion half done. -/
theorem Consistent.pass {state : LocTimerApi} (h : state.Consistent) {point : TaskPoint}
    {calls : List StopCall} {uses : List (Nat × Bool)} {returned : List Nat}
    {handle : Nat → Bool}
    (hcalls : ∀ call ∈ calls, call ∈ state.calls ∨
      call.point ≠ .entered ∧ call.wrapper ∈ state.wrappers.deletions)
    (hreturned : ∀ wrapper ∈ returned, wrapper ∈ state.wrappers.deletions)
    (hhandled : ∀ wrapper, handle wrapper = true → state.handle wrapper = true)
    (hheld : ∀ wrapper, point.client? = some wrapper → wrapper < state.wrappers.next)
    (hpoint : ∀ wrapper, point = .deleting wrapper → state.point = .deleting wrapper)
    (hdeleting : ∀ wrapper, state.Deleting wrapper →
      point = .deleting wrapper ∨ (⟨wrapper, .deleting⟩ : StopCall) ∈ calls) :
    { state with
      point, calls, returned, handle
      wrappers := { state.wrappers with uses } }.Consistent where
  sound := ⟨h.sound.fresh, h.sound.dead, h.sound.once⟩
  linked := h.linked
  mCb := h.mCb
  mMe := h.mMe
  known := h.known
  handled wrapper hwrapper := h.handled wrapper (hhandled wrapper hwrapper)
  entered call hcall := by
    rcases hcalls call hcall with hold | ⟨-, hdeleted⟩
    · exact h.entered call hold
    · exact (h.sound.dead _ hdeleted).1
  held := hheld
  clients timer wrapper hclient := (h.clients timer wrapper hclient).imp id (hdeleting wrapper)
  mutex hlocked :=
    let ⟨wrapper, hwrapper⟩ := h.mutex hlocked
    ⟨wrapper, hdeleting wrapper hwrapper⟩
  deleting wrapper hwrapper := h.deleting wrapper (hpoint wrapper hwrapper)
  destroyed call hcall hpoint := by
    rcases hcalls call hcall with hold | ⟨-, hdeleted⟩
    · exact h.destroyed call hold hpoint
    · exact hdeleted
  returned := hreturned

/-! ## Deletion -/

theorem Consistent.destroy_live {state : LocTimerApi} (h : state.Consistent) {wrapper : Nat}
    (hlive : wrapper ∈ state.wrappers.live) :
    state.destroy wrapper = ({ state with
      wrappers := (state.wrappers.use [wrapper]).delete wrapper
      fields := Function.update state.fields wrapper ⟨false, false⟩
      mMutex := true }, true) := by
  have hmCb := (h.mCb wrapper).mpr hlive
  simp [destroy, use, h.mMe, hmCb]

theorem Consistent.destroy_dead {state : LocTimerApi} (h : state.Consistent) {wrapper : Nat}
    (hdead : wrapper ∉ state.wrappers.live) :
    state.destroy wrapper = (state.use wrapper, false) := by
  have hmCb : (state.fields wrapper).mCb = false := by
    rw [← Bool.not_eq_true, h.mCb]
    exact hdead
  simp [destroy, hmCb]

/-- A deletion begins, by the message task or by a thread. -/
theorem Consistent.beginDelete {state : LocTimerApi} (h : state.Consistent) {wrapper : Nat}
    (hlive : wrapper ∈ state.wrappers.live) {point : TaskPoint} {calls : List StopCall}
    (hcalls : ∀ call ∈ calls, call ∈ state.calls ∨ call.wrapper = wrapper)
    (hheld : ∀ other, point.client? = some other → other < state.wrappers.next)
    (hkept : ∀ other, state.Deleting other →
      point = .deleting other ∨ (⟨other, .deleting⟩ : StopCall) ∈ calls)
    (hpoint : ∀ other, point = .deleting other →
      state.point = .deleting other ∨ other = wrapper)
    (hbegun : point = .deleting wrapper ∨ (⟨wrapper, .deleting⟩ : StopCall) ∈ calls) :
    { state with
      point, calls
      wrappers := (state.wrappers.use [wrapper]).delete wrapper
      fields := Function.update state.fields wrapper ⟨false, false⟩
      mMutex := true }.Consistent where
  sound := (h.sound.use [wrapper]).delete hlive
  linked := h.linked
  mCb other := by
    dsimp only
    rw [Arena.delete, Arena.mem_live_leave, Arena.live_use]
    by_cases hsame : other = wrapper
    · subst hsame
      simp
    · rw [Function.update_of_ne hsame, h.mCb]
      exact (and_iff_left hsame).symm
  mMe other := by
    dsimp only
    by_cases hsame : other = wrapper
    · subst hsame
      simp
    · rw [Function.update_of_ne hsame]
      exact h.mMe other
  known other hother := by
    rcases h.known other hother with hold | hdeleted
    · by_cases hsame : other = wrapper
      · exact .inr (List.mem_append_right _ (List.mem_singleton.mpr hsame))
      · exact .inl (Arena.mem_live_leave.mpr ⟨hold, hsame⟩)
    · exact .inr (List.mem_append_left _ hdeleted)
  handled := h.handled
  entered call hcall := by
    rcases hcalls call hcall with hold | heq
    · exact h.entered call hold
    · rw [heq]
      exact h.sound.fresh _ hlive
  held := hheld
  clients timer other hclient := by
    rcases h.clients timer other hclient with hold | hdeleting
    · by_cases hsame : other = wrapper
      · exact .inr (hsame ▸ hbegun)
      · exact .inl (Arena.mem_live_leave.mpr ⟨hold, hsame⟩)
    · exact .inr (hkept other hdeleting)
  mutex _ := ⟨wrapper, hbegun⟩
  deleting other hother := by
    rcases hpoint other hother with hold | heq
    · exact List.mem_append_left _ (h.deleting other hold)
    · exact List.mem_append_right _ (List.mem_singleton.mpr heq)
  destroyed call hcall hpoint := by
    rcases hcalls call hcall with hold | heq
    · exact List.mem_append_left _ (h.destroyed call hold hpoint)
    · exact List.mem_append_right _ (List.mem_singleton.mpr heq)
  returned other hother := List.mem_append_left _ (h.returned other hother)

/-- A deletion ends: no timer has the wrapper for its client any more. -/
theorem Consistent.endDelete {state : LocTimerApi} (h : state.Consistent) {wrapper : Nat}
    (hdeleted : wrapper ∈ state.wrappers.deletions) {point : TaskPoint} {calls : List StopCall}
    (hcalls : ∀ call ∈ calls, call ∈ state.calls ∨ call.wrapper = wrapper)
    (hheld : ∀ other, point.client? = some other → other < state.wrappers.next)
    (hpoint : ∀ other, point = .deleting other → state.point = .deleting other)
    (hkept : ∀ other, other ≠ wrapper → state.Deleting other →
      point = .deleting other ∨ (⟨other, .deleting⟩ : StopCall) ∈ calls) :
    { state.finishDelete wrapper with point, calls }.Consistent where
  sound := h.sound
  linked := h.linked.stop wrapper
  mCb := h.mCb
  mMe := h.mMe
  known := h.known
  handled := h.handled
  entered call hcall := by
    rcases hcalls call hcall with hold | heq
    · exact h.entered call hold
    · rw [heq]
      exact (h.sound.dead _ hdeleted).1
  held := hheld
  clients timer other hclient := by
    obtain ⟨hbefore, hne⟩ := h.linked.stop_client hclient
    exact (h.clients timer other hbefore).imp id (hkept other hne)
  mutex hlocked := by cases hlocked
  deleting other hother := h.deleting other (hpoint other hother)
  destroyed call hcall hpoint := by
    rcases hcalls call hcall with hold | heq
    · exact h.destroyed call hold hpoint
    · rw [heq]
      exact hdeleted
  returned := h.returned

/-! ## The calls of the threads -/

theorem mem_set_of_ne {calls : List StopCall} {i : Nat} {old new other : StopCall}
    (hold : calls[i]? = some old) (hother : other ∈ calls) (hne : other ≠ old) :
    other ∈ calls.set i new := by
  obtain ⟨j, hj⟩ := List.mem_iff_getElem?.mp hother
  have hij : i ≠ j := by
    rintro rfl
    exact hne (Option.some.inj (hj.symm.trans hold))
  apply List.mem_iff_getElem?.mpr
  exact ⟨j, (List.getElem?_set_ne hij).trans hj⟩

theorem mem_set_self {calls : List StopCall} {i : Nat} {old : StopCall}
    (hold : calls[i]? = some old) (new : StopCall) : new ∈ calls.set i new := by
  obtain ⟨hlength, -⟩ := List.getElem?_eq_some_iff.mp hold
  exact List.mem_set hlength new

section Threads

variable {state next : LocTimerApi} {i wrapper : Nat}

/-- A thread in `loc_timer_stop` looks at the handle it was given: a wrapper that
is there begins to be deleted, one that is gone has been looked into. -/
theorem Consistent.threadEntered (h : state.Consistent)
    (hcall : state.calls[i]? = some ⟨wrapper, .entered⟩)
    (hstep : state.threadStep i = some next) :
    next.Consistent ∧ (next.Sane ↔ state.Sane ∧ state.StopsUnheld (.thread i)) := by
  simp only [threadStep, hcall, Option.ite_none_left_eq_some, Option.some.injEq] at hstep
  obtain ⟨-, rfl⟩ := hstep
  have hcond : state.StopsUnheld (.thread i) ↔
      wrapper ∈ state.wrappers.live ∧ state.point.client? ≠ some wrapper := by
    simp [StopsUnheld, hcall]
  have hkeep : ∀ new other, state.Deleting other → state.point = .deleting other ∨
      (⟨other, .deleting⟩ : StopCall) ∈ state.calls.set i new := by
    intro new other hdeleting
    exact hdeleting.imp id fun hother => mem_set_of_ne hcall hother (by simp)
  rw [hcond]
  by_cases hlive : wrapper ∈ state.wrappers.live
  · rw [h.destroy_live hlive]
    constructor
    · apply h.beginDelete hlive _ h.held (hkeep _) (fun _ => .inl)
        (.inr (mem_set_self hcall _))
      intro other hother
      rcases List.mem_or_eq_of_mem_set hother with hold | rfl
      · exact .inl hold
      · exact .inr rfl
    · constructor
      · rintro ⟨hclean, hsilent, hheld⟩
        refine ⟨⟨(Arena.clean_use_iff.mp hclean).1, hsilent, fun other hother => ?_⟩,
          hlive, fun hholds => ?_⟩
        · exact (Arena.mem_live_leave.mp (hheld other hother)).1
        · exact (Arena.mem_live_leave.mp (hheld wrapper hholds)).2 rfl
      · rintro ⟨⟨hclean, hsilent, hheld⟩, -, hunheld⟩
        refine ⟨Arena.clean_use_iff.mpr ⟨hclean, by simpa using hlive⟩, hsilent,
          fun other hother => Arena.mem_live_leave.mpr ⟨hheld other hother, ?_⟩⟩
        rintro rfl
        exact hunheld hother
  · -- the wrapper is gone, and `destroy` finds that out by looking into it
    rw [h.destroy_dead hlive]
    have hentered := h.entered _ (List.mem_of_getElem? hcall)
    have hdeleted := (h.known wrapper hentered).resolve_left hlive
    constructor
    · apply h.pass _ h.returned (fun _ => id) h.held (fun _ => id) (hkeep _)
      intro other hother
      rcases List.mem_or_eq_of_mem_set hother with hold | rfl
      · exact .inl hold
      · exact .inr ⟨by simp, hdeleted⟩
    · constructor
      · rintro ⟨hclean, -, -⟩
        have huses := (Arena.clean_use_iff.mp hclean).2 wrapper
        exact absurd (huses (List.mem_singleton_self _)) hlive
      · rintro ⟨-, hexists, -⟩
        exact absurd hexists hlive

/-- A thread that has the mutex stops the timer of the wrapper it deletes. -/
theorem Consistent.threadDeleting (h : state.Consistent)
    (hcall : state.calls[i]? = some ⟨wrapper, .deleting⟩)
    (hstep : state.threadStep i = some next) :
    next.Consistent ∧ (next.Sane ↔ state.Sane ∧ state.StopsUnheld (.thread i)) := by
  simp only [threadStep, hcall, Option.some.injEq] at hstep
  obtain rfl := hstep
  have hdeleted := h.destroyed _ (List.mem_of_getElem? hcall) (by simp)
  have hcond : state.StopsUnheld (.thread i) := by simp [StopsUnheld, hcall]
  apply And.intro
  · apply h.endDelete hdeleted _ h.held (fun _ => id)
    · intro other hne hdeleting
      exact hdeleting.imp id fun hother => mem_set_of_ne hcall hother (by simpa using hne)
    · intro other hother
      rcases List.mem_or_eq_of_mem_set hother with hold | rfl
      · exact .inl hold
      · exact .inr rfl
  · exact (and_iff_left hcond).symm

/-- A thread clears the handle of the wrapper it has deleted and returns. -/
theorem Consistent.threadDestroyed (h : state.Consistent)
    (hcall : state.calls[i]? = some ⟨wrapper, .destroyed⟩)
    (hstep : state.threadStep i = some next) :
    next.Consistent ∧ (next.Sane ↔ state.Sane ∧ state.StopsUnheld (.thread i)) := by
  simp only [threadStep, hcall, Option.some.injEq] at hstep
  obtain rfl := hstep
  have hdeleted := h.destroyed _ (List.mem_of_getElem? hcall) (by simp)
  have hcond : state.StopsUnheld (.thread i) := by simp [StopsUnheld, hcall]
  refine ⟨h.pass ?_ ?_ ?_ h.held (fun _ => id) ?_, (and_iff_left hcond).symm⟩
  · intro other hother
    rcases List.mem_or_eq_of_mem_set hother with hold | rfl
    · exact .inl hold
    · exact .inr ⟨by simp, hdeleted⟩
  · intro other hother
    rcases List.mem_cons.mp hother with rfl | hold
    · exact hdeleted
    · exact h.returned other hold
  · intro other hother
    by_cases hsame : other = wrapper
    · subst hsame
      simp at hother
    · rwa [Function.update_of_ne hsame] at hother
  · intro other hdeleting
    exact hdeleting.imp id fun hother => mem_set_of_ne hcall hother (by simp)

theorem Consistent.thread (h : state.Consistent) (hstep : state.threadStep i = some next) :
    next.Consistent ∧ (next.Sane ↔ state.Sane ∧ state.StopsUnheld (.thread i)) := by
  cases hcall : state.calls[i]? with
  | none => simp [threadStep, hcall] at hstep
  | some call =>
      obtain ⟨wrapper, point⟩ := call
      cases point with
      | returned => simp [threadStep, hcall] at hstep
      | entered => exact h.threadEntered hcall hstep
      | deleting => exact h.threadDeleting hcall hstep
      | destroyed => exact h.threadDestroyed hcall hstep

end Threads

/-! ## The message task -/

theorem sane_iff_of_held {state : LocTimerApi} {client : Nat}
    (h : state.point.client? = some client) :
    state.Sane ↔ state.wrappers.Clean ∧ (∀ call ∈ state.invoked, call.2 = false) ∧
      client ∈ state.wrappers.live := by
  simp [Sane, h]

theorem sane_iff_of_free {state : LocTimerApi} (h : state.point.client? = none) :
    state.Sane ↔ state.wrappers.Clean ∧ ∀ call ∈ state.invoked, call.2 = false := by
  simp [Sane, h]

theorem stopsUnheld_task {state : LocTimerApi} (h : ∀ timer, state.point ≠ .popped timer) :
    state.StopsUnheld .task := fun timer hpoint => absurd hpoint (h timer)

/-- Someone deletes a wrapper that is not there any more. -/
theorem Consistent.deleted {state : LocTimerApi} (h : state.Consistent) {wrapper : Nat}
    (hdeleting : state.Deleting wrapper) :
    wrapper < state.wrappers.next ∧ wrapper ∉ state.wrappers.live := by
  rcases hdeleting with hpoint | hcall
  · exact h.sound.dead _ (h.deleting wrapper hpoint)
  · exact h.sound.dead _ (h.destroyed _ hcall (by simp))

/-- The message task moves on without a wrapper. -/
theorem Consistent.roam {state : LocTimerApi} (h : state.Consistent)
    (hfree : state.point.client? = none) (hbusy : ∀ wrapper, state.point ≠ .deleting wrapper)
    {timers : LocTimers} {point : TaskPoint} {container : Bool} {timerOfNow : LocTimerDelegate}
    (hlinked : timers.Linked) (hclients : timers.mClient = state.timers.mClient)
    (hnone : point.client? = none) (hdeleting : ∀ wrapper, point ≠ .deleting wrapper) :
    { state with timers, point, container, timerOfNow }.Consistent ∧
      ({ state with timers, point, container, timerOfNow }.Sane ↔ state.Sane) := by
  refine ⟨h.move hlinked ?_ ?_ ?_, ?_⟩
  · rw [hclients]
    exact fun _ _ => id
  · simp [hnone]
  · simp [hbusy, hdeleting]
  · exact (sane_iff_of_free hnone).trans (sane_iff_of_free hfree).symm

theorem Consistent.task_idle {state next : LocTimerApi} (h : state.Consistent)
    (hpoint : state.point = .idle) (hstep : state.taskStep = some next) :
    next.Consistent ∧ (next.Sane ↔ state.Sane) := by
  have hfree : state.point.client? = none := by rw [hpoint]; rfl
  have hbusy : ∀ wrapper, state.point ≠ .deleting wrapper := by simp [hpoint]
  simp only [taskStep, hpoint] at hstep
  split at hstep
  · cases hstep
  · obtain rfl := Option.some.inj hstep
    exact h.roam hfree hbusy (h.linked.of_eq rfl rfl rfl rfl) rfl rfl (by simp)
  · obtain rfl := Option.some.inj hstep
    exact h.roam hfree hbusy (h.linked.of_eq rfl rfl rfl rfl) rfl rfl (by simp)
  · rename_i container msgQ hq
    obtain rfl := Option.some.inj hstep
    cases (state.timers.heap container).pop.2 with
    | none => exact h.roam hfree hbusy (h.linked.of_eq rfl rfl rfl rfl) rfl rfl (by simp)
    | some timer => exact h.roam hfree hbusy (h.linked.of_eq rfl rfl rfl rfl) rfl rfl (by simp)

theorem Consistent.task_expired {state next : LocTimerApi} (h : state.Consistent)
    (hpoint : state.point = .expired) (hstep : state.taskStep = some next) :
    next.Consistent ∧ (next.Sane ↔ state.Sane) := by
  have hfree : state.point.client? = none := by rw [hpoint]; rfl
  have hbusy : ∀ wrapper, state.point ≠ .deleting wrapper := by simp [hpoint]
  simp only [taskStep, hpoint, Option.some.injEq] at hstep
  obtain rfl := hstep
  cases (TimerService.popIfOutRanks (state.timers.heap state.container) state.timerOfNow).2 with
  | none => exact h.roam hfree hbusy (h.linked.of_eq rfl rfl rfl rfl) rfl rfl (by simp)
  | some timer => exact h.roam hfree hbusy (h.linked.of_eq rfl rfl rfl rfl) rfl rfl (by simp)

/-- The message task reads the client of a popped timer. The wrapper is there
exactly if no thread is deleting it. -/
theorem Consistent.task_popped {state next : LocTimerApi} (h : state.Consistent)
    {timer : LocTimerDelegate} (hpoint : state.point = .popped timer)
    (hstep : state.taskStep = some next) :
    next.Consistent ∧ (next.Sane ↔ state.Sane ∧ state.StopsUnheld .task) := by
  have hfree : state.point.client? = none := by rw [hpoint]; rfl
  simp only [taskStep, hpoint, Option.some.injEq] at hstep
  obtain rfl := hstep
  cases hclient : state.timers.mClient timer with
  | none =>
      have hcond : state.StopsUnheld .task := by simp [StopsUnheld, hpoint, hclient]
      rw [and_iff_left hcond]
      exact h.roam hfree (by simp [hpoint]) h.linked rfl rfl (by simp)
  | some client =>
      have hcond : state.StopsUnheld .task ↔ (⟨client, .deleting⟩ : StopCall) ∉ state.calls := by
        simp [StopsUnheld, hpoint, hclient]
      have hheld := h.clients timer client hclient
      have hlive : client ∈ state.wrappers.live ↔
          (⟨client, .deleting⟩ : StopCall) ∉ state.calls := by
        constructor
        · exact fun hlive hcall => (h.deleted (.inr hcall)).2 hlive
        · intro hcall
          rcases hheld with hlive | hdeleting | hdeleting
          · exact hlive
          · rw [hpoint] at hdeleting
            cases hdeleting
          · exact absurd hdeleting hcall
      refine ⟨h.move h.linked (fun _ _ => id) ?_ ?_, ?_⟩
      · rintro wrapper hwrapper
        obtain rfl : client = wrapper := Option.some.inj hwrapper
        rcases hheld with hlive | hdeleting
        · exact h.sound.fresh _ hlive
        · exact (h.deleted hdeleting).1
      · simp [hpoint]
      · rw [hcond, ← hlive, sane_iff_of_free hfree, and_assoc]
        exact sane_iff_of_held rfl

theorem clean_use_iff {state : LocTimerApi} (client : Nat) :
    (state.use client).wrappers.Clean ↔
      state.wrappers.Clean ∧ client ∈ state.wrappers.live := by
  refine Arena.clean_use_iff.trans (and_congr_right fun _ => ?_)
  exact List.forall_mem_singleton

/-- The message task uses the wrapper it holds, and may hold it still. -/
theorem Consistent.hold {state : LocTimerApi} (h : state.Consistent) {client : Nat}
    (hheld : state.point.client? = some client) {timers : LocTimers} {point : TaskPoint}
    (hlinked : timers.Linked)
    (hclients : ∀ timer wrapper, timers.mClient timer = some wrapper →
      state.timers.mClient timer = some wrapper)
    (hpoint : point = .expired ∨ point.client? = some client)
    (hdeleting : ∀ wrapper, point ≠ .deleting wrapper) :
    { state.use client with timers, point }.Consistent ∧
      ({ state.use client with timers, point }.Sane ↔ state.Sane) := by
  have hbusy : ∀ wrapper, state.point ≠ .deleting wrapper := by
    intro wrapper heq
    rw [heq] at hheld
    cases hheld
  refine ⟨h.move hlinked hclients ?_ ?_, ?_⟩
  · rcases hpoint with rfl | hholds
    · simp [TaskPoint.client?]
    · rw [hholds, ← hheld]
      exact h.held
  · simp [hbusy, hdeleting]
  · have huse : ({ state.use client with timers, point }.wrappers.Clean ↔
        state.wrappers.Clean ∧ client ∈ state.wrappers.live) := clean_use_iff client
    rw [sane_iff_of_held hheld]
    rcases hpoint with rfl | hholds
    · rw [sane_iff_of_free rfl, huse, and_assoc]
      exact and_congr_right fun _ => and_comm
    · rw [sane_iff_of_held hholds, huse]
      constructor
      · rintro ⟨⟨hclean, hlive⟩, hsilent, -⟩
        exact ⟨hclean, hsilent, hlive⟩
      · rintro ⟨hclean, hsilent, hlive⟩
        exact ⟨⟨hclean, hlive⟩, hsilent, hlive⟩

/-- `expire()` stops the timer of the wrapper, and goes on if there was one. -/
theorem Consistent.task_expiring {state next : LocTimerApi} (h : state.Consistent)
    {client : Nat} (hpoint : state.point = .expiring client)
    (hstep : state.taskStep = some next) :
    next.Consistent ∧ (next.Sane ↔ state.Sane) := by
  have hheld : state.point.client? = some client := by rw [hpoint]; rfl
  simp only [taskStep, hpoint, Option.some.injEq] at hstep
  obtain rfl := hstep
  have hclients : ∀ timer wrapper, (state.timers.stop client).1.mClient timer = some wrapper →
      state.timers.mClient timer = some wrapper :=
    fun _ _ hclient => (h.linked.stop_client hclient).1
  cases (state.timers.stop client).2 with
  | none => exact h.hold hheld (h.linked.stop client) hclients (.inl rfl) (by simp)
  | some _ => exact h.hold hheld (h.linked.stop client) hclients (.inr rfl) (by simp)

theorem Consistent.task_stopped {state next : LocTimerApi} (h : state.Consistent)
    {client : Nat} (hpoint : state.point = .stopped client)
    (hstep : state.taskStep = some next) :
    next.Consistent ∧ (next.Sane ↔ state.Sane) := by
  have hheld : state.point.client? = some client := by rw [hpoint]; rfl
  simp only [taskStep, hpoint, Option.some.injEq] at hstep
  obtain rfl := hstep
  cases (state.fields client).mCb with
  | false => exact h.hold hheld h.linked (fun _ _ => id) (.inr rfl) (by simp)
  | true => exact h.hold hheld h.linked (fun _ _ => id) (.inr rfl) (by simp)

/-- The callback runs. A wrapper that is there is not one that was stopped. -/
theorem Consistent.task_calling {state next : LocTimerApi} (h : state.Consistent)
    {client : Nat} (hpoint : state.point = .calling client)
    (hstep : state.taskStep = some next) :
    next.Consistent ∧ (next.Sane ↔ state.Sane) := by
  have hheld : state.point.client? = some client := by rw [hpoint]; rfl
  simp only [taskStep, hpoint, Option.some.injEq] at hstep
  obtain rfl := hstep
  refine ⟨h.move h.linked (fun _ _ => id) ?_ ?_, ?_⟩
  · intro wrapper hwrapper
    obtain rfl : client = wrapper := Option.some.inj hwrapper
    exact h.held client hheld
  · simp [hpoint]
  · rw [sane_iff_of_held hheld]
    refine (sane_iff_of_held rfl).trans (and_congr_right fun _ => ?_)
    rw [List.forall_mem_append, List.forall_mem_singleton, decide_eq_false_iff_not, and_assoc]
    apply and_congr_right
    intro _
    constructor
    · exact And.right
    · intro hlive
      have hrunning : client ∉ state.returned := fun hreturned =>
        (h.sound.dead _ (h.returned client hreturned)).2 hlive
      exact ⟨hrunning, hlive⟩

/-- After the callback `expire()` destroys the wrapper. -/
theorem Consistent.task_called {state next : LocTimerApi} (h : state.Consistent)
    {client : Nat} (hpoint : state.point = .called client)
    (hstep : state.taskStep = some next) :
    next.Consistent ∧ (next.Sane ↔ state.Sane) := by
  have hheld : state.point.client? = some client := by rw [hpoint]; rfl
  simp only [taskStep, hpoint, Option.ite_none_left_eq_some, Option.some.injEq] at hstep
  obtain ⟨-, rfl⟩ := hstep
  have hkeep : ∀ (point : TaskPoint) other, state.Deleting other → point = .deleting other ∨
      (⟨other, .deleting⟩ : StopCall) ∈ state.calls := by
    rintro point other (hdeleting | hcall)
    · rw [hpoint] at hdeleting
      cases hdeleting
    · exact .inr hcall
  have hsane : (state.use client).wrappers.Clean ∧ (∀ call ∈ state.invoked, call.2 = false) ↔
      state.Sane := by
    rw [sane_iff_of_held hheld, clean_use_iff, and_assoc]
    exact and_congr_right fun _ => and_comm
  by_cases hlive : client ∈ state.wrappers.live
  · rw [h.destroy_live hlive]
    refine ⟨h.beginDelete hlive (fun _ => .inl) ?_ (hkeep _) ?_ (.inl rfl), ?_⟩
    · simp [TaskPoint.client?]
    · intro other hother
      exact .inr (TaskPoint.deleting.inj hother).symm
    · exact (sane_iff_of_free rfl).trans hsane
  · rw [h.destroy_dead hlive]
    refine ⟨h.pass (fun _ => .inl) h.returned (fun _ => id) ?_ ?_ (hkeep _), ?_⟩
    · simp [TaskPoint.client?]
    · simp
    · exact (sane_iff_of_free rfl).trans hsane

theorem Consistent.task_deleting {state next : LocTimerApi} (h : state.Consistent)
    {client : Nat} (hpoint : state.point = .deleting client)
    (hstep : state.taskStep = some next) :
    next.Consistent ∧ (next.Sane ↔ state.Sane) := by
  have hfree : state.point.client? = none := by rw [hpoint]; rfl
  simp only [taskStep, hpoint, Option.some.injEq] at hstep
  obtain rfl := hstep
  refine ⟨h.endDelete (h.deleting client hpoint) (fun _ => .inl) ?_ ?_ ?_, ?_⟩
  · simp [TaskPoint.client?]
  · simp
  · rintro other hne (hdeleting | hcall)
    · rw [hpoint] at hdeleting
      exact absurd (TaskPoint.deleting.inj hdeleting).symm hne
    · exact .inr hcall
  · exact (sane_iff_of_free rfl).trans (sane_iff_of_free hfree).symm

/-! ## Every step -/

theorem Consistent.task {state next : LocTimerApi} (h : state.Consistent)
    (hstep : state.taskStep = some next) :
    next.Consistent ∧ (next.Sane ↔ state.Sane ∧ state.StopsUnheld .task) := by
  have hunheld : (∀ timer, state.point ≠ .popped timer) →
      next.Consistent ∧ (next.Sane ↔ state.Sane) →
      next.Consistent ∧ (next.Sane ↔ state.Sane ∧ state.StopsUnheld .task) := by
    intro hne hmoved
    rwa [and_iff_left (stopsUnheld_task hne)]
  cases hpoint : state.point with
  | idle => exact hunheld (by simp [hpoint]) (h.task_idle hpoint hstep)
  | popped timer => exact h.task_popped hpoint hstep
  | expiring client => exact hunheld (by simp [hpoint]) (h.task_expiring hpoint hstep)
  | stopped client => exact hunheld (by simp [hpoint]) (h.task_stopped hpoint hstep)
  | calling client => exact hunheld (by simp [hpoint]) (h.task_calling hpoint hstep)
  | called client => exact hunheld (by simp [hpoint]) (h.task_called hpoint hstep)
  | deleting client => exact hunheld (by simp [hpoint]) (h.task_deleting hpoint hstep)
  | expired => exact hunheld (by simp [hpoint]) (h.task_expired hpoint hstep)

theorem Consistent.start {state : LocTimerApi} (h : state.Consistent) (cbFunc : Bool)
    (msec : UInt64) (wakeOnExpire : Bool) :
    (state.locTimerStart cbFunc msec wakeOnExpire).Consistent ∧
      ((state.locTimerStart cbFunc msec wakeOnExpire).Sane ↔ state.Sane) := by
  cases cbFunc with
  | false => exact ⟨h, Iff.rfl⟩
  | true =>
      have hnext : ∀ wrapper < state.wrappers.next, wrapper ≠ state.wrappers.next :=
        fun _ hless => Nat.ne_of_lt hless
      constructor
      · constructor
        · exact h.sound.construct
        · exact h.linked.start _ _ _
        · intro other
          by_cases hsame : other = state.wrappers.next
          · subst hsame
            simp [locTimerStart, Arena.construct]
          · simp [locTimerStart, Arena.construct, hsame, h.mCb]
        · intro other
          by_cases hsame : other = state.wrappers.next
          · subst hsame
            simp [locTimerStart, Arena.construct]
          · simp [locTimerStart, Arena.construct, hsame, h.mMe]
        · intro other hother
          rcases Nat.lt_succ_iff_lt_or_eq.mp hother with hless | rfl
          · exact (h.known other hless).imp (List.mem_cons_of_mem _) id
          · exact .inl List.mem_cons_self
        · intro other hother
          by_cases hsame : other = state.wrappers.next
          · subst hsame
            exact Nat.lt_succ_self _
          · apply Nat.lt_succ_of_lt (h.handled other _)
            simpa [locTimerStart, Arena.construct, hsame] using hother
        · exact fun call hcall => Nat.lt_succ_of_lt (h.entered call hcall)
        · exact fun wrapper hwrapper => Nat.lt_succ_of_lt (h.held wrapper hwrapper)
        · intro timer wrapper hclient
          rcases LocTimers.start_client hclient with hold | rfl
          · exact (h.clients timer wrapper hold).imp (List.mem_cons_of_mem _) id
          · exact .inl List.mem_cons_self
        · exact h.mutex
        · exact h.deleting
        · exact h.destroyed
        · exact h.returned
      · -- the wrapper the task holds is an older one
        refine and_congr_right fun _ => and_congr_right fun _ => ?_
        refine forall_congr' fun wrapper => forall_congr' fun hholds => ?_
        have hne := hnext wrapper (h.held wrapper hholds)
        exact List.mem_cons.trans (or_iff_right hne)

/-- What one step does: it goes wrong, now or later, exactly if it does not meet
the condition. -/
theorem Consistent.step {state next : LocTimerApi} {label : Label} (h : state.Consistent)
    (hstep : state.step label = some next) :
    next.Consistent ∧ (next.Sane ↔ state.Sane ∧ state.StopsUnheld label) := by
  cases label with
  | tick now =>
      simp only [LocTimerApi.step, Option.ite_none_right_eq_some, Option.some.injEq] at hstep
      obtain ⟨-, rfl⟩ := hstep
      exact ⟨h.move (h.linked.of_eq rfl rfl rfl rfl) (fun _ _ => id) h.held fun _ => Iff.rfl,
        (and_iff_left trivial).symm⟩
  | sendExpire container =>
      obtain rfl := Option.some.inj hstep
      exact ⟨h.move (h.linked.of_eq rfl rfl rfl rfl) (fun _ _ => id) h.held fun _ => Iff.rfl,
        (and_iff_left trivial).symm⟩
  | locTimerStart cbFunc msec wakeOnExpire =>
      obtain rfl := Option.some.inj hstep
      obtain ⟨hstarted, hsane⟩ := h.start cbFunc msec wakeOnExpire
      exact ⟨hstarted, hsane.trans (and_iff_left trivial).symm⟩
  | locTimerStop wrapper =>
      obtain rfl := Option.some.inj hstep
      rw [locTimerStop]
      split
      · rename_i hhandle
        refine ⟨⟨h.sound, h.linked, h.mCb, h.mMe, h.known, h.handled, ?_, h.held, ?_, ?_,
          h.deleting, ?_, h.returned⟩, (and_iff_left trivial).symm⟩
        · intro call hcall
          rcases List.mem_append.mp hcall with hold | hnew
          · exact h.entered call hold
          · obtain rfl := List.mem_singleton.mp hnew
            exact h.handled wrapper hhandle
        · intro timer other hclient
          exact (h.clients timer other hclient).imp id (Or.imp id (List.mem_append_left _))
        · intro hlocked
          obtain ⟨other, hother⟩ := h.mutex hlocked
          exact ⟨other, hother.imp id (List.mem_append_left _)⟩
        · intro call hcall hpoint
          rcases List.mem_append.mp hcall with hold | hnew
          · exact h.destroyed call hold hpoint
          · obtain rfl := List.mem_singleton.mp hnew
            exact absurd rfl hpoint
      · exact ⟨h, (and_iff_left trivial).symm⟩
  | task => exact h.task hstep
  | thread i => exact h.thread hstep

/-! ## Continuations -/

/-- Some continuation that meets the condition ends unsafe. -/
def EndsUnsafe (state : LocTimerApi) : Prop :=
  ∃ rest last, exec LocTimerApi.step state rest = some last ∧
    Along LocTimerApi.step StopsUnheld state rest ∧ ¬ last.Safe

theorem EndsUnsafe.cons {state next : LocTimerApi} {label : Label} (h : next.EndsUnsafe)
    (hcond : state.StopsUnheld label) (hstep : state.step label = some next) :
    state.EndsUnsafe := by
  obtain ⟨rest, last, hrun, halong, hunsafe⟩ := h
  refine ⟨label :: rest, last, exec_cons_eq_some.mpr ⟨next, hstep, hrun⟩, ⟨hcond, ?_⟩, hunsafe⟩
  intro other hother
  obtain rfl : next = other := Option.some.inj (hstep.symm.trans hother)
  exact halong

theorem endsUnsafe_of_not_safe {state : LocTimerApi} (h : ¬ state.Safe) : state.EndsUnsafe :=
  ⟨[], state, rfl, trivial, h⟩

/-- A step with a wrapper that is gone, other than the call of the callback. -/
theorem endsUnsafe_of_use {state next : LocTimerApi} {client : Nat}
    (hheld : state.point.client? = some client) (hdead : client ∉ state.wrappers.live)
    (hcalling : state.point ≠ .calling client) (hstep : state.taskStep = some next) :
    state.EndsUnsafe := by
  have hunclean : ¬ (state.use client).wrappers.Clean := by
    intro hclean
    exact hdead ((Arena.clean_use_iff.mp hclean).2 client (List.mem_singleton_self _))
  have hunsafe : ¬ next.Safe := by
    intro hsafe
    apply hunclean
    have hclean := hsafe.clean
    cases hpoint : state.point with
    | idle => simp [hpoint, TaskPoint.client?] at hheld
    | popped timer => simp [hpoint, TaskPoint.client?] at hheld
    | deleting _ => simp [hpoint, TaskPoint.client?] at hheld
    | expired => simp [hpoint, TaskPoint.client?] at hheld
    | expiring owner =>
        obtain rfl : owner = client := by
          rw [hpoint] at hheld
          exact Option.some.inj hheld
        simp only [taskStep, hpoint, Option.some.injEq] at hstep
        rwa [← hstep] at hclean
    | stopped owner =>
        obtain rfl : owner = client := by
          rw [hpoint] at hheld
          exact Option.some.inj hheld
        simp only [taskStep, hpoint, Option.some.injEq] at hstep
        rwa [← hstep] at hclean
    | calling owner =>
        obtain rfl : owner = client := by
          rw [hpoint] at hheld
          exact Option.some.inj hheld
        exact absurd hpoint hcalling
    | called owner =>
        obtain rfl : owner = client := by
          rw [hpoint] at hheld
          exact Option.some.inj hheld
        simp only [taskStep, hpoint, Option.ite_none_left_eq_some, Option.some.injEq] at hstep
        rw [← hstep.2, destroy] at hclean
        dsimp only at hclean
        split at hclean <;> exact hclean
  have hpopped : ∀ timer, state.point ≠ .popped timer := by
    intro timer hpoint
    simp [hpoint, TaskPoint.client?] at hheld
  exact (endsUnsafe_of_not_safe hunsafe).cons (stopsUnheld_task hpopped) hstep

/-- Past the callback of a wrapper that is gone. Whoever holds `mMutex` lets go
of it first. -/
theorem Consistent.endsUnsafe_called {state : LocTimerApi} (h : state.Consistent) {client : Nat}
    (hpoint : state.point = .called client) (hdead : client ∉ state.wrappers.live) :
    state.EndsUnsafe := by
  have hheld : state.point.client? = some client := by rw [hpoint]; rfl
  have hfree : ∀ other : LocTimerApi, other.point = .called client →
      client ∉ other.wrappers.live → other.mMutex = false → other.EndsUnsafe := by
    intro other hother hgone hmutex
    have hheld : other.point.client? = some client := by rw [hother]; rfl
    have henabled : other.taskStep ≠ none := by simp [taskStep, hother, hmutex]
    obtain ⟨next, hstep⟩ := Option.ne_none_iff_exists'.mp henabled
    exact endsUnsafe_of_use hheld hgone (by simp [hother]) hstep
  cases hmutex : state.mMutex with
  | false => exact hfree state hpoint hdead hmutex
  | true =>
      obtain ⟨wrapper, hdeleting | hcall⟩ := h.mutex hmutex
      · rw [hpoint] at hdeleting
        cases hdeleting
      · obtain ⟨i, hi⟩ := List.mem_iff_getElem?.mp hcall
        have hstep : state.step (.thread i) = some { state.finishDelete wrapper with
            calls := state.calls.set i ⟨wrapper, .destroyed⟩ } := by
          simp [LocTimerApi.step, threadStep, hi]
        have hcond : state.StopsUnheld (.thread i) := by simp [StopsUnheld, hi]
        refine EndsUnsafe.cons ?_ hcond hstep
        exact hfree _ hpoint hdead rfl

theorem Consistent.endsUnsafe {state : LocTimerApi} (h : state.Consistent)
    (hsane : ¬ state.Sane) : state.EndsUnsafe := by
  by_cases hsafe : state.Safe
  · -- the message task holds a wrapper that is gone
    have hholds : ∃ client, state.point.client? = some client ∧
        client ∉ state.wrappers.live := by
      by_contra hnone
      push Not at hnone
      exact hsane ⟨hsafe.clean, hsafe.silent, hnone⟩
    obtain ⟨client, hheld, hdead⟩ := hholds
    cases hpoint : state.point with
    | idle => simp [hpoint, TaskPoint.client?] at hheld
    | popped timer => simp [hpoint, TaskPoint.client?] at hheld
    | deleting _ => simp [hpoint, TaskPoint.client?] at hheld
    | expired => simp [hpoint, TaskPoint.client?] at hheld
    | expiring owner =>
        have henabled : state.taskStep ≠ none := by simp [taskStep, hpoint]
        obtain ⟨next, hstep⟩ := Option.ne_none_iff_exists'.mp henabled
        exact endsUnsafe_of_use hheld hdead (by simp [hpoint]) hstep
    | stopped owner =>
        have henabled : state.taskStep ≠ none := by simp [taskStep, hpoint]
        obtain ⟨next, hstep⟩ := Option.ne_none_iff_exists'.mp henabled
        exact endsUnsafe_of_use hheld hdead (by simp [hpoint]) hstep
    | calling owner =>
        obtain rfl : owner = client := by
          rw [hpoint] at hheld
          exact Option.some.inj hheld
        have hstep : state.step .task = some { state with
            invoked := state.invoked ++ [(owner, decide (owner ∈ state.returned))]
            point := .called owner } := by
          simp [LocTimerApi.step, taskStep, hpoint]
        obtain ⟨hcalled, -⟩ := h.step hstep
        refine EndsUnsafe.cons ?_ (stopsUnheld_task (by simp [hpoint])) hstep
        exact hcalled.endsUnsafe_called rfl hdead
    | called owner =>
        obtain rfl : owner = client := by
          rw [hpoint] at hheld
          exact Option.some.inj hheld
        exact h.endsUnsafe_called hpoint hdead
  · exact endsUnsafe_of_not_safe hsafe

/-- A run stops no wrapper that the message task holds or is about to read
exactly if nothing goes wrong in any continuation that does not either. -/
theorem stop_silences_iff {now : BootTime} {labels : List Label} {state : LocTimerApi}
    (hrun : exec LocTimerApi.step (init now) labels = some state) :
    Along LocTimerApi.step StopsUnheld (init now) labels ↔
      ∀ rest last, exec LocTimerApi.step state rest = some last →
        Along LocTimerApi.step StopsUnheld state rest → last.Safe :=
  along_iff_of_continuations (fun _ _ _ h hstep => (h.step hstep).1)
    (fun _ _ _ h hstep => (h.step hstep).2) (fun _ h hsane => h.safe hsane)
    (fun _ h hsane => h.endsUnsafe hsane) (init_consistent now) (init_sane now) hrun

/-- A timer is stopped before it expires, and another one expires. -/
def stoppedInTimeRun : List Label :=
  [.locTimerStart true 1000 false, .locTimerStart true 2000 true, .task, .task, .locTimerStop 0,
    .thread 0, .thread 0, .thread 0, .sendExpire true, .task, .task, .task, .task, .task, .task,
    .task, .task, .task]

theorem stop_silences_iff_inTime :
    ∃ state, exec LocTimerApi.step (init (.atSecond 0)) stoppedInTimeRun = some state ∧
      (Along LocTimerApi.step StopsUnheld (init (.atSecond 0)) stoppedInTimeRun ↔
        ∀ rest last, exec LocTimerApi.step state rest = some last →
          Along LocTimerApi.step StopsUnheld state rest → last.Safe) := by
  have hany : (exec LocTimerApi.step (init (.atSecond 0)) stoppedInTimeRun).any (fun state =>
      decide (state.returned = [0]) && decide (state.invoked = [(1, false)]) &&
        decide (state.wrappers.deletions = [0, 1])) = true := by decide
  obtain ⟨state, hrun, -⟩ := (Option.any_eq_true _ _).mp hany
  exact ⟨state, hrun, stop_silences_iff hrun⟩

/-- `loc_timer_stop` runs between the reading of `mCb` and the call. The callback
comes after it has returned. -/
theorem called_after_stop :
    ¬ ∀ (now : BootTime) (labels : List Label) (state : LocTimerApi),
      exec LocTimerApi.step (init now) labels = some state → state.Safe := by
  intro hall
  have hany : (exec LocTimerApi.step (init (.atSecond 0))
      [.locTimerStart true 1000 false, .task, .tick (.atSecond 1), .sendExpire false, .task, .task,
        .task, .task, .locTimerStop 0, .thread 0, .thread 0, .thread 0, .task]).any
      (fun state => state.invoked.any fun call => call.2) = true := by decide
  obtain ⟨state, hrun, hinvoked⟩ := (Option.any_eq_true _ _).mp hany
  obtain ⟨call, hmem, hlate⟩ := List.any_eq_true.mp hinvoked
  have hsilent := (hall _ _ state hrun).silent call hmem
  rw [hsilent] at hlate
  cases hlate

end Msm8916.Timer.LocTimerApi
