import Msm8916.Timer.WakeUp

/-!
When no timer fires early. An expire message pops its first timer without
looking at it and then every timer whose whole seconds have come, so a callback
may run before its deadline; the runs on which none does are characterised.
-/

namespace Msm8916.Timer.TimerService

open Heap Transition

/-- No callback has run before the deadline of its timer. -/
def Punctual (state : TimerService) : Prop :=
  ∀ callback ∈ state.callbacks,
    callback.timer.mFutureTime.toTimespec ≤ callback.time.toTimespec

/-- The condition on one step: when an expire message is processed, every
running timer that is on top of the heap or whole seconds of which have come
is due in full. -/
def PopsOnlyDue (state : TimerService) (label : Label) : Prop :=
  label = .proc → state.msgQ.head? = some .timerExpire →
    ∀ timer ∈ state.heap.elements, state.mClient timer ≠ none →
      (state.heap.peek = some timer ∨ timer.mFutureTime.tv_sec ≤ state.now.tv_sec) →
      timer.mFutureTime.toTimespec ≤ state.now.toTimespec

/-- The heap is ordered, and a delegate with a client is that client's timer. -/
structure Coherent (state : TimerService) : Prop where
  valid : state.heap.mTree.Valid
  linked : ∀ timer client, state.mClient timer = some client →
    state.mTimer client = some timer

/-- The seconds alone rank the timers. -/
theorem seconds_rank : LocHeapNode.ConsistentRanks fun a b : LocTimerDelegate =>
    b.mFutureTime.tv_sec ≤ a.mFutureTime.tv_sec where
  total a b := le_total b.mFutureTime.tv_sec a.mFutureTime.tv_sec
  trans _ _ _ hab hbc := hbc.trans hab
  above_iff a b := by simp [outRanks, LocRankable.ranks]

/-! ## One timer -/

/-- Ending a timer: its client forgets it and it forgets its client. -/
theorem stop_of_running {state : TimerService} {client : Nat} {timer : LocTimerDelegate}
    (h : state.mTimer client = some timer) :
    ∃ stopped, state.stop client = (stopped, some timer) ∧
      stopped.now = state.now ∧ stopped.heap = state.heap ∧
      stopped.callbacks = state.callbacks ∧
      stopped.mTimer = Function.update state.mTimer client none ∧
      stopped.mClient = Function.update state.mClient timer none := by
  simp only [stop, h, destroyLocked]
  refine ⟨_, rfl, ?_⟩
  split <;> exact ⟨rfl, rfl, rfl, rfl, rfl⟩

theorem Coherent.stop {state : TimerService} (h : state.Coherent) (client : Nat) :
    (state.stop client).1.Coherent := by
  cases hrunning : state.mTimer client with
  | none => simpa only [TimerService.stop, hrunning] using h
  | some timer =>
      obtain ⟨stopped, hstop, -, hheap, -, hmTimer, hmClient⟩ := stop_of_running hrunning
      rw [hstop]
      refine ⟨hheap ▸ h.valid, fun other owner howner => ?_⟩
      rw [hmClient] at howner
      rw [hmTimer]
      have hother : other ≠ timer := by
        rintro rfl
        simp at howner
      rw [Function.update_of_ne hother] at howner
      have hlinked := h.linked other owner howner
      have hne : owner ≠ client := by
        rintro rfl
        exact hother (Option.some.inj (hlinked.symm.trans hrunning))
      rwa [Function.update_of_ne hne]

theorem Coherent.start {state : TimerService} (h : state.Coherent) (client : Nat)
    (timeOutInMs : UInt32) : (state.start client timeOutInMs).Coherent := by
  unfold TimerService.start
  split
  · exact h
  · rename_i hidle
    refine ⟨h.valid, fun other owner howner => ?_⟩
    dsimp only [sendMsg] at howner ⊢
    by_cases hother : other = ⟨state.nextAddress, state.now.afterMs timeOutInMs⟩
    · subst hother
      obtain rfl : client = owner := by simpa using howner
      simp
    · rw [Function.update_of_ne hother] at howner
      have hlinked := h.linked other owner howner
      have hne : owner ≠ client := by
        rintro rfl
        rw [hidle] at hlinked
        cases hlinked
      rwa [Function.update_of_ne hne]

/-- Expiring a popped timer runs the callback of the timer's own start, if the
timer still has a client, and no other callback. -/
theorem Coherent.expireTimer {state : TimerService} (h : state.Coherent)
    (timer : LocTimerDelegate) :
    (state.expireTimer timer).Coherent ∧
      (state.expireTimer timer).now = state.now ∧
      (state.expireTimer timer).heap = state.heap ∧
      (state.expireTimer timer).mClient = Function.update state.mClient timer none ∧
      ((state.expireTimer timer).Punctual ↔ state.Punctual ∧
        (state.mClient timer ≠ none →
          timer.mFutureTime.toTimespec ≤ state.now.toTimespec)) := by
  cases hclient : state.mClient timer with
  | none =>
      have hsame : state.expireTimer timer = state := by simp [TimerService.expireTimer, hclient]
      rw [hsame]
      refine ⟨h, rfl, rfl, ?_, by simp⟩
      rw [← hclient, Function.update_eq_self]
  | some client =>
      obtain ⟨stopped, hstop, hnow, hheap, hcallbacks, -, hmClient⟩ :=
        stop_of_running (h.linked timer client hclient)
      have hstopped : stopped.Coherent := by simpa only [hstop] using h.stop client
      have hexpire : state.expireTimer timer =
          { stopped with callbacks := stopped.callbacks ++ [⟨client, timer, stopped.now⟩] } := by
        simp only [TimerService.expireTimer, hclient, hstop]
      rw [hexpire]
      refine ⟨⟨hstopped.valid, hstopped.linked⟩, hnow, hheap, hmClient, ?_⟩
      simp only [Punctual, hcallbacks, hnow, List.forall_mem_append, List.forall_mem_singleton]
      simp

/-! ## The expire loop -/

/-- The loop entered with `popped` hands `timer` to `expire()`. -/
def Pops (heap : LocHeap LocTimerDelegate) (popped : Option LocTimerDelegate)
    (now : BootTime) (timer : LocTimerDelegate) : Prop :=
  popped = some timer ∨
    (popped ≠ none ∧ timer ∈ heap.elements ∧ timer.mFutureTime.tv_sec ≤ now.tv_sec)

theorem outRanks_timerOfNow (now : BootTime) (timer : LocTimerDelegate) :
    outRanks ⟨0, now⟩ timer = true ↔ now.tv_sec < timer.mFutureTime.tv_sec := by
  simp [outRanks, LocRankable.ranks]

/-- What `popIfOutRanks` can do. -/
theorem popIfOutRanks_eq (heap : LocHeap LocTimerDelegate) (timer : LocTimerDelegate) :
    (popIfOutRanks heap timer = (heap, none) ∧
        ∀ top, heap.peek = some top → outRanks timer top = true) ∨
      ∃ top, heap.peek = some top ∧ outRanks timer top = false ∧
        popIfOutRanks heap timer = (heap.pop.1, some top) := by
  rw [popIfOutRanks]
  cases hpeek : heap.peek with
  | none => exact .inl ⟨rfl, fun top htop => by cases htop⟩
  | some top =>
      cases hout : outRanks timer top with
      | true =>
          left
          apply And.intro
          · simp [hout]
          · intro other hother
            obtain rfl := Option.some.inj hother
            exact hout
      | false =>
          right
          refine ⟨top, rfl, hout, ?_⟩
          simp only [hout, Bool.not_false, if_true]
          exact LocHeap.pop_eq hpeek

theorem popIfOutRanks_valid {heap : LocHeap LocTimerDelegate} (hvalid : heap.mTree.Valid)
    (timer : LocTimerDelegate) : (popIfOutRanks heap timer).1.mTree.Valid := by
  rcases popIfOutRanks_eq heap timer with ⟨heq, -⟩ | ⟨top, -, -, heq⟩
  · rwa [heq]
  · rw [heq]
    exact hvalid.pop seconds_rank

theorem popIfOutRanks_count {heap : LocHeap LocTimerDelegate} {timer next : LocTimerDelegate}
    (h : (popIfOutRanks heap timer).2 = some next) :
    (popIfOutRanks heap timer).1.mTree.count < heap.mTree.count := by
  rcases popIfOutRanks_eq heap timer with ⟨heq, -⟩ | ⟨top, htop, -, heq⟩
  · rw [heq] at h
    cases h
  · rw [heq]
    exact LocHeap.count_pop htop

/-- Asked with the present time, `popIfOutRanks` either finds everything stored in
a later second or takes out the top, whose second has come. -/
theorem popIfOutRanks_cases {heap : LocHeap LocTimerDelegate} (hvalid : heap.mTree.Valid)
    (now : BootTime) :
    (popIfOutRanks heap ⟨0, now⟩ = (heap, none) ∧
      ∀ timer ∈ heap.elements, now.tv_sec < timer.mFutureTime.tv_sec) ∨
    ∃ top, heap.peek = some top ∧ popIfOutRanks heap ⟨0, now⟩ = (heap.pop.1, some top) ∧
      top.mFutureTime.tv_sec ≤ now.tv_sec := by
  rcases popIfOutRanks_eq heap ⟨0, now⟩ with ⟨hpop, hout⟩ | ⟨top, hpeek, hout, hpop⟩
  · refine .inl ⟨hpop, fun timer hmem => ?_⟩
    cases hpeek : heap.peek with
    | none =>
        rw [LocHeap.eq_empty_iff.mp (LocHeap.peek_eq_none.mp hpeek)] at hmem
        exact absurd hmem (Multiset.notMem_zero timer)
    | some top =>
        have htop := (outRanks_timerOfNow now top).mp (hout top hpeek)
        have hbelow := hvalid.below_top seconds_rank hpeek timer hmem
        exact lt_of_lt_of_le htop ((seconds_rank.not_above_iff timer top).mp hbelow)
  · have hdue : ¬ now.tv_sec < top.mFutureTime.tv_sec := by
      rw [← outRanks_timerOfNow, hout]
      exact Bool.false_ne_true
    exact .inr ⟨top, hpeek, hpop, Int.not_lt.mp hdue⟩

/-- The loop entered with the popped top pops the top and what has whole
seconds due. -/
theorem pops_pop {heap : LocHeap LocTimerDelegate} {top : LocTimerDelegate}
    (h : heap.peek = some top) (now : BootTime) (timer : LocTimerDelegate) :
    Pops heap.pop.1 (some top) now timer ↔ timer ∈ heap.elements ∧
      (heap.peek = some timer ∨ timer.mFutureTime.tv_sec ≤ now.tv_sec) := by
  rw [LocHeap.elements_of_peek h, Multiset.mem_cons, Pops, h]
  constructor
  · rintro (heq | ⟨-, hmem, hsec⟩)
    · exact ⟨.inl (Option.some.inj heq).symm, .inl heq⟩
    · exact ⟨.inr hmem, .inr hsec⟩
  · rintro ⟨rfl | hmem, heq | hsec⟩
    · exact .inl rfl
    · exact .inl rfl
    · exact .inl heq
    · exact .inr ⟨Option.some_ne_none top, hmem, hsec⟩

/-- `popIfOutRanks` leaves the loop to pop exactly what has whole seconds due. -/
theorem pops_popIfOutRanks {heap : LocHeap LocTimerDelegate} (hvalid : heap.mTree.Valid)
    (now : BootTime) (timer : LocTimerDelegate) :
    Pops (popIfOutRanks heap ⟨0, now⟩).1 (popIfOutRanks heap ⟨0, now⟩).2 now timer ↔
      timer ∈ heap.elements ∧ timer.mFutureTime.tv_sec ≤ now.tv_sec := by
  rcases popIfOutRanks_cases hvalid now with ⟨hpop, hlater⟩ | ⟨top, hpeek, hpop, hdue⟩
  · rw [hpop]
    simpa [Pops] using hlater timer
  · rw [hpop]
    dsimp only
    rw [pops_pop hpeek, hpeek]
    constructor
    · rintro ⟨hmem, heq | hsec⟩
      · obtain rfl := Option.some.inj heq
        exact ⟨hmem, hdue⟩
      · exact ⟨hmem, hsec⟩
    · rintro ⟨hmem, hsec⟩
      exact ⟨hmem, .inr hsec⟩

theorem expireLoop_none (timerOfNow : LocTimerDelegate) (rounds : Nat)
    (state : TimerService) : expireLoop timerOfNow rounds none state = state := by
  cases rounds <;> rfl

/-- With a round for every stored timer and the popped one, the loop runs the
callbacks of the timers it pops: nothing is early afterwards exactly if nothing
was before and every running timer it pops is due. -/
theorem Coherent.expireLoop {rounds : Nat} {popped : Option LocTimerDelegate}
    {now : BootTime} {state : TimerService} (h : state.Coherent) (hnow : state.now = now)
    (hrounds : popped ≠ none → state.heap.mTree.count < rounds) :
    (expireLoop ⟨0, now⟩ rounds popped state).Coherent ∧
      ((expireLoop ⟨0, now⟩ rounds popped state).Punctual ↔ state.Punctual ∧
        ∀ timer, Pops state.heap popped now timer → state.mClient timer ≠ none →
          timer.mFutureTime.toTimespec ≤ now.toTimespec) := by
  induction rounds generalizing popped state with
  | zero =>
      cases popped with
      | none => simp [expireLoop_none, h, Pops]
      | some timer => exact absurd (hrounds (Option.some_ne_none timer)) (Nat.not_lt_zero _)
  | succ rounds ih =>
      cases popped with
      | none => simp [expireLoop_none, h, Pops]
      | some timer =>
          obtain ⟨hcoherent, hkept, hheap, hmClient, hpunctual⟩ := h.expireTimer timer
          let heap := (popIfOutRanks state.heap ⟨0, now⟩).1
          let next := (popIfOutRanks state.heap ⟨0, now⟩).2
          have hround : TimerService.expireLoop ⟨0, now⟩ (rounds + 1) (some timer) state =
              TimerService.expireLoop ⟨0, now⟩ rounds next
                { state.expireTimer timer with heap } := by
            rw [TimerService.expireLoop, hheap]
          have hvalid : heap.mTree.Valid := popIfOutRanks_valid h.valid _
          have hless : next ≠ none → heap.mTree.count < rounds := by
            intro hnext
            obtain ⟨top, htop⟩ := Option.ne_none_iff_exists'.mp hnext
            have hcount := popIfOutRanks_count htop
            have hstored := hrounds (Option.some_ne_none timer)
            exact Nat.lt_of_lt_of_le hcount (Nat.le_of_lt_succ hstored)
          obtain ⟨hfinal, hiff⟩ := @ih next { state.expireTimer timer with heap }
            ⟨hvalid, hcoherent.linked⟩ (hkept.trans hnow) hless
          rw [hround]
          refine ⟨hfinal, hiff.trans ?_⟩
          have hrest : ({ state.expireTimer timer with heap } : TimerService).Punctual ↔
              (state.expireTimer timer).Punctual := Iff.rfl
          rw [hrest, hpunctual, hnow, and_assoc]
          refine and_congr_right fun _ => ?_
          -- the popped timer now has no client; the others are as before
          simp only [heap, next, pops_popIfOutRanks h.valid, hmClient]
          constructor
          · rintro ⟨htimer, hothers⟩ other hpops hrunning
            by_cases hother : other = timer
            · exact hother ▸ htimer (hother ▸ hrunning)
            · refine hothers other ?_ (by rwa [Function.update_of_ne hother])
              exact (hpops.resolve_left fun heq => hother (Option.some.inj heq).symm).2
          · intro hall
            refine ⟨hall timer (.inl rfl), fun other hmem hrunning => ?_⟩
            have hother : other ≠ timer := by
              rintro rfl
              simp at hrunning
            rw [Function.update_of_ne hother] at hrunning
            exact hall other (.inr ⟨Option.some_ne_none timer, hmem⟩) hrunning

/-! ## Runs -/

theorem Coherent.updateSoonestTime {state : TimerService} (h : state.Coherent)
    (priorTop : Option LocTimerDelegate) :
    (state.updateSoonestTime priorTop).Coherent ∧
      (state.updateSoonestTime priorTop).callbacks = state.callbacks := by
  obtain ⟨timerFd, inEpoll, heq⟩ := state.updateSoonestTime_eq priorTop
  rw [heq]
  exact ⟨⟨h.valid, h.linked⟩, rfl⟩

theorem Coherent.timerPush {state : TimerService} (h : state.Coherent)
    (mTimer : LocTimerDelegate) :
    (state.timerPush mTimer).Coherent ∧
      (state.timerPush mTimer).callbacks = state.callbacks := by
  have hpushed : { state with heap := state.heap.push mTimer }.Coherent :=
    ⟨h.valid.push seconds_rank mTimer, h.linked⟩
  exact hpushed.updateSoonestTime state.heap.peek

theorem Coherent.timerRemove {state : TimerService} (h : state.Coherent)
    (mTimer : LocTimerDelegate) :
    (state.timerRemove mTimer).Coherent ∧
      (state.timerRemove mTimer).callbacks = state.callbacks := by
  have hremoved : { state with heap := (state.heap.remove mTimer).1 }.Coherent :=
    ⟨h.valid.remove seconds_rank mTimer, h.linked⟩
  obtain ⟨hcoherent, hcallbacks⟩ := hremoved.updateSoonestTime none
  unfold TimerService.timerRemove
  dsimp only
  split
  · exact ⟨⟨hcoherent.valid, hcoherent.linked⟩, hcallbacks⟩
  · exact ⟨⟨hremoved.valid, hremoved.linked⟩, rfl⟩

theorem Coherent.timerExpire {state : TimerService} (h : state.Coherent) :
    state.timerExpire.Coherent ∧
      (state.timerExpire.Punctual ↔ state.Punctual ∧
        ∀ timer ∈ state.heap.elements, state.mClient timer ≠ none →
          (state.heap.peek = some timer ∨
            timer.mFutureTime.tv_sec ≤ state.now.tv_sec) →
          timer.mFutureTime.toTimespec ≤ state.now.toTimespec) := by
  have hpopped : { state with heap := state.heap.pop.1 }.Coherent :=
    ⟨h.valid.pop seconds_rank, h.linked⟩
  have hsnd : state.heap.pop.2 = state.heap.peek := LocHeapNode.pop_snd state.heap.mTree
  have hrounds : state.heap.peek ≠ none →
      state.heap.pop.1.mTree.count < state.heap.mTree.count := by
    intro hne
    obtain ⟨top, htop⟩ := Option.ne_none_iff_exists'.mp hne
    exact LocHeap.count_pop htop
  obtain ⟨hcoherent, hiff⟩ := hpopped.expireLoop rfl hrounds
  obtain ⟨hfinal, hcallbacks⟩ := hcoherent.updateSoonestTime none
  unfold TimerService.timerExpire
  dsimp only
  rw [hsnd]
  refine ⟨hfinal, ?_⟩
  rw [Punctual, hcallbacks]
  refine hiff.trans (and_congr_right fun _ => ?_)
  dsimp only
  cases hpeek : state.heap.peek with
  | none =>
      have hempty : state.heap.elements = 0 := by
        rw [LocHeap.elements, LocHeapNode.mData?_eq_none.mp hpeek]
        rfl
      simp [Pops, hempty]
  | some top =>
      simp only [pops_pop hpeek, hpeek, and_imp]
      exact ⟨fun hall timer hmem hrunning hdue => hall timer hmem hdue hrunning,
        fun hall timer hmem hdue hrunning => hall timer hmem hrunning hdue⟩

theorem popsOnlyDue_of_ne {state : TimerService} {label : Label} (h : label ≠ .proc) :
    state.PopsOnlyDue label := fun hproc => absurd hproc h

/-- What one step does to the callbacks and to the coherence of the state. -/
theorem Coherent.step {state next : TimerService} {label : Label} (h : state.Coherent)
    (hstep : state.step label = some next) :
    next.Coherent ∧ (next.Punctual ↔ state.Punctual ∧ state.PopsOnlyDue label) := by
  have hquiet : next.callbacks = state.callbacks → state.PopsOnlyDue label →
      (next.Punctual ↔ state.Punctual ∧ state.PopsOnlyDue label) := by
    intro hcallbacks hpops
    rw [Punctual, hcallbacks]
    exact (and_iff_left hpops).symm
  cases label with
  | proc =>
      simp only [TimerService.step] at hstep
      split at hstep
      · cases hstep
      · rename_i msg msgQ hq
        obtain rfl := Option.some.inj hstep
        have hdequeued : { state with msgQ }.Coherent := ⟨h.valid, h.linked⟩
        cases msg with
        | timerPush mTimer =>
            obtain ⟨hcoherent, hcallbacks⟩ := hdequeued.timerPush mTimer
            refine ⟨hcoherent, hquiet hcallbacks fun _ hhead => ?_⟩
            rw [hq] at hhead
            cases hhead
        | timerRemove mTimer =>
            obtain ⟨hcoherent, hcallbacks⟩ := hdequeued.timerRemove mTimer
            refine ⟨hcoherent, hquiet hcallbacks fun _ hhead => ?_⟩
            rw [hq] at hhead
            cases hhead
        | timerExpire =>
            obtain ⟨hcoherent, hiff⟩ := hdequeued.timerExpire
            refine ⟨hcoherent, hiff.trans (and_congr_right fun _ => ?_)⟩
            simp [PopsOnlyDue, hq]
  | start client timeOutInMs =>
      obtain rfl := Option.some.inj hstep
      refine ⟨h.start client timeOutInMs, hquiet ?_ (popsOnlyDue_of_ne (by simp))⟩
      unfold TimerService.start
      split <;> rfl
  | stop client =>
      obtain rfl := Option.some.inj hstep
      refine ⟨h.stop client, hquiet ?_ (popsOnlyDue_of_ne (by simp))⟩
      cases hrunning : state.mTimer client with
      | none => simp [TimerService.stop, hrunning]
      | some timer =>
          obtain ⟨stopped, hstop, -, -, hcallbacks, -⟩ := stop_of_running hrunning
          simpa only [hstop] using hcallbacks
  | tick now =>
      simp only [TimerService.step, Option.ite_none_right_eq_some, Option.some.injEq] at hstep
      obtain ⟨-, rfl⟩ := hstep
      exact ⟨⟨h.valid, h.linked⟩, hquiet rfl (popsOnlyDue_of_ne (by simp))⟩
  | epollWait =>
      simp only [TimerService.step, Option.ite_none_right_eq_some, Option.some.injEq] at hstep
      obtain ⟨-, rfl⟩ := hstep
      exact ⟨⟨h.valid, h.linked⟩, hquiet rfl (popsOnlyDue_of_ne (by simp))⟩
  | disarm =>
      simp only [TimerService.step, Option.ite_none_right_eq_some, Option.some.injEq] at hstep
      obtain ⟨-, rfl⟩ := hstep
      exact ⟨⟨h.valid, h.linked⟩, hquiet rfl (popsOnlyDue_of_ne (by simp))⟩
  | removePoll =>
      simp only [TimerService.step, Option.ite_none_right_eq_some, Option.some.injEq] at hstep
      obtain ⟨-, rfl⟩ := hstep
      exact ⟨⟨h.valid, h.linked⟩, hquiet rfl (popsOnlyDue_of_ne (by simp))⟩
  | sendExpire =>
      simp only [TimerService.step, Option.ite_none_right_eq_some, Option.some.injEq] at hstep
      obtain ⟨-, rfl⟩ := hstep
      exact ⟨⟨h.valid, h.linked⟩, hquiet rfl (popsOnlyDue_of_ne (by simp))⟩

theorem init_coherent (now : BootTime) : (init now).Coherent where
  valid := trivial
  linked _ _ h := nomatch h

/-- A run calls nobody back before the deadline exactly if every expire message
it processes finds due in full each running timer that is on top of the heap or
has whole seconds due. -/
theorem no_early_callback_iff {now : BootTime} {labels : List Label} {final : TimerService}
    (hrun : exec step (init now) labels = some final) :
    (∀ callback ∈ final.callbacks,
      callback.timer.mFutureTime.toTimespec ≤ callback.time.toTimespec) ↔
      Along step PopsOnlyDue (init now) labels := by
  have hiff : final.Punctual ↔
      (init now).Punctual ∧ Along step PopsOnlyDue (init now) labels :=
    along_iff_of_step (fun _ _ _ h hstep => (h.step hstep).1)
      (fun _ _ _ h hstep => (h.step hstep).2) (init_coherent now) hrun
  exact hiff.trans (and_iff_right fun _ h => nomatch h)

/-- Two timers started 100 and 900 milliseconds after a full second. The first
expiration runs both callbacks, the second of them 800 milliseconds early. -/
def subSecondRun : List Label :=
  [.start 0 100, .start 1 900, .proc, .proc, .tick ((BootTime.atSecond 0).afterMs 100),
    .epollWait, .disarm, .removePoll, .sendExpire, .proc]

theorem no_early_callback_iff_subSecond :
    ∃ final, exec step (init (.atSecond 0)) subSecondRun = some final ∧
      ((∀ callback ∈ final.callbacks,
        callback.timer.mFutureTime.toTimespec ≤ callback.time.toTimespec) ↔
        Along step PopsOnlyDue (init (.atSecond 0)) subSecondRun) := by
  have hsome : (exec step (init (.atSecond 0)) subSecondRun).isSome = true := by decide
  obtain ⟨final, hrun⟩ := Option.isSome_iff_exists.mp hsome
  exact ⟨final, hrun, no_early_callback_iff hrun⟩

theorem early_callback_subSecond :
    ¬ ∀ (now : BootTime) (labels : List Label) (final : TimerService),
      exec step (init now) labels = some final → ∀ callback ∈ final.callbacks,
        callback.timer.mFutureTime.toTimespec ≤ callback.time.toTimespec := by
  intro hall
  have hearly : (exec step (init (.atSecond 0)) subSecondRun).any (fun final =>
      final.callbacks.any fun callback =>
        !decide (callback.timer.mFutureTime.toTimespec ≤ callback.time.toTimespec)) = true := by
    decide
  obtain ⟨final, hrun, hany⟩ := (Option.any_eq_true _ _).mp hearly
  obtain ⟨callback, hmem, hnot⟩ := List.any_eq_true.mp hany
  have hdue := hall _ _ final hrun callback hmem
  simp [hdue] at hnot

end Msm8916.Timer.TimerService
