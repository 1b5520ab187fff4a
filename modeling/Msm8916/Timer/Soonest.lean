import Msm8916.Timer.Lifecycle

/-!
Which timer a container takes for the soonest. Once the message queue is empty
the container stores the timers that are pending and its timerfd is programmed
for the top of the heap; the heap ranks whole seconds, so the top is the soonest
timer if the timers of the first second agree on their deadline.
-/

namespace Msm8916.Timer.TimerService

open Heap Transition

/-! ## The container within its process -/

/-- The container is the one for `wakeOnExpire` false, and all timers are in
it. -/
structure Within (state : TimerService) (timers : LocTimers) : Prop where
  now : timers.now = state.now
  heap : timers.heap false = state.heap
  mTimer : timers.mTimer = state.mTimer
  mClient : timers.mClient = state.mClient
  mContainer : ∀ timer,
    timers.mContainer timer = if state.mContainer timer then some false else none
  nextAddress : timers.nextAddress = state.nextAddress
  msgQ : timers.msgQ = state.msgQ.map (Prod.mk false)

theorem init_within (now : BootTime) : (init now).Within (.init now) :=
  ⟨rfl, rfl, rfl, rfl, fun _ => rfl, rfl, rfl⟩

theorem Within.kernel {state : TimerService} {timers : LocTimers} (h : state.Within timers)
    (timerFd : Option Timespec) (inEpoll : Bool) (pollTask : PollTask) :
    { state with timerFd, inEpoll, pollTask }.Within timers :=
  ⟨h.now, h.heap, h.mTimer, h.mClient, h.mContainer, h.nextAddress, h.msgQ⟩

theorem Within.updateSoonestTime {state : TimerService} {timers : LocTimers}
    (h : state.Within timers) (priorTop : Option LocTimerDelegate) :
    (state.updateSoonestTime priorTop).Within timers := by
  obtain ⟨timerFd, inEpoll, heq⟩ := state.updateSoonestTime_eq priorTop
  rw [heq]
  exact h.kernel timerFd inEpoll state.pollTask

theorem Within.destroyLocked {state : TimerService} {timers : LocTimers}
    (h : state.Within timers) (timer : LocTimerDelegate) :
    (state.destroyLocked timer).Within (timers.destroyLocked timer) := by
  have hcontainer := h.mContainer timer
  unfold TimerService.destroyLocked LocTimers.destroyLocked
  dsimp only
  cases hheld : state.mContainer timer with
  | false =>
      simp only [hheld, Bool.false_eq_true, if_false] at hcontainer ⊢
      rw [hcontainer]
      exact ⟨h.now, h.heap, h.mTimer, by rw [← h.mClient], h.mContainer, h.nextAddress, h.msgQ⟩
  | true =>
      simp only [hheld, if_true] at hcontainer ⊢
      rw [hcontainer]
      refine ⟨h.now, h.heap, h.mTimer, by simp [sendMsg, LocTimers.sendMsg, h.mClient],
        fun other => ?_, h.nextAddress, by simp [sendMsg, LocTimers.sendMsg, h.msgQ]⟩
      by_cases hother : other = timer
      · subst hother
        simp [sendMsg, LocTimers.sendMsg]
      · simp [sendMsg, LocTimers.sendMsg, hother, h.mContainer]

theorem Within.stop {state : TimerService} {timers : LocTimers} (h : state.Within timers)
    (client : Nat) :
    (state.stop client).1.Within (timers.stop client).1 ∧
      (timers.stop client).2 = (state.stop client).2 := by
  simp only [TimerService.stop, LocTimers.stop, h.mTimer]
  cases state.mTimer client with
  | none => exact ⟨h, rfl⟩
  | some timer =>
      refine ⟨?_, rfl⟩
      apply Within.destroyLocked
      exact ⟨h.now, h.heap, by rw [← h.mTimer], h.mClient, h.mContainer, h.nextAddress, h.msgQ⟩

theorem Within.start {state : TimerService} {timers : LocTimers} (h : state.Within timers)
    (client : Nat) (timeOutInMs : UInt32) :
    (state.start client timeOutInMs).Within (timers.start client timeOutInMs false) := by
  simp only [TimerService.start, LocTimers.start, h.mTimer]
  cases state.mTimer client with
  | some _ => exact h
  | none =>
      refine ⟨h.now, h.heap, ?_, ?_, fun other => ?_, ?_, ?_⟩
      · simp [sendMsg, LocTimers.sendMsg, h.now, h.nextAddress]
      · simp [sendMsg, LocTimers.sendMsg, h.now, h.nextAddress, h.mClient]
      · simp only [sendMsg, LocTimers.sendMsg, h.now, h.nextAddress]
        by_cases hother : other = ⟨state.nextAddress, state.now.afterMs timeOutInMs⟩
        · subst hother
          simp
        · simp [hother, h.mContainer]
      · simp [sendMsg, LocTimers.sendMsg, h.nextAddress]
      · simp [sendMsg, LocTimers.sendMsg, h.now, h.nextAddress, h.msgQ]

/-- Expiring a timer whose callback makes no calls. -/
theorem Within.expireTimer {state : TimerService} {timers : LocTimers} (h : state.Within timers)
    (timer : LocTimerDelegate) :
    (state.expireTimer timer).Within (timers.expireTimer (fun _ => []) timer) := by
  simp only [TimerService.expireTimer, LocTimers.expireTimer, h.mClient]
  cases state.mClient timer with
  | none => exact h
  | some client =>
      obtain ⟨hstopped, hended⟩ := h.stop client
      dsimp only
      generalize state.stop client = service at hstopped hended ⊢
      generalize timers.stop client = task at hstopped hended ⊢
      obtain ⟨service, ended⟩ := service
      obtain ⟨task, taskEnded⟩ := task
      dsimp only at hstopped hended ⊢
      subst hended
      cases taskEnded with
      | none => exact hstopped
      | some _ =>
          exact ⟨hstopped.now, hstopped.heap, hstopped.mTimer, hstopped.mClient,
            hstopped.mContainer, hstopped.nextAddress, hstopped.msgQ⟩

theorem Within.setHeap {state : TimerService} {timers : LocTimers} (h : state.Within timers)
    (heap : LocHeap LocTimerDelegate) :
    { state with heap }.Within (timers.setHeap false heap) :=
  ⟨h.now, LocTimers.heap_setHeap_self timers false heap, h.mTimer, h.mClient, h.mContainer,
    h.nextAddress, h.msgQ⟩

theorem Within.expireLoop {rounds : Nat} {popped : Option LocTimerDelegate}
    {state : TimerService} {timers : LocTimers} (h : state.Within timers)
    (timerOfNow : LocTimerDelegate) :
    (expireLoop timerOfNow rounds popped state).Within
      (LocTimers.expireLoop (fun _ => []) false timerOfNow rounds popped timers) := by
  induction rounds generalizing popped state timers with
  | zero => cases popped <;> exact h
  | succ rounds ih =>
      cases popped with
      | none => exact h
      | some timer =>
          have hexpired := h.expireTimer timer
          rw [TimerService.expireLoop, LocTimers.expireLoop, hexpired.heap]
          exact ih (hexpired.setHeap _)

theorem Within.proc {state : TimerService} {timers : LocTimers} (h : state.Within timers)
    (msg : LocMsg) : (state.proc msg).Within (timers.proc (fun _ => []) false msg) := by
  cases msg with
  | timerPush mTimer =>
      simp only [LocTimers.proc, LocTimers.timerPush, h.heap]
      exact (h.setHeap _).updateSoonestTime _
  | timerRemove mTimer =>
      simp only [LocTimers.proc, LocTimers.timerRemove, h.heap]
      have hremoved := h.setHeap (state.heap.remove mTimer).1
      have hupdated := hremoved.updateSoonestTime none
      unfold TimerService.proc TimerService.timerRemove
      dsimp only
      split
      · exact ⟨hupdated.now, hupdated.heap, hupdated.mTimer, hupdated.mClient,
          hupdated.mContainer, hupdated.nextAddress, hupdated.msgQ⟩
      · exact ⟨hremoved.now, hremoved.heap, hremoved.mTimer, hremoved.mClient,
          hremoved.mContainer, hremoved.nextAddress, hremoved.msgQ⟩
  | timerExpire =>
      simp only [LocTimers.proc, LocTimers.timerExpire, h.heap, h.now]
      exact ((h.setHeap _).expireLoop _).updateSoonestTime _

/-- A step of the container is a step of its process; the poll thread's own
actions are none. -/
theorem Within.step {state next : TimerService} {timers : LocTimers} {label : Label}
    (h : state.Within timers) (hstep : state.step label = some next) :
    ∃ after, next.Within after ∧
      (after = timers ∨ ∃ move, timers.step move = some after) := by
  cases label with
  | tick now =>
      simp only [TimerService.step, Option.ite_none_right_eq_some, Option.some.injEq] at hstep
      obtain ⟨hlater, rfl⟩ := hstep
      refine ⟨{ timers with now }, ⟨rfl, h.heap, h.mTimer, h.mClient, h.mContainer,
        h.nextAddress, h.msgQ⟩, .inr ⟨.tick now, ?_⟩⟩
      rw [← h.now] at hlater
      exact if_pos hlater
  | start client timeOutInMs =>
      obtain rfl := Option.some.inj hstep
      exact ⟨_, h.start client timeOutInMs, .inr ⟨.call (.start client timeOutInMs false), rfl⟩⟩
  | stop client =>
      obtain rfl := Option.some.inj hstep
      obtain ⟨hstopped, -⟩ := h.stop client
      refine ⟨_, ?_, .inr ⟨.call (.stop client), rfl⟩⟩
      rw [LocTimers.call]
      split
      · rename_i hstop
        rwa [hstop] at hstopped
      · rename_i hstop
        rw [hstop] at hstopped
        exact ⟨hstopped.now, hstopped.heap, hstopped.mTimer, hstopped.mClient,
          hstopped.mContainer, hstopped.nextAddress, hstopped.msgQ⟩
  | epollWait =>
      simp only [TimerService.step, Option.ite_none_right_eq_some, Option.some.injEq] at hstep
      obtain ⟨-, rfl⟩ := hstep
      exact ⟨timers, h.kernel _ _ _, .inl rfl⟩
  | disarm =>
      simp only [TimerService.step, Option.ite_none_right_eq_some, Option.some.injEq] at hstep
      obtain ⟨-, rfl⟩ := hstep
      exact ⟨timers, h.kernel _ _ _, .inl rfl⟩
  | removePoll =>
      simp only [TimerService.step, Option.ite_none_right_eq_some, Option.some.injEq] at hstep
      obtain ⟨-, rfl⟩ := hstep
      exact ⟨timers, h.kernel _ _ _, .inl rfl⟩
  | sendExpire =>
      simp only [TimerService.step, Option.ite_none_right_eq_some, Option.some.injEq] at hstep
      obtain ⟨-, rfl⟩ := hstep
      refine ⟨timers.sendMsg false .timerExpire, ⟨h.now, h.heap, h.mTimer, h.mClient,
        h.mContainer, h.nextAddress, ?_⟩, .inr ⟨.sendExpire false, rfl⟩⟩
      simp [sendMsg, LocTimers.sendMsg, h.msgQ]
  | proc =>
      simp only [TimerService.step] at hstep
      split at hstep
      · cases hstep
      · rename_i msg msgQ hq
        obtain rfl := Option.some.inj hstep
        have htask : timers.msgQ = (false, msg) :: msgQ.map (Prod.mk false) := by
          rw [h.msgQ, hq]
          rfl
        have hdequeued : { state with msgQ }.Within
            { timers with msgQ := msgQ.map (Prod.mk false) } :=
          ⟨h.now, h.heap, h.mTimer, h.mClient, h.mContainer, h.nextAddress, rfl⟩
        refine ⟨_, hdequeued.proc msg, .inr ⟨.proc fun _ => [], ?_⟩⟩
        simp only [LocTimers.step, htask]

/-! ## What is stored -/

/-- Started, and neither stopped nor expired. -/
def Pending (state : TimerService) (timer : LocTimerDelegate) : Prop :=
  ∃ client, state.mTimer client = some timer

/-- Once every message is processed the container stores the pending timers. -/
theorem stored_iff_pending {now : BootTime} {state : TimerService}
    (hreach : Reachable step (init now) state) (hquiet : state.msgQ = [])
    (timer : LocTimerDelegate) : timer ∈ state.heap.elements ↔ state.Pending timer := by
  obtain ⟨timers, htimers, hwithin⟩ := hreach.simulated
    (fun _ _ _ _ h hstep => Within.step h hstep) (init_within now)
  have h : timers.Lifecycle none :=
    invariant_of_step (I := fun timers => timers.Lifecycle none)
      (fun _ _ _ h hstep => h.step hstep) (LocTimers.init_lifecycle now) htimers
  have hbalanced := h.balanced timer
  have hempty : timers.msgQ = [] := by rw [hwithin.msgQ, hquiet]; rfl
  have hpushing : ∀ container, (timers.tally timer).pushing container = 0 := by
    simp [LocTimers.tally, hempty]
  have hremoving : ∀ container, (timers.tally timer).removing container = 0 := by
    simp [LocTimers.tally, hempty]
  have hstored : (timers.tally timer).stored false = state.heap.elements.count timer := by
    rw [← hwithin.heap]
    rfl
  have hpending : state.Pending timer ↔ timers.mContainer timer = some false := by
    have hheld := hwithin.mContainer timer
    have hlinked := h.linked.container timer
    have hclient : state.Pending timer ↔ timers.mClient timer ≠ none := by
      simp only [Pending, ← hwithin.mTimer, ← h.linked.client, Option.ne_none_iff_exists', eq_comm]
    rw [hclient, Ne, hlinked, hheld]
    cases state.mContainer timer <;> simp
  have hrunning : timers.mContainer timer = some false ↔
      (timers.tally timer).running false ≠ 0 := by
    simp only [LocTimers.tally, Ne, List.count_eq_zero, Option.mem_toList, not_not]
  have htrue : (timers.tally timer).running true = 0 := by
    have hheld := hwithin.mContainer timer
    simp only [LocTimers.tally, hheld]
    cases state.mContainer timer <;> simp
  rw [hpending, hrunning, ← Multiset.count_pos, ← hstored]
  have howed := hbalanced.owed
  have hkept := hbalanced.kept false
  have hwaiting := hbalanced.waiting false
  have hgone := fun hdeleted => hbalanced.gone hdeleted false
  have hpushed := hpushing false
  have hnone : (none : Option LocTimerDelegate).toList.count timer = 0 := rfl
  rw [hremoving, hremoving] at howed
  omega

/-! ## The first second -/

/-- No pending timer is due before the top of the heap, and the timerfd is
programmed for it. -/
def SoonestProgrammed (state : TimerService) : Prop :=
  (∃ timer, state.Pending timer) →
    ∃ top, state.heap.peek = some top ∧ state.Pending top ∧
      (∀ timer, state.Pending timer →
        top.mFutureTime.toTimespec ≤ timer.mFutureTime.toTimespec) ∧
      state.timerFd = some top.mFutureTime.toTimespec

/-- The pending timers of the earliest second have one deadline. -/
def FirstSecondAgrees (state : TimerService) : Prop :=
  ∀ first second, state.Pending first → state.Pending second →
    (∀ timer, state.Pending timer →
      first.mFutureTime.tv_sec ≤ timer.mFutureTime.tv_sec) →
    second.mFutureTime.tv_sec = first.mFutureTime.tv_sec →
    second.mFutureTime.tv_nsec = first.mFutureTime.tv_nsec

theorem le_of_sec_lt {first second : BootTime} (h : first.tv_sec < second.tv_sec) :
    first.toTimespec ≤ second.toTimespec := .inl h

/-- Within one second the nanoseconds decide. -/
theorem le_iff_of_sec_eq {first second : BootTime} (h : first.tv_sec = second.tv_sec) :
    first.toTimespec ≤ second.toTimespec ↔ first.tv_nsec ≤ second.tv_nsec := by
  constructor
  · rintro (hlt | ⟨-, hle⟩)
    · exact absurd h (ne_of_lt hlt)
    · exact hle
  · exact fun hle => .inr ⟨h, hle⟩

/-- A timer that nothing outranks stays on top of whatever is pushed. -/
theorem foldl_push {heap : LocHeap LocTimerDelegate} {top : LocTimerDelegate}
    (htop : heap.peek = some top) {timers : List LocTimerDelegate}
    (hlater : ∀ timer ∈ timers, top.mFutureTime.tv_sec ≤ timer.mFutureTime.tv_sec) :
    (timers.foldl LocHeap.push heap).peek = some top ∧
      (timers.foldl LocHeap.push heap).elements = heap.elements + timers := by
  induction timers generalizing heap with
  | nil => exact ⟨htop, by simp⟩
  | cons timer timers ih =>
      obtain ⟨hfirst, hrest⟩ := List.forall_mem_cons.mp hlater
      have hbelow : outRanks timer top = false := by
        rw [← Bool.not_eq_true]
        exact (seconds_rank.not_above_iff timer top).mpr hfirst
      have hpeek : (heap.push timer).peek = some top := by
        have hpush := LocHeapNode.mData?_push htop timer
        rwa [hbelow, if_neg Bool.false_ne_true] at hpush
      obtain ⟨htops, helements⟩ := ih hpeek hrest
      refine ⟨htops, helements.trans ?_⟩
      rw [LocHeap.elements_push, ← Multiset.cons_coe, Multiset.cons_add, Multiset.add_cons]

/-- Pushed first, a timer of the earliest second stays on top of one that is due
before it. -/
theorem exists_late_top {elements : Multiset LocTimerDelegate}
    {earlier later : LocTimerDelegate} (hearlier : earlier ∈ elements)
    (hlater : later ∈ elements)
    (hleast : ∀ timer ∈ elements, later.mFutureTime.tv_sec ≤ timer.mFutureTime.tv_sec)
    (hsec : later.mFutureTime.tv_sec = earlier.mFutureTime.tv_sec)
    (hnsec : earlier.mFutureTime.tv_nsec < later.mFutureTime.tv_nsec) :
    ∃ (timers : List LocTimerDelegate) (top : LocTimerDelegate), timers = elements ∧
      (timers.foldl LocHeap.push LocHeap.empty).peek = some top ∧
      ∃ timer ∈ timers, ¬ top.mFutureTime.toTimespec ≤ timer.mFutureTime.toTimespec := by
  have hall : ((later :: (elements.erase later).toList : List LocTimerDelegate) :
      Multiset LocTimerDelegate) = elements := by
    rw [← Multiset.cons_coe, Multiset.coe_toList, Multiset.cons_erase hlater]
  have hrest : ∀ timer ∈ (elements.erase later).toList,
      later.mFutureTime.tv_sec ≤ timer.mFutureTime.tv_sec := by
    intro timer hmem
    rw [Multiset.mem_toList] at hmem
    exact hleast timer (Multiset.mem_of_mem_erase hmem)
  have hfirst : (LocHeap.empty.push later).peek = some later := rfl
  refine ⟨_, later, hall, (foldl_push hfirst hrest).1, earlier, ?_, ?_⟩
  · rw [← Multiset.mem_coe, hall]
    exact hearlier
  · rw [le_iff_of_sec_eq hsec]
    exact not_le_of_gt hnsec

/-- In every reachable state in which the messages are processed and no expire is
in progress the soonest timer is on top and programmed if the pending timers of
the earliest second agree. If they do not, pushing the same timers in another
order puts one that is not the soonest on top. -/
theorem soonest_programmed_iff {now : BootTime} {state : TimerService}
    (hreach : Reachable step (init now) state) (hquiet : state.msgQ = [])
    (hidle : ¬ state.ExpireInProgress) :
    (state.FirstSecondAgrees → state.SoonestProgrammed) ∧
      (¬ state.FirstSecondAgrees → ∃ (timers : List LocTimerDelegate) (top : LocTimerDelegate),
        timers = state.heap.elements ∧
          (timers.foldl LocHeap.push LocHeap.empty).peek = some top ∧
          ∃ timer ∈ timers, ¬ top.mFutureTime.toTimespec ≤ timer.mFutureTime.toTimespec) := by
  have hstored := stored_iff_pending hreach hquiet
  have hcoherent : state.Coherent :=
    invariant_of_step (fun _ _ _ h hstep => (h.step hstep).1) (init_coherent now) hreach
  constructor
  · rintro hagrees ⟨pending, hpending⟩
    have hheap : state.heap ≠ LocHeap.empty := by
      intro hempty
      have hmem := (hstored pending).mpr hpending
      rw [hempty] at hmem
      exact absurd hmem (Multiset.notMem_zero pending)
    obtain ⟨top, htop, hcovered⟩ := no_lost_wakeup hreach hheap
    have harmed : state.timerFd = some top.mFutureTime.toTimespec := by
      rcases hcovered with hbusy | hmsg | harmed
      · exact absurd hbusy hidle
      · rw [hquiet] at hmsg
        cases hmsg
      · exact harmed.2
    have hmem : top ∈ state.heap.elements := by
      rw [LocHeap.elements_of_peek htop]
      exact Multiset.mem_cons_self top _
    have hfirst : state.Pending top := (hstored top).mp hmem
    have hleast : ∀ timer, state.Pending timer →
        top.mFutureTime.tv_sec ≤ timer.mFutureTime.tv_sec := by
      intro timer htimer
      have hbelow := hcoherent.valid.below_top seconds_rank htop timer ((hstored timer).mpr htimer)
      exact (seconds_rank.not_above_iff timer top).mp hbelow
    refine ⟨top, htop, hfirst, fun timer htimer => ?_, harmed⟩
    rcases (hleast timer htimer).lt_or_eq with hlt | heq
    · exact le_of_sec_lt hlt
    · apply (le_iff_of_sec_eq heq).mpr
      exact (hagrees top timer hfirst htimer hleast heq.symm).ge
  · intro hdiffer
    unfold FirstSecondAgrees at hdiffer
    push Not at hdiffer
    obtain ⟨first, second, hfirst, hsecond, hleast, hsec, hnsec⟩ := hdiffer
    have hfirstStored := (hstored first).mpr hfirst
    have hsecondStored := (hstored second).mpr hsecond
    have hleastStored : ∀ timer ∈ state.heap.elements,
        first.mFutureTime.tv_sec ≤ timer.mFutureTime.tv_sec := fun timer hmem =>
      hleast timer ((hstored timer).mp hmem)
    rcases hnsec.lt_or_gt with hlt | hgt
    · exact exists_late_top hsecondStored hfirstStored hleastStored hsec.symm hlt
    · apply exists_late_top hfirstStored hsecondStored _ hsec hgt
      intro timer hmem
      exact hsec.trans_le (hleastStored timer hmem)

/-- Two timers of different seconds, the later one started first. -/
def twoSecondsRun : List Label := [.start 0 2000, .start 1 1000, .proc, .proc]

theorem soonest_programmed_iff_twoSeconds :
    ∃ state, exec step (init (.atSecond 0)) twoSecondsRun = some state ∧
      (state.FirstSecondAgrees → state.SoonestProgrammed) ∧
      (¬ state.FirstSecondAgrees → ∃ (timers : List LocTimerDelegate) (top : LocTimerDelegate),
        timers = state.heap.elements ∧
          (timers.foldl LocHeap.push LocHeap.empty).peek = some top ∧
          ∃ timer ∈ timers, ¬ top.mFutureTime.toTimespec ≤ timer.mFutureTime.toTimespec) := by
  have hany : (exec step (init (.atSecond 0)) twoSecondsRun).any
      (fun state => decide (state.msgQ = []) && decide (state.pollTask = .waiting)) = true := by
    decide
  obtain ⟨state, hrun, hstate⟩ := (Option.any_eq_true _ _).mp hany
  obtain ⟨hquiet, hwaiting⟩ := Bool.and_eq_true_iff.mp hstate
  have hidle : ¬ state.ExpireInProgress := by
    simp [ExpireInProgress, of_decide_eq_true hwaiting]
  exact ⟨state, hrun, soonest_programmed_iff ⟨_, hrun⟩ (of_decide_eq_true hquiet) hidle⟩

/-- Two timers of one second, the later one started first. It stays on top, and
the timerfd is programmed for it. -/
theorem later_programmed_first :
    ¬ ∀ (now : BootTime) (state : TimerService), Reachable step (init now) state →
      state.msgQ = [] → ¬ state.ExpireInProgress → state.SoonestProgrammed := by
  intro hall
  have hany : (exec step (init (.atSecond 0)) [.start 0 900, .start 1 100, .proc, .proc]).any
      (fun state => decide (state.msgQ = []) && decide (state.pollTask = .waiting) &&
        (state.mTimer 1).any fun timer => state.heap.peek.any fun top =>
          !decide (top.mFutureTime.toTimespec ≤ timer.mFutureTime.toTimespec)) = true := by
    decide
  obtain ⟨state, hrun, hstate⟩ := (Option.any_eq_true _ _).mp hany
  obtain ⟨hsettled, hlate⟩ := Bool.and_eq_true_iff.mp hstate
  obtain ⟨hquiet, hwaiting⟩ := Bool.and_eq_true_iff.mp hsettled
  obtain ⟨timer, htimer, htops⟩ := (Option.any_eq_true _ _).mp hlate
  obtain ⟨top, htop, hnot⟩ := (Option.any_eq_true _ _).mp htops
  have hidle : ¬ state.ExpireInProgress := by
    simp [ExpireInProgress, of_decide_eq_true hwaiting]
  have hpending : state.Pending timer := ⟨1, htimer⟩
  obtain ⟨other, hother, -, hleast, -⟩ :=
    hall _ state ⟨_, hrun⟩ (of_decide_eq_true hquiet) hidle ⟨timer, hpending⟩
  obtain rfl : top = other := Option.some.inj (htop.symm.trans hother)
  simp [hleast timer hpending] at hnot

end Msm8916.Timer.TimerService
