import Msm8916.Timer.Container

/-!
No lost wake-up. The message task and the poll thread reprogram the same
timerfd and the same epoll set without a common lock; a stored timer is still
always covered by an expire under way, an expire message, or the armed timerfd.
-/

namespace Msm8916.Timer.TimerService

open Heap Transition

/-- The poll thread is between the first and the last action of `expire()`. -/
def ExpireInProgress (state : TimerService) : Prop :=
  state.pollTask = .disarmed ∨ state.pollTask = .pollRemoved

/-- The timerfd is in the epoll set with the time of `top`. -/
def ArmedFor (state : TimerService) (top : LocTimerDelegate) : Prop :=
  state.inEpoll = true ∧ state.timerFd = some top.mFutureTime.toTimespec

/-- Whatever is on top of the heap will be looked at. -/
def Covered (state : TimerService) : Prop :=
  ∀ top, state.heap.peek = some top →
    state.ExpireInProgress ∨ LocMsg.timerExpire ∈ state.msgQ ∨ state.ArmedFor top

/-! ## Calls of the clients -/

/-- `next` differs from `state` in the clients' bookkeeping alone and has at
least its messages. -/
structure Extends (next state : TimerService) : Prop where
  heap : next.heap = state.heap
  timerFd : next.timerFd = state.timerFd
  inEpoll : next.inEpoll = state.inEpoll
  pollTask : next.pollTask = state.pollTask
  msgQ : ∀ msg ∈ state.msgQ, msg ∈ next.msgQ

theorem Extends.covered {next state : TimerService} (hext : next.Extends state)
    (h : state.Covered) : next.Covered := by
  intro top htop
  rw [hext.heap] at htop
  rcases h top htop with hbusy | hmsg | harmed
  · left
    rwa [ExpireInProgress, hext.pollTask]
  · exact .inr (.inl (hext.msgQ _ hmsg))
  · right; right
    rwa [ArmedFor, hext.inEpoll, hext.timerFd]

theorem destroyLocked_extends (state : TimerService) (timer : LocTimerDelegate) :
    (state.destroyLocked timer).Extends state := by
  unfold destroyLocked
  dsimp only
  split
  · exact ⟨rfl, rfl, rfl, rfl, fun msg hmsg => List.mem_append_left _ hmsg⟩
  · exact ⟨rfl, rfl, rfl, rfl, fun msg hmsg => hmsg⟩

theorem start_extends (state : TimerService) (client : Nat) (timeOutInMs : UInt32) :
    (state.start client timeOutInMs).Extends state := by
  unfold start
  split
  · exact ⟨rfl, rfl, rfl, rfl, fun msg hmsg => hmsg⟩
  · exact ⟨rfl, rfl, rfl, rfl, fun msg hmsg => List.mem_append_left _ hmsg⟩

theorem stop_extends (state : TimerService) (client : Nat) :
    (state.stop client).1.Extends state := by
  unfold stop
  split
  · exact ⟨rfl, rfl, rfl, rfl, fun msg hmsg => hmsg⟩
  · have hext := destroyLocked_extends
      { state with mTimer := Function.update state.mTimer client none }
    exact ⟨(hext _).heap, (hext _).timerFd, (hext _).inEpoll, (hext _).pollTask, (hext _).msgQ⟩

/-! ## Messages -/

/-- The update touches the two kernel objects alone. -/
theorem updateSoonestTime_eq (state : TimerService) (priorTop : Option LocTimerDelegate) :
    ∃ timerFd inEpoll, state.updateSoonestTime priorTop = { state with timerFd, inEpoll } := by
  unfold updateSoonestTime
  split
  · exact ⟨_, _, rfl⟩
  · split
    · exact ⟨_, _, rfl⟩
    · split <;> exact ⟨_, _, rfl⟩

theorem updateSoonestTime_heap (state : TimerService) (priorTop : Option LocTimerDelegate) :
    (state.updateSoonestTime priorTop).heap = state.heap := by
  obtain ⟨timerFd, inEpoll, heq⟩ := state.updateSoonestTime_eq priorTop
  rw [heq]

/-- A changed top that outranks the previous one is programmed. -/
theorem updateSoonestTime_arms {state : TimerService} {priorTop : Option LocTimerDelegate}
    {top : LocTimerDelegate} (htop : state.heap.peek = some top)
    (hchanged : priorTop ≠ some top) (hrank : priorTop.all (outRanks top) = true) :
    (state.updateSoonestTime priorTop).ArmedFor top := by
  have hne : ¬ some top = priorTop := fun heq => hchanged heq.symm
  simp [updateSoonestTime, htop, hne, hrank, ArmedFor, addPoll, timerfdSettime,
    BootTime.ne_disarm]

/-- After an update that is told of no previous top the stored timers are
covered by the timerfd itself. -/
theorem updateSoonestTime_none_covered (state : TimerService) :
    (state.updateSoonestTime none).Covered := by
  intro top htop
  rw [updateSoonestTime_heap] at htop
  exact .inr (.inr (updateSoonestTime_arms htop (Option.some_ne_none top).symm rfl))

theorem not_outRanks_self (timer : LocTimerDelegate) : outRanks timer timer = false := by
  simp [outRanks, LocRankable.ranks]

theorem timerPush_covered {state : TimerService} (h : state.Covered)
    (mTimer : LocTimerDelegate) : (state.timerPush mTimer).Covered := by
  unfold timerPush
  cases hprior : state.heap.peek with
  | none => exact updateSoonestTime_none_covered _
  | some prior =>
      have hpeek : (state.heap.push mTimer).peek =
          some (if outRanks mTimer prior then mTimer else prior) :=
        LocHeapNode.mData?_push hprior mTimer
      by_cases hout : outRanks mTimer prior = true
      · -- the pushed timer is the new top
        rw [if_pos hout] at hpeek
        have hne : prior ≠ mTimer := by
          rintro rfl
          rw [not_outRanks_self] at hout
          cases hout
        intro top htop
        rw [updateSoonestTime_heap] at htop
        obtain rfl : mTimer = top := Option.some.inj (hpeek.symm.trans htop)
        exact .inr (.inr (updateSoonestTime_arms hpeek (by simpa using hne) hout))
      · -- the top stays, and so does whatever covered it
        rw [if_neg hout] at hpeek
        have hsame : { state with heap := state.heap.push mTimer }.updateSoonestTime
            (some prior) = { state with heap := state.heap.push mTimer } := if_pos hpeek
        rw [hsame]
        intro top htop
        exact h top (hprior.trans (hpeek.symm.trans htop))

theorem timerRemove_covered {state : TimerService} (h : state.Covered)
    (mTimer : LocTimerDelegate) : (state.timerRemove mTimer).Covered := by
  unfold timerRemove
  dsimp only
  by_cases hremoved : state.heap.peek = (state.heap.remove mTimer).2
  · rw [if_pos hremoved]
    exact updateSoonestTime_none_covered { state with heap := (state.heap.remove mTimer).1 }
  · rw [if_neg hremoved]
    have hpeek : (state.heap.remove mTimer).1.peek = state.heap.peek :=
      LocHeapNode.mData?_remove hremoved
    intro top htop
    exact h top (hpeek.symm.trans htop)

theorem timerExpire_covered (state : TimerService) : state.timerExpire.Covered :=
  updateSoonestTime_none_covered _

/-- Taking a message other than an expire off the queue uncovers nothing. -/
theorem Covered.tail {state : TimerService} {msg : LocMsg} {msgQ : List LocMsg}
    (h : state.Covered) (hq : state.msgQ = msg :: msgQ) (hmsg : msg ≠ .timerExpire) :
    { state with msgQ }.Covered := by
  intro top htop
  rcases h top htop with hbusy | hqueued | harmed
  · exact .inl hbusy
  · rw [hq] at hqueued
    rcases List.mem_cons.mp hqueued with heq | hrest
    · exact absurd heq.symm hmsg
    · exact .inr (.inl hrest)
  · exact .inr (.inr harmed)

theorem proc_covered {state : TimerService} {msg : LocMsg} {msgQ : List LocMsg}
    (h : state.Covered) (hq : state.msgQ = msg :: msgQ) :
    ({ state with msgQ }.proc msg).Covered := by
  cases msg with
  | timerPush mTimer => exact timerPush_covered (h.tail hq (by simp)) mTimer
  | timerRemove mTimer => exact timerRemove_covered (h.tail hq (by simp)) mTimer
  | timerExpire => exact timerExpire_covered _

/-! ## Runs -/

theorem step_covered {state next : TimerService} {label : Label} (h : state.Covered)
    (hstep : state.step label = some next) : next.Covered := by
  cases label with
  | tick now =>
      simp only [step, Option.ite_none_right_eq_some, Option.some.injEq] at hstep
      obtain ⟨-, rfl⟩ := hstep
      exact h
  | start client timeOutInMs =>
      obtain rfl := Option.some.inj hstep
      exact (start_extends state client timeOutInMs).covered h
  | stop client =>
      obtain rfl := Option.some.inj hstep
      exact (stop_extends state client).covered h
  | epollWait =>
      simp only [step, Option.ite_none_right_eq_some, Option.some.injEq] at hstep
      obtain ⟨⟨hwaiting, -⟩, rfl⟩ := hstep
      intro top htop
      rcases h top htop with hbusy | hrest
      · rw [ExpireInProgress, hwaiting] at hbusy
        rcases hbusy with hbusy | hbusy <;> cases hbusy
      · exact .inr hrest
  | disarm =>
      simp only [step, Option.ite_none_right_eq_some, Option.some.injEq] at hstep
      obtain ⟨-, rfl⟩ := hstep
      exact fun _ _ => .inl (.inl rfl)
  | removePoll =>
      simp only [step, Option.ite_none_right_eq_some, Option.some.injEq] at hstep
      obtain ⟨-, rfl⟩ := hstep
      exact fun _ _ => .inl (.inr rfl)
  | sendExpire =>
      simp only [step, Option.ite_none_right_eq_some, Option.some.injEq] at hstep
      obtain ⟨-, rfl⟩ := hstep
      exact fun _ _ => .inr (.inl (List.mem_append_right _ (List.mem_singleton_self _)))
  | proc =>
      simp only [step] at hstep
      split at hstep
      · cases hstep
      · rename_i msg msgQ hq
        obtain rfl := Option.some.inj hstep
        exact proc_covered h hq

theorem init_covered (now : BootTime) : (init now).Covered := by
  intro top htop
  cases htop

/-- In every reachable state with a nonempty heap an expire is under way or
queued, or the timerfd is in the epoll set with the time of the top. -/
theorem no_lost_wakeup {now : BootTime} {state : TimerService}
    (hreach : Reachable step (init now) state) (hheap : state.heap ≠ LocHeap.empty) :
    ∃ top, state.heap.peek = some top ∧
      (state.ExpireInProgress ∨ LocMsg.timerExpire ∈ state.msgQ ∨
        (state.inEpoll = true ∧ state.timerFd = some top.mFutureTime.toTimespec)) := by
  have hcovered : state.Covered :=
    invariant_of_step (fun _ _ _ h hstep => step_covered h hstep) (init_covered now) hreach
  cases hpeek : state.heap.peek with
  | none => exact absurd (congrArg LocHeap.mk (LocHeapNode.mData?_eq_none.mp hpeek)) hheap
  | some top => exact ⟨top, rfl, hcovered top hpeek⟩

/-- A timer pushed between the disarming of the timerfd and its removal from
the epoll set. -/
theorem no_lost_wakeup_push_during_expire :
    ∃ state,
      exec step (init (.atSecond 0))
        [.start 0 1000, .proc, .tick (.atSecond 1), .epollWait, .disarm,
          .start 1 500, .proc, .removePoll] = some state ∧
      ∃ top, state.heap.peek = some top ∧
        (state.ExpireInProgress ∨ LocMsg.timerExpire ∈ state.msgQ ∨
          (state.inEpoll = true ∧ state.timerFd = some top.mFutureTime.toTimespec)) := by
  have hany : (exec step (init (.atSecond 0))
      [.start 0 1000, .proc, .tick (.atSecond 1), .epollWait, .disarm,
        .start 1 500, .proc, .removePoll]).any
      (fun state => decide (state.heap ≠ LocHeap.empty)) = true := by decide
  obtain ⟨state, hrun, hheap⟩ := (Option.any_eq_true _ _).mp hany
  exact ⟨state, hrun, no_lost_wakeup ⟨_, hrun⟩ (of_decide_eq_true hheap)⟩

end Msm8916.Timer.TimerService
