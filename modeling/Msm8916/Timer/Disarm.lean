import Msm8916.Timer.Punctual

/-!
When an emptied container is disarmed. `updateSoonestTime` is told of no
previous top by every message that can empty the heap, and then takes the empty
heap for an unchanged one; its disarming branch is never reached.
-/

namespace Msm8916.Timer.TimerService

open Heap Transition

def Disarmed (state : TimerService) : Prop :=
  state.timerFd = none ∧ state.inEpoll = false

instance (state : TimerService) : Decidable state.Disarmed :=
  inferInstanceAs (Decidable (_ ∧ _))

/-- Nothing is stored once the message is processed: it removes the only stored
timer if there is one, or it is an expire message and every stored timer but the
top has whole seconds due. -/
def LeavesEmpty (state : TimerService) : LocMsg → Prop
  | .timerPush _ => False
  | .timerRemove mTimer => state.heap.elements ≤ {mTimer}
  | .timerExpire =>
      ∀ timer ∈ state.heap.pop.1.elements, timer.mFutureTime.tv_sec ≤ state.now.tv_sec

/-- What the header comment of `updateSoonestTime` promises of one step: a
message processed while no expire is in progress disarms the container if it
leaves the heap empty. -/
def DisarmsWhenEmpty (state : TimerService) (label : Label) : Prop :=
  label = .proc → ¬ state.ExpireInProgress → ∀ next, state.step .proc = some next →
    next.heap = LocHeap.empty → next.Disarmed

/-- The message that leaves the heap empty finds the container disarmed. -/
def EmptiedDisarmed (state : TimerService) (label : Label) : Prop :=
  label = .proc → ¬ state.ExpireInProgress → ∀ msg, state.msgQ.head? = some msg →
    state.LeavesEmpty msg → state.Disarmed

/-! ## What is left in the heap -/

theorem expireTimer_extends (state : TimerService) (timer : LocTimerDelegate) :
    (state.expireTimer timer).Extends state := by
  unfold expireTimer
  cases state.mClient timer with
  | none => exact ⟨rfl, rfl, rfl, rfl, fun _ hmsg => hmsg⟩
  | some client =>
      have hext := state.stop_extends client
      dsimp only
      split
      · rename_i hstop
        rwa [hstop] at hext
      · rename_i hstop
        rw [hstop] at hext
        exact ⟨hext.heap, hext.timerFd, hext.inEpoll, hext.pollTask, hext.msgQ⟩

/-- The loop leaves the timers of later seconds and does not touch the kernel
objects. -/
theorem expireLoop_leaves {rounds : Nat} {popped : Option LocTimerDelegate}
    {state : TimerService} (now : BootTime) (hvalid : state.heap.mTree.Valid)
    (hrounds : state.heap.mTree.count < rounds) (hpopped : popped ≠ none) :
    (expireLoop ⟨0, now⟩ rounds popped state).heap.elements =
        state.heap.elements.filter (fun timer => now.tv_sec < timer.mFutureTime.tv_sec) ∧
      (expireLoop ⟨0, now⟩ rounds popped state).timerFd = state.timerFd ∧
      (expireLoop ⟨0, now⟩ rounds popped state).inEpoll = state.inEpoll := by
  induction rounds generalizing popped state with
  | zero => exact absurd hrounds (Nat.not_lt_zero _)
  | succ rounds ih =>
      obtain ⟨timer, rfl⟩ := Option.ne_none_iff_exists'.mp hpopped
      have hext := state.expireTimer_extends timer
      rw [expireLoop, hext.heap]
      rcases popIfOutRanks_cases hvalid now with ⟨hpop, hlater⟩ | ⟨top, hpeek, hpop, hdue⟩
      · rw [hpop]
        dsimp only
        rw [expireLoop_none]
        exact ⟨(Multiset.filter_eq_self.mpr hlater).symm, hext.timerFd, hext.inEpoll⟩
      · have hless : state.heap.pop.1.mTree.count < rounds := by
          exact Nat.lt_of_lt_of_le (LocHeap.count_pop hpeek) (Nat.le_of_lt_succ hrounds)
        have hkeep := @ih (some top) { state.expireTimer timer with heap := state.heap.pop.1 }
          (hvalid.pop seconds_rank) hless (Option.some_ne_none top)
        have hdropped : state.heap.elements.filter
            (fun timer => now.tv_sec < timer.mFutureTime.tv_sec) =
            state.heap.pop.1.elements.filter
              (fun timer => now.tv_sec < timer.mFutureTime.tv_sec) := by
          rw [LocHeap.elements_of_peek hpeek]
          exact Multiset.filter_cons_of_neg _ (Int.not_lt.mpr hdue)
        rw [hpop, hdropped]
        exact ⟨hkeep.1, hkeep.2.1.trans hext.timerFd, hkeep.2.2.trans hext.inEpoll⟩

/-! ## One message -/

/-- Told of no previous top, the update takes an empty heap for unchanged. -/
theorem updateSoonestTime_of_empty {state : TimerService} (h : state.heap = LocHeap.empty) :
    state.updateSoonestTime none = state := by
  rw [updateSoonestTime, h]
  rfl

theorem timerPush_leaves (state : TimerService) (mTimer : LocTimerDelegate) :
    (state.timerPush mTimer).heap ≠ LocHeap.empty := by
  rw [timerPush, updateSoonestTime_heap, Ne, LocHeap.eq_empty_iff, LocHeap.elements_push]
  exact Multiset.cons_ne_zero

theorem Coherent.timerRemove_leaves {state : TimerService} (h : state.Coherent)
    (mTimer : LocTimerDelegate) :
    ((state.timerRemove mTimer).heap = LocHeap.empty ↔ state.heap.elements ≤ {mTimer}) ∧
      ((state.timerRemove mTimer).heap = LocHeap.empty →
        ((state.timerRemove mTimer).Disarmed ↔ state.Disarmed)) := by
  have hheap : (state.timerRemove mTimer).heap = (state.heap.remove mTimer).1 := by
    unfold TimerService.timerRemove
    dsimp only
    split
    · exact updateSoonestTime_heap _ _
    · rfl
  rw [hheap]
  constructor
  · rw [LocHeap.eq_empty_iff, LocHeap.elements_remove h.valid, ← Multiset.le_zero,
      Multiset.erase_le_iff_le_cons]
    rfl
  · intro hempty
    unfold TimerService.timerRemove
    dsimp only
    rw [updateSoonestTime_of_empty hempty]
    split <;> rfl

theorem Coherent.timerExpire_leaves {state : TimerService} (h : state.Coherent) :
    (state.timerExpire.heap = LocHeap.empty ↔ state.LeavesEmpty .timerExpire) ∧
      (state.timerExpire.heap = LocHeap.empty →
        (state.timerExpire.Disarmed ↔ state.Disarmed)) := by
  unfold TimerService.timerExpire
  dsimp only
  rw [updateSoonestTime_heap]
  cases hpeek : state.heap.peek with
  | none =>
      have hempty := LocHeap.peek_eq_none.mp hpeek
      have hpop : state.heap.pop = (LocHeap.empty, none) := by rw [hempty]; rfl
      have hsame : { state with heap := (LocHeap.empty : LocHeap LocTimerDelegate) }.heap =
          LocHeap.empty := rfl
      rw [hpop]
      dsimp only
      rw [expireLoop_none, updateSoonestTime_of_empty hsame]
      simp only [LeavesEmpty, hpop, LocHeap.eq_empty_iff.mp rfl, Multiset.notMem_zero]
      exact ⟨by simp, fun _ => Iff.rfl⟩
  | some top =>
      rw [LocHeap.pop_eq hpeek]
      dsimp only
      obtain ⟨hkept, htimerFd, hinEpoll⟩ :=
        @expireLoop_leaves state.heap.mTree.count (some top)
          { state with heap := state.heap.pop.1 } state.now (h.valid.pop seconds_rank)
          (LocHeap.count_pop hpeek) (Option.some_ne_none top)
      constructor
      · rw [LocHeap.eq_empty_iff, hkept, Multiset.filter_eq_nil]
        simp only [LeavesEmpty, Int.not_lt]
      · intro hempty
        rw [updateSoonestTime_of_empty hempty, Disarmed, htimerFd, hinEpoll]
        rfl

/-- A message that leaves the heap empty leaves the kernel objects alone. -/
theorem Coherent.proc_leaves {state : TimerService} (h : state.Coherent) (msg : LocMsg) :
    ((state.proc msg).heap = LocHeap.empty ↔ state.LeavesEmpty msg) ∧
      ((state.proc msg).heap = LocHeap.empty →
        ((state.proc msg).Disarmed ↔ state.Disarmed)) := by
  cases msg with
  | timerPush mTimer =>
      have hstored := state.timerPush_leaves mTimer
      exact ⟨⟨hstored, False.elim⟩, fun hempty => absurd hempty hstored⟩
  | timerRemove mTimer => exact h.timerRemove_leaves mTimer
  | timerExpire => exact h.timerExpire_leaves

theorem Coherent.disarmsWhenEmpty_iff {state : TimerService} (h : state.Coherent)
    (label : Label) : state.DisarmsWhenEmpty label ↔ state.EmptiedDisarmed label := by
  refine forall_congr' fun _ => forall_congr' fun _ => ?_
  cases hq : state.msgQ with
  | nil => simp [TimerService.step, hq]
  | cons msg msgQ =>
      have hdequeued : { state with msgQ }.Coherent := ⟨h.valid, h.linked⟩
      obtain ⟨hempty, hsame⟩ := hdequeued.proc_leaves msg
      have hleaves : { state with msgQ }.LeavesEmpty msg ↔ state.LeavesEmpty msg := by
        cases msg <;> rfl
      have hdisarmed : { state with msgQ }.Disarmed ↔ state.Disarmed := Iff.rfl
      simp only [TimerService.step, hq, Option.some.injEq, forall_eq', List.head?_cons]
      rw [← hleaves, ← hempty, ← hdisarmed]
      exact forall_congr' hsame

/-! ## Runs -/

/-- A run disarms the container whenever a message leaves the heap empty exactly
if each such message finds it disarmed already. -/
theorem disarmed_when_empty_iff (now : BootTime) (labels : List Label) :
    Along step DisarmsWhenEmpty (init now) labels ↔
      Along step EmptiedDisarmed (init now) labels :=
  along_congr (fun _ _ _ h _ hstep => (h.step hstep).1)
    (fun _ label h => h.disarmsWhenEmpty_iff label) (init_coherent now) labels

/-- The only timer is stopped and its removal processed. The timerfd stays
programmed and in the epoll set. -/
theorem emptied_left_armed :
    ¬ ∀ (now : BootTime) (labels : List Label),
      Along step DisarmsWhenEmpty (init now) labels := by
  intro hall
  have hany : (exec step (init (.atSecond 0)) [.start 0 1000, .proc, .stop 0]).any
      (fun state => decide (state.pollTask = .waiting) && (state.step .proc).any fun next =>
        decide (next.heap = LocHeap.empty) && !decide next.Disarmed) = true := by decide
  obtain ⟨state, hrun, hstate⟩ := (Option.any_eq_true _ _).mp hany
  obtain ⟨hwaiting, hproc⟩ := Bool.and_eq_true_iff.mp hstate
  obtain ⟨next, hnext, hleft⟩ := (Option.any_eq_true _ _).mp hproc
  obtain ⟨hempty, harmed⟩ := Bool.and_eq_true_iff.mp hleft
  have hidle : ¬ state.ExpireInProgress := by
    simp [ExpireInProgress, of_decide_eq_true hwaiting]
  have hlast := (hall _ ([.start 0 1000, .proc, .stop 0] ++ [.proc])).of_append hrun
  have hdisarmed := hlast.1 rfl hidle next hnext (of_decide_eq_true hempty)
  simp [hdisarmed] at harmed

end Msm8916.Timer.TimerService
