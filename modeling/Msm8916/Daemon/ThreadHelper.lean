import Msm8916.Lib.Transition

/-!
`loc_eng_dmn_conn_thread_helper.c`: one thread launches `thelper_main` and waits until
the new thread is ready, and any thread may unblock it meanwhile. A step is one statement
on what the threads share: the two flags, the mutex and the condition variable.
-/

namespace Msm8916.Daemon.ThreadHelper

open Transition

/-- Which procedures are given to `loc_eng_dmn_conn_launch_thelper`, that is, are not
`NULL`. Without `create_thread_cb` the thread is made by `pthread_create`. -/
structure Procs where
  threadProcInit : Bool
  threadProcPre : Bool
  threadProc : Bool
  threadProcPost : Bool
  createThreadCb : Bool
deriving DecidableEq, Repr

/-- A procedure that the thread has called, with what it returned. -/
inductive Call where
  | init (result : Int)
  | pre (result : Int)
  | proc (result : Int)
  | post (result : Int)
deriving DecidableEq, Repr

/-- Where the launching thread is in `loc_eng_dmn_conn_launch_thelper` and in
`thelper_signal_wait`. -/
inductive LaunchPoint where
  | signalInit
  | create
  | lock
  | test
  /-- In `pthread_cond_wait`, without the mutex. -/
  | waiting
  /-- Woken up, and the mutex is to be taken again. -/
  | relock
  | testExit
  | readExit
  | launched (result : Int)
  /-- `loc_eng_dmn_conn_join_thelper` has returned. -/
  | joined
deriving DecidableEq, Repr

/-- Where the new thread is in `thelper_main`. The four points of `thelper_signal_ready`
say whether it is called because `thread_proc_init` has failed. -/
inductive ChildPoint where
  | absent
  | init
  | initFailed
  | readyLock (failed : Bool)
  | setReady (failed : Bool)
  | signal (failed : Bool)
  | readyUnlock (failed : Bool)
  | pre
  | preFailed
  | proc
  /-- Inside `thread_proc`. -/
  | inProc
  | procFailed
  | loopTest
  | post
  | finished
deriving DecidableEq, Repr

inductive Side where
  | launcher
  | child
deriving DecidableEq, Repr

/-- `struct loc_eng_dmn_conn_thelper`, where the two threads are, what the new one has
called, and how many calls of `thread_proc` it has begun with `thread_exit` set. -/
structure Thelper where
  thread_exit : Bool
  thread_ready : Bool
  thread_mutex : Option Side
  launcher : LaunchPoint
  child : ChildPoint
  calls : List Call
  begunAfterExit : Nat
deriving DecidableEq, Repr

/-- Before the launch: the flags hold anything. -/
def Thelper.unlaunched (thread_exit thread_ready : Bool) : Thelper where
  thread_exit := thread_exit
  thread_ready := thread_ready
  thread_mutex := none
  launcher := .signalInit
  child := .absent
  calls := []
  begunAfterExit := 0

/-- What happens next. -/
inductive Event where
  /-- The launching thread goes on; `created` tells whether a thread can be made. -/
  | launcher (created : Bool)
  /-- The condition variable wakes the launching thread up without a signal. -/
  | spuriousWakeup
  /-- The new thread goes on; `result` is what the procedure called there returns. -/
  | child (result : Int)
  /-- `loc_eng_dmn_conn_unblock_thelper`. -/
  | unblock
  | join
deriving DecidableEq, Repr

/-- `loc_eng_dmn_conn_launch_thelper` and `thelper_signal_wait`. -/
def Thelper.launcherStep (procs : Procs) (thelper : Thelper) (created : Bool) :
    Option Thelper :=
  match thelper.launcher with
  | .signalInit =>
      some { thelper with thread_exit := false, thread_ready := false, launcher := .create }
  | .create =>
      if created then some { thelper with child := .init, launcher := .lock }
      -- `create_thread_cb` has no result that could say so
      else if procs.createThreadCb then some { thelper with launcher := .lock }
      else some { thelper with launcher := .launched (-1) }
  | .lock =>
      if thelper.thread_mutex = none then
        some { thelper with thread_mutex := some .launcher, launcher := .test }
      else none
  | .test =>
      if !thelper.thread_ready && !thelper.thread_exit then
        some { thelper with thread_mutex := none, launcher := .waiting }
      else some { thelper with launcher := .testExit }
  | .waiting => none
  | .relock =>
      if thelper.thread_mutex = none then
        some { thelper with thread_mutex := some .launcher, launcher := .testExit }
      else none
  -- `thelper_signal_wait` returns -1 if the flag is set, which its caller ignores
  | .testExit => some { thelper with thread_mutex := none, launcher := .readExit }
  | .readExit =>
      some { thelper with launcher := .launched (if thelper.thread_exit then 1 else 0) }
  | .launched _ | .joined => none

/-- `thelper_main` and `thelper_signal_ready`. -/
def Thelper.childStep (procs : Procs) (thelper : Thelper) (result : Int) : Option Thelper :=
  match thelper.child with
  | .absent => none
  | .init =>
      if procs.threadProcInit then
        some { thelper with
          calls := thelper.calls ++ [.init result]
          child := if result < 0 then .initFailed else .readyLock false }
      else some { thelper with child := .readyLock false }
  | .initFailed => some { thelper with thread_exit := true, child := .readyLock true }
  | .readyLock failed =>
      if thelper.thread_mutex = none then
        some { thelper with thread_mutex := some .child, child := .setReady failed }
      else none
  | .setReady failed => some { thelper with thread_ready := true, child := .signal failed }
  | .signal failed =>
      some { thelper with
        launcher := if thelper.launcher = .waiting then .relock else thelper.launcher
        child := .readyUnlock failed }
  | .readyUnlock failed =>
      some { thelper with
        thread_mutex := none
        child := if failed then .finished else .pre }
  | .pre =>
      if procs.threadProcPre then
        some { thelper with
          calls := thelper.calls ++ [.pre result]
          child := if result < 0 then .preFailed else .proc }
      else some { thelper with child := .proc }
  | .preFailed => some { thelper with thread_exit := true, child := .finished }
  | .proc =>
      if procs.threadProc then
        some { thelper with
          begunAfterExit := thelper.begunAfterExit + if thelper.thread_exit then 1 else 0
          child := .inProc }
      else some { thelper with child := .loopTest }
  | .inProc =>
      some { thelper with
        calls := thelper.calls ++ [.proc result]
        child := if result < 0 then .procFailed else .loopTest }
  | .procFailed => some { thelper with thread_exit := true, child := .loopTest }
  | .loopTest => some { thelper with child := if thelper.thread_exit then .post else .proc }
  | .post =>
      if procs.threadProcPost then
        some { thelper with calls := thelper.calls ++ [.post result], child := .finished }
      else some { thelper with child := .finished }
  | .finished => none

/-- One step. `pthread_join` returns once the thread has finished; without a thread it does
not. -/
def step (procs : Procs) (thelper : Thelper) : Event → Option Thelper
  | .launcher created => thelper.launcherStep procs created
  | .spuriousWakeup =>
      if thelper.launcher = .waiting then some { thelper with launcher := .relock } else none
  | .child result => thelper.childStep procs result
  | .unblock => some { thelper with thread_exit := true }
  | .join =>
      match thelper.launcher with
      | .launched _ =>
          if thelper.child = .finished then some { thelper with launcher := .joined } else none
      | _ => none

/-- Some run leads here, from a helper with arbitrary flags. -/
def Reached (procs : Procs) (thelper : Thelper) : Prop :=
  ∃ thread_exit thread_ready,
    Reachable (step procs) (Thelper.unlaunched thread_exit thread_ready) thelper

/-! ## The handshake -/

def LaunchPoint.holdsMutex : LaunchPoint → Bool
  | .test | .testExit => true
  | _ => false

/-- How far the new thread is with `thelper_signal_ready`. -/
inductive Phase where
  | absent
  | starting
  | setting
  | signalling
  | unlocking
  | running
deriving DecidableEq, Repr

def ChildPoint.phase : ChildPoint → Phase
  | .absent => .absent
  | .init | .initFailed | .readyLock _ => .starting
  | .setReady _ => .setting
  | .signal _ => .signalling
  | .readyUnlock _ => .unlocking
  | .pre | .preFailed | .proc | .inProc | .procFailed | .loopTest | .post | .finished => .running

def Phase.holdsMutex : Phase → Bool
  | .setting | .signalling | .unlocking => true
  | _ => false

def Phase.isReady : Phase → Bool
  | .signalling | .unlocking | .running => true
  | _ => false

/-- `thread_cond` is still to be signalled. -/
def Phase.unsignalled : Phase → Bool
  | .starting | .setting | .signalling => true
  | _ => false

/-- What a step of the new thread does to the mutex, to `thread_ready` and to the
launching thread. -/
theorem childStep_handshake {procs : Procs} {thelper next : Thelper} {result : Int}
    (h : thelper.childStep procs result = some next) :
    (next.thread_mutex = thelper.thread_mutex ∧ next.thread_ready = thelper.thread_ready ∧
      next.launcher = thelper.launcher ∧ next.child.phase = thelper.child.phase ∧
      (thelper.child.phase = .starting ∨ thelper.child.phase = .running)) ∨
    (thelper.thread_mutex = none ∧ thelper.child.phase = .starting ∧
      next.thread_mutex = some .child ∧ next.thread_ready = thelper.thread_ready ∧
      next.launcher = thelper.launcher ∧ next.child.phase = .setting) ∨
    (thelper.child.phase = .setting ∧ next.thread_mutex = thelper.thread_mutex ∧
      next.thread_ready = true ∧ next.launcher = thelper.launcher ∧
      next.child.phase = .signalling) ∨
    (thelper.child.phase = .signalling ∧ next.thread_mutex = thelper.thread_mutex ∧
      next.thread_ready = thelper.thread_ready ∧
      next.launcher = (if thelper.launcher = .waiting then .relock else thelper.launcher) ∧
      next.child.phase = .unlocking) ∨
    (thelper.child.phase = .unlocking ∧ next.thread_mutex = none ∧
      next.thread_ready = thelper.thread_ready ∧ next.launcher = thelper.launcher ∧
      next.child.phase = .running) := by
  cases hpoint : thelper.child <;> simp only [Thelper.childStep, hpoint] at h
  case absent | finished => cases h
  case readyLock failed =>
      obtain ⟨hfree, h⟩ := Option.ite_none_right_eq_some.mp h
      obtain rfl := Option.some.inj h
      exact .inr (.inl ⟨hfree, rfl, rfl, rfl, rfl, rfl⟩)
  case setReady failed =>
      obtain rfl := Option.some.inj h
      exact .inr (.inr (.inl ⟨rfl, rfl, rfl, rfl, rfl⟩))
  case signal failed =>
      obtain rfl := Option.some.inj h
      exact .inr (.inr (.inr (.inl ⟨rfl, rfl, rfl, rfl, rfl⟩)))
  case readyUnlock failed =>
      obtain rfl := Option.some.inj h
      refine .inr (.inr (.inr (.inr ⟨rfl, rfl, rfl, rfl, ?_⟩)))
      cases failed <;> rfl
  case init =>
      left
      split at h <;> obtain rfl := Option.some.inj h
      · refine ⟨rfl, rfl, rfl, ?_, .inl rfl⟩
        dsimp only
        split <;> rfl
      · exact ⟨rfl, rfl, rfl, rfl, .inl rfl⟩
  case initFailed =>
      obtain rfl := Option.some.inj h
      exact .inl ⟨rfl, rfl, rfl, rfl, .inl rfl⟩
  case preFailed | procFailed =>
      obtain rfl := Option.some.inj h
      exact .inl ⟨rfl, rfl, rfl, rfl, .inr rfl⟩
  case inProc | loopTest =>
      obtain rfl := Option.some.inj h
      refine .inl ⟨rfl, rfl, rfl, ?_, .inr rfl⟩
      dsimp only
      split <;> rfl
  case pre | proc | post =>
      left
      split at h <;> obtain rfl := Option.some.inj h
      · refine ⟨rfl, rfl, rfl, ?_, .inr rfl⟩
        first | rfl | (dsimp only; split <;> rfl)
      · exact ⟨rfl, rfl, rfl, rfl, .inr rfl⟩

/-- A thread that has made a step is there. -/
theorem childStep_started {procs : Procs} {thelper next : Thelper} {result : Int}
    (h : thelper.childStep procs result = some next) :
    next.child.phase ≠ .absent ∧ next.child ≠ .init := by
  cases hpoint : thelper.child <;> simp only [Thelper.childStep, hpoint] at h
  case absent | finished => cases h
  case readyLock =>
      obtain ⟨-, h⟩ := Option.ite_none_right_eq_some.mp h
      obtain rfl := Option.some.inj h
      exact ⟨by simp [ChildPoint.phase], by simp⟩
  case readyUnlock failed =>
      obtain rfl := Option.some.inj h
      cases failed <;> exact ⟨by simp [ChildPoint.phase], by simp⟩
  case inProc | loopTest =>
      obtain rfl := Option.some.inj h
      dsimp only
      split <;> exact ⟨by simp [ChildPoint.phase], by simp⟩
  case init | pre =>
      split at h <;> obtain rfl := Option.some.inj h
      · dsimp only
        split <;> exact ⟨by simp [ChildPoint.phase], by simp⟩
      · exact ⟨by simp [ChildPoint.phase], by simp⟩
  case proc | post =>
      split at h <;> obtain rfl := Option.some.inj h <;>
        exact ⟨by simp [ChildPoint.phase], by simp⟩
  all_goals
    obtain rfl := Option.some.inj h
    exact ⟨by simp [ChildPoint.phase], by simp⟩

/-- What the mutex and `thread_ready` say about the two threads. -/
structure Synchronized (procs : Procs) (thelper : Thelper) : Prop where
  launcher_mutex : thelper.thread_mutex = some .launcher ↔ thelper.launcher.holdsMutex
  child_mutex : thelper.thread_mutex = some .child ↔ thelper.child.phase.holdsMutex
  ready : thelper.launcher ≠ .signalInit → thelper.thread_ready = thelper.child.phase.isReady
  waiting : thelper.launcher = .waiting →
    thelper.child.phase.unsignalled ∨ thelper.child.phase = .absent
  unmade : thelper.launcher = .signalInit ∨ thelper.launcher = .create ∨
    thelper.launcher = .launched (-1) → thelper.child.phase = .absent
  unnoticed : thelper.child.phase = .absent → procs.createThreadCb = false →
    thelper.launcher = .signalInit ∨ thelper.launcher = .create ∨
      thelper.launcher = .launched (-1)
  refused : thelper.launcher = .launched (-1) → procs.createThreadCb = false

theorem synchronized_unlaunched (procs : Procs) (thread_exit thread_ready : Bool) :
    Synchronized procs (Thelper.unlaunched thread_exit thread_ready) := by
  constructor <;> simp [Thelper.unlaunched, LaunchPoint.holdsMutex, ChildPoint.phase,
    Phase.holdsMutex]

/-- A launching thread that takes the mutex back, or has given it back, does not wait. -/
theorem Synchronized.childStep {procs : Procs} {thelper next : Thelper} {result : Int}
    (h : Synchronized procs thelper) (hstep : thelper.childStep procs result = some next) :
    Synchronized procs next := by
  obtain ⟨hlauncher, hchild, hready, hwaiting, hunmade, hunnoticed, hrefused⟩ := h
  rcases childStep_handshake hstep with ⟨hm, hr, hl, hp, -⟩ | ⟨hfree, hfrom, hm, hr, hl, hp⟩ |
    ⟨hfrom, hm, hr, hl, hp⟩ | ⟨hfrom, hm, hr, hl, hp⟩ | ⟨hfrom, hm, hr, hl, hp⟩
  · constructor <;> simp only [hm, hr, hl, hp] <;> assumption
  · constructor <;> simp_all [Phase.holdsMutex, Phase.isReady, Phase.unsignalled]
  · constructor <;> simp_all [Phase.holdsMutex, Phase.isReady, Phase.unsignalled]
  · by_cases hwoken : thelper.launcher = .waiting
    · constructor <;> simp_all [Phase.holdsMutex, Phase.isReady, LaunchPoint.holdsMutex]
    · constructor <;> simp_all [Phase.holdsMutex, Phase.isReady]
  · constructor <;> simp_all [Phase.holdsMutex, Phase.isReady, Phase.unsignalled]

theorem Synchronized.launcherStep {procs : Procs} {thelper next : Thelper} {created : Bool}
    (h : Synchronized procs thelper) (hstep : thelper.launcherStep procs created = some next) :
    Synchronized procs next := by
  obtain ⟨hlauncher, hchild, hready, hwaiting, hunmade, hunnoticed, hrefused⟩ := h
  cases hpoint : thelper.launcher <;> simp only [Thelper.launcherStep, hpoint] at hstep
  case waiting | launched | joined => cases hstep
  case signalInit =>
      obtain rfl := Option.some.inj hstep
      have hphase : thelper.child.phase = .absent := hunmade (.inl hpoint)
      constructor <;> simp_all [LaunchPoint.holdsMutex, Phase.isReady]
  case create =>
      have hphase : thelper.child.phase = .absent := hunmade (.inr (.inl hpoint))
      split at hstep
      · obtain rfl := Option.some.inj hstep
        constructor <;>
          simp_all [LaunchPoint.holdsMutex, Phase.holdsMutex, Phase.isReady, ChildPoint.phase]
      · split at hstep <;> obtain rfl := Option.some.inj hstep <;> constructor <;>
          simp_all [LaunchPoint.holdsMutex]
  case lock | relock =>
      obtain ⟨hfree, hstep⟩ := Option.ite_none_right_eq_some.mp hstep
      obtain rfl := Option.some.inj hstep
      constructor <;> simp_all [LaunchPoint.holdsMutex]
  case test =>
      split at hstep <;> obtain rfl := Option.some.inj hstep
      · next hflags =>
        -- the mutex is the launching thread's, so the flag is not about to be set
        have hstarting : thelper.child.phase.unsignalled ∨ thelper.child.phase = .absent := by
          cases hphase : thelper.child.phase <;>
            simp_all [LaunchPoint.holdsMutex, Phase.holdsMutex, Phase.isReady, Phase.unsignalled]
        constructor <;> simp_all [LaunchPoint.holdsMutex]
      · constructor <;> simp_all [LaunchPoint.holdsMutex]
  case testExit =>
      obtain rfl := Option.some.inj hstep
      constructor <;> simp_all [LaunchPoint.holdsMutex]
  case readExit =>
      obtain rfl := Option.some.inj hstep
      have hanswer : (if thelper.thread_exit = true then (1 : Int) else 0) ≠ -1 := by
        split <;> decide
      constructor <;> simp_all [LaunchPoint.holdsMutex]

theorem join_cases {procs : Procs} {thelper next : Thelper}
    (h : step procs thelper .join = some next) :
    (∃ result, thelper.launcher = .launched result) ∧ thelper.child = .finished ∧
      next = { thelper with launcher := .joined } := by
  simp only [ThreadHelper.step] at h
  split at h
  · next result hpoint =>
    obtain ⟨hfinished, h⟩ := Option.ite_none_right_eq_some.mp h
    exact ⟨⟨result, hpoint⟩, hfinished, (Option.some.inj h).symm⟩
  · cases h

theorem Synchronized.next {procs : Procs} {thelper next : Thelper} {event : Event}
    (h : Synchronized procs thelper) (hstep : step procs thelper event = some next) :
    Synchronized procs next := by
  cases event with
  | launcher created => exact h.launcherStep hstep
  | child result => exact h.childStep hstep
  | spuriousWakeup =>
      obtain ⟨hpoint, hstep⟩ := Option.ite_none_right_eq_some.mp hstep
      obtain rfl := Option.some.inj hstep
      obtain ⟨hlauncher, hchild, hready, hwaiting, hunmade, hunnoticed, hrefused⟩ := h
      constructor <;> simp_all [LaunchPoint.holdsMutex]
  | unblock =>
      obtain rfl := Option.some.inj hstep
      exact ⟨h.launcher_mutex, h.child_mutex, h.ready, h.waiting, h.unmade, h.unnoticed, h.refused⟩
  | join =>
      obtain ⟨⟨r, hpoint⟩, hfinished, hstep⟩ := join_cases hstep
      obtain rfl := hstep
      obtain ⟨hlauncher, hchild, hready, hwaiting, hunmade, hunnoticed, hrefused⟩ := h
      constructor <;> simp_all [LaunchPoint.holdsMutex, ChildPoint.phase]

theorem Reached.synchronized {procs : Procs} {thelper : Thelper} (h : Reached procs thelper) :
    Synchronized procs thelper := by
  obtain ⟨thread_exit, thread_ready, hreach⟩ := h
  exact invariant_of_step (fun _ _ _ hkept hstep => Synchronized.next hkept hstep)
    (synchronized_unlaunched procs thread_exit thread_ready) hreach

/-! ## No lost wake-up -/

/-- The steps of the new thread until the mutex is free and the condition signalled. -/
def ChildPoint.stepsToReady : ChildPoint → Nat
  | .init => 6
  | .initFailed => 5
  | .readyLock _ => 4
  | .setReady _ => 3
  | .signal _ => 2
  | .readyUnlock _ => 1
  | _ => 0

/-- The launching thread has a next step, if a thread can be made. -/
def Thelper.LauncherReady (procs : Procs) (thelper : Thelper) : Prop :=
  (thelper.launcherStep procs true).isSome

/-- It waits for the signal of a thread, or the new thread has the mutex that it wants. -/
def Thelper.Blocked (thelper : Thelper) : Prop :=
  thelper.launcher = .waiting ∧ thelper.child ≠ .absent ∨
    (thelper.launcher = .lock ∨ thelper.launcher = .relock) ∧ thelper.child.phase.holdsMutex

/-- It waits for the signal of a thread that was never made. -/
def Thelper.Stranded (thelper : Thelper) : Prop :=
  thelper.launcher = .waiting ∧ thelper.child = .absent

theorem phase_eq_absent {point : ChildPoint} : point.phase = .absent ↔ point = .absent := by
  cases point <;> simp [ChildPoint.phase]

theorem Synchronized.blocked_or_ready {procs : Procs} {thelper : Thelper}
    (h : Synchronized procs thelper) (hlaunched : ∀ result, thelper.launcher ≠ .launched result)
    (hjoined : thelper.launcher ≠ .joined) (hstranded : ¬ thelper.Stranded) :
    thelper.Blocked ∨ thelper.LauncherReady procs := by
  cases hpoint : thelper.launcher <;>
    simp only [Thelper.Blocked, Thelper.LauncherReady, Thelper.launcherStep, hpoint]
  case launched result => exact absurd hpoint (hlaunched result)
  case joined => exact absurd hpoint hjoined
  case waiting => exact .inl (.inl ⟨trivial, fun habsent => hstranded ⟨hpoint, habsent⟩⟩)
  case lock | relock =>
      have hlauncher := h.launcher_mutex
      have hchild := h.child_mutex
      rcases hmutex : thelper.thread_mutex with - | side
      · simp
      · cases side <;> simp_all [LaunchPoint.holdsMutex]
  case test => split <;> simp
  all_goals simp

/-- While the launching thread is blocked, the new thread can go on, whatever is returned to
it, and comes nearer to the point where the launching thread is not. -/
theorem Synchronized.blocked_step {procs : Procs} {thelper : Thelper}
    (h : Synchronized procs thelper) (hblocked : thelper.Blocked) (result : Int) :
    ∃ next, step procs thelper (.child result) = some next ∧
      next.child.stepsToReady < thelper.child.stepsToReady ∧
      (next.Blocked ∨ next.LauncherReady procs) := by
  have hchild := h.child_mutex
  have hlauncher := h.launcher_mutex
  have hnext : ∀ next, step procs thelper (.child result) = some next →
      next.Blocked ∨ next.LauncherReady procs := by
    intro next hstep
    have hpoint : next.launcher = thelper.launcher ∨ next.launcher = .relock := by
      rcases childStep_handshake hstep with ⟨-, -, hl, -⟩ | ⟨-, -, -, -, hl, -⟩ |
        ⟨-, -, -, hl, -⟩ | ⟨-, -, -, hl, -⟩ | ⟨-, -, -, hl, -⟩
      case inr.inr.inr.inl => rw [hl]; split <;> simp
      all_goals exact .inl hl
    apply (h.next hstep).blocked_or_ready
    · intro r heq
      rcases hblocked with ⟨hl, -⟩ | ⟨hl | hl, -⟩ <;> simp_all
    · rcases hblocked with ⟨hl, -⟩ | ⟨hl | hl, -⟩ <;> intro heq <;> simp_all
    · rintro ⟨-, habsent⟩
      have hthere := (childStep_started hstep).1
      exact hthere (phase_eq_absent.mpr habsent)
  have hunready : thelper.child.phase.unsignalled ∨ thelper.child.phase.holdsMutex := by
    rcases hblocked with ⟨hwaiting, hthere⟩ | ⟨-, hheld⟩
    · exact .inl ((h.waiting hwaiting).resolve_right fun habsent =>
        hthere (phase_eq_absent.mp habsent))
    · exact .inr hheld
  suffices hgo : ∃ next, step procs thelper (.child result) = some next ∧
      next.child.stepsToReady < thelper.child.stepsToReady by
    obtain ⟨next, hstep, hnearer⟩ := hgo
    exact ⟨next, hstep, hnearer, hnext next hstep⟩
  cases hpoint : thelper.child <;> simp only [step, Thelper.childStep, hpoint]
  case init =>
      split
      · refine ⟨_, rfl, ?_⟩
        dsimp only
        split <;> simp [ChildPoint.stepsToReady]
      · exact ⟨_, rfl, by simp [ChildPoint.stepsToReady]⟩
  case readyLock failed =>
      have hfree : thelper.thread_mutex = none := by
        rcases hblocked with ⟨hwaiting, -⟩ | ⟨-, hheld⟩
        · rcases hmutex : thelper.thread_mutex with - | side
          · rfl
          · cases side <;> simp_all [LaunchPoint.holdsMutex, ChildPoint.phase, Phase.holdsMutex]
        · simp [hpoint, ChildPoint.phase, Phase.holdsMutex] at hheld
      rw [if_pos hfree]
      exact ⟨_, rfl, by simp [ChildPoint.stepsToReady]⟩
  case readyUnlock failed =>
      refine ⟨_, rfl, ?_⟩
      cases failed <;> simp [ChildPoint.stepsToReady]
  case initFailed | setReady | signal => exact ⟨_, rfl, by simp [ChildPoint.stepsToReady]⟩
  all_goals simp [hpoint, ChildPoint.phase, Phase.unsignalled, Phase.holdsMutex] at hunready

theorem Synchronized.released {procs : Procs} {thelper : Thelper}
    (h : Synchronized procs thelper) (hblocked : thelper.Blocked) (results : List Int)
    (hlength : thelper.child.stepsToReady ≤ results.length) :
    ∃ n ≤ thelper.child.stepsToReady, ∃ next,
      exec (step procs) thelper ((results.take n).map .child) = some next ∧
        next.LauncherReady procs := by
  induction results generalizing thelper with
  | nil =>
      obtain ⟨next, -, hnearer, -⟩ := h.blocked_step hblocked 0
      simp only [List.length_nil] at hlength
      omega
  | cons result results ih =>
      obtain ⟨next, hstep, hnearer, hafter⟩ := h.blocked_step hblocked result
      rcases hafter with hstill | hready
      · obtain ⟨n, hn, last, hrun, hlast⟩ := ih (h.next hstep) hstill (by
          simp only [List.length_cons] at hlength
          omega)
        refine ⟨n + 1, by omega, last, ?_, hlast⟩
        rw [List.take_succ_cons, List.map_cons, exec_cons, hstep]
        exact hrun
      · refine ⟨1, by omega, next, ?_, hready⟩
        simp [exec, hstep]

/-- Nothing but a wake-up without a signal ends the wait for a thread that was never made. -/
theorem Thelper.Stranded.next {procs : Procs} {thelper next : Thelper} {event : Event}
    (h : thelper.Stranded) (hevent : event ≠ .spuriousWakeup)
    (hstep : step procs thelper event = some next) : next.Stranded := by
  obtain ⟨hpoint, hchild⟩ := h
  cases event with
  | launcher created => simp [ThreadHelper.step, Thelper.launcherStep, hpoint] at hstep
  | child result => simp [ThreadHelper.step, Thelper.childStep, hchild] at hstep
  | spuriousWakeup => exact absurd rfl hevent
  | unblock =>
      obtain rfl := Option.some.inj hstep
      exact ⟨hpoint, hchild⟩
  | join => simp [ThreadHelper.step, hpoint] at hstep

end Msm8916.Daemon.ThreadHelper
