import Msm8916.Lib.Arena
import Msm8916.Timer.Task

/-!
The C interface of `LocTimer.cpp`. Threads in `loc_timer_start` and
`loc_timer_stop` interleave with the message task, which takes the expiration of
a timer in the steps between its critical sections: those under the lock of the
`LocTimer` and those under `LocTimerWrapper::mMutex`. The destructor of a wrapper
takes the first lock inside the second.
-/

namespace Msm8916.Timer

open Heap

/-- What a `LocTimerWrapper` checks about itself: whether `mCb` is not null and
whether `mMe` is the wrapper. -/
structure LocTimerWrapper where
  mCb : Bool
  mMe : Bool

/-- Where the message task stands: between two messages, with a popped timer, in
`LocTimerDelegate::expire` with its client read, after a `stop()` that returned
true, in `timeOutCallback` with `mCb` read, past the call of it, inside
`delete this`, or back from `expire()`. -/
inductive TaskPoint where
  | idle
  | popped (timer : LocTimerDelegate)
  | expiring (client : Nat)
  | stopped (client : Nat)
  | calling (client : Nat)
  | called (client : Nat)
  | deleting (client : Nat)
  | expired
deriving DecidableEq

/-- The wrapper the message task will still use. -/
def TaskPoint.client? : TaskPoint → Option Nat
  | .expiring client | .stopped client | .calling client | .called client => some client
  | .idle | .popped _ | .deleting _ | .expired => none

/-- Where a thread stands in `loc_timer_stop`: before `destroy()`, inside
`delete this`, past `destroy()`, or back. -/
inductive StopPoint where
  | entered
  | deleting
  | destroyed
  | returned
deriving DecidableEq

structure StopCall where
  wrapper : Nat
  point : StopPoint
deriving DecidableEq

/-- A wrapper is a client of `timers` and an object of `wrappers`. `handle` says
which handle variables are not null, `container` and `timerOfNow` are locals of
the expire message, `returned` records the handles `loc_timer_stop` has returned
for, and `invoked` the wrappers called back, with whether that was after such a
return. -/
structure LocTimerApi where
  timers : LocTimers
  wrappers : Arena
  fields : Nat → LocTimerWrapper
  mMutex : Bool
  handle : Nat → Bool
  container : Bool
  timerOfNow : LocTimerDelegate
  point : TaskPoint
  calls : List StopCall
  returned : List Nat
  invoked : List (Nat × Bool)

namespace LocTimerApi

def init (now : BootTime) : LocTimerApi where
  timers := .init now
  wrappers := Arena.empty
  fields _ := ⟨false, false⟩
  mMutex := false
  handle _ := false
  container := false
  timerOfNow := ⟨0, now⟩
  point := .idle
  calls := []
  returned := []
  invoked := []

/-- The unlocked use of a wrapper. -/
def use (state : LocTimerApi) (wrapper : Nat) : LocTimerApi :=
  { state with wrappers := state.wrappers.use [wrapper] }

/-- `LocTimerWrapper::destroy` up to the `stop()` in `~LocTimer`. Hands back
whether it got there, still holding `mMutex`. -/
def destroy (state : LocTimerApi) (wrapper : Nat) : LocTimerApi × Bool :=
  let used := state.use wrapper
  if (state.fields wrapper).mCb && (state.fields wrapper).mMe then
    ({ used with
        wrappers := used.wrappers.delete wrapper
        fields := Function.update state.fields wrapper ⟨false, false⟩
        mMutex := true }, true)
  else (used, false)

/-- The rest of `destroy`: `~LocTimer` stops the timer, and `mMutex` is
unlocked. -/
def finishDelete (state : LocTimerApi) (wrapper : Nat) : LocTimerApi :=
  { state with timers := (state.timers.stop wrapper).1, mMutex := false }

/-- `loc_timer_start`. The constructor and `LocTimer::start` come before anyone
else knows the wrapper. `msec` becomes an `unsigned int`. -/
def locTimerStart (state : LocTimerApi) (cbFunc : Bool) (msec : UInt64) (wakeOnExpire : Bool) :
    LocTimerApi :=
  if cbFunc then
    let wrapper := state.wrappers.construct.1
    { state with
      wrappers := state.wrappers.construct.2
      fields := Function.update state.fields wrapper ⟨true, true⟩
      timers := state.timers.start wrapper msec.toUInt32 wakeOnExpire
      handle := Function.update state.handle wrapper true }
  else state

/-- The start of `loc_timer_stop`, which reads the handle. -/
def locTimerStop (state : LocTimerApi) (wrapper : Nat) : LocTimerApi :=
  if state.handle wrapper then { state with calls := state.calls ++ [⟨wrapper, .entered⟩] }
  else state

/-- The next step of the message task. A step that locks `mMutex` waits for
it. -/
def taskStep (state : LocTimerApi) : Option LocTimerApi :=
  match state.point with
  | .idle =>
      match state.timers.msgQ with
      | [] => none
      | (container, .timerPush mTimer) :: msgQ =>
          some { state with
            timers := { state.timers with msgQ }.timerPush container mTimer }
      | (container, .timerRemove mTimer) :: msgQ =>
          some { state with
            timers := { state.timers with msgQ }.timerRemove container mTimer }
      | (container, .timerExpire) :: msgQ =>
          let (heap, timer) := (state.timers.heap container).pop
          some { state with
            timers := { state.timers with msgQ }.setHeap container heap
            container := container
            timerOfNow := ⟨0, state.timers.now⟩
            point := timer.elim .idle .popped }
  | .popped timer =>
      some { state with point := (state.timers.mClient timer).elim .expired .expiring }
  | .expiring client =>
      let (timers, ended) := state.timers.stop client
      some { state.use client with
        timers := timers
        point := ended.elim .expired fun _ => .stopped client }
  | .stopped client =>
      some { state.use client with
        point := if (state.fields client).mCb then .calling client else .called client }
  | .calling client =>
      some { state with
        invoked := state.invoked ++ [(client, decide (client ∈ state.returned))]
        point := .called client }
  | .called client =>
      if state.mMutex then none
      else
        let (state, deleting) := state.destroy client
        some { state with point := if deleting then .deleting client else .expired }
  | .deleting client => some { state.finishDelete client with point := .expired }
  | .expired =>
      let (heap, next) :=
        TimerService.popIfOutRanks (state.timers.heap state.container) state.timerOfNow
      some { state with
        timers := state.timers.setHeap state.container heap
        point := next.elim .idle .popped }

/-- The next step of the thread that made the call `i`. -/
def threadStep (state : LocTimerApi) (i : Nat) : Option LocTimerApi :=
  match state.calls[i]? with
  | none => none
  | some ⟨wrapper, .entered⟩ =>
      if state.mMutex then none
      else
        let (state, deleting) := state.destroy wrapper
        some { state with
          calls := state.calls.set i ⟨wrapper, if deleting then .deleting else .destroyed⟩ }
  | some ⟨wrapper, .deleting⟩ =>
      some { state.finishDelete wrapper with calls := state.calls.set i ⟨wrapper, .destroyed⟩ }
  | some ⟨wrapper, .destroyed⟩ =>
      some { state with
        handle := Function.update state.handle wrapper false
        returned := wrapper :: state.returned
        calls := state.calls.set i ⟨wrapper, .returned⟩ }
  | some ⟨_, .returned⟩ => none

inductive Label where
  | tick (now : BootTime)
  | sendExpire (container : Bool)
  | locTimerStart (cbFunc : Bool) (msec : UInt64) (wakeOnExpire : Bool)
  | locTimerStop (wrapper : Nat)
  | task
  | thread (i : Nat)

def step (state : LocTimerApi) : Label → Option LocTimerApi
  | .tick now =>
      if state.timers.now.toTimespec ≤ now.toTimespec then
        some { state with timers := { state.timers with now } }
      else none
  | .sendExpire container =>
      some { state with timers := state.timers.sendMsg container .timerExpire }
  | .locTimerStart cbFunc msec wakeOnExpire =>
      some (state.locTimerStart cbFunc msec wakeOnExpire)
  | .locTimerStop wrapper => some (state.locTimerStop wrapper)
  | .task => state.taskStep
  | .thread i => state.threadStep i

end LocTimerApi

end Msm8916.Timer
