import Msm8916.Heap.Invariant
import Msm8916.Lib.Transition
import Msm8916.Timer.Clock
import Mathlib.Logic.Function.Basic

/-!
One `LocTimerContainer` of `gps/utils/LocTimer.cpp` with its clients, its
message task and its poll thread. A step is a call to `LocTimer::start` or
`stop`, one message, or one of the three actions of `expire()`; the shared lock
of a timer makes each of them atomic.
-/

namespace Msm8916.Timer

open Heap

/-- A `LocTimerDelegate` object: its address and what it never changes. -/
structure LocTimerDelegate where
  address : Nat
  mFutureTime : BootTime
deriving DecidableEq

/-- `LocTimerDelegate::ranks`: the larger time ranks lower, by seconds alone. -/
instance : LocRankable LocTimerDelegate where
  ranks self timer := timer.mFutureTime.tv_sec - self.mFutureTime.tv_sec

inductive LocMsg where
  | timerPush (mTimer : LocTimerDelegate)
  | timerRemove (mTimer : LocTimerDelegate)
  | timerExpire
deriving DecidableEq

/-- Where the poll thread stands: in `epoll_wait`, back from it, or after the
first or the second action of `expire()`. -/
inductive PollTask where
  | waiting
  | woken
  | disarmed
  | pollRemoved
deriving DecidableEq

/-- One run of `timeOutCallback`: the client, the timer its `stop()` ended just
before, and the time. -/
structure Callback where
  client : Nat
  timer : LocTimerDelegate
  time : BootTime
deriving DecidableEq

/-- The container, its clients (numbered `LocTimer` objects), the message queue,
the poll thread and the two kernel objects. `timerFd` is the programmed
expiration, `none` when disarmed. -/
structure TimerService where
  now : BootTime
  heap : LocHeap LocTimerDelegate
  mTimer : Nat → Option LocTimerDelegate
  mClient : LocTimerDelegate → Option Nat
  mContainer : LocTimerDelegate → Bool
  nextAddress : Nat
  msgQ : List LocMsg
  timerFd : Option Timespec
  inEpoll : Bool
  pollTask : PollTask
  callbacks : List Callback
  deleted : List LocTimerDelegate

namespace TimerService

def init (now : BootTime) : TimerService where
  now := now
  heap := LocHeap.empty
  mTimer _ := none
  mClient _ := none
  mContainer _ := false
  nextAddress := 1
  msgQ := []
  timerFd := none
  inEpoll := false
  pollTask := .waiting
  callbacks := []
  deleted := []

/-- `timerfd_settime` with `TFD_TIMER_ABSTIME`; the zero value disarms. -/
def timerfdSettime (state : TimerService) (value : Timespec) : TimerService :=
  { state with timerFd := if value = ⟨0, 0⟩ then none else some value }

/-- `LocTimerPollTask::addPoll`; adding a descriptor twice changes nothing. -/
def addPoll (state : TimerService) : TimerService := { state with inEpoll := true }

/-- `LocTimerPollTask::removePoll`. -/
def removePoll (state : TimerService) : TimerService := { state with inEpoll := false }

def sendMsg (state : TimerService) (msg : LocMsg) : TimerService :=
  { state with msgQ := state.msgQ ++ [msg] }

/-- `LocTimerContainer::updateSoonestTime`. -/
def updateSoonestTime (state : TimerService) (priorTop : Option LocTimerDelegate) :
    TimerService :=
  if state.heap.peek = priorTop then state
  else
    match state.heap.peek with
    | none => state.removePoll.timerfdSettime ⟨0, 0⟩
    | some curTop =>
        -- `!priorTop || curTop->outRanks(*priorTop)`
        if priorTop.all (outRanks curTop) then
          state.addPoll.timerfdSettime curTop.mFutureTime.toTimespec
        else state

/-- `LocTimerDelegate::destroyLocked`. -/
def destroyLocked (state : TimerService) (timer : LocTimerDelegate) : TimerService :=
  let state := { state with mClient := Function.update state.mClient timer none }
  if state.mContainer timer then
    { state with mContainer := Function.update state.mContainer timer false }.sendMsg
      (.timerRemove timer)
  else state

/-- `LocTimer::start` of the client. The new delegate has an address no other
delegate has had. -/
def start (state : TimerService) (client : Nat) (timeOutInMs : UInt32) : TimerService :=
  match state.mTimer client with
  | some _ => state
  | none =>
      let timer : LocTimerDelegate := ⟨state.nextAddress, state.now.afterMs timeOutInMs⟩
      { state with
          mTimer := Function.update state.mTimer client (some timer)
          mClient := Function.update state.mClient timer (some client)
          mContainer := Function.update state.mContainer timer true
          nextAddress := state.nextAddress + 1 }.sendMsg (.timerPush timer)

/-- `LocTimer::stop` of the client. In place of `true` it hands back the timer
it has ended. -/
def stop (state : TimerService) (client : Nat) :
    TimerService × Option LocTimerDelegate :=
  match state.mTimer client with
  | none => (state, none)
  | some timer =>
      ({ state with mTimer := Function.update state.mTimer client none }.destroyLocked timer,
        some timer)

/-- `LocTimerDelegate::expire`. -/
def expireTimer (state : TimerService) (timer : LocTimerDelegate) : TimerService :=
  match state.mClient timer with
  | none => state
  | some client =>
      match state.stop client with
      | (state, none) => state
      | (state, some ended) =>
          { state with callbacks := state.callbacks ++ [⟨client, ended, state.now⟩] }

/-- `MsgTimerPush::proc`. -/
def timerPush (state : TimerService) (mTimer : LocTimerDelegate) : TimerService :=
  { state with heap := state.heap.push mTimer }.updateSoonestTime state.heap.peek

/-- `MsgTimerRemove::proc`. -/
def timerRemove (state : TimerService) (mTimer : LocTimerDelegate) : TimerService :=
  let (heap, removed) := state.heap.remove mTimer
  let updated :=
    if state.heap.peek = removed then { state with heap }.updateSoonestTime none
    else { state with heap }
  { updated with deleted := mTimer :: updated.deleted }

/-- `LocTimerContainer::popIfOutRanks`. -/
def popIfOutRanks (heap : LocHeap LocTimerDelegate) (timer : LocTimerDelegate) :
    LocHeap LocTimerDelegate × Option LocTimerDelegate :=
  match heap.peek with
  | none => (heap, none)
  | some top => if !outRanks timer top then heap.pop else (heap, none)

/-- The loop of `MsgTimerExpire::proc`, entered with the timer just popped. As
many rounds as the heap had nodes are enough. -/
def expireLoop (timerOfNow : LocTimerDelegate) :
    Nat → Option LocTimerDelegate → TimerService → TimerService
  | _, none, state => state
  | 0, some _, state => state
  | rounds + 1, some timer, state =>
      let state := state.expireTimer timer
      let (heap, next) := popIfOutRanks state.heap timerOfNow
      expireLoop timerOfNow rounds next { state with heap }

/-- `MsgTimerExpire::proc`. The object built from the current time is only
compared with, never stored. -/
def timerExpire (state : TimerService) : TimerService :=
  let timerOfNow : LocTimerDelegate := ⟨0, state.now⟩
  let (heap, timer) := state.heap.pop
  (expireLoop timerOfNow state.heap.mTree.count timer { state with heap }).updateSoonestTime
    none

def proc (state : TimerService) : LocMsg → TimerService
  | .timerPush mTimer => state.timerPush mTimer
  | .timerRemove mTimer => state.timerRemove mTimer
  | .timerExpire => state.timerExpire

inductive Label where
  | tick (now : BootTime)
  | start (client : Nat) (timeOutInMs : UInt32)
  | stop (client : Nat)
  | epollWait
  | disarm
  | removePoll
  | sendExpire
  | proc

/-- `epoll_wait` returns when the armed descriptor is in the set and has
expired; the poll thread then takes the three actions of `expire()`. -/
def step (state : TimerService) : Label → Option TimerService
  | .tick now =>
      if state.now.toTimespec ≤ now.toTimespec then some { state with now } else none
  | .start client timeOutInMs => some (state.start client timeOutInMs)
  | .stop client => some (state.stop client).1
  | .epollWait =>
      if state.pollTask = .waiting ∧ state.inEpoll = true ∧
          state.timerFd.any (fun time => decide (time ≤ state.now.toTimespec)) = true then
        some { state with pollTask := .woken }
      else none
  | .disarm =>
      if state.pollTask = .woken then
        some { state.timerfdSettime ⟨0, 0⟩ with pollTask := .disarmed }
      else none
  | .removePoll =>
      if state.pollTask = .disarmed then
        some { state.removePoll with pollTask := .pollRemoved }
      else none
  | .sendExpire =>
      if state.pollTask = .pollRemoved then
        some { state.sendMsg .timerExpire with pollTask := .waiting }
      else none
  | .proc =>
      match state.msgQ with
      | [] => none
      | msg :: msgQ => some ({ state with msgQ }.proc msg)

end TimerService

end Msm8916.Timer
