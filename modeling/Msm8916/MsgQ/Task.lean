import Msm8916.MsgQ.Queue

/-!
`MsgTask` of `gps/utils/MsgTask.cpp` with the thread that `LocThread.cpp` runs it
on. A message is known by its turn among those handed to `sendMsg`. A step is a
critical section of the queue or one access to a field that both sides use.
-/

namespace Msm8916.MsgQ

/-- Where the spawned thread is in `threadMain` and `MsgTask::run`. -/
inductive TaskPoint
  /-- The thread could not be created. -/
  | absent
  | start
  | test
  | receive
  | waiting
  | processing (msg : Nat)
  | leaving
  | flushing
  | destroying
  | finished
  /-- It ended at once, since it found `mRunnable` to be `NULL`. -/
  | missed
deriving DecidableEq, Repr

/-- Where the caller of `MsgTask::destroy` is. -/
inductive DestroyPoint
  | idle
  | unblocked
  | released
  | joining
  | flushing
  | destroying
  | finished
deriving DecidableEq, Repr

/-- `MsgTask`, the fields of its `LocThreadDelegate` that both threads use, and
the messages handed over and deleted so far. -/
structure MsgTask where
  mQ : Option (MsgQ Nat Unit)
  mThread : Bool
  mRunnable : Bool
  mJoinable : Bool
  taskPoint : TaskPoint
  destroyPoint : DestroyPoint
  handed : Nat
  deleted : List Nat

/-- One step of a sender, of the spawned thread or of the caller of `destroy`. -/
inductive TaskLabel
  | sendMsg (elem : Nat) (woken : Option Nat)
  | wakeUp
  | task
  | destroy
deriving DecidableEq, Repr

namespace MsgTask

/-- The spawned thread as a waiter of the queue. -/
def taskThread : Nat := 0

/-- `MsgTask::MsgTask`; `created` tells whether there is a thread. -/
def init (created joinable : Bool) : MsgTask where
  mQ := some msgQInit
  mThread := created
  mRunnable := created
  mJoinable := created && joinable
  taskPoint := if created then .start else .absent
  destroyPoint := .idle
  handed := 0
  deleted := []

/-- `MsgTask::sendMsg`, which does not look at what `msg_q_snd` returns. -/
def sendMsg (state : MsgTask) (elem : Nat) (woken : Option Nat) : Option MsgTask :=
  match state.mQ with
  | none => some { state with handed := state.handed + 1 }
  | some q =>
      if q.Admits elem woken then do
        let (q, _) ← msgQSnd q (some state.handed) (some ()) elem woken
        some { state with mQ := some q, handed := state.handed + 1 }
      else
        none

/-- `MsgTask::run` after a section of `msg_q_rcv`. -/
def received (state : MsgTask) : MsgQ Nat Unit × Option (MsqQErr × Option Nat) → MsgTask
  | (q, none) => { state with mQ := some q, taskPoint := .waiting }
  | (q, some (.success, some msg)) => { state with mQ := some q, taskPoint := .processing msg }
  | (q, some _) => { state with mQ := some q, taskPoint := .leaving }

/-- `LocMsgDestroy` is called for each message that is flushed. -/
def flush (state : MsgTask) : Option MsgTask :=
  match state.mQ with
  | none => some state
  | some q => do
      let (q, _, calls) ← msgQFlush q
      some { state with mQ := some q, deleted := state.deleted ++ calls.map Prod.snd }

/-- `msg_q_destroy`: what the list still holds is flushed again. -/
def destroyQ (state : MsgTask) : Option MsgTask :=
  match state.mQ with
  | none => some state
  | some q => do
      let (_, _, calls) ← linkedListFlush q.msg_list
      some { state with mQ := none, deleted := state.deleted ++ calls.map Prod.snd }

/-- `LocThreadDelegate::threadMain`; `delete runnable` is `MsgTask::~MsgTask`. -/
def taskStep (state : MsgTask) : Option MsgTask :=
  match state.taskPoint with
  | .start => some { state with taskPoint := if state.mRunnable then .test else .missed }
  | .test => some { state with taskPoint := if state.mRunnable then .receive else .leaving }
  | .receive =>
      match state.mQ with
      | none => some { state with taskPoint := .leaving }
      | some q => (msgQRcv q taskThread).map state.received
  | .waiting =>
      match state.mQ with
      | none => none
      | some q =>
          if taskThread ∈ q.awake then (resume q taskThread).map state.received else none
  | .processing msg => some { state with taskPoint := .test, deleted := state.deleted ++ [msg] }
  | .leaving => some { state with taskPoint := .flushing, mRunnable := false }
  | .flushing => ({ state with taskPoint := .destroying } : MsgTask).flush
  | .destroying => ({ state with taskPoint := .finished } : MsgTask).destroyQ
  | .absent => none
  | .finished => none
  | .missed => none

/-- `pthread_join` returns when the thread has ended. -/
def joined : TaskPoint → Bool
  | .finished => true
  | .missed => true
  | _ => false

/-- `MsgTask::destroy` with `LocThread::~LocThread` and `LocThreadDelegate::bye`. -/
def destroyStep (state : MsgTask) : Option MsgTask :=
  match state.destroyPoint with
  | .idle =>
      some { state with
        mQ := state.mQ.map fun q => (msgQUnblock q).1, destroyPoint := .unblocked }
  | .unblocked =>
      if state.mThread then
        some { state with mThread := false, destroyPoint := .released }
      else
        some { state with destroyPoint := .flushing }
  | .released =>
      -- a joinable thread is stopped and joined, a detached one left alone
      if state.mJoinable then
        some { state with mRunnable := false, mJoinable := false, destroyPoint := .joining }
      else
        some { state with destroyPoint := .finished }
  | .joining =>
      if joined state.taskPoint then some { state with destroyPoint := .finished } else none
  | .flushing => ({ state with destroyPoint := .destroying } : MsgTask).flush
  | .destroying => ({ state with destroyPoint := .finished } : MsgTask).destroyQ
  | .finished => none

def step (state : MsgTask) : TaskLabel → Option MsgTask
  | .sendMsg elem woken => state.sendMsg elem woken
  | .wakeUp =>
      match state.mQ with
      | none => none
      | some q =>
          if taskThread ∈ q.asleep then
            some { state with mQ := some (q.wake taskThread) }
          else
            none
  | .task => state.taskStep
  | .destroy => state.destroyStep

/-- All threads have finished. -/
def Final (state : MsgTask) : Prop :=
  state.destroyPoint = .finished ∧
    (state.taskPoint = .absent ∨ state.taskPoint = .finished ∨ state.taskPoint = .missed)

end MsgTask

end Msm8916.MsgQ
