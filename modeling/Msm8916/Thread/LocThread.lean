import Msm8916.Lib.Transition

/-!
`LocThread` and `LocThreadDelegate` of `gps/utils/LocThread.cpp`: a client that starts
and stops threads, and the threads it has spawned. A step is a critical section of
`mMutex` or one access to a field that both sides use.
-/

namespace Msm8916.Thread

/-- Where a thread is in `LocThreadDelegate::destroy`. -/
inductive DestroyPoint where
  | test
  | decrement
  | delete
deriving DecidableEq, Repr

/-- Where the client is with a delegate, from the constructor in
`LocThreadDelegate::create` to the `destroy` that releases it. -/
inductive OwnerPoint where
  | constructing
  | checking
  /-- `start` has returned true. -/
  | holding
  | testRunnable
  | clearRunnable
  | testJoinable
  | clearJoinable
  | joining
  | destroying (point : DestroyPoint)
  | released
deriving DecidableEq, Repr

/-- Where the spawned thread is in `LocThreadDelegate::threadMain`. -/
inductive ThreadPoint where
  /-- The thread is not created. -/
  | absent
  | start
  | testPrerun
  | testRun
  | run
  | testPostrun
  | clearRunnable
  | deleteRunnable
  | destroying (point : DestroyPoint)
  | finished
deriving DecidableEq, Repr

/-- `LocThreadDelegate`, the local `runnable` of its thread once that is read, what
`start` returns for it, and how often it and the runnable have been deleted. Pointers
to the runnable are told apart from `NULL` only. -/
structure LocThreadDelegate where
  mRunnable : Bool
  mJoinable : Bool
  mRefCount : Int
  ownerPoint : OwnerPoint
  threadPoint : ThreadPoint
  runnable : Option Bool
  success : Option Bool
  deleted : Nat
  runnableDeleted : Nat
deriving DecidableEq, Repr

namespace LocThreadDelegate

/-- The members as the constructor initializes them. -/
def new (joinable : Bool) : LocThreadDelegate where
  mRunnable := true
  mJoinable := joinable
  mRefCount := 2
  ownerPoint := .constructing
  threadPoint := .absent
  runnable := none
  success := none
  deleted := 0
  runnableDeleted := 0

/-- One step of `destroy`: the delegate, and where the caller goes on unless it
returns. -/
def destroyStep (delegate : LocThreadDelegate) :
    DestroyPoint → LocThreadDelegate × Option DestroyPoint
  | .test => (delegate, if 0 < delegate.mRefCount then some .decrement else none)
  | .decrement =>
      ({ delegate with mRefCount := delegate.mRefCount - 1 },
        if 1 = delegate.mRefCount then some .delete else none)
  | .delete => ({ delegate with deleted := delegate.deleted + 1 }, none)

/-- One step of the client in the constructor, `create`, `stop` or `destroy`.
`outcome` tells whether the thread can be created. -/
def ownerStep (delegate : LocThreadDelegate) (outcome : Bool) : Option LocThreadDelegate :=
  match delegate.ownerPoint with
  | .constructing =>
      if outcome then
        some { delegate with threadPoint := .start, ownerPoint := .checking }
      else
        some { delegate with
          mRunnable := false, mJoinable := false, mRefCount := 1, ownerPoint := .checking }
  | .checking =>
      some { delegate with
        success := some delegate.mRunnable
        ownerPoint := if delegate.mRunnable then .holding else .destroying .test }
  | .holding => none
  | .testRunnable =>
      some { delegate with
        ownerPoint := if delegate.mRunnable then .clearRunnable else .testJoinable }
  | .clearRunnable => some { delegate with mRunnable := false, ownerPoint := .testJoinable }
  | .testJoinable =>
      some { delegate with
        ownerPoint := if delegate.mJoinable then .clearJoinable else .destroying .test }
  | .clearJoinable => some { delegate with mJoinable := false, ownerPoint := .joining }
  | .joining =>
      if delegate.threadPoint = .finished then
        some { delegate with ownerPoint := .destroying .test }
      else none
  | .destroying point =>
      let (delegate, next) := delegate.destroyStep point
      some { delegate with ownerPoint := (next.map .destroying).getD .released }
  | .released => none

/-- One step of the spawned thread. `outcome` is what `run` returns. -/
def threadStep (delegate : LocThreadDelegate) (outcome : Bool) : Option LocThreadDelegate :=
  match delegate.threadPoint with
  | .absent => none
  | .start =>
      some { delegate with
        runnable := some delegate.mRunnable
        threadPoint := if delegate.mRunnable then .testPrerun else .destroying .test }
  -- Whether `prerun` and `postrun` are called changes nothing here.
  | .testPrerun => some { delegate with threadPoint := .testRun }
  | .testRun =>
      some { delegate with threadPoint := if delegate.mRunnable then .run else .testPostrun }
  | .run => some { delegate with threadPoint := if outcome then .testRun else .testPostrun }
  | .testPostrun => some { delegate with threadPoint := .clearRunnable }
  | .clearRunnable => some { delegate with mRunnable := false, threadPoint := .deleteRunnable }
  | .deleteRunnable =>
      some { delegate with
        runnableDeleted := delegate.runnableDeleted + 1, threadPoint := .destroying .test }
  | .destroying point =>
      let (delegate, next) := delegate.destroyStep point
      some { delegate with threadPoint := (next.map .destroying).getD .finished }
  | .finished => none

/-- Where `bye` sends the client. -/
def byePoint (delegate : LocThreadDelegate) : OwnerPoint :=
  if delegate.mJoinable then .testRunnable else .destroying .test

end LocThreadDelegate

/-- A `LocThread`, the delegates it has made, the one its client is in a call for, and
whether the destructor has been called. -/
structure LocThread where
  mThread : Option Nat
  delegates : List LocThreadDelegate
  calling : Option Nat
  destructed : Bool
deriving DecidableEq, Repr

/-- A call of the client, or one step of it or of the thread of a delegate. -/
inductive Label where
  | start (runnable joinable : Bool)
  | stop
  | destruct
  | owner (outcome : Bool)
  | thread (delegate : Nat) (outcome : Bool)
deriving DecidableEq, Repr

namespace LocThread

def init : LocThread := ⟨none, [], none, false⟩

/-- The client is back from a call, or still in it. -/
def afterOwner (locThread : LocThread) (i : Nat) (delegate : LocThreadDelegate) : LocThread :=
  { locThread with
    mThread := match delegate.ownerPoint with
      | .holding => some i
      | .released => none
      | _ => locThread.mThread
    calling := match delegate.ownerPoint with
      | .holding | .released => none
      | _ => some i
    delegates := locThread.delegates.set i delegate }

/-- The calls `stop` and `~LocThread` on the delegate of `mThread`. -/
def release (locThread : LocThread) (point : LocThreadDelegate → OwnerPoint) :
    Option LocThread :=
  match locThread.mThread with
  | none => some locThread
  | some i =>
      locThread.delegates[i]?.map fun delegate =>
        { locThread with
          calling := some i
          delegates := locThread.delegates.set i
            { delegate with ownerPoint := point delegate } }

def step (locThread : LocThread) : Label → Option LocThread
  | .start runnable joinable =>
      if locThread.calling.isSome || locThread.destructed then none
      -- A thread that is there, and no runnable, is false at once.
      else if locThread.mThread.isSome || !runnable then some locThread
      else
        some { locThread with
          calling := some locThread.delegates.length
          delegates := locThread.delegates ++ [.new joinable] }
  | .stop =>
      if locThread.calling.isSome || locThread.destructed then none
      else locThread.release fun _ => .testRunnable
  | .destruct =>
      if locThread.calling.isSome || locThread.destructed then none
      else { locThread with destructed := true }.release (·.byePoint)
  | .owner outcome =>
      locThread.calling.bind fun i =>
        locThread.delegates[i]?.bind fun delegate =>
          (delegate.ownerStep outcome).map (locThread.afterOwner i)
  | .thread i outcome =>
      locThread.delegates[i]?.bind fun delegate =>
        (delegate.threadStep outcome).map fun delegate =>
          { locThread with delegates := locThread.delegates.set i delegate }

/-- `stop` or the destructor has returned, and all threads have ended. -/
structure Final (locThread : LocThread) : Prop where
  stopped : locThread.mThread = none
  idle : locThread.calling = none
  ended : ∀ delegate ∈ locThread.delegates,
    delegate.threadPoint = .absent ∨ delegate.threadPoint = .finished

end LocThread

end Msm8916.Thread
