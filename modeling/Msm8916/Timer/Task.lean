import Msm8916.Timer.Container

/-!
The timers of a process: its `LocTimer` clients, the two containers and the
message task they share. `TimerService` is one of the two containers with its
kernel objects; here an expire message may be sent at any time, and a client may
call from inside its `timeOutCallback`.
-/

namespace Msm8916.Timer

open Heap

/-- A call of a client, on a thread of its own or inside a callback. -/
inductive ClientCall where
  | start (client : Nat) (timeOutInMs : UInt32) (wakeOnExpire : Bool)
  | stop (client : Nat)

/-- A container is named by the `wakeOnExpire` of its timers. The last five
fields are records: the successful starts, the `stop()` calls of clients that
returned true, all `stop()` calls that did, the callbacks, and the deletions. -/
structure LocTimers where
  now : BootTime
  heap : Bool → LocHeap LocTimerDelegate
  mTimer : Nat → Option LocTimerDelegate
  mClient : LocTimerDelegate → Option Nat
  mContainer : LocTimerDelegate → Option Bool
  nextAddress : Nat
  msgQ : List (Bool × LocMsg)
  started : List (LocTimerDelegate × Bool)
  stops : List LocTimerDelegate
  ended : List LocTimerDelegate
  callbacks : List Callback
  deleted : List LocTimerDelegate

namespace LocTimers

def init (now : BootTime) : LocTimers where
  now := now
  heap _ := LocHeap.empty
  mTimer _ := none
  mClient _ := none
  mContainer _ := none
  nextAddress := 1
  msgQ := []
  started := []
  stops := []
  ended := []
  callbacks := []
  deleted := []

def sendMsg (state : LocTimers) (container : Bool) (msg : LocMsg) : LocTimers :=
  { state with msgQ := state.msgQ ++ [(container, msg)] }

def setHeap (state : LocTimers) (container : Bool) (heap : LocHeap LocTimerDelegate) :
    LocTimers :=
  { state with heap := Function.update state.heap container heap }

@[simp]
theorem heap_setHeap_self (state : LocTimers) (container : Bool)
    (heap : LocHeap LocTimerDelegate) :
    (state.setHeap container heap).heap container = heap := Function.update_self ..

theorem heap_setHeap_of_ne (state : LocTimers) {container home : Bool}
    (heap : LocHeap LocTimerDelegate) (h : home ≠ container) :
    (state.setHeap container heap).heap home = state.heap home := Function.update_of_ne h ..

/-- `LocTimerDelegate::destroyLocked`. -/
def destroyLocked (state : LocTimers) (timer : LocTimerDelegate) : LocTimers :=
  let state := { state with mClient := Function.update state.mClient timer none }
  match state.mContainer timer with
  | none => state
  | some container =>
      { state with mContainer := Function.update state.mContainer timer none }.sendMsg
        container (.timerRemove timer)

/-- `LocTimer::start`; a client whose timer is running keeps it. -/
def start (state : LocTimers) (client : Nat) (timeOutInMs : UInt32) (wakeOnExpire : Bool) :
    LocTimers :=
  match state.mTimer client with
  | some _ => state
  | none =>
      let timer : LocTimerDelegate := ⟨state.nextAddress, state.now.afterMs timeOutInMs⟩
      { state with
          mTimer := Function.update state.mTimer client (some timer)
          mClient := Function.update state.mClient timer (some client)
          mContainer := Function.update state.mContainer timer (some wakeOnExpire)
          nextAddress := state.nextAddress + 1
          started := state.started ++ [(timer, wakeOnExpire)] }.sendMsg
        wakeOnExpire (.timerPush timer)

/-- `LocTimer::stop`. In place of `true` it hands back the timer it has ended. -/
def stop (state : LocTimers) (client : Nat) : LocTimers × Option LocTimerDelegate :=
  match state.mTimer client with
  | none => (state, none)
  | some timer =>
      let stopped := { state with
        mTimer := Function.update state.mTimer client none
        ended := state.ended ++ [timer] }
      (stopped.destroyLocked timer, some timer)

def call (state : LocTimers) : ClientCall → LocTimers
  | .start client timeOutInMs wakeOnExpire => state.start client timeOutInMs wakeOnExpire
  | .stop client =>
      match state.stop client with
      | (state, none) => state
      | (state, some timer) => { state with stops := state.stops ++ [timer] }

/-- `LocTimerDelegate::expire`. `reaction timer` is what the client does inside
the `timeOutCallback` of `timer`. -/
def expireTimer (reaction : LocTimerDelegate → List ClientCall) (state : LocTimers)
    (timer : LocTimerDelegate) : LocTimers :=
  match state.mClient timer with
  | none => state
  | some client =>
      match state.stop client with
      | (state, none) => state
      | (state, some _) =>
          (reaction timer).foldl call
            { state with callbacks := state.callbacks ++ [⟨client, timer, state.now⟩] }

/-- `MsgTimerPush::proc`. -/
def timerPush (state : LocTimers) (container : Bool) (mTimer : LocTimerDelegate) : LocTimers :=
  state.setHeap container ((state.heap container).push mTimer)

/-- `MsgTimerRemove::proc`. -/
def timerRemove (state : LocTimers) (container : Bool) (mTimer : LocTimerDelegate) :
    LocTimers :=
  let removed := state.setHeap container ((state.heap container).remove mTimer).1
  { removed with deleted := mTimer :: removed.deleted }

/-- The loop of `MsgTimerExpire::proc`, entered with the timer just popped. -/
def expireLoop (reaction : LocTimerDelegate → List ClientCall) (container : Bool)
    (timerOfNow : LocTimerDelegate) :
    Nat → Option LocTimerDelegate → LocTimers → LocTimers
  | _, none, state => state
  | 0, some _, state => state
  | rounds + 1, some timer, state =>
      let state := state.expireTimer reaction timer
      let (heap, next) := TimerService.popIfOutRanks (state.heap container) timerOfNow
      expireLoop reaction container timerOfNow rounds next (state.setHeap container heap)

/-- `MsgTimerExpire::proc`. A callback pushes nothing itself, so as many rounds
as the heap had nodes are enough. -/
def timerExpire (reaction : LocTimerDelegate → List ClientCall) (state : LocTimers)
    (container : Bool) : LocTimers :=
  let (heap, timer) := (state.heap container).pop
  expireLoop reaction container ⟨0, state.now⟩ (state.heap container).mTree.count timer
    (state.setHeap container heap)

def proc (reaction : LocTimerDelegate → List ClientCall) (state : LocTimers)
    (container : Bool) : LocMsg → LocTimers
  | .timerPush mTimer => state.timerPush container mTimer
  | .timerRemove mTimer => state.timerRemove container mTimer
  | .timerExpire => state.timerExpire reaction container

inductive Label where
  | tick (now : BootTime)
  | call (request : ClientCall)
  | sendExpire (container : Bool)
  | proc (reaction : LocTimerDelegate → List ClientCall)

def step (state : LocTimers) : Label → Option LocTimers
  | .tick now =>
      if state.now.toTimespec ≤ now.toTimespec then some { state with now } else none
  | .call request => some (state.call request)
  | .sendExpire container => some (state.sendMsg container .timerExpire)
  | .proc reaction =>
      match state.msgQ with
      | [] => none
      | (container, msg) :: msgQ => some ({ state with msgQ }.proc reaction container msg)

/-! ## Clients and their timers -/

/-- A client and its running timer name each other, and a timer has its
container as long as it has its client. -/
structure Linked (state : LocTimers) : Prop where
  client : ∀ timer client, state.mClient timer = some client ↔ state.mTimer client = some timer
  container : ∀ timer, state.mClient timer = none ↔ state.mContainer timer = none
  fresh : ∀ timer container, state.mContainer timer = some container →
    timer.address < state.nextAddress

theorem init_linked (now : BootTime) : (init now).Linked where
  client _ _ := by simp [init]
  container _ := by simp [init]
  fresh _ _ h := by cases h

/-- Ending the timer of a client: its client and its container are forgotten and
its removal is sent. -/
theorem Linked.stop_eq {state : LocTimers} (h : state.Linked) {client : Nat}
    {timer : LocTimerDelegate} (hrunning : state.mTimer client = some timer) :
    ∃ container, state.mContainer timer = some container ∧
      state.stop client = ({ state with
        mTimer := Function.update state.mTimer client none
        mClient := Function.update state.mClient timer none
        mContainer := Function.update state.mContainer timer none
        msgQ := state.msgQ ++ [(container, .timerRemove timer)]
        ended := state.ended ++ [timer] }, some timer) := by
  have hclient := (h.client timer client).mpr hrunning
  have hne : state.mContainer timer ≠ none := by
    rw [Ne, ← h.container, hclient]
    exact Option.some_ne_none client
  obtain ⟨container, hcontainer⟩ := Option.ne_none_iff_exists'.mp hne
  refine ⟨container, hcontainer, ?_⟩
  simp only [stop, hrunning, destroyLocked, hcontainer, sendMsg]

/-- The links are those of four fields. -/
theorem Linked.of_eq {state next : LocTimers} (h : state.Linked)
    (hmTimer : next.mTimer = state.mTimer) (hmClient : next.mClient = state.mClient)
    (hmContainer : next.mContainer = state.mContainer)
    (hnext : next.nextAddress = state.nextAddress) : next.Linked := by
  constructor
  · rw [hmTimer, hmClient]
    exact h.client
  · rw [hmClient, hmContainer]
    exact h.container
  · rw [hmContainer, hnext]
    exact h.fresh

theorem stop_of_idle {state : LocTimers} {client : Nat} (h : state.mTimer client = none) :
    state.stop client = (state, none) := by
  simp only [stop, h]

theorem Linked.stop {state : LocTimers} (h : state.Linked) (client : Nat) :
    (state.stop client).1.Linked := by
  cases hrunning : state.mTimer client with
  | none => rwa [stop_of_idle hrunning]
  | some timer =>
      obtain ⟨container, -, hstop⟩ := h.stop_eq hrunning
      rw [hstop]
      refine ⟨fun other owner => ?_, fun other => ?_, fun other home hother => ?_⟩
      · dsimp only
        by_cases hother : other = timer
        · -- no client is left with the timer
          subst hother
          rw [Function.update_self]
          constructor
          · intro hnone
            cases hnone
          · intro howner
            by_cases hsame : owner = client
            · subst hsame
              rw [Function.update_self] at howner
              cases howner
            · rw [Function.update_of_ne hsame] at howner
              have hfirst := (h.client other client).mpr hrunning
              have hsecond := (h.client other owner).mpr howner
              exact absurd (Option.some.inj (hsecond.symm.trans hfirst)) hsame
        · rw [Function.update_of_ne hother, h.client]
          by_cases hsame : owner = client
          · subst hsame
            rw [Function.update_self, hrunning]
            constructor
            · intro heq
              exact absurd (Option.some.inj heq).symm hother
            · intro hnone
              cases hnone
          · rw [Function.update_of_ne hsame]
      · dsimp only
        by_cases hother : other = timer
        · subst hother
          simp
        · rw [Function.update_of_ne hother, Function.update_of_ne hother]
          exact h.container other
      · dsimp only at hother ⊢
        by_cases hsame : other = timer
        · subst hsame
          simp at hother
        · rw [Function.update_of_ne hsame] at hother
          exact h.fresh other home hother

/-- After a `stop()` no timer has the client. -/
theorem Linked.stop_client {state : LocTimers} (h : state.Linked) {client owner : Nat}
    {timer : LocTimerDelegate} (howner : (state.stop client).1.mClient timer = some owner) :
    state.mClient timer = some owner ∧ owner ≠ client := by
  cases hrunning : state.mTimer client with
  | none =>
      rw [stop_of_idle hrunning] at howner
      refine ⟨howner, ?_⟩
      rintro rfl
      rw [h.client, hrunning] at howner
      cases howner
  | some ended =>
      obtain ⟨container, -, hstop⟩ := h.stop_eq hrunning
      rw [hstop] at howner
      have hne : timer ≠ ended := by
        rintro rfl
        simp at howner
      dsimp only at howner
      rw [Function.update_of_ne hne] at howner
      refine ⟨howner, ?_⟩
      rintro rfl
      rw [h.client, hrunning] at howner
      exact hne (Option.some.inj howner).symm

theorem Linked.unused {state : LocTimers} (h : state.Linked) (mFutureTime : BootTime) :
    state.mContainer ⟨state.nextAddress, mFutureTime⟩ = none := by
  cases hcontainer : state.mContainer ⟨state.nextAddress, mFutureTime⟩ with
  | none => rfl
  | some container => exact absurd (h.fresh _ container hcontainer) (Nat.lt_irrefl _)

theorem Linked.start {state : LocTimers} (h : state.Linked) (client : Nat)
    (timeOutInMs : UInt32) (wakeOnExpire : Bool) :
    (state.start client timeOutInMs wakeOnExpire).Linked := by
  unfold LocTimers.start
  split
  · exact h
  · rename_i hidle
    have hunused := h.unused (state.now.afterMs timeOutInMs)
    have hnew := (h.container _).mpr hunused
    refine ⟨fun other owner => ?_, fun other => ?_, fun other home hother => ?_⟩
    · dsimp only [sendMsg]
      by_cases hother : other = ⟨state.nextAddress, state.now.afterMs timeOutInMs⟩
      · subst hother
        rw [Function.update_self]
        by_cases hsame : owner = client
        · subst hsame
          simp
        · rw [Function.update_of_ne hsame, ← h.client, hnew]
          constructor
          · intro heq
            exact absurd (Option.some.inj heq).symm hsame
          · intro hnone
            cases hnone
      · rw [Function.update_of_ne hother, h.client]
        by_cases hsame : owner = client
        · subst hsame
          rw [Function.update_self, hidle]
          constructor
          · intro hnone
            cases hnone
          · intro heq
            exact absurd (Option.some.inj heq).symm hother
        · rw [Function.update_of_ne hsame]
    · dsimp only [sendMsg]
      by_cases hother : other = ⟨state.nextAddress, state.now.afterMs timeOutInMs⟩
      · subst hother
        simp
      · rw [Function.update_of_ne hother, Function.update_of_ne hother]
        exact h.container other
    · dsimp only [sendMsg] at hother ⊢
      by_cases hsame : other = ⟨state.nextAddress, state.now.afterMs timeOutInMs⟩
      · subst hsame
        exact Nat.lt_succ_self _
      · rw [Function.update_of_ne hsame] at hother
        exact Nat.lt_succ_of_lt (h.fresh other home hother)

/-- A `start()` gives no timer a client but its own. -/
theorem start_client {state : LocTimers} {client owner : Nat} {timeOutInMs : UInt32}
    {wakeOnExpire : Bool} {timer : LocTimerDelegate}
    (howner : (state.start client timeOutInMs wakeOnExpire).mClient timer = some owner) :
    state.mClient timer = some owner ∨ owner = client := by
  unfold LocTimers.start at howner
  split at howner
  · exact .inl howner
  · dsimp only [sendMsg] at howner
    by_cases hsame : timer = ⟨state.nextAddress, state.now.afterMs timeOutInMs⟩
    · rw [hsame, Function.update_self] at howner
      exact .inr (Option.some.inj howner).symm
    · rw [Function.update_of_ne hsame] at howner
      exact .inl howner

theorem Linked.call {state : LocTimers} (h : state.Linked) (request : ClientCall) :
    (state.call request).Linked := by
  cases request with
  | start client timeOutInMs wakeOnExpire => exact h.start client timeOutInMs wakeOnExpire
  | stop client =>
      have hstopped := h.stop client
      rw [LocTimers.call]
      split
      · rename_i hstop
        rwa [hstop] at hstopped
      · rename_i hstop
        rw [hstop] at hstopped
        exact ⟨hstopped.client, hstopped.container, hstopped.fresh⟩

end LocTimers

end Msm8916.Timer
