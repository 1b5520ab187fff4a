import Msm8916.Agps.Listing
import Msm8916.Lib.Arena

/-!
The `Subscriber` objects behind the list of a state machine. The model of the
machine lists values; here each listed value is an object, made by `clone` and
given up by `delete`, and every comparison by `forMe` or `equals` is a use of
the element and, if the notification names one, of the receiver. The searches
of the list are those of the machine's methods, in their order.
-/

namespace Msm8916.Agps

/-- The list as it lies in memory. -/
structure Store where
  listed : List (Nat × Subscriber)
  arena : Arena

namespace Store

def empty : Store := ⟨[], .empty⟩

/-- The call `forMe` or `equals` makes: it reads the element and the receiver. -/
def compare (rcver : Option Nat) (data : Nat × Subscriber) (arena : Arena) : Arena :=
  arena.use (data.1 :: rcver.toList)

/-- `linked_list_search` with a callback that accepts what `accepts` does, after
comparing it. -/
def search (accepts : Subscriber → Bool) (rcver : Option Nat) (rmIfFound : Bool)
    (store : Store) : Store × Option (Nat × Subscriber) :=
  let (listed, found, arena) :=
    linkedListSearch (fun data arena => (compare rcver data arena, accepts data.2)) rmIfFound
      store.listed store.arena
  (⟨listed, arena⟩, found)

/-- The loop of `notifySubscribers`: what a search takes off the list is
deleted. -/
def deleteUntilNone (accepts : Subscriber → Bool) (rcver : Option Nat) :
    Nat → Store → Store
  | 0, store => store
  | rounds + 1, store =>
      match store.search accepts rcver true with
      | (store, none) => store
      | (store, some data) =>
          deleteUntilNone accepts rcver rounds { store with arena := store.arena.delete data.1 }

/-- `notifySubscribers`. A callback that must not delete accepts nothing. -/
def notifySubscribers (store : Store) (notification : Notification) (rcver : Option Nat) :
    Store :=
  if notification.postNotifyDelete then
    deleteUntilNone
      (fun s => s.forMe notification &&
        AgpsStateMachine.handlesStatus notification.rsrcStatus) rcver
      (store.listed.length + 1) store
  else (store.search (fun _ => false) rcver false).1

/-- A search of the list with the callback `hasSubscriber`. -/
def findSubscriber (store : Store) (notification : Notification) (rcver : Option Nat) :
    Store × Option (Nat × Subscriber) :=
  store.search (fun s => s.forMe notification) rcver false

def firstActive (store : Store) : Store × Option (Nat × Subscriber) :=
  store.findSubscriber (.toGroup .broadcastActive .statusMax false) none

/-- `addSubscriber`. -/
def addSubscriber (store : Store) (data : Nat × Subscriber) : Store :=
  match store.findSubscriber (.toSubscriber data.2 .statusMax false) (some data.1) with
  | (store, some _) => store
  | (store, none) =>
      let (object, arena) := store.arena.construct
      ⟨(object, data.2.clone) :: store.listed, arena⟩

/-- `setInactive` of a listed subscriber. -/
def setInactive (store : Store) (data : Nat × Subscriber) : Store :=
  { store with
    listed := store.listed.map fun other =>
      if other.1 = data.1 then (other.1, other.2.deactivate) else other }

/-- Both `sendRsrcRequest` methods begin with the search for an active
subscriber. -/
def sendRsrcRequest (store : Store) : Store := store.firstActive.1

/-- How Pending, Acquired and Releasing take a subscriber out of service. -/
def dismiss (store : Store) (data : Nat × Subscriber) : Store :=
  if data.2.waitForCloseComplete then store.setInactive data
  else store.notifySubscribers (.toSubscriber data.2 .unsubscribe true) (some data.1)

/-- How Pending and Acquired go on once a subscriber is out of service. -/
def releaseIfUnused (store : Store) : Store :=
  if store.listed.isEmpty then store.sendRsrcRequest
  else
    match store.firstActive with
    | (store, none) => store.sendRsrcRequest
    | (store, some _) => store

/-- How Releasing ends. -/
def finishReleasing (store : Store) (status : AgpsRsrcStatus) : Store :=
  match (store.notifySubscribers (.toGroup .broadcastInactive status true) none).firstActive with
  | (store, some _) => store.sendRsrcRequest
  | (store, none) => store

/-- `onRsrcEvent` of the four states; `object` is the subscriber that comes with
the event. -/
def dispatch (store : Store) (state : AgpsState) (event : AgpsStateMachine.Event)
    (object : Nat) : Store :=
  match state, event with
  | .released, .subscribe s => (store.addSubscriber (object, s)).sendRsrcRequest
  | .released, .unsubscribe s =>
      { store with arena := compare (some object) (object, s) store.arena }
  | .released, _ => store
  | .pending, .subscribe s => store.addSubscriber (object, s)
  | .pending, .unsubscribe s => (store.dismiss (object, s)).releaseIfUnused
  | .pending, .granted =>
      store.notifySubscribers (.toGroup .broadcastActive .granted false) none
  | .pending, .released => store
  | .pending, .denied => store.notifySubscribers (.toGroup .broadcastAll .denied true) none
  | .acquired, .subscribe s =>
      { store with
        arena := compare (some object) (object, s) store.arena }.addSubscriber (object, s)
  | .acquired, .unsubscribe s => (store.dismiss (object, s)).releaseIfUnused
  | .acquired, .granted => store
  | .acquired, .released => store.notifySubscribers (.toGroup .broadcastAll .released true) none
  | .acquired, .denied => store
  | .releasing, .subscribe s => store.addSubscriber (object, s)
  | .releasing, .unsubscribe s => store.dismiss (object, s)
  | .releasing, .granted => store
  | .releasing, .released => store.finishReleasing .released
  | .releasing, .denied => store.finishReleasing .denied

/-- `linked_list_flush`, as `dropAllSubscribers` calls it. -/
def dropAllSubscribers (store : Store) : Store :=
  ⟨[], store.listed.foldl (fun arena data => arena.delete data.1) store.arena⟩

end Store

/-! ## Calls into a machine -/

/-- A machine with the objects behind its list. -/
structure Housed where
  machine : AgpsStateMachine
  store : Store

namespace Housed

/-- A machine that has just been constructed. -/
def new (machine : AgpsStateMachine) : Housed := ⟨machine, .empty⟩

/-- `mStatePtr = mStatePtr->onRsrcEvent(event, data)`. -/
def dispatch (housed : Housed) (event : AgpsStateMachine.Event) (object : Nat) (answer : Int) :
    Housed :=
  ⟨housed.machine.dispatch event answer,
    housed.store.dispatch housed.machine.mState event object⟩

/-- The virtual `onRsrcEvent`; these events come without a subscriber, and the
NULL is never looked at. -/
def onRsrcEvent (housed : Housed) (event : AgpsRsrcStatus) (answer : Int) : Housed :=
  match housed.machine.machineClass, event with
  | _, .granted => housed.dispatch .granted 0 answer
  | _, .denied => housed.dispatch .denied 0 answer
  | .agps, .released => housed.dispatch .released 0 answer
  | .ds, .released =>
      let next := housed.dispatch .released 0 answer
      if next.machine.mState = housed.machine.mState then next.dispatch .denied 0 answer
      else next
  | _, .subscribe | _, .unsubscribe | _, .statusMax => housed

/-- `subscribeRsrc` of a subscriber that lives as long as the call. -/
def subscribeRsrc (housed : Housed) (subscriber : Subscriber) (answer : Int) : Housed :=
  let (object, arena) := housed.store.arena.construct
  let store := { housed.store with arena }
  let store :=
    if housed.machine.mEnforceSingleSubscriber && housed.machine.hasSubscribers then
      { store with arena := Store.compare none (object, subscriber) arena }
    else store.dispatch housed.machine.mState (.subscribe subscriber) object
  ⟨housed.machine.subscribeRsrc subscriber answer,
    { store with arena := store.arena.leave object }⟩

/-- `unsubscribeRsrc`; the object found on the list is what comes with the
event. -/
def unsubscribeRsrc (housed : Housed) (subscriber : Subscriber) (answer : Int) : Housed :=
  let (object, arena) := housed.store.arena.construct
  let store :=
    match { housed.store with arena }.findSubscriber (.toSubscriber subscriber .statusMax false)
        (some object) with
    | (store, some data) => store.dispatch housed.machine.mState (.unsubscribe data.2) data.1
    | (store, none) => store
  ⟨(housed.machine.unsubscribeRsrc subscriber answer).1,
    { store with arena := store.arena.leave object }⟩

/-- `DSStateMachine::retryCallback`. -/
def retryCallback (housed : Housed) : Housed :=
  ⟨housed.machine.retryCallback, housed.store.firstActive.1⟩

def dropAllSubscribers (housed : Housed) : Housed :=
  ⟨{ housed.machine with mSubscribers := [] }, housed.store.dropAllSubscribers⟩

inductive Label where
  | call (label : AgpsStateMachine.Label)
  | dropAllSubscribers

/-- A call into the machine, whatever the kinds of its clients. -/
def call (housed : Housed) : AgpsStateMachine.Label → Option Housed
  | .subscribe subscriber answer => some (housed.subscribeRsrc subscriber answer)
  | .unsubscribe subscriber answer => some (housed.unsubscribeRsrc subscriber answer)
  | .rsrcEvent event answer => some (housed.onRsrcEvent event answer)
  | .setBearer bearer => some { housed with machine := { housed.machine with mBearer := bearer } }
  | .setAPN apn => some { housed with machine := { housed.machine with mAPN := apn } }
  | .retry =>
      if 0 < housed.machine.delayTimers then
        some { housed with
          machine := { housed.machine with
            delayTimers := housed.machine.delayTimers - 1 } }.retryCallback
      else none

def step (housed : Housed) : Label → Option Housed
  | .call label => { housed with machine := { housed.machine with log := [] } }.call label
  | .dropAllSubscribers => some housed.dropAllSubscribers

end Housed

end Msm8916.Agps
