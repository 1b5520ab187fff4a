import Msm8916.Lib.Transition
import Msm8916.MsgQ.LinkedList

/-!
The message queue of `gps/utils/msg_q.c` under any number of threads. Between a
lock and an unlock of `list_mutex` a thread runs alone, so each such section is
one step; a wait on `list_cond` ends one section and begins another.
-/

namespace Msm8916.MsgQ

open Transition

variable {α δ : Type*}

/-- `msq_q_err_type`. -/
inductive MsqQErr
  | success
  | failureGeneral
  | invalidParameter
  | invalidHandle
  | unavailableResource
  | insufficientBuffer
deriving DecidableEq, Repr

def convertLinkedListErrType : LinkedListErr → MsqQErr
  | .success => .success
  | .invalidParameter => .invalidParameter
  | .invalidHandle => .invalidHandle
  | .unavailableResource => .unavailableResource
  | .insufficientBuffer => .insufficientBuffer
  | .failureGeneral => .failureGeneral

/-- `msg_q`. For `list_cond` stand the threads that wait for it and those that
have been woken but do not have the mutex yet. -/
structure MsgQ (α δ : Type*) where
  msg_list : LinkedList α δ
  asleep : List Nat
  awake : List Nat
  unblocked : Bool

def msgQInit : MsgQ α δ := ⟨linkedListInit, [], [], false⟩

namespace MsgQ

/-- What `malloc` and `pthread_cond_signal` may answer: an address that is not in
use, and one of the waiting threads unless there is none. -/
def Admits (q : MsgQ α δ) (elem : Nat) (woken : Option Nat) : Prop :=
  elem ∉ q.msg_list.heap ∧
    match woken with
    | none => q.asleep = []
    | some thread => thread ∈ q.asleep

instance (q : MsgQ α δ) (elem : Nat) (woken : Option Nat) : Decidable (q.Admits elem woken) :=
  match woken with
  | none => inferInstanceAs (Decidable (_ ∧ q.asleep = []))
  | some thread => inferInstanceAs (Decidable (_ ∧ thread ∈ q.asleep))

/-- A thread leaves the wait on `list_cond`. -/
def wake (q : MsgQ α δ) (thread : Nat) : MsgQ α δ :=
  { q with asleep := q.asleep.erase thread, awake := thread :: q.awake }

def signal (q : MsgQ α δ) : Option Nat → MsgQ α δ
  | none => q
  | some thread => q.wake thread

/-- `pthread_cond_broadcast`. -/
def broadcast (q : MsgQ α δ) : MsgQ α δ :=
  { q with asleep := [], awake := q.asleep ++ q.awake }

end MsgQ

def msgQSnd (q : MsgQ α δ) (msg_obj : Option α) (dealloc : Option δ) (elem : Nat)
    (woken : Option Nat) : Option (MsgQ α δ × MsqQErr) :=
  match msg_obj with
  | none => some (q, .invalidParameter)
  | some _ =>
      if q.unblocked then
        some (q, .unavailableResource)
      else do
        let (list, rv) ← linkedListAdd q.msg_list msg_obj dealloc elem
        some ({ q with msg_list := list }.signal woken, convertLinkedListErrType rv)

/-- `msg_q_rcv` from the test of its loop on: it waits, or returns with what it
has copied to `msg_obj`. -/
def rcvLoop (q : MsgQ α δ) (thread : Nat) :
    Option (MsgQ α δ × Option (MsqQErr × Option α)) :=
  if linkedListEmpty q.msg_list && !q.unblocked then
    some ({ q with asleep := thread :: q.asleep }, none)
  else do
    let (list, rv, msg_obj) ← linkedListRemove q.msg_list
    some ({ q with msg_list := list }, some (convertLinkedListErrType rv, msg_obj))

def msgQRcv (q : MsgQ α δ) (thread : Nat) :
    Option (MsgQ α δ × Option (MsqQErr × Option α)) :=
  if q.unblocked then some (q, some (.unavailableResource, none)) else rcvLoop q thread

/-- A thread that was woken has the mutex again and goes on in `msg_q_rcv`. -/
def resume (q : MsgQ α δ) (thread : Nat) :
    Option (MsgQ α δ × Option (MsqQErr × Option α)) :=
  rcvLoop { q with awake := q.awake.erase thread } thread

def msgQFlush (q : MsgQ α δ) : Option (MsgQ α δ × MsqQErr × List (δ × α)) := do
  let (list, rv, calls) ← linkedListFlush q.msg_list
  some ({ q with msg_list := list }, convertLinkedListErrType rv, calls)

def msgQUnblock (q : MsgQ α δ) : MsgQ α δ × MsqQErr :=
  if q.unblocked then
    (q, .unavailableResource)
  else
    ({ q with unblocked := true }.broadcast, .success)

/-! ## What each section does -/

/-- What a queue holds, the oldest message first. -/
def Queued (q : MsgQ α δ) (items : List (α × Option δ)) : Prop := Represents q.msg_list items

theorem Queued.of_list {q other : MsgQ α δ} {items : List (α × Option δ)}
    (h : Queued q items) (hlist : other.msg_list = q.msg_list) : Queued other items := by
  rw [Queued, hlist]
  exact h

@[simp]
theorem MsgQ.signal_msg_list (q : MsgQ α δ) (woken : Option Nat) :
    (q.signal woken).msg_list = q.msg_list := by
  cases woken <;> rfl

@[simp]
theorem MsgQ.signal_unblocked (q : MsgQ α δ) (woken : Option Nat) :
    (q.signal woken).unblocked = q.unblocked := by
  cases woken <;> rfl

variable {q : MsgQ α δ} {items : List (α × Option δ)}

theorem msgQInit_queued : Queued (msgQInit : MsgQ α δ) [] := linkedListInit_represents

theorem msgQSnd_unblocked (h : q.unblocked = true) (msg_obj : Option α) (dealloc : Option δ)
    (elem : Nat) (woken : Option Nat) :
    ∃ rv, msgQSnd q msg_obj dealloc elem woken = some (q, rv) ∧ rv ≠ .success := by
  cases msg_obj with
  | none => exact ⟨.invalidParameter, rfl, by decide⟩
  | some data => exact ⟨.unavailableResource, by simp [msgQSnd, h], by decide⟩

/-- A message that is not refused is queued behind all others, and a waiting
thread is woken. -/
theorem msgQSnd_queued (h : Queued q items) (hopen : q.unblocked = false) {elem : Nat}
    {woken : Option Nat} (hadmits : q.Admits elem woken) (data : α) (dealloc : Option δ) :
    ∃ list, msgQSnd q (some data) dealloc elem woken =
        some ({ q with msg_list := list }.signal woken, .success) ∧
      Represents list (items ++ [(data, dealloc)]) := by
  obtain ⟨list, hadd, hlist⟩ := linkedListAdd_spec h hadmits.1 data dealloc
  refine ⟨list, ?_, hlist⟩
  simp [msgQSnd, hopen, hadd, convertLinkedListErrType]

theorem rcvLoop_wait (h : Queued q []) (hopen : q.unblocked = false) (thread : Nat) :
    rcvLoop q thread = some ({ q with asleep := thread :: q.asleep }, none) := by
  have hempty := linkedListEmpty_eq h
  simp [rcvLoop, hempty, hopen]

theorem rcvLoop_unblocked (h : Queued q []) (hunblocked : q.unblocked = true) (thread : Nat) :
    rcvLoop q thread = some (q, some (.unavailableResource, none)) := by
  rw [rcvLoop, if_neg (by simp [hunblocked]), linkedListRemove_nil h]
  rfl

/-- The oldest message is taken, whether the queue is unblocked or not. -/
theorem rcvLoop_take {data : α} {dealloc : Option δ} (h : Queued q ((data, dealloc) :: items))
    (thread : Nat) :
    ∃ list, rcvLoop q thread =
        some ({ q with msg_list := list }, some (.success, some data)) ∧
      Represents list items := by
  have hempty := linkedListEmpty_eq h
  obtain ⟨list, hremove, hlist⟩ := linkedListRemove_cons h
  refine ⟨list, ?_, hlist⟩
  simp [rcvLoop, hempty, hremove, convertLinkedListErrType]

theorem msgQFlush_spec (h : Queued q items) :
    ∃ list, msgQFlush q = some ({ q with msg_list := list }, .success,
        items.reverse.filterMap deallocCall) ∧
      Represents list [] := by
  obtain ⟨list, hflush, hlist⟩ := linkedListFlush_spec h
  refine ⟨list, ?_, hlist⟩
  simp [msgQFlush, hflush, convertLinkedListErrType]

theorem msgQUnblock_msg_list (q : MsgQ α δ) : (msgQUnblock q).1.msg_list = q.msg_list := by
  unfold msgQUnblock
  split
  · rfl
  · rfl

theorem msgQUnblock_unblocked (q : MsgQ α δ) : (msgQUnblock q).1.unblocked = true := by
  unfold msgQUnblock
  split
  · assumption
  · rfl

/-! ## Threads -/

/-- A queue with what has passed through it: the messages whose send succeeded,
those that were received, and the calls of their `dealloc`. -/
structure Traffic (α δ : Type*) where
  q : MsgQ α δ
  sent : List (α × Option δ)
  received : List α
  dealloced : List (δ × α)

/-- A section of a thread. A wait may end without a signal, hence `wakeUp`. -/
inductive Label (α δ : Type*)
  | snd (msg_obj : Option α) (dealloc : Option δ) (elem : Nat) (woken : Option Nat)
  | rcv (thread : Nat)
  | wakeUp (thread : Nat)
  | resume (thread : Nat)
  | flush
  | unblock

namespace Traffic

def init : Traffic α δ := ⟨msgQInit, [], [], []⟩

/-- The section of `msg_q_snd` is over. -/
def sends (state : Traffic α δ) (msg_obj : Option α) (dealloc : Option δ) :
    MsgQ α δ × MsqQErr → Traffic α δ
  | (q, rv) =>
      let delivered :=
        if rv = .success then (msg_obj.map fun data => (data, dealloc)).toList else []
      { state with q := q, sent := state.sent ++ delivered }

/-- A section of `msg_q_rcv` is over. -/
def receives (state : Traffic α δ) : MsgQ α δ × Option (MsqQErr × Option α) → Traffic α δ
  | (q, some (.success, msg_obj)) =>
      { state with q := q, received := state.received ++ msg_obj.toList }
  | (q, _) => { state with q := q }

def step (state : Traffic α δ) : Label α δ → Option (Traffic α δ)
  | .snd msg_obj dealloc elem woken =>
      if state.q.Admits elem woken then
        (msgQSnd state.q msg_obj dealloc elem woken).map (state.sends msg_obj dealloc)
      else
        none
  | .rcv thread =>
      if thread ∈ state.q.asleep ++ state.q.awake then
        none
      else
        (msgQRcv state.q thread).map state.receives
  | .wakeUp thread =>
      if thread ∈ state.q.asleep then some { state with q := state.q.wake thread } else none
  | .resume thread =>
      if thread ∈ state.q.awake then (resume state.q thread).map state.receives else none
  | .flush =>
      (msgQFlush state.q).map fun (q, _, calls) =>
        { state with q := q, dealloced := state.dealloced ++ calls }
  | .unblock => some { state with q := (msgQUnblock state.q).1 }

end Traffic

end Msm8916.MsgQ
