import Msm8916.MsgQ.Queue

/-!
What becomes of the messages of a queue. A ledger keeps the messages in the order
their sends succeeded; the queue in memory follows it.
-/

namespace Msm8916.MsgQ

open Transition

variable {α δ : Type*}

inductive Fate
  | received
  | flushed
deriving DecidableEq, Repr

/-- The messages that have left the queue, each with its fate, and those behind
them, which are still queued. -/
structure Ledger (α δ : Type*) where
  settled : List ((α × Option δ) × Fate)
  queued : List (α × Option δ)

/-- What a receiver gets of a settled message. -/
def receipt : (α × Option δ) × Fate → Option α
  | (item, .received) => some item.1
  | (_, .flushed) => none

/-- The call of its `dealloc` that a settled message is owed. -/
def disposal : (α × Option δ) × Fate → Option (δ × α)
  | (_, .received) => none
  | (item, .flushed) => deallocCall item

namespace Ledger

def empty : Ledger α δ := ⟨[], []⟩

def sent (ledger : Ledger α δ) : List (α × Option δ) :=
  ledger.settled.map Prod.fst ++ ledger.queued

def received (ledger : Ledger α δ) : List α := ledger.settled.filterMap receipt

def dealloced (ledger : Ledger α δ) : List (δ × α) := ledger.settled.filterMap disposal

def send (ledger : Ledger α δ) (item : α × Option δ) : Ledger α δ :=
  { ledger with queued := ledger.queued ++ [item] }

def receive (ledger : Ledger α δ) (item : α × Option δ) (rest : List (α × Option δ)) :
    Ledger α δ :=
  ⟨ledger.settled ++ [(item, .received)], rest⟩

def flush (ledger : Ledger α δ) : Ledger α δ :=
  ⟨ledger.settled ++ ledger.queued.map fun item => (item, .flushed), []⟩

variable (ledger : Ledger α δ)

theorem sent_send (item : α × Option δ) : (ledger.send item).sent = ledger.sent ++ [item] := by
  simp [sent, send]

theorem sent_receive {item : α × Option δ} {rest : List (α × Option δ)}
    (h : ledger.queued = item :: rest) : (ledger.receive item rest).sent = ledger.sent := by
  simp [sent, receive, h]

theorem received_receive (item : α × Option δ) (rest : List (α × Option δ)) :
    (ledger.receive item rest).received = ledger.received ++ [item.1] := by
  simp [received, receive, receipt]

theorem dealloced_receive (item : α × Option δ) (rest : List (α × Option δ)) :
    (ledger.receive item rest).dealloced = ledger.dealloced := by
  simp [dealloced, receive, disposal]

theorem sent_flush : ledger.flush.sent = ledger.sent := by
  have hfst : (ledger.queued.map fun item => (item, Fate.flushed)).map Prod.fst =
      ledger.queued := by
    rw [List.map_map]
    exact List.map_id _
  simp only [sent, flush, List.map_append, hfst, List.append_nil]

theorem received_flush : ledger.flush.received = ledger.received := by
  have hnone : (ledger.queued.map fun item => (item, Fate.flushed)).filterMap receipt = [] := by
    simp [receipt]
  rw [received, flush, List.filterMap_append, hnone, List.append_nil, received]

theorem dealloced_flush :
    ledger.flush.dealloced = ledger.dealloced ++ ledger.queued.filterMap deallocCall := by
  have hcalls : (ledger.queued.map fun item => (item, Fate.flushed)).filterMap disposal =
      ledger.queued.filterMap deallocCall := by
    rw [List.filterMap_map]
    rfl
  rw [dealloced, flush, List.filterMap_append, hcalls, dealloced]

end Ledger

/-- The traffic of a queue is as the ledger has it: the messages sent, in order,
are those settled and then those in memory; the receivers got exactly the ones
received, in that order; and `dealloc` was called exactly for the ones flushed. -/
structure Records (state : Traffic α δ) (ledger : Ledger α δ) : Prop where
  queued : Queued state.q ledger.queued
  sent : state.sent = ledger.sent
  received : state.received = ledger.received
  dealloced : state.dealloced.Perm ledger.dealloced

theorem init_records : Records (Traffic.init : Traffic α δ) Ledger.empty :=
  ⟨msgQInit_queued, rfl, rfl, List.Perm.nil⟩

namespace Records

variable {state next : Traffic α δ} {ledger : Ledger α δ}

/-- A step that leaves the list and the traffic alone. -/
theorem of_queue (h : Records state ledger) {q : MsgQ α δ}
    (hlist : q.msg_list = state.q.msg_list) : Records { state with q := q } ledger :=
  ⟨h.queued.of_list hlist, h.sent, h.received, h.dealloced⟩

/-- One step of the ledger for each section of the threads. Only a queue that has
not been unblocked takes a message, and it is not opened again. -/
structure Follows (state next : Traffic α δ) : Prop where
  records : ∃ ledger, Records next ledger
  closed : state.q.unblocked = true → next.q.unblocked = true ∧ next.sent = state.sent

theorem snd (h : Records state ledger) {msg_obj : Option α} {dealloc : Option δ} {elem : Nat}
    {woken : Option Nat} (hstep : state.step (.snd msg_obj dealloc elem woken) = some next) :
    Follows state next := by
  simp only [Traffic.step] at hstep
  split at hstep
  · rename_i hadmits
    cases hunblocked : state.q.unblocked with
    | true =>
        obtain ⟨rv, hsnd, hrefused⟩ := msgQSnd_unblocked hunblocked msg_obj dealloc elem woken
        rw [hsnd, Option.map_some, Option.some.injEq] at hstep
        have hnext : next = state := by
          simp [← hstep, Traffic.sends, hrefused]
        rw [hnext]
        exact ⟨⟨ledger, h⟩, fun _ => ⟨hunblocked, rfl⟩⟩
    | false =>
        cases msg_obj with
        | none =>
            simp only [msgQSnd, Option.map_some, Option.some.injEq] at hstep
            have hnext : next = state := by simp [← hstep, Traffic.sends]
            rw [hnext]
            exact ⟨⟨ledger, h⟩, fun hclosed => absurd hclosed (by simp [hunblocked])⟩
        | some data =>
            obtain ⟨list, hsnd, hlist⟩ := msgQSnd_queued h.queued hunblocked hadmits data dealloc
            rw [hsnd, Option.map_some, Option.some.injEq] at hstep
            subst hstep
            refine ⟨⟨ledger.send (data, dealloc), ?_, ?_, h.received, h.dealloced⟩,
              fun hclosed => absurd hclosed (by simp [hunblocked])⟩
            · change Represents (MsgQ.signal _ woken).msg_list _
              rw [MsgQ.signal_msg_list]
              exact hlist
            · rw [Ledger.sent_send, ← h.sent]
              rfl
  · cases hstep

/-- A receiver takes the oldest message, waits or is turned away. -/
theorem rcvLoop (h : Records state ledger) {q : MsgQ α δ}
    (hlist : q.msg_list = state.q.msg_list) (hflag : q.unblocked = state.q.unblocked)
    (thread : Nat) :
    ∃ result, MsgQ.rcvLoop q thread = some result ∧ Follows state (state.receives result) := by
  have hqueued : Queued q ledger.queued := h.queued.of_list hlist
  cases hitems : ledger.queued with
  | nil =>
      rw [hitems] at hqueued
      cases hunblocked : q.unblocked with
      | true =>
          refine ⟨_, rcvLoop_unblocked hqueued hunblocked thread, ⟨ledger, h.of_queue hlist⟩, ?_⟩
          exact fun _ => ⟨hunblocked, rfl⟩
      | false =>
          refine ⟨_, rcvLoop_wait hqueued hunblocked thread, ⟨ledger, h.of_queue hlist⟩, ?_⟩
          intro hclosed
          rw [← hflag, hunblocked] at hclosed
          cases hclosed
  | cons item rest =>
      rw [hitems] at hqueued
      obtain ⟨list, hloop, hrest⟩ := rcvLoop_take hqueued thread
      refine ⟨_, hloop, ⟨ledger.receive item rest, hrest, ?_, ?_, ?_⟩,
        fun hclosed => ⟨hflag.trans hclosed, rfl⟩⟩
      · rw [Ledger.sent_receive ledger hitems]
        exact h.sent
      · rw [Ledger.received_receive, ← h.received]
        rfl
      · rw [Ledger.dealloced_receive]
        exact h.dealloced

theorem rcv (h : Records state ledger) {thread : Nat}
    (hstep : state.step (.rcv thread) = some next) : Follows state next := by
  simp only [Traffic.step] at hstep
  split at hstep
  · cases hstep
  · cases hunblocked : state.q.unblocked with
    | true =>
        simp only [msgQRcv, hunblocked, if_true, Option.map_some, Option.some.injEq] at hstep
        have hnext : next = state := hstep.symm
        rw [hnext]
        exact ⟨⟨ledger, h⟩, fun _ => ⟨hunblocked, rfl⟩⟩
    | false =>
        obtain ⟨result, hloop, hfollows⟩ := h.rcvLoop rfl rfl thread
        simp only [msgQRcv, hunblocked, Bool.false_eq_true, if_false, hloop, Option.map_some,
          Option.some.injEq] at hstep
        rw [← hstep]
        exact hfollows

theorem resume (h : Records state ledger) {thread : Nat}
    (hstep : state.step (.resume thread) = some next) : Follows state next := by
  simp only [Traffic.step] at hstep
  split at hstep
  · obtain ⟨result, hloop, hfollows⟩ :=
      h.rcvLoop (q := { state.q with awake := state.q.awake.erase thread }) rfl rfl thread
    rw [MsgQ.resume, hloop, Option.map_some, Option.some.injEq] at hstep
    rw [← hstep]
    exact hfollows
  · cases hstep

theorem flush (h : Records state ledger) (hstep : state.step .flush = some next) :
    Follows state next := by
  obtain ⟨list, hflush, hempty⟩ := msgQFlush_spec h.queued
  simp only [Traffic.step, hflush, Option.map_some, Option.some.injEq] at hstep
  subst hstep
  refine ⟨⟨ledger.flush, hempty, ?_, ?_, ?_⟩, fun hclosed => ⟨hclosed, rfl⟩⟩
  · rw [Ledger.sent_flush]
    exact h.sent
  · rw [Ledger.received_flush]
    exact h.received
  · rw [Ledger.dealloced_flush]
    exact h.dealloced.append ((List.reverse_perm _).filterMap _)

theorem step (h : Records state ledger) {label : Label α δ}
    (hstep : state.step label = some next) : Follows state next := by
  cases label with
  | snd msg_obj dealloc elem woken => exact h.snd hstep
  | rcv thread => exact h.rcv hstep
  | wakeUp thread =>
      simp only [Traffic.step] at hstep
      split at hstep
      · cases hstep
        exact ⟨⟨ledger, h.of_queue rfl⟩, fun hclosed => ⟨hclosed, rfl⟩⟩
      · cases hstep
  | resume thread => exact h.resume hstep
  | flush => exact h.flush hstep
  | unblock =>
      cases hstep
      exact ⟨⟨ledger, h.of_queue (msgQUnblock_msg_list _)⟩,
        fun _ => ⟨msgQUnblock_unblocked _, rfl⟩⟩

end Records

theorem records_of_reachable {state : Traffic α δ}
    (h : Reachable Traffic.step Traffic.init state) : ∃ ledger, Records state ledger := by
  refine invariant_of_step (I := fun other => ∃ ledger, Records other ledger) ?_
    ⟨Ledger.empty, init_records⟩ h
  rintro before label after ⟨ledger, hrecords⟩ hstep
  exact (hrecords.step hstep).records

/-- An unblocked queue takes no more messages. -/
theorem sent_of_unblocked {state final : Traffic α δ} {labels : List (Label α δ)}
    (h : ∃ ledger, Records state ledger) (hunblocked : state.q.unblocked = true)
    (hrun : exec Traffic.step state labels = some final) : final.sent = state.sent := by
  have hkept : (∃ ledger, Records final ledger) ∧ final.q.unblocked = true ∧
      final.sent = state.sent := by
    refine invariant_of_step (I := fun other => (∃ ledger, Records other ledger) ∧
      other.q.unblocked = true ∧ other.sent = state.sent) ?_ ⟨h, hunblocked, rfl⟩ ⟨labels, hrun⟩
    rintro before label after ⟨⟨ledger, hrecords⟩, hclosed, hsent⟩ hstep
    have hfollows := hrecords.step hstep
    exact ⟨hfollows.records, (hfollows.closed hclosed).1, (hfollows.closed hclosed).2.trans hsent⟩
  exact hkept.2.2

/-- In every run the messages come in the order their sends succeeded: first
those that have left the queue, each received once or flushed, then those still
in memory. The receivers got exactly the received ones, in that order, `dealloc`
was called once for each of the flushed ones that has it, and from an unblock on
no send succeeds. -/
theorem fifo_without_loss {labels : List (Label α δ)} {state : Traffic α δ}
    (hrun : exec Traffic.step Traffic.init labels = some state) :
    (∃ (settled : List ((α × Option δ) × Fate)) (queued : List (α × Option δ)),
      Queued state.q queued ∧
      state.sent = settled.map Prod.fst ++ queued ∧
      state.received = settled.filterMap receipt ∧
      state.dealloced.Perm (settled.filterMap disposal)) ∧
    ∀ next rest final, state.step .unblock = some next →
      exec Traffic.step next rest = some final → final.sent = state.sent := by
  have hreach : Reachable Traffic.step Traffic.init state := ⟨labels, hrun⟩
  obtain ⟨ledger, hrecords⟩ := records_of_reachable hreach
  refine ⟨⟨ledger.settled, ledger.queued, hrecords.queued, hrecords.sent, hrecords.received,
    hrecords.dealloced⟩, fun next rest final hunblock hrest => ?_⟩
  have hafter := records_of_reachable (hreach.next hunblock)
  cases hunblock
  have hsent := sent_of_unblocked hafter (msgQUnblock_unblocked _) hrest
  exact hsent

/-- A receiver waits, is woken by the first of two messages and takes it; the
second is flushed, and a third is refused. -/
def handover : List (Label Nat Nat) :=
  [.rcv 1, .snd (some 10) (some 7) 100 (some 1), .snd (some 20) (some 7) 200 none, .resume 1,
    .flush, .unblock, .snd (some 30) (some 7) 100 none]

theorem fifo_without_loss_handover : ∃ state : Traffic Nat Nat,
    exec Traffic.step Traffic.init handover = some state ∧
    state.received = [10] ∧ state.dealloced = [(7, 20)] ∧
    ∃ (settled : List ((Nat × Option Nat) × Fate)) (queued : List (Nat × Option Nat)),
      Queued state.q queued ∧
      state.sent = settled.map Prod.fst ++ queued ∧
      state.received = settled.filterMap receipt ∧
      state.dealloced.Perm (settled.filterMap disposal) :=
  ⟨_, rfl, rfl, rfl, (@fifo_without_loss Nat Nat handover _ rfl).1⟩

/-! ## Progress -/

namespace Traffic

/-- What the other side of a section allows: the answers of `malloc` and the
condition variable, and where the thread is. -/
def Possible (state : Traffic α δ) : Label α δ → Prop
  | .snd _ _ elem woken => state.q.Admits elem woken
  | .rcv thread => thread ∉ state.q.asleep ++ state.q.awake
  | .wakeUp thread => thread ∈ state.q.asleep
  | .resume thread => thread ∈ state.q.awake
  | .flush => True
  | .unblock => True

/-- No section reads memory that has been freed or runs on in a loop. -/
theorem step_isSome_iff {state : Traffic α δ} (h : Reachable step init state)
    (label : Label α δ) : (state.step label).isSome ↔ state.Possible label := by
  obtain ⟨ledger, hrecords⟩ := records_of_reachable h
  cases label with
  | snd msg_obj dealloc elem woken =>
      by_cases hadmits : state.q.Admits elem woken
      · simp only [step, Possible, hadmits, if_true, Option.isSome_map, iff_true]
        cases hunblocked : state.q.unblocked with
        | true =>
            obtain ⟨rv, hsnd, -⟩ := msgQSnd_unblocked hunblocked msg_obj dealloc elem woken
            rw [hsnd, Option.isSome_some]
        | false =>
            cases msg_obj with
            | none => rfl
            | some data =>
                obtain ⟨list, hsnd, -⟩ :=
                  msgQSnd_queued hrecords.queued hunblocked hadmits data dealloc
                rw [hsnd, Option.isSome_some]
      · simp [step, Possible, hadmits]
  | rcv thread =>
      by_cases hthread : thread ∈ state.q.asleep ++ state.q.awake
      · simp only [step, Possible, hthread, if_true, Option.isSome_none, not_true,
          Bool.false_eq_true]
      · simp only [step, Possible, hthread, if_false, Option.isSome_map, not_false_eq_true,
          iff_true, msgQRcv]
        split
        · rfl
        · obtain ⟨result, hloop, -⟩ := hrecords.rcvLoop rfl rfl thread
          rw [hloop, Option.isSome_some]
  | wakeUp thread =>
      by_cases hthread : thread ∈ state.q.asleep
      · simp [step, Possible, hthread]
      · simp [step, Possible, hthread]
  | resume thread =>
      by_cases hthread : thread ∈ state.q.awake
      · obtain ⟨result, hloop, -⟩ := hrecords.rcvLoop
          (q := { state.q with awake := state.q.awake.erase thread }) rfl rfl thread
        simp [step, Possible, hthread, MsgQ.resume, hloop]
      · simp [step, Possible, hthread]
  | flush =>
      obtain ⟨list, hflush, -⟩ := msgQFlush_spec hrecords.queued
      simp [step, Possible, hflush]
  | unblock => simp [step, Possible]

end Traffic

end Msm8916.MsgQ
