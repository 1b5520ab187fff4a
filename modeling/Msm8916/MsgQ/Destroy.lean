import Msm8916.MsgQ.Task

/-!
When the messages handed to a task are all deleted, and none of them twice.
-/

namespace Msm8916.MsgQ

open Transition

variable {α δ : Type*}

/-! ## The flag of the queue -/

theorem msgQSnd_keeps {q next : MsgQ α δ} {msg_obj : Option α} {dealloc : Option δ}
    {elem : Nat} {woken : Option Nat} {rv : MsqQErr}
    (h : msgQSnd q msg_obj dealloc elem woken = some (next, rv)) :
    next.unblocked = q.unblocked := by
  unfold msgQSnd at h
  split at h
  · cases h
    rfl
  · split at h
    · cases h
      rfl
    · obtain ⟨added, -, hnext⟩ := Option.bind_eq_some_iff.mp h
      cases hnext
      exact MsgQ.signal_unblocked _ _

theorem rcvLoop_keeps {q next : MsgQ α δ} {thread : Nat} {result : Option (MsqQErr × Option α)}
    (h : rcvLoop q thread = some (next, result)) : next.unblocked = q.unblocked := by
  unfold rcvLoop at h
  split at h
  · cases h
    rfl
  · obtain ⟨removed, -, hnext⟩ := Option.bind_eq_some_iff.mp h
    cases hnext
    rfl

theorem resume_keeps {q next : MsgQ α δ} {thread : Nat} {result : Option (MsqQErr × Option α)}
    (h : resume q thread = some (next, result)) : next.unblocked = q.unblocked :=
  rcvLoop_keeps (q := { q with awake := q.awake.erase thread }) h

theorem msgQRcv_keeps {q next : MsgQ α δ} {thread : Nat} {result : Option (MsqQErr × Option α)}
    (h : msgQRcv q thread = some (next, result)) : next.unblocked = q.unblocked := by
  unfold msgQRcv at h
  split at h
  · cases h
    rfl
  · exact rcvLoop_keeps h

theorem msgQFlush_keeps {q next : MsgQ α δ} {rv : MsqQErr} {calls : List (δ × α)}
    (h : msgQFlush q = some (next, rv, calls)) : next.unblocked = q.unblocked := by
  obtain ⟨flushed, -, hnext⟩ := Option.bind_eq_some_iff.mp h
  cases hnext
  rfl

namespace MsgTask

/-! ## The two sides -/

/-- The queue takes messages. -/
def Open (state : MsgTask) : Prop := ∃ q, state.mQ = some q ∧ q.unblocked = false

instance (state : MsgTask) : Decidable state.Open :=
  match hqueue : state.mQ with
  | none => isFalse (by simp [Open, hqueue])
  | some q => decidable_of_iff (q.unblocked = false) (by simp [Open, hqueue])

/-- The caller of `destroy` deletes the task, or will once it gets there. -/
def Alone (state : MsgTask) : Prop :=
  state.mThread = false ∧ (state.destroyPoint = .idle ∨ state.destroyPoint = .unblocked) ∨
    state.destroyPoint = .flushing ∨ state.destroyPoint = .destroying

/-- What holds of the points the two threads have reached and of the fields they
share. -/
structure Stage (state : MsgTask) : Prop where
  closed : state.destroyPoint ≠ .idle → ¬ state.Open
  starting : state.taskPoint = .start → state.mRunnable = false → state.destroyPoint ≠ .idle
  missed : state.taskPoint = .missed → state.destroyPoint ≠ .idle
  gone : state.taskPoint = .finished → state.mQ = none
  spawned : (state.mThread = true ∨ state.destroyPoint = .released ∨
    state.destroyPoint = .joining) → state.taskPoint ≠ .absent
  ended : state.destroyPoint = .finished → state.taskPoint = .absent → state.mQ = none
  alone : state.Alone → state.taskPoint = .absent

theorem init_stage (created joinable : Bool) : (init created joinable).Stage := by
  cases created with
  | true => constructor <;> simp [init, Alone]
  | false => constructor <;> simp [init]

/-- How a step changes the queue: it is not created again, and only the caller of
`destroy` unblocks it. -/
structure QueueKept (state next : MsgTask) : Prop where
  gone : state.mQ = none → next.mQ = none
  closed : next.Open → state.Open

theorem QueueKept.of_eq {state next : MsgTask} (h : next.mQ = state.mQ) :
    QueueKept state next := by
  constructor
  · intro hgone
    rw [h, hgone]
  · intro hopen
    rwa [Open, h] at hopen

theorem QueueKept.of_some {state next : MsgTask} {q after : MsgQ Nat Unit}
    (hqueue : state.mQ = some q) (hnext : next.mQ = some after)
    (hkept : after.unblocked = q.unblocked) : QueueKept state next := by
  constructor
  · intro hgone
    rw [hqueue] at hgone
    cases hgone
  · rintro ⟨other, hother, hopen⟩
    rw [hnext, Option.some.injEq] at hother
    exact ⟨q, hqueue, by rw [← hkept, hother, hopen]⟩

variable {state next : MsgTask}

/-- Neither thread has moved. -/
structure SameControl (state next : MsgTask) : Prop where
  task : next.taskPoint = state.taskPoint
  destroy : next.destroyPoint = state.destroyPoint
  runnable : next.mRunnable = state.mRunnable
  thread : next.mThread = state.mThread

theorem Stage.of_same (h : state.Stage) (hqueue : QueueKept state next)
    (hsame : SameControl state next) : next.Stage := by
  constructor
  · intro hpoint hopen
    rw [hsame.destroy] at hpoint
    exact h.closed hpoint (hqueue.closed hopen)
  · rw [hsame.task, hsame.runnable, hsame.destroy]
    exact h.starting
  · rw [hsame.task, hsame.destroy]
    exact h.missed
  · rw [hsame.task]
    exact fun hpoint => hqueue.gone (h.gone hpoint)
  · rw [hsame.task, hsame.thread, hsame.destroy]
    exact h.spawned
  · rw [hsame.task, hsame.destroy]
    exact fun hended hpoint => hqueue.gone (h.ended hended hpoint)
  · rw [Alone, hsame.task, hsame.thread, hsame.destroy]
    exact h.alone

theorem sendMsg_kept {elem : Nat} {woken : Option Nat}
    (h : state.sendMsg elem woken = some next) :
    QueueKept state next ∧ SameControl state next := by
  unfold sendMsg at h
  split at h
  · cases h
    exact ⟨.of_eq rfl, rfl, rfl, rfl, rfl⟩
  · rename_i q hqueue
    split at h
    · obtain ⟨⟨after, rv⟩, hsnd, hnext⟩ := Option.bind_eq_some_iff.mp h
      cases hnext
      exact ⟨.of_some hqueue rfl (msgQSnd_keeps hsnd), rfl, rfl, rfl, rfl⟩
    · cases h

theorem flush_kept (h : state.flush = some next) :
    QueueKept state next ∧ SameControl state next := by
  unfold flush at h
  split at h
  · cases h
    exact ⟨.of_eq rfl, rfl, rfl, rfl, rfl⟩
  · rename_i q hqueue
    obtain ⟨⟨after, rv, calls⟩, hflush, hnext⟩ := Option.bind_eq_some_iff.mp h
    cases hnext
    exact ⟨.of_some hqueue rfl (msgQFlush_keeps hflush), rfl, rfl, rfl, rfl⟩

theorem destroyQ_kept (h : state.destroyQ = some next) :
    next.mQ = none ∧ SameControl state next := by
  unfold destroyQ at h
  split at h
  · rename_i hqueue
    cases h
    exact ⟨hqueue, rfl, rfl, rfl, rfl⟩
  · obtain ⟨flushed, -, hnext⟩ := Option.bind_eq_some_iff.mp h
    cases hnext
    exact ⟨rfl, rfl, rfl, rfl, rfl⟩

theorem QueueKept.of_none (h : next.mQ = none) : QueueKept state next := by
  constructor
  · exact fun _ => h
  · rintro ⟨q, hqueue, -⟩
    rw [h] at hqueue
    cases hqueue

/-- What a step of the spawned thread does to the fields that are shared. -/
structure TaskMove (state next : MsgTask) : Prop where
  queue : QueueKept state next
  destroy : next.destroyPoint = state.destroyPoint
  thread : next.mThread = state.mThread
  created : state.taskPoint ≠ .absent ∧ next.taskPoint ≠ .absent
  started : next.taskPoint ≠ .start
  missed : next.taskPoint = .missed → state.taskPoint = .start ∧ state.mRunnable = false
  gone : next.taskPoint = .finished → next.mQ = none

theorem received_move {q : MsgQ Nat Unit} {result : MsgQ Nat Unit × Option (MsqQErr × Option Nat)}
    (hqueue : state.mQ = some q) (hkept : result.1.unblocked = q.unblocked)
    (hcreated : state.taskPoint ≠ .absent) : TaskMove state (state.received result) := by
  obtain ⟨after, result⟩ := result
  rcases result with _ | ⟨rv, msg⟩
  · exact ⟨.of_some hqueue rfl hkept, rfl, rfl, ⟨hcreated, nofun⟩, nofun, nofun, nofun⟩
  · have hleaving : TaskMove state { state with mQ := some after, taskPoint := .leaving } :=
      ⟨.of_some hqueue rfl hkept, rfl, rfl, ⟨hcreated, nofun⟩, nofun, nofun, nofun⟩
    cases rv with
    | success =>
        cases msg with
        | none => exact hleaving
        | some msg =>
            exact ⟨.of_some hqueue rfl hkept, rfl, rfl, ⟨hcreated, nofun⟩, nofun, nofun, nofun⟩
    | _ => exact hleaving

theorem taskStep_move (h : state.taskStep = some next) : TaskMove state next := by
  unfold taskStep at h
  split at h
  · rename_i hpoint
    cases h
    cases hrunnable : state.mRunnable with
    | true =>
        exact ⟨.of_eq rfl, rfl, rfl, ⟨by simp [hpoint], by simp⟩, by simp, by simp, by simp⟩
    | false =>
        exact ⟨.of_eq rfl, rfl, rfl, ⟨by simp [hpoint], by simp⟩, by simp,
          fun _ => ⟨hpoint, hrunnable⟩, by simp⟩
  · rename_i hpoint
    cases h
    cases hrunnable : state.mRunnable with
    | true =>
        exact ⟨.of_eq rfl, rfl, rfl, ⟨by simp [hpoint], by simp⟩, by simp, by simp, by simp⟩
    | false =>
        exact ⟨.of_eq rfl, rfl, rfl, ⟨by simp [hpoint], by simp⟩, by simp, by simp, by simp⟩
  · rename_i hpoint
    split at h
    · cases h
      exact ⟨.of_eq rfl, rfl, rfl, ⟨by simp [hpoint], nofun⟩, nofun, nofun, nofun⟩
    · rename_i q hqueue
      obtain ⟨result, hrcv, rfl⟩ := Option.map_eq_some_iff.mp h
      exact received_move hqueue (msgQRcv_keeps hrcv) (by simp [hpoint])
  · rename_i hpoint
    split at h
    · cases h
    · rename_i q hqueue
      split at h
      · obtain ⟨result, hrcv, rfl⟩ := Option.map_eq_some_iff.mp h
        exact received_move hqueue (resume_keeps hrcv) (by simp [hpoint])
      · cases h
  · rename_i msg hpoint
    cases h
    exact ⟨.of_eq rfl, rfl, rfl, ⟨by simp [hpoint], nofun⟩, nofun, nofun, nofun⟩
  · rename_i hpoint
    cases h
    exact ⟨.of_eq rfl, rfl, rfl, ⟨by simp [hpoint], nofun⟩, nofun, nofun, nofun⟩
  · rename_i hpoint
    obtain ⟨hqueue, hsame⟩ := flush_kept h
    have hnext : next.taskPoint = .destroying := hsame.task
    exact ⟨⟨hqueue.gone, hqueue.closed⟩, hsame.destroy, hsame.thread,
      ⟨by simp [hpoint], by simp [hnext]⟩, by simp [hnext], by simp [hnext], by simp [hnext]⟩
  · rename_i hpoint
    obtain ⟨hgone, hsame⟩ := destroyQ_kept h
    have hnext : next.taskPoint = .finished := hsame.task
    exact ⟨.of_none hgone, hsame.destroy, hsame.thread, ⟨by simp [hpoint], by simp [hnext]⟩,
      by simp [hnext], by simp [hnext], fun _ => hgone⟩
  · cases h
  · cases h
  · cases h

/-- What a step of the caller of `destroy` does to the fields that are shared. -/
structure DestroyMove (state next : MsgTask) : Prop where
  queue : QueueKept state next
  task : next.taskPoint = state.taskPoint
  begun : next.destroyPoint ≠ .idle
  closed : state.destroyPoint = .idle → ¬ next.Open
  thread : next.mThread = true → state.mThread = true
  released : next.destroyPoint = .released → state.mThread = true
  joining : next.destroyPoint = .joining → state.destroyPoint = .released
  ended : next.destroyPoint = .finished →
    state.destroyPoint = .released ∨ state.destroyPoint = .joining ∨ next.mQ = none
  alone : next.Alone → state.Alone

theorem destroyStep_move (h : state.destroyStep = some next) : DestroyMove state next := by
  unfold destroyStep at h
  split at h
  · rename_i hpoint
    cases h
    have hclosed : ¬ ({ state with
        mQ := state.mQ.map fun q => (msgQUnblock q).1, destroyPoint := .unblocked }).Open := by
      rintro ⟨q, hqueue, hopen⟩
      obtain ⟨before, -, rfl⟩ := Option.map_eq_some_iff.mp hqueue
      rw [msgQUnblock_unblocked] at hopen
      cases hopen
    exact ⟨⟨fun hgone => by simp [hgone], fun hopen => absurd hopen hclosed⟩, rfl, nofun,
      fun _ => hclosed, id, nofun, nofun, nofun, by simp [Alone, hpoint]⟩
  · rename_i hpoint
    split at h
    · rename_i hthread
      cases h
      exact ⟨.of_eq rfl, rfl, nofun, by simp [hpoint], nofun, fun _ => hthread, nofun, nofun,
        by simp [Alone]⟩
    · rename_i hthread
      cases h
      exact ⟨.of_eq rfl, rfl, nofun, by simp [hpoint], id, nofun, nofun, nofun,
        fun _ => .inl ⟨Bool.eq_false_iff.mpr hthread, .inr hpoint⟩⟩
  · rename_i hpoint
    split at h
    · cases h
      exact ⟨.of_eq rfl, rfl, nofun, by simp [hpoint], id, nofun, fun _ => hpoint, nofun,
        by simp [Alone]⟩
    · cases h
      exact ⟨.of_eq rfl, rfl, nofun, by simp [hpoint], id, nofun, nofun, fun _ => .inl hpoint,
        by simp [Alone]⟩
  · rename_i hpoint
    split at h
    · cases h
      exact ⟨.of_eq rfl, rfl, nofun, by simp [hpoint], id, nofun, nofun,
        fun _ => .inr (.inl hpoint), by simp [Alone]⟩
    · cases h
  · rename_i hpoint
    obtain ⟨hqueue, hsame⟩ := flush_kept h
    have hnext : next.destroyPoint = .destroying := hsame.destroy
    exact ⟨⟨hqueue.gone, hqueue.closed⟩, hsame.task, by simp [hnext], by simp [hpoint],
      fun hthread => hsame.thread ▸ hthread, by simp [hnext], by simp [hnext], by simp [hnext],
      fun _ => .inr (.inl hpoint)⟩
  · rename_i hpoint
    obtain ⟨hgone, hsame⟩ := destroyQ_kept h
    have hnext : next.destroyPoint = .finished := hsame.destroy
    exact ⟨.of_none hgone, hsame.task, by simp [hnext], by simp [hpoint],
      fun hthread => hsame.thread ▸ hthread, by simp [hnext], by simp [hnext],
      fun _ => .inr (.inr hgone), fun _ => .inr (.inr hpoint)⟩
  · cases h

theorem Stage.task (h : state.Stage) (hmove : TaskMove state next) : next.Stage := by
  constructor
  · rw [hmove.destroy]
    exact fun hpoint hopen => h.closed hpoint (hmove.queue.closed hopen)
  · exact fun hpoint => absurd hpoint hmove.started
  · rw [hmove.destroy]
    intro hpoint
    obtain ⟨hstart, hrunnable⟩ := hmove.missed hpoint
    exact h.starting hstart hrunnable
  · exact hmove.gone
  · exact fun _ => hmove.created.2
  · exact fun _ hpoint => absurd hpoint hmove.created.2
  · rw [Alone, hmove.thread, hmove.destroy]
    exact fun halone => absurd (h.alone halone) hmove.created.1

theorem Stage.destroy (h : state.Stage) (hmove : DestroyMove state next) : next.Stage := by
  constructor
  · intro _ hopen
    by_cases hidle : state.destroyPoint = .idle
    · exact hmove.closed hidle hopen
    · exact h.closed hidle (hmove.queue.closed hopen)
  · exact fun _ _ => hmove.begun
  · exact fun _ => hmove.begun
  · rw [hmove.task]
    exact fun hpoint => hmove.queue.gone (h.gone hpoint)
  · rw [hmove.task]
    rintro (hthread | hreleased | hjoining)
    · exact h.spawned (.inl (hmove.thread hthread))
    · exact h.spawned (.inl (hmove.released hreleased))
    · exact h.spawned (.inr (.inl (hmove.joining hjoining)))
  · rw [hmove.task]
    intro hended hpoint
    rcases hmove.ended hended with hreleased | hjoining | hgone
    · exact absurd hpoint (h.spawned (.inr (.inl hreleased)))
    · exact absurd hpoint (h.spawned (.inr (.inr hjoining)))
    · exact hgone
  · rw [hmove.task]
    exact fun halone => h.alone (hmove.alone halone)

/-! ## Where the messages are -/

/-- The message that the spawned thread works on. -/
def current (state : MsgTask) : List Nat :=
  match state.taskPoint with
  | .processing msg => [msg]
  | _ => []

/-- The messages that are deleted, worked on or in the queue. -/
def tokens (state : MsgTask) (items : List (Nat × Option Unit)) : List Nat :=
  state.deleted ++ state.current ++ items.map Prod.fst

/-- What the queue of a task holds; nothing once it is destroyed. -/
def HoldsQueued (state : MsgTask) (items : List (Nat × Option Unit)) : Prop :=
  match state.mQ with
  | none => items = []
  | some q => Queued q items

/-- No message is in two places, and each in the queue comes with
`LocMsgDestroy`. -/
structure Sound (state : MsgTask) (items : List (Nat × Option Unit)) : Prop where
  queue : state.HoldsQueued items
  dealloc : ∀ item ∈ items, item.2 = some ()
  once : (state.tokens items).Nodup
  handed : ∀ msg ∈ state.tokens items, msg < state.handed
  stage : state.Stage

/-- Every message handed over is deleted or will be: it is worked on, or it is in
a queue that somebody will flush. -/
def Kept (state : MsgTask) (items : List (Nat × Option Unit)) : Prop :=
  ∀ msg < state.handed, msg ∈ state.deleted ++ state.current ∨
    state.taskPoint ≠ .missed ∧ msg ∈ items.map Prod.fst

/-- A message comes to a queue that takes it, and the spawned thread finds
`mRunnable` as it was set, unless no message is waiting for it. -/
def Delivered (state : MsgTask) : TaskLabel → Prop
  | .sendMsg _ _ => state.Open
  | .task => state.taskPoint = .start → state.mRunnable = true ∨
      ∀ q, state.mQ = some q → linkedListEmpty q.msg_list = true
  | .wakeUp => True
  | .destroy => True

/-- A step of the model with what it does to the messages. -/
def Settles (state next : MsgTask) (items : List (Nat × Option Unit)) (delivered : Prop) : Prop :=
  ∃ after, next.Sound after ∧ (next.Kept after ↔ state.Kept items ∧ delivered)

variable {items after : List (Nat × Option Unit)}

theorem init_sound (created joinable : Bool) : (init created joinable).Sound [] := by
  have htokens : (init created joinable).tokens [] = [] := by
    cases created <;> rfl
  refine ⟨msgQInit_queued, by simp, ?_, ?_, init_stage created joinable⟩
  · rw [htokens]
    exact List.nodup_nil
  · rw [htokens]
    exact fun msg hmsg => absurd hmsg List.not_mem_nil

theorem init_kept (created joinable : Bool) : (init created joinable).Kept [] :=
  fun msg hmsg => absurd hmsg (Nat.not_lt_zero msg)

/-- A step that only moves messages from one place to another. -/
theorem Sound.moves (h : state.Sound items) (hqueue : next.HoldsQueued after)
    (hdealloc : ∀ item ∈ after, item.2 = some ())
    (hperm : (next.tokens after).Perm (state.tokens items))
    (hhanded : next.handed = state.handed)
    (hmissed : state.taskPoint ≠ .missed) (hnot : next.taskPoint ≠ .missed)
    (hstage : next.Stage) : Settles state next items True := by
  refine ⟨after, ⟨hqueue, hdealloc, hperm.nodup_iff.mpr h.once, ?_, hstage⟩, ?_⟩
  · intro msg hmsg
    rw [hhanded]
    exact h.handed msg (hperm.mem_iff.mp hmsg)
  · have hsame : ∀ msg, (msg ∈ next.deleted ++ next.current ∨ msg ∈ after.map Prod.fst) ↔
        (msg ∈ state.deleted ++ state.current ∨ msg ∈ items.map Prod.fst) := by
      intro msg
      rw [← List.mem_append, ← List.mem_append]
      exact hperm.mem_iff
    simp only [Kept, hhanded, hmissed, hnot, ne_eq, not_false_eq_true, true_and, and_true, hsame]

theorem current_of_task (h : next.taskPoint = state.taskPoint) : next.current = state.current := by
  rw [current, current, h]

/-- A step that leaves every message where it is. -/
theorem Sound.stays (h : state.Sound items) (hqueue : next.HoldsQueued items)
    (hdeleted : next.deleted = state.deleted) (hhanded : next.handed = state.handed)
    (htask : next.taskPoint = state.taskPoint) (hstage : next.Stage) :
    Settles state next items True := by
  have htokens : next.tokens items = state.tokens items := by
    rw [tokens, tokens, hdeleted, current_of_task htask]
  refine ⟨items, ⟨hqueue, h.dealloc, ?_, ?_, hstage⟩, ?_⟩
  · rw [htokens]
    exact h.once
  · rw [htokens, hhanded]
    exact h.handed
  · simp only [Kept, hhanded, hdeleted, htask, current_of_task htask, and_true]

/-- The queue does not take the message: nobody deletes it. -/
theorem Sound.refuses (h : state.Sound items) (hqueue : next.HoldsQueued items)
    (hdeleted : next.deleted = state.deleted) (hhanded : next.handed = state.handed + 1)
    (htask : next.taskPoint = state.taskPoint) (hstage : next.Stage) :
    Settles state next items False := by
  have htokens : next.tokens items = state.tokens items := by
    rw [tokens, tokens, hdeleted, current_of_task htask]
  refine ⟨items, ⟨hqueue, h.dealloc, ?_, ?_, hstage⟩, ?_⟩
  · rw [htokens]
    exact h.once
  · rw [htokens, hhanded]
    exact fun msg hmsg => Nat.lt_succ_of_lt (h.handed msg hmsg)
  · simp only [and_false, iff_false]
    intro hkept
    have hnot : state.handed ∉ next.tokens items := by
      rw [htokens]
      exact fun hmem => absurd (h.handed _ hmem) (Nat.lt_irrefl _)
    rcases hkept state.handed (by omega) with hmem | ⟨-, hmem⟩
    · exact hnot (List.mem_append_left _ hmem)
    · exact hnot (List.mem_append_right _ hmem)

/-- The queue takes the message. -/
theorem Sound.accepts (h : state.Sound items) (hopen : state.Open)
    (hqueue : next.HoldsQueued (items ++ [(state.handed, some ())]))
    (hdeleted : next.deleted = state.deleted) (hhanded : next.handed = state.handed + 1)
    (htask : next.taskPoint = state.taskPoint) (hstage : next.Stage) :
    Settles state next items True := by
  have htokens : next.tokens (items ++ [(state.handed, some ())]) =
      state.tokens items ++ [state.handed] := by
    simp [tokens, hdeleted, current_of_task htask]
  have hnot : state.handed ∉ state.tokens items := fun hmem =>
    absurd (h.handed _ hmem) (Nat.lt_irrefl _)
  have hmissed : state.taskPoint ≠ .missed := fun hpoint =>
    h.stage.closed (h.stage.missed hpoint) hopen
  refine ⟨_, ⟨hqueue, ?_, ?_, ?_, hstage⟩, ?_⟩
  · intro item hitem
    rcases List.mem_append.mp hitem with hold | hnew
    · exact h.dealloc item hold
    · rw [List.mem_singleton.mp hnew]
  · rw [htokens, List.nodup_append]
    refine ⟨h.once, List.nodup_singleton _, ?_⟩
    rintro msg hmsg _ hnew rfl
    rw [List.mem_singleton] at hnew
    exact hnot (hnew ▸ hmsg)
  · rw [htokens, hhanded]
    intro msg hmsg
    rcases List.mem_append.mp hmsg with hold | hnew
    · exact Nat.lt_succ_of_lt (h.handed msg hold)
    · rw [List.mem_singleton.mp hnew]
      exact Nat.lt_succ_self _
  · simp only [Kept, hhanded, hdeleted, htask, current_of_task htask, hmissed, ne_eq,
      not_false_eq_true, true_and, and_true, List.map_append, List.map_cons, List.map_nil,
      List.mem_append, List.mem_singleton]
    constructor
    · intro hall msg hmsg
      rcases hall msg (Nat.lt_succ_of_lt hmsg) with hmem | hmem | rfl
      · exact .inl hmem
      · exact .inr hmem
      · exact absurd hmsg (Nat.lt_irrefl _)
    · intro hall msg hmsg
      rcases Nat.lt_succ_iff_lt_or_eq.mp hmsg with hlt | rfl
      · exact (hall msg hlt).imp_right .inl
      · exact .inr (.inr rfl)

theorem Sound.sendMsg (h : state.Sound items) {elem : Nat} {woken : Option Nat}
    (hstep : state.sendMsg elem woken = some next) :
    Settles state next items (Delivered state (.sendMsg elem woken)) := by
  obtain ⟨hkept, hsame⟩ := sendMsg_kept hstep
  have hstage := h.stage.of_same hkept hsame
  have hqueue := h.queue
  by_cases hopen : state.Open
  · have htrue : Delivered state (.sendMsg elem woken) = True := eq_true hopen
    rw [htrue]
    obtain ⟨q, hq, hunblocked⟩ := hopen
    simp only [HoldsQueued, hq] at hqueue
    simp only [MsgTask.sendMsg, hq] at hstep
    split at hstep
    · rename_i hadmits
      obtain ⟨list, hsnd, hlist⟩ :=
        msgQSnd_queued hqueue hunblocked hadmits state.handed (some ())
      rw [hsnd, Option.bind_eq_bind, Option.bind_some, Option.some.injEq] at hstep
      subst hstep
      refine h.accepts ⟨q, hq, hunblocked⟩ ?_ rfl rfl rfl hstage
      change Represents (MsgQ.signal _ woken).msg_list _
      rw [MsgQ.signal_msg_list]
      exact hlist
    · cases hstep
  · have hfalse : Delivered state (.sendMsg elem woken) = False := eq_false hopen
    rw [hfalse]
    cases hq : state.mQ with
    | none =>
        simp only [MsgTask.sendMsg, hq, Option.some.injEq] at hstep
        subst hstep
        simp only [HoldsQueued, hq] at hqueue
        exact h.refuses hqueue rfl rfl rfl hstage
    | some q =>
        have hunblocked : q.unblocked = true := by
          by_contra hflag
          exact hopen ⟨q, hq, Bool.eq_false_iff.mpr hflag⟩
        simp only [HoldsQueued, hq] at hqueue
        simp only [MsgTask.sendMsg, hq] at hstep
        split at hstep
        · obtain ⟨rv, hsnd, -⟩ :=
            msgQSnd_unblocked hunblocked (some state.handed) (some ()) elem woken
          rw [hsnd, Option.bind_eq_bind, Option.bind_some, Option.some.injEq] at hstep
          subst hstep
          exact h.refuses hqueue rfl rfl rfl hstage
        · cases hstep

/-- The calls of `LocMsgDestroy` for what a list held. -/
theorem calls_deleted (hdealloc : ∀ item ∈ items, item.2 = some ()) :
    (items.reverse.filterMap deallocCall).map Prod.snd = (items.map Prod.fst).reverse := by
  rw [List.filterMap_reverse, List.map_reverse]
  congr 1
  induction items with
  | nil => rfl
  | cons item rest ih =>
      obtain ⟨msg, dealloc⟩ := item
      obtain rfl : dealloc = some () := hdealloc _ List.mem_cons_self
      have hrest := ih fun other hother => hdealloc other (List.mem_cons_of_mem _ hother)
      simp [deallocCall, hrest]

/-- What a flush or the destruction of a queue does to the messages. -/
structure Emptied (state next : MsgTask) (items : List (Nat × Option Unit)) : Prop where
  queue : next.HoldsQueued []
  deleted : next.deleted = state.deleted ++ (items.map Prod.fst).reverse
  handed : next.handed = state.handed

theorem flush_emptied (hqueue : state.HoldsQueued items)
    (hdealloc : ∀ item ∈ items, item.2 = some ()) (h : state.flush = some next) :
    Emptied state next items := by
  unfold flush at h
  cases hq : state.mQ with
  | none =>
      simp only [hq, Option.some.injEq] at h
      simp only [HoldsQueued, hq] at hqueue
      subst h hqueue
      exact ⟨by simp [HoldsQueued, hq], by simp, rfl⟩
  | some q =>
      simp only [HoldsQueued, hq] at hqueue
      obtain ⟨list, hflush, hlist⟩ := msgQFlush_spec hqueue
      simp only [hq, hflush, Option.bind_eq_bind, Option.bind_some, Option.some.injEq] at h
      subst h
      exact ⟨hlist, by rw [calls_deleted hdealloc], rfl⟩

theorem destroyQ_emptied (hqueue : state.HoldsQueued items)
    (hdealloc : ∀ item ∈ items, item.2 = some ()) (h : state.destroyQ = some next) :
    Emptied state next items := by
  unfold destroyQ at h
  cases hq : state.mQ with
  | none =>
      simp only [hq, Option.some.injEq] at h
      simp only [HoldsQueued, hq] at hqueue
      subst h hqueue
      exact ⟨by simp [HoldsQueued, hq], by simp, rfl⟩
  | some q =>
      simp only [HoldsQueued, hq] at hqueue
      obtain ⟨list, hflush, -⟩ := linkedListFlush_spec hqueue
      simp only [hq, hflush, Option.bind_eq_bind, Option.bind_some, Option.some.injEq] at h
      subst h
      exact ⟨rfl, by rw [calls_deleted hdealloc], rfl⟩

theorem Sound.empties (h : state.Sound items) (hempty : Emptied state next items)
    (hidle : state.current = []) (hstill : next.current = []) (hmissed : state.taskPoint ≠ .missed)
    (hnot : next.taskPoint ≠ .missed) (hstage : next.Stage) : Settles state next items True := by
  refine h.moves hempty.queue (by simp) ?_ hempty.handed hmissed hnot hstage
  have hperm := List.Perm.append_left state.deleted (List.reverse_perm (items.map Prod.fst))
  simpa [tokens, hidle, hstill, hempty.deleted] using hperm

/-- A section of `msg_q_rcv` on a queue with the task's list. -/
theorem Sound.rcvLoop (h : state.Sound items) {q : MsgQ Nat Unit} (hqueued : Queued q items)
    {result : MsgQ Nat Unit × Option (MsqQErr × Option Nat)}
    (hloop : MsgQ.rcvLoop q taskThread = some result) (hidle : state.current = [])
    (hmissed : state.taskPoint ≠ .missed) (hstage : (state.received result).Stage) :
    Settles state (state.received result) items True := by
  cases items with
  | nil =>
      have hsame : ∀ next : MsgTask, next.deleted = state.deleted → next.current = [] →
          (next.tokens []).Perm (state.tokens []) := by
        intro next hdeleted hcurrent
        rw [tokens, tokens, hdeleted, hcurrent, hidle]
      cases hunblocked : q.unblocked with
      | true =>
          rw [rcvLoop_unblocked hqueued hunblocked, Option.some.injEq] at hloop
          subst hloop
          exact h.moves hqueued (by simp) (hsame _ rfl rfl) rfl hmissed nofun hstage
      | false =>
          rw [rcvLoop_wait hqueued hunblocked, Option.some.injEq] at hloop
          subst hloop
          exact h.moves hqueued (by simp) (hsame _ rfl rfl) rfl hmissed nofun hstage
  | cons item rest =>
      obtain ⟨list, htake, hlist⟩ := rcvLoop_take hqueued taskThread
      rw [htake, Option.some.injEq] at hloop
      subst hloop
      refine h.moves hlist (fun other hother => h.dealloc other (List.mem_cons_of_mem _ hother))
        ?_ rfl hmissed nofun hstage
      rw [tokens, tokens, hidle]
      simp [received, current]

/-- The spawned thread ends at once: what the queue holds is lost. -/
theorem Sound.misses (h : state.Sound items) (hpoint : state.taskPoint = .start)
    (hstage : ({ state with taskPoint := .missed } : MsgTask).Stage) :
    Settles state { state with taskPoint := .missed } items (items = []) := by
  have hidle : state.current = [] := by rw [current, hpoint]
  have hstill : ({ state with taskPoint := .missed } : MsgTask).current = [] := rfl
  refine ⟨items, ⟨h.queue, h.dealloc, ?_, ?_, hstage⟩, ?_⟩
  · rw [tokens, hstill, ← hidle]
    exact h.once
  · rw [tokens, hstill, ← hidle]
    exact h.handed
  · have honce := h.once
    have hhanded := h.handed
    simp only [tokens, hidle, List.append_nil] at honce hhanded
    simp only [Kept, hstill, hidle, hpoint, List.append_nil, ne_eq, not_true, false_and, or_false,
      reduceCtorEq, not_false_eq_true, true_and]
    constructor
    · intro hall
      refine ⟨fun msg hmsg => .inl (hall msg hmsg), ?_⟩
      rw [List.eq_nil_iff_forall_not_mem]
      intro item hitem
      have hmem := List.mem_map_of_mem (f := Prod.fst) hitem
      have hdeleted := hall item.1 (hhanded _ (List.mem_append_right _ hmem))
      exact List.disjoint_of_nodup_append honce hdeleted hmem
    · rintro ⟨hall, rfl⟩ msg hmsg
      simpa using hall msg hmsg

/-- A step of the spawned thread that has no message at hand before or after. -/
theorem Sound.turns (h : state.Sound items) (hqueue : next.HoldsQueued items)
    (hidle : state.current = []) (hstill : next.current = [])
    (hdeleted : next.deleted = state.deleted) (hhanded : next.handed = state.handed)
    (hmissed : state.taskPoint ≠ .missed) (hnot : next.taskPoint ≠ .missed)
    (hstage : next.Stage) : Settles state next items True := by
  refine h.moves hqueue h.dealloc ?_ hhanded hmissed hnot hstage
  rw [tokens, tokens, hdeleted, hidle, hstill]

theorem current_of_ne (h : ∀ msg, state.taskPoint ≠ .processing msg) : state.current = [] := by
  unfold current
  split
  · rename_i msg hpoint
    exact absurd hpoint (h msg)
  · rfl

theorem delivered_of_ne (h : state.taskPoint ≠ .start) : Delivered state .task = True :=
  eq_true fun hpoint => absurd hpoint h

theorem Sound.start (h : state.Sound items) (hpoint : state.taskPoint = .start)
    (hstep : state.taskStep = some next) : Settles state next items (Delivered state .task) := by
  have hstage := h.stage.task (taskStep_move hstep)
  simp only [taskStep, hpoint, Option.some.injEq] at hstep
  have hidle : state.current = [] := current_of_ne (by simp [hpoint])
  have hmissed : state.taskPoint ≠ .missed := by simp [hpoint]
  cases hrunnable : state.mRunnable with
  | true =>
      have hdelivered : Delivered state .task = True := eq_true fun _ => .inl hrunnable
      rw [hdelivered]
      simp only [hrunnable, if_true] at hstep
      subst hstep
      exact h.turns h.queue hidle rfl rfl rfl hmissed nofun hstage
  | false =>
      have hqueue := h.queue
      have hdelivered : Delivered state .task = (items = []) := by
        simp only [Delivered, hpoint, hrunnable, Bool.false_eq_true, false_or, forall_const,
          eq_iff_iff]
        cases hq : state.mQ with
        | none =>
            simp only [HoldsQueued, hq] at hqueue
            simp [hqueue]
        | some q =>
            simp only [HoldsQueued, hq] at hqueue
            simp [linkedListEmpty_eq hqueue]
      rw [hdelivered]
      rw [if_neg (by simp [hrunnable])] at hstep
      subst hstep
      exact h.misses hpoint hstage

theorem Sound.receive (h : state.Sound items) (hpoint : state.taskPoint = .receive)
    (hstep : state.taskStep = some next) : Settles state next items True := by
  have hstage := h.stage.task (taskStep_move hstep)
  have hqueue := h.queue
  have hidle : state.current = [] := current_of_ne (by simp [hpoint])
  have hmissed : state.taskPoint ≠ .missed := by simp [hpoint]
  simp only [taskStep, hpoint] at hstep
  cases hq : state.mQ with
  | none =>
      simp only [hq, Option.some.injEq] at hstep
      simp only [HoldsQueued, hq] at hqueue
      subst hstep
      exact h.turns hqueue hidle rfl rfl rfl hmissed nofun hstage
  | some q =>
      simp only [hq] at hstep
      simp only [HoldsQueued, hq] at hqueue
      obtain ⟨result, hrcv, rfl⟩ := Option.map_eq_some_iff.mp hstep
      cases hunblocked : q.unblocked with
      | true =>
          simp only [msgQRcv, hunblocked, if_true, Option.some.injEq] at hrcv
          subst hrcv
          exact h.turns hqueue hidle rfl rfl rfl hmissed nofun hstage
      | false =>
          simp only [msgQRcv, hunblocked, Bool.false_eq_true, if_false] at hrcv
          exact h.rcvLoop hqueue hrcv hidle hmissed hstage

theorem Sound.waiting (h : state.Sound items) (hpoint : state.taskPoint = .waiting)
    (hstep : state.taskStep = some next) : Settles state next items True := by
  have hstage := h.stage.task (taskStep_move hstep)
  have hqueue := h.queue
  simp only [taskStep, hpoint] at hstep
  cases hq : state.mQ with
  | none =>
      rw [hq] at hstep
      cases hstep
  | some q =>
      simp only [hq] at hstep
      simp only [HoldsQueued, hq] at hqueue
      split at hstep
      · obtain ⟨result, hrcv, rfl⟩ := Option.map_eq_some_iff.mp hstep
        exact h.rcvLoop (q := { q with awake := q.awake.erase taskThread }) hqueue hrcv
          (current_of_ne (by simp [hpoint])) (by simp [hpoint]) hstage
      · cases hstep

theorem Sound.task (h : state.Sound items) (hstep : state.taskStep = some next) :
    Settles state next items (Delivered state .task) := by
  have hstage := h.stage.task (taskStep_move hstep)
  cases hpoint : state.taskPoint with
  | start => exact h.start hpoint hstep
  | receive =>
      rw [delivered_of_ne (by simp [hpoint])]
      exact h.receive hpoint hstep
  | waiting =>
      rw [delivered_of_ne (by simp [hpoint])]
      exact h.waiting hpoint hstep
  | test =>
      rw [delivered_of_ne (by simp [hpoint])]
      simp only [taskStep, hpoint, Option.some.injEq] at hstep
      subst hstep
      refine h.turns h.queue (current_of_ne (by simp [hpoint])) (current_of_ne ?_) rfl rfl
        (by simp [hpoint]) ?_ hstage
      · intro msg
        cases hrunnable : state.mRunnable <;> simp
      · cases hrunnable : state.mRunnable <;> simp
  | processing msg =>
      rw [delivered_of_ne (by simp [hpoint])]
      simp only [taskStep, hpoint, Option.some.injEq] at hstep
      subst hstep
      refine h.moves h.queue h.dealloc ?_ rfl (by simp [hpoint]) nofun hstage
      simp [tokens, current, hpoint]
  | leaving =>
      rw [delivered_of_ne (by simp [hpoint])]
      simp only [taskStep, hpoint, Option.some.injEq] at hstep
      subst hstep
      exact h.turns h.queue (current_of_ne (by simp [hpoint])) rfl rfl rfl (by simp [hpoint])
        nofun hstage
  | flushing =>
      rw [delivered_of_ne (by simp [hpoint])]
      simp only [taskStep, hpoint] at hstep
      have hpointNext : next.taskPoint = .destroying := (flush_kept hstep).2.task
      obtain ⟨hqueue, hdeleted, hhanded⟩ :=
        @flush_emptied { state with taskPoint := .destroying } next items h.queue h.dealloc hstep
      exact h.empties ⟨hqueue, hdeleted, hhanded⟩ (current_of_ne (by simp [hpoint]))
        (current_of_ne (by simp [hpointNext])) (by simp [hpoint]) (by simp [hpointNext]) hstage
  | destroying =>
      rw [delivered_of_ne (by simp [hpoint])]
      simp only [taskStep, hpoint] at hstep
      have hpointNext : next.taskPoint = .finished := (destroyQ_kept hstep).2.task
      obtain ⟨hqueue, hdeleted, hhanded⟩ :=
        @destroyQ_emptied { state with taskPoint := .finished } next items h.queue h.dealloc hstep
      exact h.empties ⟨hqueue, hdeleted, hhanded⟩ (current_of_ne (by simp [hpoint]))
        (current_of_ne (by simp [hpointNext])) (by simp [hpoint]) (by simp [hpointNext]) hstage
  | absent => simp [taskStep, hpoint] at hstep
  | finished => simp [taskStep, hpoint] at hstep
  | missed => simp [taskStep, hpoint] at hstep

theorem Sound.destroy (h : state.Sound items) (hstep : state.destroyStep = some next) :
    Settles state next items True := by
  have hmove := destroyStep_move hstep
  have hstage := h.stage.destroy hmove
  have hqueue := h.queue
  cases hpoint : state.destroyPoint with
  | idle =>
      simp only [destroyStep, hpoint, Option.some.injEq] at hstep
      subst hstep
      refine h.stays ?_ rfl rfl rfl hstage
      cases hq : state.mQ with
      | none =>
          simp only [HoldsQueued, hq] at hqueue
          exact hqueue
      | some q =>
          simp only [HoldsQueued, hq] at hqueue
          exact hqueue.of_list (msgQUnblock_msg_list q)
  | unblocked =>
      simp only [destroyStep, hpoint] at hstep
      split at hstep
      · cases hstep
        exact h.stays hqueue rfl rfl rfl hstage
      · cases hstep
        exact h.stays hqueue rfl rfl rfl hstage
  | released =>
      simp only [destroyStep, hpoint] at hstep
      split at hstep
      · cases hstep
        exact h.stays hqueue rfl rfl rfl hstage
      · cases hstep
        exact h.stays hqueue rfl rfl rfl hstage
  | joining =>
      simp only [destroyStep, hpoint] at hstep
      split at hstep
      · cases hstep
        exact h.stays hqueue rfl rfl rfl hstage
      · cases hstep
  | flushing =>
      have habsent : state.taskPoint = .absent := h.stage.alone (.inr (.inl hpoint))
      have hnext : next.taskPoint = .absent := hmove.task.trans habsent
      simp only [destroyStep, hpoint] at hstep
      obtain ⟨hqueue, hdeleted, hhanded⟩ :=
        @flush_emptied { state with destroyPoint := .destroying } next items h.queue h.dealloc
          hstep
      exact h.empties ⟨hqueue, hdeleted, hhanded⟩ (current_of_ne (by simp [habsent]))
        (current_of_ne (by simp [hnext])) (by simp [habsent]) (by simp [hnext]) hstage
  | destroying =>
      have habsent : state.taskPoint = .absent := h.stage.alone (.inr (.inr hpoint))
      have hnext : next.taskPoint = .absent := hmove.task.trans habsent
      simp only [destroyStep, hpoint] at hstep
      obtain ⟨hqueue, hdeleted, hhanded⟩ :=
        @destroyQ_emptied { state with destroyPoint := .finished } next items h.queue h.dealloc
          hstep
      exact h.empties ⟨hqueue, hdeleted, hhanded⟩ (current_of_ne (by simp [habsent]))
        (current_of_ne (by simp [hnext])) (by simp [habsent]) (by simp [hnext]) hstage
  | finished => simp [destroyStep, hpoint] at hstep

/-- Every step keeps the messages it finds, unless it is one that does not
deliver. -/
theorem Sound.step (h : state.Sound items) {label : TaskLabel}
    (hstep : state.step label = some next) :
    Settles state next items (Delivered state label) := by
  cases label with
  | sendMsg elem woken => exact h.sendMsg hstep
  | task => exact h.task hstep
  | destroy => exact h.destroy hstep
  | wakeUp =>
      have hqueue := h.queue
      cases hq : state.mQ with
      | none => simp [MsgTask.step, hq] at hstep
      | some q =>
          simp only [HoldsQueued, hq] at hqueue
          simp only [MsgTask.step, hq] at hstep
          split at hstep
          · cases hstep
            exact h.stays (hqueue.of_list rfl) rfl rfl rfl
              (h.stage.of_same (.of_some hq rfl rfl) ⟨rfl, rfl, rfl, rfl⟩)
          · cases hstep

/-! ## Runs -/

theorem HoldsQueued.unique {others : List (Nat × Option Unit)} (h : state.HoldsQueued items)
    (hother : state.HoldsQueued others) : items = others := by
  unfold HoldsQueued at h hother
  split at h
  · rename_i hq
    rw [hq] at hother
    rw [h, hother]
  · rename_i q hq
    rw [hq] at hother
    exact Represents.unique h hother

/-- Every message handed over so far is deleted or will be. -/
def Good (state : MsgTask) : Prop := ∃ items, state.HoldsQueued items ∧ state.Kept items

theorem good_iff (h : state.Sound items) : state.Good ↔ state.Kept items := by
  constructor
  · rintro ⟨others, hqueue, hkept⟩
    rw [h.queue.unique hqueue]
    exact hkept
  · exact fun hkept => ⟨items, h.queue, hkept⟩

/-- When all threads are done, no message waits to be deleted. -/
theorem deleted_iff (h : state.Sound items) (hfinal : state.Final) :
    (∀ msg < state.handed, state.deleted.count msg = 1) ↔ state.Kept items := by
  have hidle : state.current = [] := by
    apply current_of_ne
    rintro msg hpoint
    rcases hfinal.2 with habsent | hfinished | hmissed
    · cases hpoint.symm.trans habsent
    · cases hpoint.symm.trans hfinished
    · cases hpoint.symm.trans hmissed
  have hqueue := h.queue
  have hgone : state.mQ = none → items = [] := by
    intro hq
    simpa only [HoldsQueued, hq] using hqueue
  have hnothing : ∀ msg, ¬ (state.taskPoint ≠ .missed ∧ msg ∈ items.map Prod.fst) := by
    rintro msg ⟨hpoint, hmem⟩
    have hitems : items = [] := by
      rcases hfinal.2 with habsent | hfinished | hmissed
      · exact hgone (h.stage.ended hfinal.1 habsent)
      · exact hgone (h.stage.gone hfinished)
      · exact absurd hmissed hpoint
    rw [hitems] at hmem
    cases hmem
  have honce : state.deleted.Nodup := by
    have hnodup := h.once
    rw [tokens, List.append_assoc] at hnodup
    exact hnodup.of_append_left
  simp only [Kept, hnothing, or_false, hidle, List.append_nil]
  refine forall₂_congr fun msg _ => ⟨fun hcount => ?_, List.count_eq_one_of_mem honce⟩
  apply List.count_pos_iff.mp
  rw [hcount]
  exact Nat.one_pos

/-- When all threads have finished, every message handed over has been deleted
exactly once if and only if each came to a queue that was not unblocked yet, and
the thread, where it was stopped before it had looked at its runnable, left no
message behind. -/
theorem deleted_once_iff {created joinable : Bool} {labels : List TaskLabel} {state : MsgTask}
    (hrun : exec step (init created joinable) labels = some state) (hfinal : state.Final) :
    (∀ msg < state.handed, state.deleted.count msg = 1) ↔
      Along step Delivered (init created joinable) labels := by
  have hinit : ∃ items, (init created joinable).Sound items := ⟨[], init_sound created joinable⟩
  have hstep : ∀ before label after, (∃ items, before.Sound items) →
      step before label = some after → ∃ items, after.Sound items := by
    rintro before label after ⟨items, hsound⟩ hnext
    obtain ⟨others, hothers, -⟩ := hsound.step hnext
    exact ⟨others, hothers⟩
  have hgood : ∀ before label after, (∃ items, before.Sound items) →
      step before label = some after → (Good after ↔ Good before ∧ Delivered before label) := by
    rintro before label after ⟨items, hsound⟩ hnext
    obtain ⟨others, hothers, hiff⟩ := hsound.step hnext
    rw [good_iff hothers, good_iff hsound, hiff]
  obtain ⟨items, hsound⟩ := invariant_of_step hstep hinit ⟨labels, hrun⟩
  have hstart : Good (init created joinable) := ⟨[], (init_sound _ _).queue, init_kept _ _⟩
  rw [deleted_iff hsound hfinal, ← good_iff hsound,
    along_iff_of_step hstep hgood hinit hrun, and_iff_right hstart]

/-- A message is queued and processed before the task is destroyed. -/
def delivery : List TaskLabel :=
  [.task, .sendMsg 100 none, .task, .task, .task, .task, .task, .destroy, .destroy, .destroy,
    .task, .task, .task, .task, .destroy]

theorem deleted_once_iff_delivery : ∃ state, exec step (init true true) delivery = some state ∧
    ((∀ msg < state.handed, state.deleted.count msg = 1) ↔
      Along step Delivered (init true true) delivery) :=
  ⟨_, rfl, @deleted_once_iff true true delivery _ rfl ⟨rfl, .inr (.inl rfl)⟩⟩

/-- The task waits for a message when it is destroyed. A message that comes after
the queue is unblocked is refused, and nobody deletes it. -/
theorem refused_message_leaks :
    ¬ ∀ (created joinable : Bool) (labels : List TaskLabel) (state : MsgTask),
      exec step (init created joinable) labels = some state → state.Final →
      ∀ msg < state.handed, state.deleted.count msg = 1 := by
  intro hall
  have hcount := hall true true [.task, .task, .task, .destroy, .sendMsg 100 none, .destroy,
    .destroy, .task, .task, .task, .task, .destroy] _ rfl ⟨rfl, .inr (.inl rfl)⟩ 0 (by decide)
  cases hcount

end MsgTask

end Msm8916.MsgQ
