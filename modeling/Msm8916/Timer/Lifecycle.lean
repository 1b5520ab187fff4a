import Msm8916.Timer.Punctual
import Msm8916.Timer.Task
import Mathlib.Data.List.Count

/-!
The life of a timer delegate. A tally counts how often a delegate is in each of
the places it goes through; the moves below are all that the clients and the
message task do to one delegate.
-/

namespace Msm8916.Timer

open Heap Transition

/-- Where one delegate is, for each container: made, under way to the heap,
stored, running and under way to its deletion; and how often it has been ended,
by a client, by its expiration, and deleted. -/
@[ext]
structure Tally where
  starts : Bool → Nat
  pushing : Bool → Nat
  stored : Bool → Nat
  running : Bool → Nat
  removing : Bool → Nat
  ended : Nat
  stops : Nat
  called : Nat
  deleted : Nat

namespace Tally

/-- The account of one delegate. `popped` is one while it has been taken out of
the heap and `expire()` has not been called yet. -/
structure Balanced (tally : Tally) (popped : Nat) : Prop where
  made_once : tally.starts false + tally.starts true ≤ 1
  kept : ∀ container, tally.pushing container + tally.stored container ≤ tally.starts container
  held : ∀ container,
    tally.running container + tally.removing container ≤ tally.starts container
  owed : tally.running false + tally.running true +
      (tally.removing false + tally.removing true) + tally.deleted =
    tally.starts false + tally.starts true
  spent : tally.running false + tally.running true + tally.ended =
    tally.starts false + tally.starts true
  told : tally.ended = tally.stops + tally.called
  gone : 0 < tally.deleted → ∀ container,
    tally.pushing container + tally.stored container = 0
  waiting : ∀ container,
    tally.running container ≤ tally.pushing container + tally.stored container + popped

variable {tally : Tally} {popped : Nat}

theorem balanced_iff : tally.Balanced popped ↔
    tally.starts false + tally.starts true ≤ 1 ∧
      (tally.pushing false + tally.stored false ≤ tally.starts false ∧
        tally.pushing true + tally.stored true ≤ tally.starts true) ∧
      (tally.running false + tally.removing false ≤ tally.starts false ∧
        tally.running true + tally.removing true ≤ tally.starts true) ∧
      tally.running false + tally.running true +
          (tally.removing false + tally.removing true) + tally.deleted =
        tally.starts false + tally.starts true ∧
      tally.running false + tally.running true + tally.ended =
        tally.starts false + tally.starts true ∧
      tally.ended = tally.stops + tally.called ∧
      (0 < tally.deleted → tally.pushing false + tally.stored false = 0 ∧
        tally.pushing true + tally.stored true = 0) ∧
      tally.running false ≤ tally.pushing false + tally.stored false + popped ∧
      tally.running true ≤ tally.pushing true + tally.stored true + popped := by
  constructor
  · intro h
    exact ⟨h.made_once, ⟨h.kept false, h.kept true⟩, ⟨h.held false, h.held true⟩, h.owed,
      h.spent, h.told, fun hdeleted => ⟨h.gone hdeleted false, h.gone hdeleted true⟩,
      h.waiting false, h.waiting true⟩
  · rintro ⟨hmade, hkept, hheld, howed, hspent, htold, hgone, hwaiting⟩
    refine ⟨hmade, Bool.forall_bool.mpr hkept, Bool.forall_bool.mpr hheld, howed, hspent, htold,
      fun hdeleted => Bool.forall_bool.mpr (hgone hdeleted), Bool.forall_bool.mpr hwaiting⟩

/-! ## Moves -/

/-- `start()` makes the delegate and sends it to its container. -/
def make (tally : Tally) (container : Bool) : Tally :=
  { tally with
    starts := fun home => tally.starts home + if container = home then 1 else 0
    pushing := fun home => tally.pushing home + if container = home then 1 else 0
    running := fun home => tally.running home + if container = home then 1 else 0 }

/-- `stop()` returns true, to a client or to the expiration. -/
def finish (tally : Tally) (container : Bool) (stops called : Nat) : Tally :=
  { tally with
    running := fun _ => 0
    removing := fun home => tally.removing home + if container = home then 1 else 0
    ended := tally.ended + 1
    stops := tally.stops + stops
    called := tally.called + called }

def store (tally : Tally) (container : Bool) : Tally :=
  { tally with
    pushing := fun home => tally.pushing home - if container = home then 1 else 0
    stored := Function.update tally.stored container (tally.stored container + 1) }

def pop (tally : Tally) (container : Bool) : Tally :=
  { tally with
    stored := Function.update tally.stored container (tally.stored container - 1) }

def delete (tally : Tally) (container : Bool) : Tally :=
  { tally with
    stored := Function.update tally.stored container (tally.stored container - 1)
    removing := fun home => tally.removing home - if container = home then 1 else 0
    deleted := tally.deleted + 1 }

theorem Balanced.make (h : tally.Balanced popped)
    (hnew : tally.starts false + tally.starts true = 0) (container : Bool) :
    (tally.make container).Balanced popped := by
  rw [balanced_iff] at h ⊢
  cases container <;>
    simp only [Tally.make, reduceCtorEq, if_true, if_false] <;> omega

theorem Balanced.finish (h : tally.Balanced popped) {container : Bool}
    (hrunning : tally.running container = 1) {stops called : Nat} (honce : stops + called = 1) :
    (tally.finish container stops called).Balanced popped := by
  rw [balanced_iff] at h ⊢
  cases container <;>
    simp only [Tally.finish, reduceCtorEq, if_true, if_false] <;> omega

theorem Balanced.store (h : tally.Balanced popped) {container : Bool}
    (hpushing : 0 < tally.pushing container) : (tally.store container).Balanced popped := by
  rw [balanced_iff] at h ⊢
  cases container <;>
    simp only [Tally.store, Function.update_apply, reduceCtorEq, if_true, if_false] <;> omega

theorem Balanced.pop (h : tally.Balanced 0) {container : Bool}
    (hstored : 0 < tally.stored container) : (tally.pop container).Balanced 1 := by
  rw [balanced_iff] at h ⊢
  cases container <;>
    simp only [Tally.pop, Function.update_apply, reduceCtorEq, if_true, if_false] <;> omega

/-- A popped delegate that is not running needs no `expire()`. -/
theorem Balanced.settle (h : tally.Balanced popped)
    (hidle : ∀ container, tally.running container = 0) : tally.Balanced 0 := by
  have hfalse := hidle false
  have htrue := hidle true
  rw [balanced_iff] at h ⊢
  omega

theorem Balanced.delete (h : tally.Balanced popped) {container : Bool}
    (hremoving : 0 < tally.removing container) (hpushing : tally.pushing container = 0) :
    (tally.delete container).Balanced popped := by
  rw [balanced_iff] at h ⊢
  cases container <;>
    simp only [Tally.delete, Function.update_apply, reduceCtorEq, if_true, if_false] <;> omega

end Tally

namespace LocTimers

/-- The tally of a delegate in a state. -/
def tally (state : LocTimers) (timer : LocTimerDelegate) : Tally where
  starts container := state.started.count (timer, container)
  pushing container := state.msgQ.count (container, .timerPush timer)
  stored container := (state.heap container).elements.count timer
  running container := (state.mContainer timer).toList.count container
  removing container := state.msgQ.count (container, .timerRemove timer)
  ended := state.ended.count timer
  stops := state.stops.count timer
  called := (state.callbacks.map Callback.timer).count timer
  deleted := state.deleted.count timer

/-- No push of a timer is behind its removal. -/
def InOrder (first second : Bool × LocMsg) : Prop :=
  ∀ timer, first.2 = .timerRemove timer → second ≠ (first.1, .timerPush timer)

/-- The invariant of all delegates, while `popped` is out of the heap and not
yet expired. -/
structure Lifecycle (state : LocTimers) (popped : Option LocTimerDelegate) : Prop where
  valid : ∀ container, (state.heap container).mTree.Valid
  linked : state.Linked
  fresh : ∀ start ∈ state.started, start.1.address < state.nextAddress
  ordered : state.msgQ.Pairwise InOrder
  balanced : ∀ timer, (state.tally timer).Balanced (popped.toList.count timer)

theorem init_lifecycle (now : BootTime) : (init now).Lifecycle none where
  valid _ := trivial
  linked := init_linked now
  fresh _ h := nomatch h
  ordered := List.Pairwise.nil
  balanced timer := by
    have hempty : (LocHeap.empty : LocHeap LocTimerDelegate).elements = 0 := rfl
    constructor <;> simp [init, tally, hempty]

/-! ## Calls of the clients -/

/-- A client's timer is ended; `stops` and `callbacks` say by whom. -/
theorem Lifecycle.stop {state : LocTimers} {popped : Option LocTimerDelegate}
    (h : state.Lifecycle popped) {client : Nat} {timer : LocTimerDelegate}
    (hrunning : state.mTimer client = some timer) {stops : List LocTimerDelegate}
    {callbacks : List Callback}
    (htold : stops = state.stops ++ [timer] ∧ callbacks = state.callbacks ∨
      stops = state.stops ∧ ∃ time, callbacks = state.callbacks ++ [⟨client, timer, time⟩]) :
    { (state.stop client).1 with stops, callbacks }.Lifecycle popped := by
  have hlinked := h.linked.stop client
  obtain ⟨container, hcontainer, hstop⟩ := h.linked.stop_eq hrunning
  rw [hstop] at hlinked ⊢
  refine ⟨h.valid, ⟨hlinked.client, hlinked.container, hlinked.fresh⟩, h.fresh, ?_,
    fun other => ?_⟩
  · dsimp only
    rw [List.pairwise_append]
    refine ⟨h.ordered, List.pairwise_singleton _ _, fun first _ second hsecond => ?_⟩
    obtain rfl := List.mem_singleton.mp hsecond
    intro _ _ heq
    cases heq
  · have hbalanced := h.balanced other
    by_cases hsame : other = timer
    · subst hsame
      have hone : (state.tally other).running container = 1 := by
        simp [tally, hcontainer]
      rcases htold with ⟨rfl, rfl⟩ | ⟨rfl, time, rfl⟩
      · convert hbalanced.finish hone (Nat.add_zero 1) using 1
        ext home <;> simp [tally, Tally.finish, List.count_append, List.count_singleton]
      · convert hbalanced.finish hone (Nat.zero_add 1) using 1
        ext home <;> simp [tally, Tally.finish, List.count_append, List.count_singleton]
    · have hne : ¬ timer = other := fun heq => hsame heq.symm
      convert hbalanced using 1
      rcases htold with ⟨rfl, rfl⟩ | ⟨rfl, time, rfl⟩ <;>
        ext home <;> simp [tally, List.count_append, hne, hsame]

theorem Lifecycle.start {state : LocTimers} {popped : Option LocTimerDelegate}
    (h : state.Lifecycle popped) (client : Nat) (timeOutInMs : UInt32) (wakeOnExpire : Bool) :
    (state.start client timeOutInMs wakeOnExpire).Lifecycle popped := by
  have hlinked := h.linked.start client timeOutInMs wakeOnExpire
  cases hidle : state.mTimer client with
  | some _ => simpa only [LocTimers.start, hidle] using h
  | none =>
      simp only [LocTimers.start, hidle, sendMsg] at hlinked ⊢
      have hunused := h.linked.unused (state.now.afterMs timeOutInMs)
      generalize hnew : (⟨state.nextAddress, state.now.afterMs timeOutInMs⟩ :
        LocTimerDelegate) = timer at hlinked hunused ⊢
      have hnever : ∀ container, (timer, container) ∉ state.started := by
        intro container hmem
        rw [← hnew] at hmem
        exact Nat.lt_irrefl _ (h.fresh _ hmem)
      have hstarts : (state.tally timer).starts false + (state.tally timer).starts true = 0 := by
        simp [tally, List.count_eq_zero.mpr (hnever _)]
      refine ⟨h.valid, hlinked, fun start hstart => ?_, ?_, fun other => ?_⟩
      · rcases List.mem_append.mp hstart with hold | hlast
        · exact Nat.lt_succ_of_lt (h.fresh start hold)
        · obtain rfl := List.mem_singleton.mp hlast
          rw [← hnew]
          exact Nat.lt_succ_self _
      · -- no removal of the new delegate is under way
        rw [List.pairwise_append]
        refine ⟨h.ordered, List.pairwise_singleton _ _, fun first hfirst second hsecond => ?_⟩
        obtain rfl := List.mem_singleton.mp hsecond
        rintro removed hremoved heq
        obtain ⟨hhome, hpush⟩ := Prod.mk.inj heq
        obtain rfl := LocMsg.timerPush.inj hpush
        have hheld := (h.balanced timer).held first.1
        have hcount : 0 < (state.tally timer).removing first.1 := by
          rw [← Prod.mk.eta (p := first), hremoved] at hfirst
          exact List.count_pos_iff.mpr hfirst
        cases hfst : first.1 <;> rw [hfst] at hheld hcount <;> omega
      · have hbalanced := h.balanced other
        by_cases hsame : other = timer
        · subst hsame
          convert hbalanced.make hstarts wakeOnExpire using 1
          ext home <;> simp [tally, Tally.make, List.count_append, List.count_singleton, hunused]
        · have hne : ¬ timer = other := fun heq => hsame heq.symm
          convert hbalanced using 1
          ext home <;> simp [tally, List.count_append, hne, hsame]

theorem Lifecycle.call {state : LocTimers} {popped : Option LocTimerDelegate}
    (h : state.Lifecycle popped) (request : ClientCall) :
    (state.call request).Lifecycle popped ∧ (state.call request).heap = state.heap := by
  cases request with
  | start client timeOutInMs wakeOnExpire =>
      refine ⟨h.start client timeOutInMs wakeOnExpire, ?_⟩
      simp only [LocTimers.call, LocTimers.start, sendMsg]
      split <;> rfl
  | stop client =>
      cases hrunning : state.mTimer client with
      | none =>
          simp only [LocTimers.call, stop_of_idle hrunning]
          exact ⟨h, trivial⟩
      | some timer =>
          obtain ⟨container, -, hstop⟩ := h.linked.stop_eq hrunning
          have hstopped := h.stop hrunning (.inl ⟨rfl, rfl⟩)
          simp only [LocTimers.call, hstop] at hstopped ⊢
          exact ⟨hstopped, trivial⟩

theorem Lifecycle.calls {state : LocTimers} {popped : Option LocTimerDelegate}
    (h : state.Lifecycle popped) (requests : List ClientCall) :
    (requests.foldl LocTimers.call state).Lifecycle popped ∧
      (requests.foldl LocTimers.call state).heap = state.heap := by
  induction requests generalizing state with
  | nil => exact ⟨h, rfl⟩
  | cons request requests ih =>
      obtain ⟨hcalled, hheap⟩ := h.call request
      obtain ⟨hrest, hkept⟩ := ih hcalled
      exact ⟨hrest, hkept.trans hheap⟩

/-! ## The heap -/

/-- A container's new heap changes how often a delegate is stored there, no
more. -/
theorem tally_setHeap (state : LocTimers) (container : Bool) (heap : LocHeap LocTimerDelegate)
    (timer : LocTimerDelegate) :
    (state.setHeap container heap).tally timer = { state.tally timer with
      stored := Function.update (state.tally timer).stored container
        (heap.elements.count timer) } := by
  have hstored : ((state.setHeap container heap).tally timer).stored =
      Function.update (state.tally timer).stored container (heap.elements.count timer) := by
    funext home
    by_cases hhome : home = container
    · subst hhome
      simp [tally]
    · simp [tally, heap_setHeap_of_ne state heap hhome, hhome]
  rw [← hstored]
  rfl

theorem valid_setHeap {state : LocTimers} (h : ∀ home, (state.heap home).mTree.Valid)
    {container : Bool} {heap : LocHeap LocTimerDelegate} (hheap : heap.mTree.Valid)
    (home : Bool) : ((state.setHeap container heap).heap home).mTree.Valid := by
  by_cases hhome : home = container
  · subst hhome
    rwa [heap_setHeap_self]
  · rw [heap_setHeap_of_ne state heap hhome]
    exact h home

/-- A popped delegate that is not running is out of the way. -/
theorem Lifecycle.settle {state : LocTimers} {timer : LocTimerDelegate}
    (h : state.Lifecycle (some timer)) (hidle : state.mContainer timer = none) :
    state.Lifecycle none := by
  refine ⟨h.valid, h.linked, h.fresh, h.ordered, fun other => ?_⟩
  have hbalanced := h.balanced other
  by_cases hsame : other = timer
  · subst hsame
    exact hbalanced.settle fun container => by simp [tally, hidle]
  · have hne : ¬ timer = other := fun heq => hsame heq.symm
    simpa [hne] using hbalanced

theorem Lifecycle.expireTimer {state : LocTimers} {timer : LocTimerDelegate}
    (h : state.Lifecycle (some timer)) (reaction : LocTimerDelegate → List ClientCall) :
    (state.expireTimer reaction timer).Lifecycle none ∧
      (state.expireTimer reaction timer).heap = state.heap := by
  unfold LocTimers.expireTimer
  cases hclient : state.mClient timer with
  | none => exact ⟨h.settle ((h.linked.container timer).mp hclient), rfl⟩
  | some client =>
      have hrunning := (h.linked.client timer client).mp hclient
      obtain ⟨container, -, hstop⟩ := h.linked.stop_eq hrunning
      have hcalled := h.stop hrunning (.inr ⟨rfl, state.now, rfl⟩)
      simp only [hstop] at hcalled ⊢
      have hidle : Function.update state.mContainer timer none timer = none :=
        Function.update_self ..
      exact (hcalled.settle hidle).calls (reaction timer)

theorem Lifecycle.pop {state : LocTimers} (h : state.Lifecycle none) {container : Bool}
    {top : LocTimerDelegate} (htop : (state.heap container).peek = some top) :
    (state.setHeap container (state.heap container).pop.1).Lifecycle (some top) := by
  have hcons := LocHeap.elements_of_peek htop
  have hvalid := (h.valid container).pop TimerService.seconds_rank
  refine ⟨valid_setHeap h.valid hvalid, h.linked.of_eq rfl rfl rfl rfl,
    h.fresh, h.ordered, fun other => ?_⟩
  have hbalanced := h.balanced other
  by_cases hsame : other = top
  · subst hsame
    have hstored : 0 < (state.tally other).stored container := by
      simp [tally, hcons]
    have hcount : (state.heap container).pop.1.elements.count other =
        (state.tally other).stored container - 1 := by
      simp [tally, hcons]
    have hone : (some other).toList.count other = 1 := by simp
    rw [tally_setHeap, hcount, hone]
    exact hbalanced.pop hstored
  · have hcount : (state.heap container).pop.1.elements.count other =
        (state.tally other).stored container := by
      simp [tally, hcons, hsame]
    have hne : ¬ top = other := fun heq => hsame heq.symm
    rw [tally_setHeap, hcount, Function.update_eq_self]
    simpa [hne] using hbalanced

/-- The loop of an expire message, with a round for every stored delegate and the
popped one. -/
theorem Lifecycle.expireLoop {rounds : Nat} {popped : Option LocTimerDelegate}
    {state : LocTimers} (h : state.Lifecycle popped)
    (reaction : LocTimerDelegate → List ClientCall) (container : Bool)
    (timerOfNow : LocTimerDelegate)
    (hrounds : popped ≠ none → (state.heap container).mTree.count < rounds) :
    (expireLoop reaction container timerOfNow rounds popped state).Lifecycle none := by
  induction rounds generalizing popped state with
  | zero =>
      cases popped with
      | none => exact h
      | some timer => exact absurd (hrounds (Option.some_ne_none timer)) (Nat.not_lt_zero _)
  | succ rounds ih =>
      cases popped with
      | none => exact h
      | some timer =>
          have hstored := hrounds (Option.some_ne_none timer)
          obtain ⟨hexpired, hheap⟩ := h.expireTimer reaction
          rw [LocTimers.expireLoop, hheap]
          rcases TimerService.popIfOutRanks_eq (state.heap container) timerOfNow with
            ⟨hpop, -⟩ | ⟨top, htop, -, hpop⟩
          · have hsame : (state.expireTimer reaction timer).setHeap container
                (state.heap container) = state.expireTimer reaction timer := by
              rw [← hheap, setHeap, Function.update_eq_self]
            rw [hpop]
            dsimp only
            rw [hsame]
            exact ih hexpired fun hnone => absurd rfl hnone
          · rw [hpop]
            dsimp only
            rw [← hheap] at htop ⊢
            apply ih (hexpired.pop htop)
            intro _
            have hcount := LocHeap.count_pop htop
            rw [← hheap] at hstored
            rw [heap_setHeap_self]
            omega

/-! ## Messages -/

section Messages

variable {state : LocTimers} {container : Bool} {msgQ : List (Bool × LocMsg)}

theorem Lifecycle.timerPush (h : state.Lifecycle none) {mTimer : LocTimerDelegate}
    (hq : state.msgQ = (container, .timerPush mTimer) :: msgQ) :
    ({ state with msgQ }.timerPush container mTimer).Lifecycle none := by
  have hvalid := (h.valid container).push TimerService.seconds_rank mTimer
  have hordered := h.ordered
  rw [hq] at hordered
  refine ⟨valid_setHeap h.valid hvalid, h.linked.of_eq rfl rfl rfl rfl,
    h.fresh, hordered.of_cons, fun other => ?_⟩
  have hbalanced := h.balanced other
  rw [LocTimers.timerPush, tally_setHeap, LocHeap.elements_push]
  by_cases hsame : other = mTimer
  · subst hsame
    have hpushing : 0 < (state.tally other).pushing container := by simp [tally, hq]
    convert hbalanced.store hpushing using 1
    ext home <;> simp [tally, Tally.store, hq, List.count_cons]
  · have hne : ¬ mTimer = other := fun heq => hsame heq.symm
    convert hbalanced using 1
    ext home <;> simp [tally, hq, hne, hsame]

theorem Lifecycle.timerRemove (h : state.Lifecycle none) {mTimer : LocTimerDelegate}
    (hq : state.msgQ = (container, .timerRemove mTimer) :: msgQ) :
    ({ state with msgQ }.timerRemove container mTimer).Lifecycle none := by
  have hvalid := (h.valid container).remove TimerService.seconds_rank mTimer
  have hordered := h.ordered
  rw [hq] at hordered
  refine ⟨valid_setHeap h.valid hvalid, h.linked.of_eq rfl rfl rfl rfl,
    h.fresh, hordered.of_cons, fun other => ?_⟩
  have hbalanced := h.balanced other
  have htally : ({ state with msgQ }.timerRemove container mTimer).tally other =
      { (state.setHeap container ((state.heap container).remove mTimer).1).tally other with
        pushing := fun home => msgQ.count (home, .timerPush other)
        removing := fun home => msgQ.count (home, .timerRemove other)
        deleted := (mTimer :: state.deleted).count other } := rfl
  rw [htally, tally_setHeap, LocHeap.elements_remove (h.valid container)]
  by_cases hsame : other = mTimer
  · subst hsame
    have hremoving : 0 < (state.tally other).removing container := by simp [tally, hq]
    have hpushing : (state.tally other).pushing container = 0 := by
      apply List.count_eq_zero.mpr
      rw [hq, List.mem_cons, not_or]
      exact ⟨by simp, fun hmem => (List.pairwise_cons.mp hordered).1 _ hmem other rfl rfl⟩
    convert hbalanced.delete hremoving hpushing using 1
    ext home <;> simp [tally, Tally.delete, hq, List.count_cons]
  · have hne : ¬ mTimer = other := fun heq => hsame heq.symm
    convert hbalanced using 1
    ext home <;> simp [tally, hq, hne, hsame]

theorem Lifecycle.timerExpire (h : state.Lifecycle none)
    (hq : state.msgQ = (container, .timerExpire) :: msgQ)
    (reaction : LocTimerDelegate → List ClientCall) :
    ({ state with msgQ }.timerExpire reaction container).Lifecycle none := by
  have hordered := h.ordered
  rw [hq] at hordered
  have hrest : { state with msgQ }.Lifecycle none := by
    refine ⟨h.valid, h.linked.of_eq rfl rfl rfl rfl, h.fresh,
      hordered.of_cons, fun other => ?_⟩
    convert h.balanced other using 1
    ext home <;> simp [tally, hq]
  cases hpeek : (state.heap container).peek with
  | none =>
      have hempty : state.heap container = LocHeap.empty :=
        congrArg LocHeap.mk (LocHeapNode.mData?_eq_none.mp hpeek)
      have hsame : { state with msgQ }.setHeap container (state.heap container) =
          { state with msgQ } := by
        rw [setHeap, Function.update_eq_self]
      have hpop : (state.heap container).pop = (state.heap container, none) := by
        rw [hempty]
        rfl
      rw [LocTimers.timerExpire, hpop]
      dsimp only
      rw [hsame]
      exact hrest.expireLoop reaction container _ fun hnone => absurd rfl hnone
  | some top =>
      rw [LocTimers.timerExpire, LocHeap.pop_eq hpeek]
      apply (hrest.pop hpeek).expireLoop
      intro _
      rw [heap_setHeap_self]
      exact LocHeap.count_pop hpeek

end Messages

/-! ## Runs -/

theorem Lifecycle.step {state next : LocTimers} {label : Label} (h : state.Lifecycle none)
    (hstep : state.step label = some next) : next.Lifecycle none := by
  cases label with
  | tick now =>
      simp only [LocTimers.step, Option.ite_none_right_eq_some, Option.some.injEq] at hstep
      obtain ⟨-, rfl⟩ := hstep
      exact ⟨h.valid, h.linked.of_eq rfl rfl rfl rfl, h.fresh, h.ordered,
        h.balanced⟩
  | call request =>
      obtain rfl := Option.some.inj hstep
      exact (h.call request).1
  | sendExpire container =>
      obtain rfl := Option.some.inj hstep
      refine ⟨h.valid, h.linked.of_eq rfl rfl rfl rfl, h.fresh, ?_,
        fun timer => ?_⟩
      · apply List.pairwise_append.mpr
        refine ⟨h.ordered, List.pairwise_singleton _ _, fun first _ second hsecond => ?_⟩
        obtain rfl := List.mem_singleton.mp hsecond
        rintro _ _ heq
        cases heq
      · convert h.balanced timer using 1
        ext home <;> simp [tally, sendMsg, List.count_append]
  | proc reaction =>
      simp only [LocTimers.step] at hstep
      split at hstep
      · cases hstep
      · rename_i container msg msgQ hq
        obtain rfl := Option.some.inj hstep
        cases msg with
        | timerPush mTimer => exact h.timerPush hq
        | timerRemove mTimer => exact h.timerRemove hq
        | timerExpire => exact h.timerExpire hq reaction

theorem count_map_fst (starts : List (LocTimerDelegate × Bool)) (timer : LocTimerDelegate) :
    (starts.map Prod.fst).count timer =
      starts.count (timer, false) + starts.count (timer, true) := by
  induction starts with
  | nil => rfl
  | cons start starts ih =>
      obtain ⟨other, container⟩ := start
      simp only [List.map_cons, List.count_cons, ih]
      by_cases hsame : other = timer <;> cases container <;> simp [hsame] <;> omega

/-- In every run each delegate is deleted at most once and is in no heap
afterwards, each start is ended by at most one `stop()` that returned true, and
no start has both a client's `stop()` that returned true and a callback. -/
theorem delegate_lifecycle {now : BootTime} {state : LocTimers}
    (hreach : Reachable step (init now) state) :
    (state.deleted.Nodup ∧
        ∀ timer ∈ state.deleted, ∀ container, timer ∉ (state.heap container).elements) ∧
      ((state.started.map Prod.fst).Nodup ∧ state.ended.Nodup ∧
        ∀ timer ∈ state.ended, timer ∈ state.started.map Prod.fst) ∧
      ∀ timer ∈ state.stops, timer ∉ state.callbacks.map Callback.timer := by
  have h : state.Lifecycle none :=
    invariant_of_step (I := fun state => state.Lifecycle none)
      (fun _ _ _ h hstep => h.step hstep) (init_lifecycle now) hreach
  have hmade : ∀ timer, (state.started.map Prod.fst).count timer ≤ 1 := by
    intro timer
    rw [count_map_fst]
    exact (h.balanced timer).made_once
  have hended : ∀ timer, state.ended.count timer ≤ (state.started.map Prod.fst).count timer := by
    intro timer
    rw [count_map_fst]
    exact Nat.le.intro ((Nat.add_comm _ _).trans (h.balanced timer).spent)
  have honce : ∀ timer, state.ended.count timer ≤ 1 := fun timer =>
    (hended timer).trans (hmade timer)
  refine ⟨⟨?_, ?_⟩, ⟨?_, ?_, ?_⟩, ?_⟩
  · apply List.nodup_iff_count_le_one.mpr
    intro timer
    have howed := (h.balanced timer).owed
    have honce := (h.balanced timer).made_once
    have hcount : (state.tally timer).deleted = state.deleted.count timer := rfl
    omega
  · intro timer hdeleted container hstored
    have hgone := (h.balanced timer).gone (List.count_pos_iff.mpr hdeleted) container
    have hcount := Multiset.count_pos.mpr hstored
    exact absurd (Nat.eq_zero_of_add_eq_zero_left hgone) (Nat.pos_iff_ne_zero.mp hcount)
  · exact List.nodup_iff_count_le_one.mpr hmade
  · exact List.nodup_iff_count_le_one.mpr honce
  · intro timer hmem
    apply List.count_pos_iff.mp
    exact lt_of_lt_of_le (List.count_pos_iff.mpr hmem) (hended timer)
  · intro timer hstopped hcalled
    have htold : state.ended.count timer =
        state.stops.count timer + (state.callbacks.map Callback.timer).count timer :=
      (h.balanced timer).told
    have hone := honce timer
    have hfirst := List.count_pos_iff.mpr hstopped
    have hsecond := List.count_pos_iff.mpr hcalled
    omega

/-- A callback starts its timer again in the other container, and the client
stops it before the push is processed. -/
def restartRun : List Label :=
  [.call (.start 0 0 false), .proc fun _ => [], .sendExpire false,
    .proc fun _ => [.start 0 10 true], .call (.stop 0), .proc fun _ => [], .proc fun _ => [],
    .proc fun _ => []]

theorem delegate_lifecycle_restart :
    ∃ state, exec step (init (.atSecond 0)) restartRun = some state ∧
      (state.deleted.Nodup ∧
          ∀ timer ∈ state.deleted, ∀ container, timer ∉ (state.heap container).elements) ∧
        ((state.started.map Prod.fst).Nodup ∧ state.ended.Nodup ∧
          ∀ timer ∈ state.ended, timer ∈ state.started.map Prod.fst) ∧
        ∀ timer ∈ state.stops, timer ∉ state.callbacks.map Callback.timer := by
  have hany : (exec step (init (.atSecond 0)) restartRun).any
      (fun state => decide (state.deleted.length = 2)) = true := by decide
  obtain ⟨state, hrun, -⟩ := (Option.any_eq_true _ _).mp hany
  exact ⟨state, hrun, delegate_lifecycle ⟨restartRun, hrun⟩⟩

end LocTimers

end Msm8916.Timer
