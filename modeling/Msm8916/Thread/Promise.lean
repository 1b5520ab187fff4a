import Msm8916.Thread.Deletion

/-!
What the header of `LocThread` promises, over every run of a client and its threads:
a delegate is deleted once, and the runnable once if `start` returns true and not at
all otherwise. It is kept in the runs in which neither side reads a field that the
other has cleared first.
-/

namespace Msm8916.Thread

open Transition

/-- The delegate has been deleted once, and the runnable as `start` has answered. -/
structure DeletedOnce (delegate : LocThreadDelegate) : Prop where
  once : delegate.deleted = 1
  promised : delegate.runnableDeleted = if delegate.success = some true then 1 else 0

/-- The thread has not missed its runnable, and `start` has answered false only where
there is no thread. -/
structure Honest (delegate : LocThreadDelegate) : Prop where
  read : delegate.runnable ≠ some false
  answer : delegate.success = some false → delegate.threadPoint = .absent

theorem Honest.new (joinable : Bool) : Honest (.new joinable) := ⟨by rintro ⟨⟩, by rintro ⟨⟩⟩

section Delegate

variable {delegate next : LocThreadDelegate} {outcome : Bool}

/-- With both sides gone there is no reference left, and the last one has deleted. -/
theorem deleted_of_released (hcounted : Counted delegate)
    (howner : delegate.ownerPoint = .released)
    (hthread : delegate.threadPoint = .absent ∨ delegate.threadPoint = .finished) :
    delegate.deleted = 1 := by
  have hrefs := hcounted.refs
  have hdeletions := hcounted.deletions
  rw [howner] at hrefs hdeletions
  rcases hthread with habsent | hfinished
  · rw [habsent] at hrefs hdeletions
    have hzero : delegate.mRefCount = 0 := hrefs
    rw [if_pos hzero] at hdeletions
    exact hdeletions
  · rw [hfinished] at hrefs hdeletions
    have hzero : delegate.mRefCount = 0 := hrefs
    rw [if_pos hzero] at hdeletions
    exact hdeletions

/-- The runnable is deleted as promised exactly where the two reads agree. -/
theorem deletedOnce_iff (hcounted : Counted delegate) (haccounted : Accounted delegate)
    (howner : delegate.ownerPoint = .released)
    (hthread : delegate.threadPoint = .absent ∨ delegate.threadPoint = .finished) :
    DeletedOnce delegate ↔ Honest delegate := by
  have hdeleted := deleted_of_released hcounted howner hthread
  have hanswered : delegate.success ≠ none := by
    intro hnone
    rw [haccounted.unanswered, howner] at hnone
    rcases hnone with heq | heq <;> cases heq
  obtain ⟨answer, hanswer⟩ := Option.ne_none_iff_exists'.mp hanswered
  rcases hthread with habsent | hfinished
  · obtain ⟨hunread, hnone⟩ := haccounted.unread (.inl habsent)
    have hfalse : delegate.success ≠ some true := by
      rcases haccounted.absent habsent with hconstructing | ⟨_, hfalse⟩
      · exact absurd (hconstructing.symm.trans howner) (by rintro ⟨⟩)
      · exact hfalse
    refine iff_of_true ⟨hdeleted, ?_⟩ ⟨?_, fun _ => habsent⟩
    · rw [hnone, if_neg hfalse]
    · rw [hunread]
      rintro ⟨⟩
  · rcases haccounted.leaving (hfinished ▸ trivial) with ⟨hread, hcount⟩ | ⟨hmissed, hcount⟩
    · constructor
      · intro h
        refine ⟨?_, ?_⟩
        · rw [hread]
          rintro ⟨⟩
        · intro hfalse
          have hpromised := h.promised
          rw [hcount, if_neg (by rw [hfalse]; rintro ⟨⟩)] at hpromised
          cases hpromised
      · intro h
        refine ⟨hdeleted, ?_⟩
        have htrue : delegate.success = some true := by
          cases answer with
          | true => exact hanswer
          | false =>
              have habsent := h.answer hanswer
              rw [hfinished] at habsent
              cases habsent
        rw [hcount, if_pos htrue]
    · refine iff_of_false (fun h => ?_) fun h => h.read hmissed
      have hpromised := h.promised
      rw [hcount, if_pos (haccounted.missed hmissed)] at hpromised
      cases hpromised

/-- The look at `mRunnable` in `create` finds it, unless there is no thread. -/
def CheckFinds (delegate : LocThreadDelegate) : Prop :=
  delegate.ownerPoint = .checking → delegate.mRunnable = true ∨ delegate.threadPoint = .absent

/-- The first read of the thread finds the runnable. -/
def ReadFinds (delegate : LocThreadDelegate) : Prop :=
  delegate.threadPoint = .start → delegate.mRunnable = true

theorem honest_ownerStep (h : Accounted delegate)
    (hstep : delegate.ownerStep outcome = some next) :
    Honest next ↔ Honest delegate ∧ CheckFinds delegate := by
  -- A step with another point changes nothing of what is said.
  have hsame : ∀ {next : LocThreadDelegate}, delegate.ownerPoint ≠ .checking →
      next.runnable = delegate.runnable → next.success = delegate.success →
      next.threadPoint = delegate.threadPoint →
      (Honest next ↔ Honest delegate ∧ CheckFinds delegate) := by
    intro next hpoint hrunnable hsuccess hthread
    constructor
    · rintro ⟨hread, hanswer⟩
      rw [hrunnable] at hread
      rw [hsuccess, hthread] at hanswer
      exact ⟨⟨hread, hanswer⟩, fun hchecking => absurd hchecking hpoint⟩
    · rintro ⟨⟨hread, hanswer⟩, _⟩
      rw [← hrunnable] at hread
      rw [← hsuccess, ← hthread] at hanswer
      exact ⟨hread, hanswer⟩
  rcases LocThreadDelegate.ownerStep_cases hstep with ⟨hpoint, rfl⟩ | ⟨hpoint, rfl⟩ |
    ⟨hpoint, rfl⟩ | ⟨hstopping, _, _, _, _, _, rfl⟩ | ⟨point, hpoint, rfl⟩
  · have hnone := h.unanswered.mpr (.inl hpoint)
    have hunread := (h.unread (.inl (h.constructing hpoint).1)).1
    have hread : delegate.runnable ≠ some false := by
      rw [hunread]
      rintro ⟨⟩
    refine iff_of_true ⟨hread, fun hfalse => ?_⟩ ⟨⟨hread, fun hfalse => ?_⟩, fun hchecking => ?_⟩
    · rw [hnone] at hfalse
      cases hfalse
    · rw [hnone] at hfalse
      cases hfalse
    · rw [hpoint] at hchecking
      cases hchecking
  · exact hsame (by rw [hpoint]; rintro ⟨⟩) rfl rfl rfl
  · have hnone := h.unanswered.mpr (.inr hpoint)
    constructor
    · rintro ⟨hread, hanswer⟩
      refine ⟨⟨hread, fun hfalse => ?_⟩, fun _ => ?_⟩
      · rw [hnone] at hfalse
        cases hfalse
      · cases hfield : delegate.mRunnable with
        | true => exact .inl rfl
        | false => exact .inr (hanswer (congrArg some hfield))
    · rintro ⟨⟨hread, _⟩, hfinds⟩
      refine ⟨hread, fun hfalse => ?_⟩
      rcases hfinds hpoint with htrue | habsent
      · rw [htrue] at hfalse
        cases hfalse
      · exact habsent
  · refine hsame ?_ rfl rfl rfl
    intro hchecking
    rw [hchecking] at hstopping
    exact hstopping
  · exact hsame (by rw [hpoint]; rintro ⟨⟩) rfl rfl rfl

theorem honest_threadStep (h : Accounted delegate)
    (hstep : delegate.threadStep outcome = some next) :
    Honest next ↔ Honest delegate ∧ ReadFinds delegate := by
  -- After its first read the thread changes nothing of what is said.
  have hsame : ∀ {next : LocThreadDelegate}, delegate.threadPoint ≠ .start →
      delegate.threadPoint ≠ .absent → next.threadPoint ≠ .absent →
      next.runnable = delegate.runnable → next.success = delegate.success →
      (Honest next ↔ Honest delegate ∧ ReadFinds delegate) := by
    intro next hstart hpoint hnext hrunnable hsuccess
    constructor
    · rintro ⟨hread, hanswer⟩
      rw [hrunnable] at hread
      rw [hsuccess] at hanswer
      exact ⟨⟨hread, fun hfalse => absurd (hanswer hfalse) hnext⟩,
        fun heq => absurd heq hstart⟩
    · rintro ⟨⟨hread, hanswer⟩, _⟩
      rw [← hrunnable] at hread
      rw [← hsuccess] at hanswer
      exact ⟨hread, fun hfalse => absurd (hanswer hfalse) hpoint⟩
  rcases LocThreadDelegate.threadStep_cases hstep with ⟨hpoint, rfl⟩ |
    ⟨hrunning, point, hnext, rfl⟩ | ⟨hpoint, rfl⟩ | ⟨hpoint, rfl⟩ | ⟨point, hpoint, rfl⟩
  · have hunread := (h.unread (.inr hpoint)).1
    have hrefused := h.not_refused (by rw [hpoint]; rintro ⟨⟩)
      (Accounted.not_cleared_of_start hpoint)
    constructor
    · rintro ⟨hread, _⟩
      refine ⟨⟨?_, fun hfalse => absurd hfalse hrefused⟩, fun _ => ?_⟩
      · rw [hunread]
        rintro ⟨⟩
      · cases hfield : delegate.mRunnable with
        | true => rfl
        | false => exact absurd (congrArg some hfield) hread
    · rintro ⟨_, hfinds⟩
      refine ⟨fun hfalse => ?_, fun hfalse => absurd hfalse hrefused⟩
      have htrue := hfinds hpoint
      rw [Option.some.inj hfalse] at htrue
      cases htrue
  · obtain ⟨_, _, hthread⟩ := hrunning.kept delegate.ownerPoint
    refine hsame ?_ hthread (hnext.kept delegate.ownerPoint).2.2 rfl rfl
    intro hstart
    rw [hstart] at hrunning
    exact hrunning
  · exact hsame (by rw [hpoint]; rintro ⟨⟩) (by rw [hpoint]; rintro ⟨⟩) (by rintro ⟨⟩) rfl rfl
  · exact hsame (by rw [hpoint]; rintro ⟨⟩) (by rw [hpoint]; rintro ⟨⟩) (by rintro ⟨⟩) rfl rfl
  · refine hsame (by rw [hpoint]; rintro ⟨⟩) (by rw [hpoint]; rintro ⟨⟩) ?_ rfl rfl
    dsimp only
    cases (delegate.destroyStep point).2 <;> rintro ⟨⟩

end Delegate

/-! ## The client and all its threads -/

/-- What every reachable state has. A delegate that is not released is the one of the call
in progress, or the one that `mThread` holds. -/
structure Kept (locThread : LocThread) : Prop where
  each : ∀ delegate ∈ locThread.delegates, Counted delegate ∧ Accounted delegate
  away : ∀ i delegate, locThread.delegates[i]? = some delegate →
    delegate.ownerPoint = .released ∨ locThread.calling = some i ∨
      locThread.mThread = some i ∧ delegate.ownerPoint = .holding
  held : locThread.calling = none → ∀ i, locThread.mThread = some i →
    ∃ delegate, locThread.delegates[i]? = some delegate ∧ delegate.ownerPoint = .holding
  called : ∀ i, locThread.calling = some i → ∀ j, locThread.mThread = some j → i = j

/-- Entering `stop` or `destroy` from `holding` gives up nothing yet. -/
theorem accounted_release {delegate : LocThreadDelegate} {point : OwnerPoint}
    (h : Counted delegate ∧ Accounted delegate) (howner : delegate.ownerPoint = .holding)
    (hpoint : point = .testRunnable ∨ point = .destroying .test) :
    Counted { delegate with ownerPoint := point } ∧
      Accounted { delegate with ownerPoint := point } := by
  obtain ⟨hcounted, haccounted⟩ := h
  have htrue := haccounted.accepted (.inl howner)
  have hne : delegate.ownerPoint ≠ .constructing := by
    rw [howner]
    rintro ⟨⟩
  have hpointKept : point.share = 1 ∧ point.deleting = 0 ∧ point ≠ .constructing ∧
      point ≠ .checking := by
    rcases hpoint with rfl | rfl <;> exact ⟨rfl, rfl, by rintro ⟨⟩, by rintro ⟨⟩⟩
  constructor
  · refine hcounted.quiet rfl rfl ?_ ?_ hpointKept.2.2.1
    · rw [howner]
      exact ⟨hpointKept.1, hpointKept.2.1⟩
    · exact ⟨threadShare_of_owner hne hpointKept.2.2.1 _, rfl⟩
  · exact
      { unread := haccounted.unread
        running := haccounted.running
        leaving := haccounted.leaving
        unanswered := by
          refine iff_of_false ?_ (not_or.mpr ⟨hpointKept.2.2.1, hpointKept.2.2.2⟩)
          rw [htrue]
          rintro ⟨⟩
        accepted := fun _ => htrue
        constructing := fun heq => absurd heq hpointKept.2.2.1
        absent := fun habsent => by
          rcases haccounted.absent habsent with hconstructing | ⟨_, hfalse⟩
          · exact absurd hconstructing hne
          · exact absurd htrue hfalse
        cleared := haccounted.cleared
        refused := haccounted.refused
        missed := haccounted.missed }

namespace Kept

variable {locThread next : LocThread}

theorem init : Kept .init where
  each := fun _ h => by cases h
  away := fun _ _ h => by cases h
  held := fun _ _ h => by cases h
  called := fun _ h => by cases h

/-- What is kept when one delegate is replaced. -/
theorem each_set {delegates : List LocThreadDelegate}
    (h : ∀ delegate ∈ delegates, Counted delegate ∧ Accounted delegate) (i : Nat)
    {delegate : LocThreadDelegate} (hdelegate : Counted delegate ∧ Accounted delegate) :
    ∀ other ∈ delegates.set i delegate, Counted other ∧ Accounted other := by
  intro other hother
  rcases List.mem_or_eq_of_mem_set hother with hold | rfl
  · exact h other hold
  · exact hdelegate

theorem start (h : Kept locThread) (hidle : locThread.calling = none)
    (hmThread : locThread.mThread = none) (joinable : Bool) :
    Kept { locThread with
      calling := some locThread.delegates.length
      delegates := locThread.delegates ++ [.new joinable] } where
  each := by
    intro delegate hdelegate
    rcases List.mem_append.mp hdelegate with hold | hnew
    · exact h.each delegate hold
    · obtain rfl := List.mem_singleton.mp hnew
      exact ⟨.new joinable, .new joinable⟩
  away := by
    intro i delegate hdelegate
    dsimp only at hdelegate ⊢
    rw [List.getElem?_append] at hdelegate
    split at hdelegate
    · rcases h.away i delegate hdelegate with hreleased | hcalling | ⟨hheld, _⟩
      · exact .inl hreleased
      · rw [hidle] at hcalling
        cases hcalling
      · rw [hmThread] at hheld
        cases hheld
    · rename_i hlength
      have hbound := (List.getElem?_eq_some_iff.mp hdelegate).1
      rw [List.length_singleton] at hbound
      exact .inr (.inl (congrArg some (by omega)))
  held := fun heq => by cases heq
  called := fun i _ j hj => by
    rw [show locThread.mThread = some j from hj] at hmThread
    cases hmThread

theorem release (h : Kept locThread) (hidle : locThread.calling = none)
    {point : LocThreadDelegate → OwnerPoint}
    (hpoint : ∀ delegate, point delegate = .testRunnable ∨ point delegate = .destroying .test)
    (hstep : locThread.release point = some next) : Kept next := by
  unfold LocThread.release at hstep
  cases hmThread : locThread.mThread with
  | none =>
      rw [hmThread] at hstep
      obtain rfl := Option.some.inj hstep
      exact h
  | some i =>
      rw [hmThread] at hstep
      obtain ⟨delegate, hdelegate, rfl⟩ := Option.map_eq_some_iff.mp hstep
      have hholding : delegate.ownerPoint = .holding := by
        obtain ⟨other, hother, hholding⟩ := h.held hidle i hmThread
        obtain rfl : delegate = other := Option.some.inj (hdelegate.symm.trans hother)
        exact hholding
      refine ⟨each_set h.each i (accounted_release
        (h.each delegate (List.mem_of_getElem? hdelegate)) hholding (hpoint delegate)), ?_, ?_, ?_⟩
      · intro j other hother
        rcases eq_or_ne i j with rfl | hne
        · exact .inr (.inl rfl)
        · rw [List.getElem?_set_ne hne] at hother
          rcases h.away j other hother with hreleased | hcalling | ⟨hheld, _⟩
          · exact .inl hreleased
          · rw [hidle] at hcalling
            cases hcalling
          · rw [hmThread] at hheld
            exact absurd (Option.some.inj hheld) hne
      · rintro ⟨⟩
      · intro j hj k hk
        exact (Option.some.inj hj).symm.trans (Option.some.inj hk)

theorem owner (h : Kept locThread) {i : Nat} {delegate after : LocThreadDelegate}
    {outcome : Bool} (hcalling : locThread.calling = some i)
    (hdelegate : locThread.delegates[i]? = some delegate)
    (hafter : delegate.ownerStep outcome = some after) : Kept (locThread.afterOwner i after) := by
  obtain ⟨hcounted, haccounted⟩ := h.each delegate (List.mem_of_getElem? hdelegate)
  have hlt := (List.getElem?_eq_some_iff.mp hdelegate).1
  refine ⟨each_set h.each i ⟨hcounted.ownerStep hafter, haccounted.ownerStep hafter⟩, ?_, ?_, ?_⟩
  · intro j other hother
    unfold LocThread.afterOwner at hother ⊢
    dsimp only at hother ⊢
    rcases eq_or_ne i j with rfl | hne
    · rw [List.getElem?_set_self hlt] at hother
      obtain rfl := Option.some.inj hother
      cases after.ownerPoint <;> first
        | exact .inl rfl | exact .inr (.inl rfl) | exact .inr (.inr ⟨rfl, rfl⟩)
    · rw [List.getElem?_set_ne hne] at hother
      rcases h.away j other hother with hreleased | hcalling' | ⟨hheld, _⟩
      · exact .inl hreleased
      · exact absurd (Option.some.inj (hcalling.symm.trans hcalling')) hne
      · exact absurd (h.called i hcalling j hheld) hne
  · intro hnone j hj
    unfold LocThread.afterOwner at hnone hj ⊢
    dsimp only at hnone hj ⊢
    cases hpoint : after.ownerPoint with
    | holding =>
        rw [hpoint] at hj
        obtain rfl : i = j := Option.some.inj hj
        exact ⟨after, List.getElem?_set_self hlt, hpoint⟩
    | released =>
        rw [hpoint] at hj
        cases hj
    | _ =>
        rw [hpoint] at hnone
        cases hnone
  · intro j hj k hk
    unfold LocThread.afterOwner at hj hk
    dsimp only at hj hk
    cases hpoint : after.ownerPoint with
    | holding =>
        rw [hpoint] at hj
        cases hj
    | released =>
        rw [hpoint] at hj
        cases hj
    | _ =>
        rw [hpoint] at hj hk
        exact (Option.some.inj hj).symm.trans (h.called i hcalling k hk)

theorem threadStep_ownerPoint {delegate after : LocThreadDelegate} {outcome : Bool}
    (h : delegate.threadStep outcome = some after) : after.ownerPoint = delegate.ownerPoint := by
  rcases LocThreadDelegate.threadStep_cases h with ⟨_, rfl⟩ | ⟨_, _, _, rfl⟩ | ⟨_, rfl⟩ |
    ⟨_, rfl⟩ | ⟨_, _, rfl⟩ <;> rfl

theorem thread (h : Kept locThread) {i : Nat} {delegate after : LocThreadDelegate}
    {outcome : Bool} (hdelegate : locThread.delegates[i]? = some delegate)
    (hafter : delegate.threadStep outcome = some after) :
    Kept { locThread with delegates := locThread.delegates.set i after } := by
  obtain ⟨hcounted, haccounted⟩ := h.each delegate (List.mem_of_getElem? hdelegate)
  have hlt := (List.getElem?_eq_some_iff.mp hdelegate).1
  have howner := threadStep_ownerPoint hafter
  refine ⟨each_set h.each i ⟨hcounted.threadStep hafter, haccounted.threadStep hafter⟩,
    ?_, ?_, h.called⟩
  · intro j other hother
    dsimp only at hother ⊢
    rcases eq_or_ne i j with rfl | hne
    · rw [List.getElem?_set_self hlt] at hother
      obtain rfl := Option.some.inj hother
      rw [howner]
      exact h.away i delegate hdelegate
    · rw [List.getElem?_set_ne hne] at hother
      exact h.away j other hother
  · intro hidle j hj
    obtain ⟨other, hother, hholding⟩ := h.held hidle j hj
    dsimp only
    rcases eq_or_ne i j with rfl | hne
    · obtain rfl : delegate = other := Option.some.inj (hdelegate.symm.trans hother)
      exact ⟨after, List.getElem?_set_self hlt, howner.trans hholding⟩
    · exact ⟨other, (List.getElem?_set_ne hne).trans hother, hholding⟩

end Kept

theorem eq_none_of_not_or {o : Option Nat} {b : Bool} (h : ¬ (o.isSome || b) = true) :
    o = none := by
  rw [Bool.or_eq_true, not_or] at h
  exact Option.not_isSome_iff_eq_none.mp h.1

/-- What a step of the client or of a thread has done. -/
theorem step_cases {locThread next : LocThread} {label : Label}
    (h : locThread.step label = some next) :
    (∃ runnable joinable, label = .start runnable joinable ∧ locThread.calling = none ∧
      (next = locThread ∨ locThread.mThread = none ∧ next = { locThread with
        calling := some locThread.delegates.length
        delegates := locThread.delegates ++ [.new joinable] })) ∨
    (label = .stop ∧ locThread.calling = none ∧
      locThread.release (fun _ => .testRunnable) = some next) ∨
    (label = .destruct ∧ locThread.calling = none ∧
      { locThread with destructed := true }.release (·.byePoint) = some next) ∨
    (∃ outcome i delegate after, label = .owner outcome ∧ locThread.calling = some i ∧
      locThread.delegates[i]? = some delegate ∧ delegate.ownerStep outcome = some after ∧
      next = locThread.afterOwner i after) ∨
    (∃ i outcome delegate after, label = .thread i outcome ∧
      locThread.delegates[i]? = some delegate ∧ delegate.threadStep outcome = some after ∧
      next = { locThread with delegates := locThread.delegates.set i after }) := by
  cases label with
  | start runnable joinable =>
      refine .inl ⟨runnable, joinable, rfl, ?_⟩
      rw [LocThread.step] at h
      split at h
      · cases h
      · rename_i hfree
        refine ⟨eq_none_of_not_or hfree, ?_⟩
        split at h
        · exact .inl (Option.some.inj h).symm
        · rename_i hnew
          exact .inr ⟨eq_none_of_not_or hnew, (Option.some.inj h).symm⟩
  | stop =>
      rw [LocThread.step] at h
      split at h
      · cases h
      · rename_i hfree
        exact .inr (.inl ⟨rfl, eq_none_of_not_or hfree, h⟩)
  | destruct =>
      rw [LocThread.step] at h
      split at h
      · cases h
      · rename_i hfree
        exact .inr (.inr (.inl ⟨rfl, eq_none_of_not_or hfree, h⟩))
  | owner outcome =>
      obtain ⟨i, hcalling, hrest⟩ := Option.bind_eq_some_iff.mp h
      obtain ⟨delegate, hdelegate, hrest⟩ := Option.bind_eq_some_iff.mp hrest
      obtain ⟨after, hafter, rfl⟩ := Option.map_eq_some_iff.mp hrest
      exact .inr (.inr (.inr (.inl
        ⟨outcome, i, delegate, after, rfl, hcalling, hdelegate, hafter, rfl⟩)))
  | thread i outcome =>
      obtain ⟨delegate, hdelegate, hrest⟩ := Option.bind_eq_some_iff.mp h
      obtain ⟨after, hafter, rfl⟩ := Option.map_eq_some_iff.mp hrest
      exact .inr (.inr (.inr (.inr ⟨i, outcome, delegate, after, rfl, hdelegate, hafter, rfl⟩)))

theorem Kept.step {locThread next : LocThread} {label : Label} (h : Kept locThread)
    (hstep : locThread.step label = some next) : Kept next := by
  rcases step_cases hstep with ⟨_, joinable, rfl, hidle, rfl | ⟨hmThread, rfl⟩⟩ |
    ⟨rfl, hidle, hrelease⟩ | ⟨rfl, hidle, hrelease⟩ |
    ⟨_, i, delegate, after, rfl, hcalling, hdelegate, hafter, rfl⟩ |
    ⟨i, _, delegate, after, rfl, hdelegate, hafter, rfl⟩
  · exact h
  · exact h.start hidle hmThread joinable
  · exact h.release hidle (fun _ => .inl rfl) hrelease
  · have hdestructed : Kept { locThread with destructed := true } :=
      ⟨h.each, h.away, h.held, h.called⟩
    refine hdestructed.release hidle ?_ hrelease
    intro delegate
    unfold LocThreadDelegate.byePoint
    split
    · exact .inl rfl
    · exact .inr rfl
  · exact h.owner hcalling hdelegate hafter
  · exact h.thread hdelegate hafter

/-! ## Runs -/

/-- A step that reads `mRunnable`, in `create` or at the start of a thread, finds it. -/
def Finds (locThread : LocThread) : Label → Prop
  | .owner _ => ∀ i delegate, locThread.calling = some i →
      locThread.delegates[i]? = some delegate → CheckFinds delegate
  | .thread i _ => ∀ delegate, locThread.delegates[i]? = some delegate → ReadFinds delegate
  | _ => True

/-- Replacing a delegate keeps all of them honest exactly if it meets a condition. -/
theorem honest_set {delegates : List LocThreadDelegate} {i : Nat}
    {delegate after : LocThreadDelegate} {condition : Prop}
    (hdelegate : delegates[i]? = some delegate)
    (hiff : Honest after ↔ Honest delegate ∧ condition) :
    (∀ other ∈ delegates.set i after, Honest other) ↔
      (∀ other ∈ delegates, Honest other) ∧ condition := by
  have hlt := (List.getElem?_eq_some_iff.mp hdelegate).1
  constructor
  · intro h
    obtain ⟨hbefore, hcondition⟩ := hiff.mp (h after (List.mem_set hlt after))
    refine ⟨fun other hother => ?_, hcondition⟩
    obtain ⟨j, hj⟩ := List.getElem?_of_mem hother
    rcases eq_or_ne i j with rfl | hne
    · obtain rfl : delegate = other := Option.some.inj (hdelegate.symm.trans hj)
      exact hbefore
    · exact h other (List.mem_of_getElem? ((List.getElem?_set_ne hne).trans hj))
  · rintro ⟨h, hcondition⟩ other hother
    rcases List.mem_or_eq_of_mem_set hother with hold | rfl
    · exact h other hold
    · exact hiff.mpr ⟨h delegate (List.mem_of_getElem? hdelegate), hcondition⟩

theorem honest_release {locThread next : LocThread} {point : LocThreadDelegate → OwnerPoint}
    (hstep : locThread.release point = some next) :
    (∀ other ∈ next.delegates, Honest other) ↔ ∀ other ∈ locThread.delegates, Honest other := by
  unfold LocThread.release at hstep
  cases hmThread : locThread.mThread with
  | none =>
      rw [hmThread] at hstep
      obtain rfl := Option.some.inj hstep
      exact Iff.rfl
  | some i =>
      rw [hmThread] at hstep
      obtain ⟨delegate, hdelegate, rfl⟩ := Option.map_eq_some_iff.mp hstep
      have hsame : Honest { delegate with ownerPoint := point delegate } ↔
          Honest delegate ∧ True :=
        ⟨fun h => ⟨⟨h.read, h.answer⟩, trivial⟩, fun h => ⟨h.1.read, h.1.answer⟩⟩
      exact (honest_set hdelegate hsame).trans (and_iff_left trivial)

theorem honest_step {locThread next : LocThread} {label : Label} (h : Kept locThread)
    (hstep : locThread.step label = some next) :
    (∀ delegate ∈ next.delegates, Honest delegate) ↔
      (∀ delegate ∈ locThread.delegates, Honest delegate) ∧ Finds locThread label := by
  rcases step_cases hstep with ⟨_, joinable, rfl, _, rfl | ⟨_, rfl⟩⟩ | ⟨rfl, _, hrelease⟩ |
    ⟨rfl, _, hrelease⟩ | ⟨_, i, delegate, after, rfl, hcalling, hdelegate, hafter, rfl⟩ |
    ⟨i, _, delegate, after, rfl, hdelegate, hafter, rfl⟩
  · exact (and_iff_left trivial).symm
  · refine Iff.trans ?_ (and_iff_left trivial).symm
    constructor
    · exact fun hall delegate hdelegate => hall delegate (List.mem_append_left _ hdelegate)
    · intro hall delegate hdelegate
      rcases List.mem_append.mp hdelegate with hold | hnew
      · exact hall delegate hold
      · obtain rfl := List.mem_singleton.mp hnew
        exact .new joinable
  · exact (honest_release hrelease).trans (and_iff_left trivial).symm
  · exact (honest_release hrelease).trans (and_iff_left trivial).symm
  · have hkept := (h.each delegate (List.mem_of_getElem? hdelegate)).2
    refine (honest_set hdelegate (honest_ownerStep hkept hafter)).trans ?_
    refine and_congr_right fun _ => ⟨fun hfinds j other hj hother => ?_, fun hfinds => ?_⟩
    · obtain rfl : i = j := Option.some.inj (hcalling.symm.trans hj)
      obtain rfl : delegate = other := Option.some.inj (hdelegate.symm.trans hother)
      exact hfinds
    · exact hfinds i delegate hcalling hdelegate
  · have hkept := (h.each delegate (List.mem_of_getElem? hdelegate)).2
    refine (honest_set hdelegate (honest_threadStep hkept hafter)).trans ?_
    refine and_congr_right fun _ => ⟨fun hfinds other hother => ?_, fun hfinds => ?_⟩
    · obtain rfl : delegate = other := Option.some.inj (hdelegate.symm.trans hother)
      exact hfinds
    · exact hfinds delegate hdelegate

theorem kept_of_run {labels : List Label} {locThread : LocThread}
    (hrun : exec LocThread.step .init labels = some locThread) : Kept locThread :=
  invariant_of_step (fun _ _ _ hkept hstep => hkept.step hstep) .init ⟨labels, hrun⟩

/-- At the end of a run the client has released every delegate. -/
theorem released_of_final {locThread : LocThread} (h : Kept locThread)
    (hfinal : locThread.Final) : ∀ delegate ∈ locThread.delegates,
      delegate.ownerPoint = .released := by
  intro delegate hdelegate
  obtain ⟨i, hi⟩ := List.getElem?_of_mem hdelegate
  rcases h.away i delegate hi with hreleased | hcalling | ⟨hheld, _⟩
  · exact hreleased
  · rw [hfinal.idle] at hcalling
    cases hcalling
  · rw [hfinal.stopped] at hheld
    cases hheld

/-- Whatever the interleaving, no delegate is leaked or deleted twice. -/
theorem delegate_deleted_once {labels : List Label} {final : LocThread}
    (hrun : exec LocThread.step .init labels = some final) (hfinal : final.Final) :
    ∀ delegate ∈ final.delegates, delegate.deleted = 1 := by
  intro delegate hdelegate
  have hkept := kept_of_run hrun
  exact deleted_of_released (hkept.each delegate hdelegate).1
    (released_of_final hkept hfinal delegate hdelegate) (hfinal.ended delegate hdelegate)

/-- The promise is kept at the end of a run exactly if every step of the run that reads
`mRunnable` to decide about the runnable finds it. -/
theorem promise_kept_iff {labels : List Label} {final : LocThread}
    (hrun : exec LocThread.step .init labels = some final) (hfinal : final.Final) :
    (∀ delegate ∈ final.delegates, DeletedOnce delegate) ↔
      Along LocThread.step Finds .init labels := by
  have hkept := kept_of_run hrun
  have hgood := along_iff_of_step (fun _ _ _ hkept hstep => Kept.step hkept hstep)
    (fun _ _ _ hkept hstep => honest_step hkept hstep) Kept.init hrun
  have hstart : ∀ delegate ∈ LocThread.init.delegates, Honest delegate := fun _ h => by cases h
  rw [and_iff_right hstart] at hgood
  rw [← hgood]
  refine forall_congr' fun delegate => forall_congr' fun hdelegate => ?_
  obtain ⟨hcounted, haccounted⟩ := hkept.each delegate hdelegate
  exact deletedOnce_iff hcounted haccounted
    (released_of_final hkept hfinal delegate hdelegate) (hfinal.ended delegate hdelegate)

/-- A thread that runs once and ends, and then a stop. -/
theorem finds_run_and_stop :
    Along LocThread.step Finds .init
      [.start true true, .owner true, .owner true, .thread 0 true, .thread 0 true,
        .thread 0 true, .thread 0 false, .thread 0 true, .thread 0 true, .thread 0 true,
        .thread 0 true, .thread 0 true, .stop, .owner true, .owner true, .owner true,
        .owner true, .owner true, .owner true, .owner true] := by
  let last : LocThreadDelegate :=
    ⟨false, false, 0, .released, .finished, some true, some true, 1, 1⟩
  refine (@promise_kept_iff _ ⟨none, [last], none, false⟩ rfl ⟨rfl, rfl, ?_⟩).mp ?_
  · intro delegate hdelegate
    obtain rfl := List.mem_singleton.mp hdelegate
    exact .inr rfl
  · intro delegate hdelegate
    obtain rfl := List.mem_singleton.mp hdelegate
    exact ⟨rfl, rfl⟩

/-- A stop before the thread has read its runnable: `start` has returned true, and
nobody deletes the runnable. -/
theorem stop_before_thread :
    ¬ ∀ (labels : List Label) (final : LocThread),
      exec LocThread.step .init labels = some final → final.Final →
        ∀ delegate ∈ final.delegates, DeletedOnce delegate := by
  intro h
  let last : LocThreadDelegate :=
    ⟨false, false, 0, .released, .finished, some false, some true, 1, 0⟩
  have hpromised := h
    [.start true true, .owner true, .owner true, .stop, .owner true, .owner true, .owner true,
      .owner true, .thread 0 true, .thread 0 true, .thread 0 true, .owner true, .owner true,
      .owner true, .owner true] ⟨none, [last], none, false⟩ rfl
    ⟨rfl, rfl, fun delegate hdelegate => .inr (List.mem_singleton.mp hdelegate ▸ rfl)⟩
    last List.mem_cons_self
  exact absurd hpromised.promised (by decide)

end Msm8916.Thread
