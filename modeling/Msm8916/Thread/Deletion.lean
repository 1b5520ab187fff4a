import Msm8916.Thread.LocThread

/-!
How often a delegate and its runnable are deleted. The delegate is counted by its
references, one of each side, and is always deleted once. The runnable is deleted by
the thread if that has read it, and `start` answers by a later look at the same field.
-/

namespace Msm8916.Thread

open Transition

/-- The client is in `stop`, before its `destroy`. -/
def OwnerPoint.Stopping : OwnerPoint → Prop
  | .testRunnable | .clearRunnable | .testJoinable | .clearJoinable | .joining => True
  | _ => False

/-- The thread has read a runnable and not yet cleared the field. -/
def ThreadPoint.Running : ThreadPoint → Prop
  | .testPrerun | .testRun | .run | .testPostrun | .clearRunnable => True
  | _ => False

namespace LocThreadDelegate

variable {delegate next : LocThreadDelegate} {outcome : Bool}

/-- Everything a step of the client can do. -/
theorem ownerStep_cases (h : delegate.ownerStep outcome = some next) :
    (delegate.ownerPoint = .constructing ∧
      next = { delegate with threadPoint := .start, ownerPoint := .checking }) ∨
    (delegate.ownerPoint = .constructing ∧
      next = { delegate with
        mRunnable := false, mJoinable := false, mRefCount := 1, ownerPoint := .checking }) ∨
    (delegate.ownerPoint = .checking ∧
      next = { delegate with
        success := some delegate.mRunnable
        ownerPoint := if delegate.mRunnable then .holding else .destroying .test }) ∨
    (delegate.ownerPoint.Stopping ∧ ∃ mRunnable mJoinable ownerPoint,
      (mRunnable = false ∨ mRunnable = delegate.mRunnable) ∧
      (ownerPoint.Stopping ∨ ownerPoint = .destroying .test) ∧
      next = { delegate with mRunnable, mJoinable, ownerPoint }) ∨
    (∃ point, delegate.ownerPoint = .destroying point ∧
      next = { delegate with
        mRefCount := (delegate.destroyStep point).1.mRefCount
        deleted := (delegate.destroyStep point).1.deleted
        ownerPoint := ((delegate.destroyStep point).2.map .destroying).getD .released }) := by
  unfold ownerStep at h
  cases hpoint : delegate.ownerPoint with
  | constructing =>
      rw [hpoint] at h
      cases outcome with
      | true => exact .inl ⟨rfl, (Option.some.inj h).symm⟩
      | false => exact .inr (.inl ⟨rfl, (Option.some.inj h).symm⟩)
  | checking =>
      rw [hpoint] at h
      exact .inr (.inr (.inl ⟨rfl, (Option.some.inj h).symm⟩))
  | holding =>
      rw [hpoint] at h
      cases h
  | testRunnable =>
      rw [hpoint] at h
      obtain rfl := Option.some.inj h
      refine .inr (.inr (.inr (.inl ⟨trivial, _, _, _, .inr rfl, .inl ?_, rfl⟩)))
      cases delegate.mRunnable <;> trivial
  | clearRunnable =>
      rw [hpoint] at h
      obtain rfl := Option.some.inj h
      exact .inr (.inr (.inr (.inl
        ⟨trivial, _, _, .testJoinable, .inl rfl, .inl trivial, rfl⟩)))
  | testJoinable =>
      rw [hpoint] at h
      obtain rfl := Option.some.inj h
      refine .inr (.inr (.inr (.inl ⟨trivial, _, _, _, .inr rfl, ?_, rfl⟩)))
      cases delegate.mJoinable
      · exact .inr rfl
      · exact .inl trivial
  | clearJoinable =>
      rw [hpoint] at h
      obtain rfl := Option.some.inj h
      exact .inr (.inr (.inr (.inl ⟨trivial, _, _, .joining, .inr rfl, .inl trivial, rfl⟩)))
  | joining =>
      rw [hpoint] at h
      dsimp only at h
      split at h
      · obtain rfl := Option.some.inj h
        exact .inr (.inr (.inr (.inl ⟨trivial, _, _, _, .inr rfl, .inr rfl, rfl⟩)))
      · cases h
  | destroying point =>
      rw [hpoint] at h
      obtain rfl := Option.some.inj h
      refine .inr (.inr (.inr (.inr ⟨point, rfl, ?_⟩)))
      cases point <;> rfl
  | released =>
      rw [hpoint] at h
      cases h

/-- Everything a step of the thread can do. -/
theorem threadStep_cases (h : delegate.threadStep outcome = some next) :
    (delegate.threadPoint = .start ∧
      next = { delegate with
        runnable := some delegate.mRunnable
        threadPoint := if delegate.mRunnable then .testPrerun else .destroying .test }) ∨
    (delegate.threadPoint.Running ∧ ∃ threadPoint : ThreadPoint, threadPoint.Running ∧
      next = { delegate with threadPoint }) ∨
    (delegate.threadPoint = .clearRunnable ∧
      next = { delegate with mRunnable := false, threadPoint := .deleteRunnable }) ∨
    (delegate.threadPoint = .deleteRunnable ∧
      next = { delegate with
        runnableDeleted := delegate.runnableDeleted + 1, threadPoint := .destroying .test }) ∨
    (∃ point, delegate.threadPoint = .destroying point ∧
      next = { delegate with
        mRefCount := (delegate.destroyStep point).1.mRefCount
        deleted := (delegate.destroyStep point).1.deleted
        threadPoint := ((delegate.destroyStep point).2.map .destroying).getD .finished }) := by
  unfold threadStep at h
  cases hpoint : delegate.threadPoint with
  | absent =>
      rw [hpoint] at h
      cases h
  | start =>
      rw [hpoint] at h
      exact .inl ⟨rfl, (Option.some.inj h).symm⟩
  | testPrerun =>
      rw [hpoint] at h
      exact .inr (.inl ⟨trivial, .testRun, trivial, (Option.some.inj h).symm⟩)
  | testRun =>
      rw [hpoint] at h
      refine .inr (.inl ⟨trivial, _, ?_, (Option.some.inj h).symm⟩)
      cases delegate.mRunnable <;> trivial
  | run =>
      rw [hpoint] at h
      refine .inr (.inl ⟨trivial, _, ?_, (Option.some.inj h).symm⟩)
      cases outcome <;> trivial
  | testPostrun =>
      rw [hpoint] at h
      exact .inr (.inl ⟨trivial, .clearRunnable, trivial, (Option.some.inj h).symm⟩)
  | clearRunnable =>
      rw [hpoint] at h
      exact .inr (.inr (.inl ⟨rfl, (Option.some.inj h).symm⟩))
  | deleteRunnable =>
      rw [hpoint] at h
      exact .inr (.inr (.inr (.inl ⟨rfl, (Option.some.inj h).symm⟩)))
  | destroying point =>
      rw [hpoint] at h
      obtain rfl := Option.some.inj h
      refine .inr (.inr (.inr (.inr ⟨point, rfl, ?_⟩)))
      cases point <;> rfl
  | finished =>
      rw [hpoint] at h
      cases h

end LocThreadDelegate

/-! ## References -/

/-- The reference that a caller of `destroy` still has, once it is there. -/
def DestroyPoint.share : DestroyPoint → Int
  | .test | .decrement => 1
  | .delete => 0

def DestroyPoint.deleting : DestroyPoint → Nat
  | .test | .decrement => 0
  | .delete => 1

/-- The reference of the client. -/
def OwnerPoint.share : OwnerPoint → Int
  | .destroying point => point.share
  | .released => 0
  | _ => 1

def OwnerPoint.deleting : OwnerPoint → Nat
  | .destroying point => point.deleting
  | _ => 0

def ThreadPoint.deleting : ThreadPoint → Nat
  | .destroying point => point.deleting
  | _ => 0

/-- The reference of the thread, which is there before the thread. -/
def threadShare (ownerPoint : OwnerPoint) : ThreadPoint → Int
  | .absent => if ownerPoint = .constructing then 1 else 0
  | .destroying point => point.share
  | .finished => 0
  | _ => 1

/-- The references are those of the two sides, and who gives up the last one deletes. -/
structure Counted (delegate : LocThreadDelegate) : Prop where
  refs : delegate.mRefCount =
    delegate.ownerPoint.share + threadShare delegate.ownerPoint delegate.threadPoint
  deletions : delegate.deleted + delegate.ownerPoint.deleting + delegate.threadPoint.deleting =
    if delegate.mRefCount = 0 then 1 else 0
  constructing : delegate.ownerPoint = .constructing → delegate.threadPoint = .absent

/-- A step of `destroy`, of a caller next to whom the others have `other` references. -/
theorem destroyStep_counts {delegate : LocThreadDelegate} {point : DestroyPoint} {other : Int}
    {deleting : Nat} (hother : 0 ≤ other) (hrefs : delegate.mRefCount = point.share + other)
    (hdeletions : delegate.deleted + point.deleting + deleting =
      if delegate.mRefCount = 0 then 1 else 0) :
    (delegate.destroyStep point).1.mRefCount =
        ((delegate.destroyStep point).2.map DestroyPoint.share).getD 0 + other ∧
      (delegate.destroyStep point).1.deleted +
          ((delegate.destroyStep point).2.map DestroyPoint.deleting).getD 0 + deleting =
        if (delegate.destroyStep point).1.mRefCount = 0 then 1 else 0 := by
  cases point with
  | test =>
      have hpositive : 0 < delegate.mRefCount := by
        rw [hrefs, DestroyPoint.share]
        omega
      unfold LocThreadDelegate.destroyStep
      dsimp only
      rw [if_pos hpositive]
      exact ⟨hrefs, hdeletions⟩
  | decrement =>
      unfold LocThreadDelegate.destroyStep
      dsimp only
      rw [DestroyPoint.share] at hrefs
      rw [DestroyPoint.deleting, if_neg (by omega)] at hdeletions
      rcases eq_or_ne 1 delegate.mRefCount with hlast | hmore
      · rw [if_pos hlast, if_pos (by omega)]
        simp only [Option.map_some, Option.getD_some, DestroyPoint.share, DestroyPoint.deleting]
        omega
      · rw [if_neg hmore, if_neg (by omega)]
        simp only [Option.map_none, Option.getD_none]
        omega
  | delete =>
      unfold LocThreadDelegate.destroyStep
      exact ⟨hrefs, hdeletions⟩

theorem DestroyPoint.share_nonneg (point : DestroyPoint) : 0 ≤ point.share := by
  cases point <;> decide

theorem OwnerPoint.share_nonneg (point : OwnerPoint) : 0 ≤ point.share := by
  cases point with
  | destroying point => exact point.share_nonneg
  | _ => decide

theorem threadShare_nonneg (ownerPoint : OwnerPoint) (threadPoint : ThreadPoint) :
    0 ≤ threadShare ownerPoint threadPoint := by
  unfold threadShare
  split
  · split <;> decide
  · exact DestroyPoint.share_nonneg _
  · decide
  · decide

/-- In `stop` the client has its reference. -/
theorem OwnerPoint.Stopping.kept {point : OwnerPoint} (h : point.Stopping) :
    point.share = 1 ∧ point.deleting = 0 ∧ point ≠ .constructing := by
  cases point <;> first | exact h.elim | exact ⟨rfl, rfl, by rintro ⟨⟩⟩

theorem ThreadPoint.Running.kept {point : ThreadPoint} (h : point.Running)
    (ownerPoint : OwnerPoint) :
    threadShare ownerPoint point = 1 ∧ point.deleting = 0 ∧ point ≠ .absent := by
  cases point <;> first | exact h.elim | exact ⟨rfl, rfl, by rintro ⟨⟩⟩

/-- The thread's reference when the client has moved. -/
theorem threadShare_of_owner {first second : OwnerPoint} (hfirst : first ≠ .constructing)
    (hsecond : second ≠ .constructing) (threadPoint : ThreadPoint) :
    threadShare second threadPoint = threadShare first threadPoint := by
  cases threadPoint <;> first | rfl | exact (if_neg hsecond).trans (if_neg hfirst).symm

/-- Where `destroy` goes on, or returns to. -/
theorem share_after_owner (next : Option DestroyPoint) :
    ((next.map OwnerPoint.destroying).getD .released).share =
        (next.map DestroyPoint.share).getD 0 ∧
      ((next.map OwnerPoint.destroying).getD .released).deleting =
        (next.map DestroyPoint.deleting).getD 0 ∧
      (next.map OwnerPoint.destroying).getD .released ≠ .constructing := by
  cases next <;> refine ⟨rfl, rfl, ?_⟩ <;> rintro ⟨⟩

theorem share_after_thread (next : Option DestroyPoint) (ownerPoint : OwnerPoint) :
    threadShare ownerPoint ((next.map ThreadPoint.destroying).getD .finished) =
        (next.map DestroyPoint.share).getD 0 ∧
      ((next.map ThreadPoint.destroying).getD .finished).deleting =
        (next.map DestroyPoint.deleting).getD 0 := by
  cases next <;> exact ⟨rfl, rfl⟩

namespace Counted

variable {delegate next : LocThreadDelegate} {outcome : Bool}

theorem new (joinable : Bool) : Counted (.new joinable) := ⟨rfl, rfl, fun _ => rfl⟩

/-- A step that gives up no reference. -/
theorem quiet (h : Counted delegate) (hrefs : next.mRefCount = delegate.mRefCount)
    (hdeleted : next.deleted = delegate.deleted)
    (howner : next.ownerPoint.share = delegate.ownerPoint.share ∧
      next.ownerPoint.deleting = delegate.ownerPoint.deleting)
    (hthread : threadShare next.ownerPoint next.threadPoint =
        threadShare delegate.ownerPoint delegate.threadPoint ∧
      next.threadPoint.deleting = delegate.threadPoint.deleting)
    (hpoint : next.ownerPoint ≠ .constructing) : Counted next where
  refs := by rw [hrefs, howner.1, hthread.1, h.refs]
  deletions := by rw [hrefs, hdeleted, howner.2, hthread.2, h.deletions]
  constructing := fun heq => absurd heq hpoint

theorem ownerStep (h : Counted delegate) (hstep : delegate.ownerStep outcome = some next) :
    Counted next := by
  rcases LocThreadDelegate.ownerStep_cases hstep with ⟨hpoint, rfl⟩ | ⟨hpoint, rfl⟩ |
    ⟨hpoint, rfl⟩ | ⟨hstopping, _, _, ownerPoint, _, hnext, rfl⟩ | ⟨point, hpoint, rfl⟩
  · have habsent := h.constructing hpoint
    refine h.quiet rfl rfl ?_ ?_ ?_
    · rw [hpoint]
      exact ⟨rfl, rfl⟩
    · rw [habsent, hpoint]
      exact ⟨rfl, rfl⟩
    · exact nofun
  · have habsent := h.constructing hpoint
    have hrefs := h.refs
    have hdeletions := h.deletions
    rw [habsent, hpoint] at hrefs hdeletions
    rw [hrefs] at hdeletions
    refine ⟨?_, ?_, nofun⟩
    · rw [habsent]
      rfl
    · rw [habsent]
      exact hdeletions
  · have hne : delegate.ownerPoint ≠ .constructing := by
      rw [hpoint]
      exact nofun
    have hnext : (if delegate.mRunnable then OwnerPoint.holding else .destroying .test) ≠
        .constructing := by
      split <;> exact nofun
    refine h.quiet rfl rfl ?_ ?_ ?_
    · rw [hpoint]
      dsimp only
      split <;> exact ⟨rfl, rfl⟩
    · exact ⟨threadShare_of_owner hne hnext _, rfl⟩
    · exact hnext
  · obtain ⟨hshare, hdeleting, hne⟩ := hstopping.kept
    have hnextKept : ownerPoint.share = 1 ∧ ownerPoint.deleting = 0 ∧
        ownerPoint ≠ .constructing := by
      rcases hnext with hstopping | rfl
      · exact hstopping.kept
      · exact ⟨rfl, rfl, nofun⟩
    refine h.quiet rfl rfl ?_ ?_ ?_
    · exact ⟨hnextKept.1.trans hshare.symm, hnextKept.2.1.trans hdeleting.symm⟩
    · exact ⟨threadShare_of_owner hne hnextKept.2.2 _, rfl⟩
    · exact hnextKept.2.2
  · have hne : delegate.ownerPoint ≠ .constructing := by
      rw [hpoint]
      exact nofun
    obtain ⟨hshare, hdeleting, hnext⟩ := share_after_owner (delegate.destroyStep point).2
    have hrefs := h.refs
    have hdeletions := h.deletions
    rw [hpoint] at hdeletions
    rw [hpoint, threadShare_of_owner hnext (hpoint ▸ hne)] at hrefs
    obtain ⟨hrefs, hdeletions⟩ :=
      destroyStep_counts (threadShare_nonneg _ _) hrefs hdeletions
    refine ⟨?_, ?_, fun heq => absurd heq hnext⟩
    · dsimp only
      rw [hshare]
      exact hrefs
    · dsimp only
      rw [hdeleting]
      exact hdeletions

theorem threadStep (h : Counted delegate) (hstep : delegate.threadStep outcome = some next) :
    Counted next := by
  have hconstructing : delegate.threadPoint ≠ .absent → delegate.ownerPoint ≠ .constructing :=
    fun hthread howner => hthread (h.constructing howner)
  rcases LocThreadDelegate.threadStep_cases hstep with ⟨hpoint, rfl⟩ |
    ⟨hrunning, point, hnext, rfl⟩ | ⟨hpoint, rfl⟩ | ⟨hpoint, rfl⟩ | ⟨point, hpoint, rfl⟩
  · refine h.quiet rfl rfl ⟨rfl, rfl⟩ ?_ ?_
    · rw [hpoint]
      dsimp only
      split <;> exact ⟨rfl, rfl⟩
    · exact hconstructing (by rw [hpoint]; exact nofun)
  · obtain ⟨hshare, hdeleting, hne⟩ := hrunning.kept delegate.ownerPoint
    obtain ⟨hshare', hdeleting', _⟩ := hnext.kept delegate.ownerPoint
    refine h.quiet rfl rfl ⟨rfl, rfl⟩ ?_ ?_
    · exact ⟨hshare'.trans hshare.symm, hdeleting'.trans hdeleting.symm⟩
    · exact hconstructing hne
  · refine h.quiet rfl rfl ⟨rfl, rfl⟩ ?_ ?_
    · rw [hpoint]
      exact ⟨rfl, rfl⟩
    · exact hconstructing (by rw [hpoint]; exact nofun)
  · refine h.quiet rfl rfl ⟨rfl, rfl⟩ ?_ ?_
    · rw [hpoint]
      exact ⟨rfl, rfl⟩
    · exact hconstructing (by rw [hpoint]; exact nofun)
  · obtain ⟨hshare, hdeleting⟩ :=
      share_after_thread (delegate.destroyStep point).2 delegate.ownerPoint
    have hrefs := h.refs
    have hdeletions := h.deletions
    rw [hpoint, Int.add_comm] at hrefs
    rw [hpoint, Nat.add_right_comm] at hdeletions
    obtain ⟨hrefs, hdeletions⟩ :=
      destroyStep_counts delegate.ownerPoint.share_nonneg hrefs hdeletions
    refine ⟨?_, ?_, ?_⟩
    · dsimp only
      rw [hshare, Int.add_comm]
      exact hrefs
    · dsimp only
      rw [hdeleting, Nat.add_right_comm]
      exact hdeletions
    · exact fun howner => absurd howner (hconstructing (by rw [hpoint]; exact nofun))

end Counted

/-! ## The runnable -/

/-- The thread has only its `destroy` before it. -/
def ThreadPoint.Leaving : ThreadPoint → Prop
  | .destroying _ | .finished => True
  | _ => False

/-- The thread has read a runnable and cleared the field. -/
def Cleared (delegate : LocThreadDelegate) : Prop :=
  delegate.runnable = some true ∧
    (delegate.threadPoint = .deleteRunnable ∨ delegate.threadPoint.Leaving)

/-- What the thread has read and deleted, what `start` answers, and who has cleared
`mRunnable`. -/
structure Accounted (delegate : LocThreadDelegate) : Prop where
  unread : delegate.threadPoint = .absent ∨ delegate.threadPoint = .start →
    delegate.runnable = none ∧ delegate.runnableDeleted = 0
  running : delegate.threadPoint.Running ∨ delegate.threadPoint = .deleteRunnable →
    delegate.runnable = some true ∧ delegate.runnableDeleted = 0
  leaving : delegate.threadPoint.Leaving →
    (delegate.runnable = some true ∧ delegate.runnableDeleted = 1) ∨
      (delegate.runnable = some false ∧ delegate.runnableDeleted = 0)
  unanswered : delegate.success = none ↔
    delegate.ownerPoint = .constructing ∨ delegate.ownerPoint = .checking
  accepted : delegate.ownerPoint = .holding ∨ delegate.ownerPoint.Stopping →
    delegate.success = some true
  constructing : delegate.ownerPoint = .constructing →
    delegate.threadPoint = .absent ∧ delegate.mRunnable = true
  absent : delegate.threadPoint = .absent → delegate.ownerPoint = .constructing ∨
    (delegate.mRunnable = false ∧ delegate.success ≠ some true)
  cleared : delegate.mRunnable = false →
    delegate.threadPoint = .absent ∨ Cleared delegate ∨ delegate.success = some true
  refused : delegate.success = some false → delegate.threadPoint = .absent ∨ Cleared delegate
  missed : delegate.runnable = some false → delegate.success = some true

namespace Accounted

variable {delegate next : LocThreadDelegate} {outcome : Bool}

theorem new (joinable : Bool) : Accounted (.new joinable) where
  unread _ := ⟨rfl, rfl⟩
  running h := h.elim False.elim fun heq => by cases heq
  leaving h := h.elim
  unanswered := iff_of_true rfl (.inl rfl)
  accepted h := h.elim (fun heq => by cases heq) False.elim
  constructing _ := ⟨rfl, rfl⟩
  absent _ := .inl rfl
  cleared h := by cases h
  refused h := by cases h
  missed h := by cases h

/-- The thread is created, or is not and the client has to clear what it set. -/
theorem constructed (h : Accounted delegate) (hpoint : delegate.ownerPoint = .constructing)
    (howner : next.ownerPoint = .checking) (hsuccess : next.success = delegate.success)
    (hread : next.runnable = delegate.runnable)
    (hdeleted : next.runnableDeleted = delegate.runnableDeleted)
    (hthread : (next.threadPoint = .start ∧ next.mRunnable = delegate.mRunnable) ∨
      (next.threadPoint = .absent ∧ next.mRunnable = false)) : Accounted next := by
  obtain ⟨habsent, hrunnable⟩ := h.constructing hpoint
  obtain ⟨hunread, hkept⟩ := h.unread (.inl habsent)
  have hnone : next.success = none := hsuccess.trans (h.unanswered.mpr (.inl hpoint))
  have hnothing : next.runnable = none := hread.trans hunread
  have hidle : next.threadPoint = .absent ∨ next.threadPoint = .start :=
    hthread.elim (fun hstart => .inr hstart.1) fun hnew => .inl hnew.1
  exact
    { unread := fun _ => ⟨hnothing, hdeleted.trans hkept⟩
      running := fun hrunning => by
        rcases hidle with heq | heq <;> rw [heq] at hrunning <;>
          exact hrunning.elim False.elim fun heq => by cases heq
      leaving := fun hleaving => by
        rcases hidle with heq | heq <;> rw [heq] at hleaving <;> exact hleaving.elim
      unanswered := iff_of_true hnone (.inr howner)
      accepted := fun haccepted => by
        rw [howner] at haccepted
        exact haccepted.elim (fun heq => by cases heq) False.elim
      constructing := fun heq => absurd (howner.symm.trans heq) nofun
      absent := fun habsent => by
        rcases hthread with ⟨hstart, _⟩ | ⟨_, hfalse⟩
        · exact absurd (hstart.symm.trans habsent) nofun
        · exact .inr ⟨hfalse, fun htrue => absurd (hnone.symm.trans htrue) nofun⟩
      cleared := fun hfalse => by
        rcases hthread with ⟨_, hfield⟩ | ⟨habsent, _⟩
        · exact absurd ((hfield.trans hrunnable).symm.trans hfalse) nofun
        · exact .inl habsent
      refused := fun hfalse => absurd (hnone.symm.trans hfalse) nofun
      missed := fun hmissed => absurd (hnothing.symm.trans hmissed) nofun }

/-- `start` answers by what the client finds in the field. -/
theorem answered (h : Accounted delegate) (hpoint : delegate.ownerPoint = .checking) :
    Accounted { delegate with
      success := some delegate.mRunnable
      ownerPoint := if delegate.mRunnable then .holding else .destroying .test } := by
  have hnone := h.unanswered.mpr (.inr hpoint)
  have hcleared : delegate.mRunnable = false →
      delegate.threadPoint = .absent ∨ Cleared delegate := by
    intro hfalse
    rcases h.cleared hfalse with habsent | hcleared | htrue
    · exact .inl habsent
    · exact .inr hcleared
    · exact absurd (hnone.symm.trans htrue) nofun
  exact
    { unread := h.unread
      running := h.running
      leaving := h.leaving
      unanswered := by
        refine iff_of_false nofun ?_
        dsimp only
        split <;> rintro (heq | heq) <;> cases heq
      accepted := by
        dsimp only
        split
        · rename_i htrue
          exact fun _ => congrArg some htrue
        · exact fun haccepted => haccepted.elim (fun heq => by cases heq) False.elim
      constructing := by
        dsimp only
        split <;> rintro ⟨⟩
      absent := fun habsent => by
        rcases h.absent habsent with hconstructing | ⟨hfalse, _⟩
        · exact absurd (hconstructing.symm.trans hpoint) nofun
        · refine .inr ⟨hfalse, fun htrue => ?_⟩
          exact absurd (hfalse.symm.trans (Option.some.inj htrue)) nofun
      cleared := fun hfalse => (hcleared hfalse).imp_right .inl
      refused := fun hfalse => hcleared (Option.some.inj hfalse)
      missed := fun hmissed => by
        have hmissed := h.missed hmissed
        exact absurd (hnone.symm.trans hmissed) nofun }

/-- A step of the client after its answer leaves the thread as it is. -/
theorem clientMoved (h : Accounted delegate) {mRunnable mJoinable : Bool} {mRefCount : Int}
    {deleted : Nat} {ownerPoint : OwnerPoint} (hanswered : delegate.success ≠ none)
    (howner : delegate.ownerPoint ≠ .constructing)
    (hmoved : ownerPoint ≠ .constructing ∧ ownerPoint ≠ .checking)
    (haccepted : ownerPoint = .holding ∨ ownerPoint.Stopping → delegate.success = some true)
    (hfield : mRunnable = delegate.mRunnable ∨ delegate.success = some true) :
    Accounted { delegate with mRunnable, mJoinable, mRefCount, deleted, ownerPoint } where
  unread := h.unread
  running := h.running
  leaving := h.leaving
  unanswered := iff_of_false hanswered (not_or.mpr hmoved)
  accepted := haccepted
  constructing hconstructing := absurd hconstructing hmoved.1
  absent habsent := by
    rcases h.absent habsent with hconstructing | ⟨hfalse, hne⟩
    · exact absurd hconstructing howner
    · rcases hfield with heq | htrue
      · exact .inr ⟨heq.trans hfalse, hne⟩
      · exact absurd htrue hne
  cleared hfalse := by
    rcases hfield with heq | htrue
    · exact h.cleared (heq.symm.trans hfalse)
    · exact .inr (.inr htrue)
  refused := h.refused
  missed := h.missed

theorem ownerStep (h : Accounted delegate) (hstep : delegate.ownerStep outcome = some next) :
    Accounted next := by
  rcases LocThreadDelegate.ownerStep_cases hstep with ⟨hpoint, rfl⟩ | ⟨hpoint, rfl⟩ |
    ⟨hpoint, rfl⟩ | ⟨hstopping, mRunnable, _, ownerPoint, hrunnable, hnext, rfl⟩ |
    ⟨point, hpoint, rfl⟩
  · exact h.constructed hpoint rfl rfl rfl rfl (.inl ⟨rfl, rfl⟩)
  · exact h.constructed hpoint rfl rfl rfl rfl (.inr ⟨(h.constructing hpoint).1, rfl⟩)
  · exact h.answered hpoint
  · have htrue := h.accepted (.inr hstopping)
    have hne : ownerPoint ≠ .constructing ∧ ownerPoint ≠ .checking := by
      rcases hnext with hnext | rfl
      · cases ownerPoint <;> first | exact hnext.elim | exact ⟨by rintro ⟨⟩, by rintro ⟨⟩⟩
      · exact ⟨by rintro ⟨⟩, by rintro ⟨⟩⟩
    exact h.clientMoved (fun hnone => absurd (htrue.symm.trans hnone) nofun)
      hstopping.kept.2.2 hne (fun _ => htrue) (.inr htrue)
  · obtain ⟨_, _, hne⟩ := share_after_owner (delegate.destroyStep point).2
    have hchecking : ((delegate.destroyStep point).2.map OwnerPoint.destroying).getD .released ≠
        .checking := by
      cases (delegate.destroyStep point).2 <;> rintro ⟨⟩
    have hanswered : delegate.success ≠ none := by
      intro hnone
      rcases h.unanswered.mp hnone with hother | hother <;>
        exact absurd (hpoint.symm.trans hother) nofun
    have howner : delegate.ownerPoint ≠ .constructing := by
      rw [hpoint]
      rintro ⟨⟩
    refine h.clientMoved hanswered howner ⟨hne, hchecking⟩ ?_ (.inl rfl)
    cases (delegate.destroyStep point).2 <;>
      exact fun haccepted => haccepted.elim (fun heq => by cases heq) False.elim

/-- A step of the thread leaves the client as it is; what the thread is accountable for
is left to show. -/
theorem moved (h : Accounted delegate) (howner : next.ownerPoint = delegate.ownerPoint)
    (hsuccess : next.success = delegate.success) (hthread : delegate.threadPoint ≠ .absent)
    (hstarted : next.threadPoint ≠ .absent ∧ next.threadPoint ≠ .start)
    (hrunning : next.threadPoint.Running ∨ next.threadPoint = .deleteRunnable →
      next.runnable = some true ∧ next.runnableDeleted = 0)
    (hleaving : next.threadPoint.Leaving →
      (next.runnable = some true ∧ next.runnableDeleted = 1) ∨
        (next.runnable = some false ∧ next.runnableDeleted = 0))
    (hcleared : next.mRunnable = false → Cleared next ∨ delegate.success = some true)
    (hrefused : delegate.success = some false → Cleared next)
    (hmissed : next.runnable = some false → delegate.success = some true) : Accounted next where
  unread hunread := hunread.elim (fun heq => absurd heq hstarted.1)
    fun heq => absurd heq hstarted.2
  running := hrunning
  leaving := hleaving
  unanswered := by rw [hsuccess, howner, h.unanswered]
  accepted := by
    rw [hsuccess, howner]
    exact h.accepted
  constructing hconstructing := absurd (h.constructing (howner ▸ hconstructing)).1 hthread
  absent habsent := absurd habsent hstarted.1
  cleared hfalse := .inr (hsuccess ▸ hcleared hfalse)
  refused hfalse := .inr (hrefused (hsuccess ▸ hfalse))
  missed hmiss := hsuccess ▸ hmissed hmiss

theorem not_cleared_of_start (hpoint : delegate.threadPoint = .start) : ¬ Cleared delegate := by
  rintro ⟨_, hdelete | hleaving⟩
  · rw [hpoint] at hdelete
    cases hdelete
  · rw [hpoint] at hleaving
    exact hleaving

theorem not_cleared_of_running (hrunning : delegate.threadPoint.Running) : ¬ Cleared delegate := by
  rintro ⟨_, hdelete | hleaving⟩
  · rw [hdelete] at hrunning
    exact hrunning
  · revert hrunning hleaving
    cases delegate.threadPoint <;> first | exact fun hrunning _ => hrunning | exact fun _ h => h

/-- Before the thread has cleared the field, it is the client that has. -/
theorem success_of_cleared (h : Accounted delegate) (hthread : delegate.threadPoint ≠ .absent)
    (hcleared : ¬ Cleared delegate) (hfalse : delegate.mRunnable = false) :
    delegate.success = some true := by
  rcases h.cleared hfalse with habsent | hcleared' | htrue
  · exact absurd habsent hthread
  · exact absurd hcleared' hcleared
  · exact htrue

theorem not_refused (h : Accounted delegate) (hthread : delegate.threadPoint ≠ .absent)
    (hcleared : ¬ Cleared delegate) : delegate.success ≠ some false := by
  intro hfalse
  rcases h.refused hfalse with habsent | hcleared'
  · exact hthread habsent
  · exact hcleared hcleared'

theorem threadStep (h : Accounted delegate) (hstep : delegate.threadStep outcome = some next) :
    Accounted next := by
  rcases LocThreadDelegate.threadStep_cases hstep with ⟨hpoint, rfl⟩ |
    ⟨hrunning, point, hnext, rfl⟩ | ⟨hpoint, rfl⟩ | ⟨hpoint, rfl⟩ | ⟨point, hpoint, rfl⟩
  · have hthread : delegate.threadPoint ≠ .absent := by
      rw [hpoint]
      rintro ⟨⟩
    have hcleared := not_cleared_of_start hpoint
    have hrefused := h.not_refused hthread hcleared
    obtain ⟨_, hdeleted⟩ := h.unread (.inr hpoint)
    cases hfield : delegate.mRunnable with
    | true =>
        refine h.moved rfl rfl hthread ⟨by rintro ⟨⟩, by rintro ⟨⟩⟩ (fun _ => ⟨rfl, hdeleted⟩)
          False.elim ?_ ?_ ?_
        · rintro ⟨⟩
        · exact fun hfalse => absurd hfalse hrefused
        · rintro ⟨⟩
    | false =>
        have htrue := h.success_of_cleared hthread hcleared hfield
        refine h.moved rfl rfl hthread ⟨by rintro ⟨⟩, by rintro ⟨⟩⟩ ?_
          (fun _ => .inr ⟨rfl, hdeleted⟩) (fun _ => .inr htrue) ?_ (fun _ => htrue)
        · exact fun hrunning => hrunning.elim False.elim fun heq => by cases heq
        · exact fun hfalse => absurd hfalse hrefused
  · obtain ⟨hread, hdeleted⟩ := h.running (.inl hrunning)
    obtain ⟨_, _, hthread⟩ := hrunning.kept delegate.ownerPoint
    have hcleared := not_cleared_of_running hrunning
    have hrefused := h.not_refused hthread hcleared
    refine h.moved rfl rfl hthread ?_ (fun _ => ⟨hread, hdeleted⟩) ?_ ?_ ?_ ?_
    · cases point <;> first | exact hnext.elim | exact ⟨by rintro ⟨⟩, by rintro ⟨⟩⟩
    · cases point <;> first | exact hnext.elim | exact False.elim
    · exact fun hfalse => .inr (h.success_of_cleared hthread hcleared hfalse)
    · exact fun hfalse => absurd hfalse hrefused
    · exact fun hmissed => absurd (hread.symm.trans hmissed) nofun
  · obtain ⟨hread, hdeleted⟩ := h.running (.inl (hpoint ▸ trivial))
    have hthread : delegate.threadPoint ≠ .absent := by
      rw [hpoint]
      rintro ⟨⟩
    exact h.moved rfl rfl hthread ⟨by rintro ⟨⟩, by rintro ⟨⟩⟩ (fun _ => ⟨hread, hdeleted⟩)
      False.elim (fun _ => .inl ⟨hread, .inl rfl⟩) (fun _ => ⟨hread, .inl rfl⟩)
      fun hmissed => absurd (hread.symm.trans hmissed) nofun
  · obtain ⟨hread, hdeleted⟩ := h.running (.inr hpoint)
    have hthread : delegate.threadPoint ≠ .absent := by
      rw [hpoint]
      rintro ⟨⟩
    refine h.moved rfl rfl hthread ⟨by rintro ⟨⟩, by rintro ⟨⟩⟩ ?_
      (fun _ => .inl ⟨hread, congrArg (· + 1) hdeleted⟩) (fun _ => .inl ⟨hread, .inr trivial⟩)
      (fun _ => ⟨hread, .inr trivial⟩) fun hmissed => absurd (hread.symm.trans hmissed) nofun
    exact fun hrunning => hrunning.elim False.elim fun heq => by cases heq
  · have hthread : delegate.threadPoint ≠ .absent := by
      rw [hpoint]
      rintro ⟨⟩
    have hleaving : ((delegate.destroyStep point).2.map ThreadPoint.destroying).getD
        .finished |>.Leaving := by
      cases (delegate.destroyStep point).2 <;> trivial
    have hkept : ∀ mRefCount deleted, Cleared delegate →
        Cleared { delegate with
          mRefCount, deleted
          threadPoint := ((delegate.destroyStep point).2.map .destroying).getD .finished } :=
      fun _ _ hcleared => ⟨hcleared.1, .inr hleaving⟩
    refine h.moved rfl rfl hthread ?_ ?_ (fun _ => h.leaving (hpoint ▸ trivial)) ?_ ?_ h.missed
    · dsimp only
      cases (delegate.destroyStep point).2 <;> exact ⟨by rintro ⟨⟩, by rintro ⟨⟩⟩
    · dsimp only
      cases (delegate.destroyStep point).2 <;>
        exact fun hrunning => hrunning.elim False.elim fun heq => by cases heq
    · intro hfalse
      rcases h.cleared hfalse with habsent | hcleared | htrue
      · exact absurd habsent hthread
      · exact .inl (hkept _ _ hcleared)
      · exact .inr htrue
    · intro hfalse
      rcases h.refused hfalse with habsent | hcleared
      · exact absurd habsent hthread
      · exact hkept _ _ hcleared

end Accounted

end Msm8916.Thread
