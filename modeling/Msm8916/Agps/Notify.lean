import Msm8916.Agps.Subscription

/-!
The walk of `notifySubscribers`. The loop that deletes searches from the head again
after each removal; every subscriber that a notification is for is notified once, and
no other one is.
-/

namespace Msm8916.Agps

/-- Searches with removal until one finds nothing; `none` while none has after so many
rounds. -/
def searchLoop {α σ : Type*} (equal : α → σ → σ × Bool) :
    Nat → List α → σ → Option (List α × σ)
  | 0, _, _ => none
  | rounds + 1, list, state =>
      match linkedListSearch equal true list state with
      | (list, none, state) => some (list, state)
      | (list, some _, state) => searchLoop equal rounds list state

section Removal

variable {α σ : Type*} {equal : α → σ → σ × Bool} {accepts : α → Bool} {act : α → σ → σ}

/-- The loop ends: a round that finds something takes it off the list. -/
theorem searchLoop_isSome (hequal : ActsOnAccepted equal accepts act) {rounds : Nat}
    {list : List α} (hrounds : list.length < rounds) (state : σ) :
    (searchLoop equal rounds list state).isSome := by
  induction rounds generalizing list state with
  | zero => exact absurd hrounds (Nat.not_lt_zero _)
  | succ rounds ih =>
      rw [searchLoop, linkedListSearch_remove hequal]
      cases hfind : list.find? accepts with
      | none => rfl
      | some data =>
          have hless := (filter_of_find hfind).2.2
          exact ih (by omega) _

/-- A loop that ends does so with what the bounded one has. -/
theorem searchUntilNone_of_searchLoop {rounds : Nat} {list : List α} {state : σ}
    {result : List α × σ} (h : searchLoop equal rounds list state = some result) :
    searchUntilNone equal rounds list state = result := by
  induction rounds generalizing list state with
  | zero => cases h
  | succ rounds ih =>
      rw [searchLoop] at h
      rw [searchUntilNone]
      rcases hsearch : linkedListSearch equal true list state with ⟨rest, found, after⟩
      rw [hsearch] at h
      cases found with
      | none => exact Option.some.inj h
      | some value => exact ih h

end Removal

namespace AgpsStateMachine

/-- `notifySubscribers` with its loop; `none` while that has not ended after so many
rounds. -/
def notifySubscribersWithin (machine : AgpsStateMachine) (notification : Notification)
    (rounds : Nat) : Option AgpsStateMachine :=
  if notification.postNotifyDelete then
    (searchLoop (notifySubscriber notification) rounds machine.mSubscribers machine).map
      fun (mSubscribers, machine) => { machine with mSubscribers }
  else some (linkedListSearch (notifySubscriber notification) false machine.mSubscribers
    machine).2.2

theorem actsOnAccepted {notification : Notification}
    (h : handlesStatus notification.rsrcStatus = true)
    (hdelete : notification.postNotifyDelete = true) :
    ActsOnAccepted (notifySubscriber notification) (fun s => s.forMe notification)
      (receive notification.rsrcStatus) := by
  intro s state
  simp only [notifySubscriber, notifyRsrcStatus_eq h, hdelete, Bool.and_true]

/-- More rounds than subscribers are enough, and any number that is enough gives the
same. -/
theorem notifySubscribersWithin_eq (machine : AgpsStateMachine) {notification : Notification}
    (h : handlesStatus notification.rsrcStatus = true) {rounds : Nat}
    (hrounds : machine.mSubscribers.length < rounds) :
    machine.notifySubscribersWithin notification rounds =
      some (machine.notifySubscribers notification) := by
  unfold notifySubscribersWithin notifySubscribers
  cases hdelete : notification.postNotifyDelete with
  | false => rfl
  | true =>
      have hacts := actsOnAccepted h hdelete
      obtain ⟨result, hresult⟩ :=
        Option.isSome_iff_exists.mp (searchLoop_isSome hacts hrounds machine)
      have hloop := searchUntilNone_of_searchLoop hresult
      rw [searchUntilNone_eq hacts hrounds] at hloop
      rw [if_pos rfl, if_pos rfl, hresult, ← hloop,
        searchUntilNone_eq hacts (Nat.lt_succ_self _)]
      rfl

/-! ## The walk -/

theorem notices_foldl_receive (status : AgpsRsrcStatus) (list : List Subscriber)
    (machine : AgpsStateMachine) :
    notices (list.foldl (fun machine s => receive status s machine) machine).log =
      notices machine.log ++ list.map (·, status) := by
  induction list generalizing machine with
  | nil => exact (List.append_nil _).symm
  | cons subscriber list ih =>
      rw [List.foldl_cons, ih, notices_receive, List.append_assoc]
      rfl

/-- The notices sent are one to each subscriber it is for, in the order of the
list. -/
theorem notices_notifySubscribers (machine : AgpsStateMachine)
    {notification : Notification} (h : handlesStatus notification.rsrcStatus = true) :
    notices (machine.notifySubscribers notification).log =
      notices machine.log ++
        (machine.mSubscribers.filter fun s => s.forMe notification).map
          (·, notification.rsrcStatus) := by
  cases hdelete : notification.postNotifyDelete with
  | true =>
      rw [notifySubscribers_eq machine notification h hdelete]
      exact notices_foldl_receive _ _ _
  | false =>
      have hvisits : ∀ s state, notifySubscriber notification s state =
          (if s.forMe notification then receive notification.rsrcStatus s state else state,
            false) := by
        intro s state
        simp only [notifySubscriber, notifyRsrcStatus_eq h, hdelete, Bool.and_false]
        split <;> rfl
      unfold notifySubscribers
      rw [hdelete, linkedListSearch_visit hvisits]
      exact notices_foldl_receive _ _ _

/-- The list after the walk. -/
theorem mSubscribers_notifySubscribers (machine : AgpsStateMachine)
    {notification : Notification} (h : handlesStatus notification.rsrcStatus = true) :
    (machine.notifySubscribers notification).mSubscribers =
      if notification.postNotifyDelete then
        machine.mSubscribers.filter fun s => !s.forMe notification
      else machine.mSubscribers := by
  cases hdelete : notification.postNotifyDelete with
  | true => rw [notifySubscribers_eq machine notification h hdelete, if_pos rfl]
  | false => exact (notifySubscribers_keep machine notification h hdelete).keeps.2.1

/-- How often the walk notifies a subscriber, with any status. -/
def timesNotified (machine next : AgpsStateMachine) (subscriber : Subscriber) : Nat :=
  ((notices (next.log.drop machine.log.length)).map Prod.fst).count subscriber

/-- A walk only adds to the log. -/
theorem log_notifySubscribers (machine : AgpsStateMachine) {notification : Notification}
    (h : handlesStatus notification.rsrcStatus = true) :
    ∃ log, (machine.notifySubscribers notification).log = machine.log ++ log := by
  cases hdelete : notification.postNotifyDelete with
  | true =>
      obtain ⟨next, ⟨log, mRetries, rfl, _⟩, heq⟩ :=
        notifySubscribers_delete machine notification h hdelete
      exact ⟨log, congrArg AgpsStateMachine.log heq⟩
  | false =>
      obtain ⟨log, mRetries, heq, _⟩ := notifySubscribers_keep machine notification h hdelete
      exact ⟨log, congrArg AgpsStateMachine.log heq⟩

theorem nodup_of_distinct {list : List Subscriber}
    (h : list.Pairwise fun s t => s.equals t = false) : list.Nodup := by
  refine h.imp fun {s t} hdistinct heq => ?_
  rw [heq, Subscriber.equals_self] at hdistinct
  cases hdistinct

/-- The walk ends; every subscriber it is for is notified once and no other is, with the
status of the notification; the notified ones are taken off a list that is to be emptied
of them, and no other change is made to the list. -/
theorem notified_exactly_once (machine : AgpsStateMachine) (notification : Notification)
    (hstatus : handlesStatus notification.rsrcStatus = true)
    (hdistinct : machine.mSubscribers.Pairwise fun s t => s.equals t = false) :
    ∃ next : AgpsStateMachine,
      (∀ rounds, machine.mSubscribers.length < rounds →
        machine.notifySubscribersWithin notification rounds = some next) ∧
      (∀ s, timesNotified machine next s =
        if s ∈ machine.mSubscribers ∧ s.forMe notification then 1 else 0) ∧
      (∀ notified ∈ notices (next.log.drop machine.log.length),
        notified.2 = notification.rsrcStatus) ∧
      next.mSubscribers =
        if notification.postNotifyDelete then
          machine.mSubscribers.filter fun s => !s.forMe notification
        else machine.mSubscribers := by
  have hnew : notices ((machine.notifySubscribers notification).log.drop
      machine.log.length) = (machine.mSubscribers.filter fun s => s.forMe notification).map
        (·, notification.rsrcStatus) := by
    obtain ⟨log, hlog⟩ := log_notifySubscribers machine hstatus
    have hall := notices_notifySubscribers machine hstatus
    rw [hlog, notices_append] at hall
    rw [hlog, List.drop_left]
    exact List.append_cancel_left hall
  refine ⟨machine.notifySubscribers notification,
    fun rounds hrounds => notifySubscribersWithin_eq machine hstatus hrounds, ?_, ?_,
    mSubscribers_notifySubscribers machine hstatus⟩
  · intro s
    have hnodup : (machine.mSubscribers.filter fun s => s.forMe notification).Nodup :=
      List.Nodup.filter _ (nodup_of_distinct hdistinct)
    unfold timesNotified
    rw [hnew, List.map_map]
    have hfst : (Prod.fst ∘ fun s : Subscriber => (s, notification.rsrcStatus)) = id := rfl
    rw [hfst, List.map_id, List.Nodup.count hnodup]
    congr 1
    exact propext List.mem_filter
  · intro notified hnotified
    rw [hnew] at hnotified
    obtain ⟨s, _, rfl⟩ := List.mem_map.mp hnotified
    rfl

/-- A machine with two clients, one of which is told that the connection is released and
taken off the list. -/
theorem notified_exactly_once_of_two :
    ∃ next : AgpsStateMachine,
      (∀ rounds, 2 < rounds →
        ({ newAgps .any false with mSubscribers := [.atl 1 false, .atl 2 false] }
          : AgpsStateMachine).notifySubscribersWithin
            (.toSubscriber (.atl 2 false) .released true) rounds = some next) ∧
      next.mSubscribers = [.atl 1 false] := by
  obtain ⟨next, hnext, _, _, hlist⟩ := notified_exactly_once
    { newAgps .any false with mSubscribers := [.atl 1 false, .atl 2 false] }
    (.toSubscriber (.atl 2 false) .released true) rfl (by decide)
  exact ⟨next, hnext, hlist⟩

end AgpsStateMachine

end Msm8916.Agps
