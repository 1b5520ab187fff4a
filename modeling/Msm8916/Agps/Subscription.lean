import Msm8916.Agps.Listing

/-!
What becomes of a subscribe. A client that unsubscribed and waits for the close
to complete is still listed, as inactive, and `addSubscriber` takes it for
listed when it comes back; apart from that no subscription is lost.
-/

namespace Msm8916.Agps

open AgpsStateMachine Transition

/-- An active subscriber equal to `s` is listed. -/
def ListedActive (list : List Subscriber) (s : Subscriber) : Prop :=
  ∃ t ∈ list, t.isInactive = false ∧ t.equals s = true

/-- After a subscribe the client is listed as active unless it is listed as
inactive already. -/
theorem Listing.listedActive_added {kind : SubscriberKind} {list : List Subscriber}
    (h : Listing kind list) {s : Subscriber} (hs : s.kind = kind) :
    ListedActive (AgpsStateMachine.added list s) s ↔
      ∀ t ∈ list, t.equals s = true → t.isInactive = false := by
  constructor
  · rintro ⟨t, ht, hactive, hequals⟩ u hu husame
    have hukey := (h.equals_iff hu hs).mp husame
    rcases (h.mem_added hs t).mp ht with ht | ⟨rfl, hfresh⟩
    · have htkey := (h.equals_iff ht hs).mp hequals
      rwa [h.eq_of_key hu ht (hukey.trans htkey.symm)]
    · exact absurd (List.mem_map.mpr ⟨u, hu, hukey⟩) hfresh
  · intro hall
    by_cases hlisted : s.key ∈ list.map Subscriber.key
    · obtain ⟨t, ht, hkey⟩ := List.mem_map.mp hlisted
      have hequals := (h.equals_iff ht hs).mpr hkey
      exact ⟨t, (h.mem_added hs t).mpr (.inl ht), hall t ht hequals, hequals⟩
    · refine ⟨s.clone, (h.mem_added hs _).mpr (.inr ⟨rfl, hlisted⟩), by simp, ?_⟩
      exact (Subscriber.equals_iff_key (by simp)).mpr (by simp)

/-! ## Who is told what -/

/-- The notifications in a log that subscribers took to be for them. -/
def notices (log : List Action) : List (Subscriber × AgpsRsrcStatus) :=
  log.filterMap fun
    | .notified s status => some (s, status)
    | _ => none

@[simp]
theorem notices_append (first second : List Action) :
    notices (first ++ second) = notices first ++ notices second :=
  List.filterMap_append

theorem mem_notices {log : List Action} {s : Subscriber} {status : AgpsRsrcStatus} :
    (s, status) ∈ notices log ↔ Action.notified s status ∈ log := by
  unfold notices
  rw [List.mem_filterMap]
  constructor
  · rintro ⟨action, haction, heq⟩
    cases action <;> simp_all
  · exact fun hmem => ⟨_, hmem, rfl⟩

namespace AgpsStateMachine

theorem notices_informStatus (machine : AgpsStateMachine) (status : AgpsRsrcStatus)
    (ID : Int32) : notices (machine.informStatus status ID).log = notices machine.log := by
  cases status <;> simp [informStatus, emit, notices]

theorem notices_sendStatus (machine : AgpsStateMachine) (subscriber : Subscriber)
    (status : AgpsRsrcStatus) :
    notices (machine.sendStatus subscriber status).log = notices machine.log := by
  cases subscriber with
  | ds ID mIsInactive =>
      have hinform := notices_informStatus machine status ID.toInt32
      cases status <;> exact hinform
  | _ => cases status <;> simp [sendStatus, emit, notices]

theorem notices_receive (status : AgpsRsrcStatus) (subscriber : Subscriber)
    (machine : AgpsStateMachine) :
    notices (receive status subscriber machine).log =
      notices machine.log ++ [(subscriber, status)] := by
  rw [receive, notices_sendStatus]
  simp [emit, notices]

theorem notices_sendRsrcRequest (machine : AgpsStateMachine) (action : AGpsStatusValue)
    (answer : Int) :
    notices (machine.sendRsrcRequest action answer).1.log = notices machine.log := by
  obtain ⟨log, mRetries, delayTimers, heq, hlog⟩ := machine.sendRsrcRequest_keeps action answer
  have hnone : notices log = [] := by
    refine List.filterMap_eq_nil_iff.mpr fun done hdone => ?_
    cases done <;> first | rfl | exact absurd rfl ((hlog _ hdone).1 _ _)
  rw [heq, notices_append, hnone, List.append_nil]

/-- A subscribe tells its subscriber of a denial in the single-subscriber mode,
of a grant in Acquired, and of nothing otherwise. -/
theorem notices_subscribeRsrc (machine : AgpsStateMachine) (s : Subscriber) (answer : Int) :
    notices (machine.subscribeRsrc s answer).log = notices machine.log ++
      if machine.mEnforceSingleSubscriber && machine.hasSubscribers then [(s, .denied)]
      else if machine.mState = .acquired then [(s, .granted)] else [] := by
  unfold subscribeRsrc
  cases hmode : machine.mEnforceSingleSubscriber && machine.hasSubscribers with
  | true =>
      have hnotify : notifyRsrcStatus (.toGroup .broadcastAll .denied true) s machine =
          (receive .denied s machine, true) := notifyRsrcStatus_eq rfl s machine
      simp only [if_true, notifySubscriber, hnotify]
      exact notices_receive .denied s machine
  | false =>
      cases hstate : machine.mState with
      | released =>
          simp [dispatch, hstate, releasedOnRsrcEvent, addSubscriber_eq,
            notices_sendRsrcRequest]
      | pending => simp [dispatch, hstate, pendingOnRsrcEvent, addSubscriber_eq]
      | acquired =>
          have hnotify : notifyRsrcStatus (.toSubscriber s .granted false) s machine =
              (receive .granted s machine, true) := by
            rw [notifyRsrcStatus_eq rfl, forMe_toSubscriber, Subscriber.equals_self]
            rfl
          simp [dispatch, hstate, acquiredOnRsrcEvent, addSubscriber_eq, hnotify,
            notices_receive]
      | releasing => simp [dispatch, hstate, releasingOnRsrcEvent, addSubscriber_eq]

/-! ## Runs of either class -/

/-- A machine as one of the two constructors builds it. -/
def Initial (machine : AgpsStateMachine) : Prop :=
  machine = newDs ∨ ∃ mType enforce, machine = newAgps mType enforce

theorem Initial.listing {machine : AgpsStateMachine} (h : machine.Initial)
    (kind : SubscriberKind) : Listing kind machine.mSubscribers := by
  rcases h with rfl | ⟨mType, enforce, rfl⟩ <;> exact .nil

theorem listing_of_reachable {kind : SubscriberKind} {init machine : AgpsStateMachine}
    (hinit : init.Initial) (hreach : Reachable (step kind) init machine) :
    Listing kind machine.mSubscribers :=
  invariant_of_step (I := fun machine => Listing kind machine.mSubscribers)
    (fun _ _ _ h hstep => listing_of_step h hstep) (hinit.listing kind) hreach

/-- The list a subscribe leaves. -/
theorem mSubscribers_subscribeRsrc (machine : AgpsStateMachine) (s : Subscriber)
    (answer : Int) :
    (machine.subscribeRsrc s answer).mSubscribers =
      if machine.mEnforceSingleSubscriber && machine.hasSubscribers then machine.mSubscribers
      else added machine.mSubscribers s := by
  unfold subscribeRsrc
  split
  · exact (notifySubscriber_onlyReports _ s machine).keeps.2.1
  · rw [(machine.dispatch_keeps (.subscribe s) answer).1]
    cases machine.mState <;> rfl

/-- At every reachable state of either class a subscribe is answered by a
denial or leaves the client listed as active, and a client told of a grant is
listed as active, exactly if the single-subscriber mode turns the client away
or no inactive subscriber equal to it is listed. -/
theorem subscription_kept_iff {kind : SubscriberKind} {init machine next : AgpsStateMachine}
    (hinit : init.Initial) (hreach : Reachable (step kind) init machine) {s : Subscriber}
    {answer : Int} (hstep : machine.step kind (.subscribe s answer) = some next) :
    ((Action.notified s .denied ∈ next.log ∨ ListedActive next.mSubscribers s) ∧
        (Action.notified s .granted ∈ next.log → ListedActive next.mSubscribers s)) ↔
      (machine.mEnforceSingleSubscriber = true ∧ machine.mSubscribers ≠ []) ∨
        ∀ t ∈ machine.mSubscribers, t.equals s = true → t.isInactive = false := by
  have hlisting := listing_of_reachable hinit hreach
  obtain ⟨hkind, rfl⟩ := step_subscribe hstep
  rw [← hlisting.listedActive_added hkind, ← mem_notices, ← mem_notices,
    notices_subscribeRsrc, mSubscribers_subscribeRsrc]
  have hmode : (machine.mEnforceSingleSubscriber && machine.hasSubscribers) = true ↔
      machine.mEnforceSingleSubscriber = true ∧ machine.mSubscribers ≠ [] := by
    simp [hasSubscribers]
  have hcleared : ({ machine with log := [] } : AgpsStateMachine).hasSubscribers =
      machine.hasSubscribers := rfl
  rw [← hmode, hcleared]
  cases machine.mEnforceSingleSubscriber && machine.hasSubscribers with
  | true =>
      refine iff_of_true ⟨.inl ?_, ?_⟩ (.inl rfl)
      · simp
      · simp [notices]
  | false =>
      have hdenied : (s, AgpsRsrcStatus.denied) ∉
          if machine.mState = .acquired then [(s, AgpsRsrcStatus.granted)] else [] := by
        split <;> simp
      simp only [Bool.false_eq_true, if_false, false_or, notices, List.filterMap_nil,
        List.nil_append, hdenied]
      exact ⟨And.left, fun hlisted => ⟨hlisted, fun _ => hlisted⟩⟩

/-- Two clients share a granted data connection; the first leaves, and while the
second keeps the connection up the first comes back. -/
def returningClient : List Label :=
  [.subscribe (.ds 1 false) 0, .subscribe (.ds 2 false) 0, .rsrcEvent .granted 0,
    .unsubscribe (.ds 1 false) 0]

/-- A client that comes back after the release is complete is listed again. -/
theorem subscription_kept_iff_closed :
    ∃ machine next,
      exec (step .ds) newDs
        (returningClient ++ [.unsubscribe (.ds 2 false) 0, .rsrcEvent .released 0]) =
          some machine ∧
      machine.step .ds (.subscribe (.ds 1 false) 0) = some next ∧
      (((Action.notified (.ds 1 false) .denied ∈ next.log ∨
            ListedActive next.mSubscribers (.ds 1 false)) ∧
          (Action.notified (.ds 1 false) .granted ∈ next.log →
            ListedActive next.mSubscribers (.ds 1 false))) ↔
        (machine.mEnforceSingleSubscriber = true ∧ machine.mSubscribers ≠ []) ∨
          ∀ t ∈ machine.mSubscribers, t.equals (.ds 1 false) = true → t.isInactive = false) := by
  have hany : (exec (step .ds) newDs
      (returningClient ++ [.unsubscribe (.ds 2 false) 0, .rsrcEvent .released 0])).any
      (fun machine => (machine.step .ds (.subscribe (.ds 1 false) 0)).isSome) = true := by
    decide
  obtain ⟨machine, hrun, hsome⟩ := (Option.any_eq_true _ _).mp hany
  obtain ⟨next, hstep⟩ := Option.isSome_iff_exists.mp hsome
  exact ⟨machine, next, hrun, hstep, subscription_kept_iff (.inl rfl) ⟨_, hrun⟩ hstep⟩

theorem subscription_lost_returning :
    ¬ ∀ (kind : SubscriberKind) (init machine next : AgpsStateMachine) (s : Subscriber)
      (answer : Int), init.Initial → Reachable (step kind) init machine →
      machine.step kind (.subscribe s answer) = some next →
      Action.notified s .denied ∈ next.log ∨ ListedActive next.mSubscribers s := by
  intro hall
  have hany : (exec (step .ds) newDs returningClient).any (fun machine =>
      (machine.step .ds (.subscribe (.ds 1 false) 0)).any fun next =>
        !decide (Action.notified (.ds 1 false) .denied ∈ next.log) &&
          !(next.mSubscribers.any fun t => !t.isInactive && t.equals (.ds 1 false))) = true := by
    decide
  obtain ⟨machine, hrun, hnext⟩ := (Option.any_eq_true _ _).mp hany
  obtain ⟨next, hstep, hlost⟩ := (Option.any_eq_true _ _).mp hnext
  simp only [Bool.and_eq_true, Bool.not_eq_true', decide_eq_false_iff_not,
    List.any_eq_false] at hlost
  rcases hall .ds newDs machine next _ 0 (.inl rfl) ⟨_, hrun⟩ hstep with
    hdenied | ⟨t, ht, hactive, hequals⟩
  · exact hlost.1 hdenied
  · exact hlost.2 t ht ⟨hactive, hequals⟩

end AgpsStateMachine

end Msm8916.Agps
