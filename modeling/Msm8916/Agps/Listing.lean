import Msm8916.Agps.Table
import Mathlib.Data.List.Nodup

/-!
What the list is at any time: subscribers of one kind, no client twice. The
step rule below reduces an invariant of either class to the rows of the table.
-/

namespace Msm8916.Agps

open AgpsStateMachine

/-- The listed subscribers are of one kind and no two are the same client. -/
structure Listing (kind : SubscriberKind) (list : List Subscriber) : Prop where
  kinds : ∀ s ∈ list, s.kind = kind
  distinct : (list.map Subscriber.key).Nodup

namespace Listing

variable {kind : SubscriberKind} {list : List Subscriber}

theorem nil : Listing kind [] := ⟨by simp, by simp⟩

theorem filter (h : Listing kind list) (p : Subscriber → Bool) : Listing kind (list.filter p) where
  kinds s hs := h.kinds s (List.mem_of_mem_filter hs)
  distinct := h.distinct.sublist (List.filter_sublist.map _)

/-- Two listed subscribers that are the same client are the same subscriber. -/
theorem eq_of_key (h : Listing kind list) {s t : Subscriber} (hs : s ∈ list) (ht : t ∈ list)
    (hkey : s.key = t.key) : s = t :=
  List.inj_on_of_nodup_map h.distinct hs ht hkey

theorem equals_iff (h : Listing kind list) {s t : Subscriber} (hs : s ∈ list)
    (ht : t.kind = kind) : s.equals t = true ↔ s.key = t.key :=
  Subscriber.equals_iff_key ((h.kinds s hs).trans ht.symm)

/-! ## The list after a subscribe -/

theorem any_equals_iff (h : Listing kind list) {s : Subscriber} (hs : s.kind = kind) :
    list.any (fun t => t.equals s) = true ↔ s.key ∈ list.map Subscriber.key := by
  rw [List.any_eq_true, List.mem_map]
  refine exists_congr fun t => and_congr_right fun ht => ?_
  rw [h.equals_iff ht hs]

/-- A subscribe puts a new, active subscriber on the list unless the client is
listed, active or not. -/
theorem mem_added (h : Listing kind list) {s : Subscriber} (hs : s.kind = kind)
    (t : Subscriber) :
    t ∈ added list s ↔
      t ∈ list ∨ (t = s.clone ∧ s.key ∉ list.map Subscriber.key) := by
  unfold added
  by_cases hlisted : s.key ∈ list.map Subscriber.key
  · rw [if_pos ((h.any_equals_iff hs).mpr hlisted)]
    simp [hlisted]
  · rw [if_neg (mt (h.any_equals_iff hs).mp hlisted), List.mem_cons, or_comm]
    simp [hlisted]

theorem added (h : Listing kind list) {s : Subscriber} (hs : s.kind = kind) :
    Listing kind (added list s) := by
  refine ⟨fun t ht => ?_, ?_⟩
  · rcases (h.mem_added hs t).mp ht with ht | ⟨rfl, -⟩
    · exact h.kinds t ht
    · rwa [Subscriber.kind_clone]
  · unfold AgpsStateMachine.added
    split
    · exact h.distinct
    · rename_i hany
      rw [List.map_cons, Subscriber.key_clone, List.nodup_cons]
      exact ⟨mt (h.any_equals_iff hs).mpr hany, h.distinct⟩

/-! ## The list after an unsubscribe -/

omit kind list in
theorem replace_cons (head : Subscriber) (rest : List Subscriber) (s t : Subscriber) :
    (head :: rest).replace s t = if head = s then t :: rest else head :: rest.replace s t := by
  rw [List.replace_cons]
  by_cases hhead : head = s
  · simp [hhead]
  · have hbeq : (s == head) = false := by simpa using Ne.symm hhead
    simp [hhead, hbeq]

theorem map_key_replace (list : List Subscriber) (s : Subscriber) :
    (list.replace s s.deactivate).map Subscriber.key = list.map Subscriber.key := by
  induction list with
  | nil => rfl
  | cons head rest ih =>
      rw [replace_cons]
      split
      · rename_i hhead
        simp [hhead]
      · simp [ih]

theorem mem_replace (h : Listing kind list) {s : Subscriber} (hs : s ∈ list) (t : Subscriber) :
    t ∈ list.replace s s.deactivate ↔ (t ∈ list ∧ t.key ≠ s.key) ∨ t = s.deactivate := by
  have hdistinct := h.distinct
  clear h
  induction list with
  | nil => cases hs
  | cons head rest ih =>
      rw [List.map_cons, List.nodup_cons] at hdistinct
      obtain ⟨hfresh, hrest⟩ := hdistinct
      rw [replace_cons]
      by_cases hhead : head = s
      · subst hhead
        have hother : t ∈ rest → t.key ≠ head.key :=
          fun ht hkey => hfresh (List.mem_map.mpr ⟨t, ht, hkey⟩)
        simp only [if_true, List.mem_cons]
        constructor
        · rintro (heq | ht)
          · exact .inr heq
          · exact .inl ⟨.inr ht, hother ht⟩
        · rintro (⟨rfl | ht, hkey⟩ | heq)
          · exact absurd rfl hkey
          · exact .inr ht
          · exact .inl heq
      · have hs : s ∈ rest := (List.mem_cons.mp hs).resolve_left (Ne.symm hhead)
        have hkey : head.key ≠ s.key :=
          fun hkey => hfresh (List.mem_map.mpr ⟨s, hs, hkey.symm⟩)
        simp only [hhead, if_false, List.mem_cons, ih hs hrest]
        constructor
        · rintro (rfl | ⟨ht, htkey⟩ | heq)
          · exact .inl ⟨.inl rfl, hkey⟩
          · exact .inl ⟨.inr ht, htkey⟩
          · exact .inr heq
        · rintro (⟨rfl | ht, htkey⟩ | heq)
          · exact .inl rfl
          · exact .inr (.inl ⟨ht, htkey⟩)
          · exact .inr (.inr heq)

/-- An unsubscribe leaves the other clients, and the client itself as inactive
if it waits for the close to complete. -/
theorem mem_dismissed (h : Listing kind list) {s : Subscriber} (hs : s ∈ list)
    (t : Subscriber) :
    t ∈ dismissed list s ↔ (t ∈ list ∧ t.key ≠ s.key) ∨
      (s.waitForCloseComplete = true ∧ t = s.deactivate) := by
  unfold dismissed
  split
  · rename_i hwait
    simp only [h.mem_replace hs, hwait, true_and]
  · rename_i hwait
    rw [List.mem_filter]
    simp only [hwait, Bool.false_eq_true, false_and, or_false]
    refine and_congr_right fun ht => ?_
    rw [Bool.not_eq_true', ← Bool.not_eq_true, h.equals_iff ht (h.kinds s hs)]

theorem dismissed (h : Listing kind list) {s : Subscriber} (hs : s ∈ list) :
    Listing kind (dismissed list s) := by
  refine ⟨fun t ht => ?_, ?_⟩
  · rcases (h.mem_dismissed hs t).mp ht with ⟨ht, -⟩ | ⟨-, rfl⟩
    · exact h.kinds t ht
    · rw [Subscriber.kind_deactivate]
      exact h.kinds s hs
  · unfold AgpsStateMachine.dismissed
    split
    · rw [map_key_replace]
      exact h.distinct
    · exact (h.filter _).distinct

end Listing

/-! ## Invariants of either class -/

namespace AgpsStateMachine

/-- The events that reach a state of the machine: a subscribe of a subscriber
of the right kind, which in the single-subscriber mode comes to an empty list,
and an unsubscribe of a listed subscriber. -/
def Event.Occurs (kind : SubscriberKind) (machine : AgpsStateMachine) : Event → Prop
  | .subscribe s => s.kind = kind ∧
      (machine.mEnforceSingleSubscriber = true → machine.mSubscribers = [])
  | .unsubscribe s => s ∈ machine.mSubscribers
  | .granted | .released | .denied => True

theorem listing_listAfter {kind : SubscriberKind} {machine : AgpsStateMachine}
    (h : Listing kind machine.mSubscribers) {event : Event}
    (hoccurs : event.Occurs kind machine) :
    Listing kind (listAfter machine.mState event machine.mSubscribers) := by
  cases event with
  | subscribe s => cases machine.mState <;> exact h.added hoccurs.1
  | unsubscribe s =>
      cases machine.mState with
      | released => exact h
      | _ => exact h.dismissed hoccurs
  | granted => cases machine.mState <;> exact h
  | released => cases machine.mState <;> first | exact h | exact .nil | exact h.filter _
  | denied => cases machine.mState <;> first | exact h | exact .nil | exact h.filter _

/-- The list after an event is that of the table, and the class and the mode
never change. -/
theorem dispatch_keeps (machine : AgpsStateMachine) (event : Event) (answer : Int) :
    (machine.dispatch event answer).mSubscribers =
        listAfter machine.mState event machine.mSubscribers ∧
      (machine.dispatch event answer).machineClass = machine.machineClass ∧
      (machine.dispatch event answer).mEnforceSingleSubscriber =
        machine.mEnforceSingleSubscriber := by
  obtain ⟨listed, hlisted, heq⟩ := machine.dispatch_eq event answer
  rw [heq, follow]
  split
  · exact ⟨hlisted.mSubscribers, hlisted.machineClass, hlisted.enforce⟩
  · rename_i action _
    obtain ⟨log, mRetries, delayTimers, hrequest, -⟩ :=
      listed.sendRsrcRequest_keeps action answer
    rw [hrequest]
    exact ⟨hlisted.mSubscribers, hlisted.machineClass, hlisted.enforce⟩

/-- `next` agrees with `machine` in what the table looks at. -/
structure SameRow (next machine : AgpsStateMachine) : Prop where
  machineClass : next.machineClass = machine.machineClass
  mState : next.mState = machine.mState
  mSubscribers : next.mSubscribers = machine.mSubscribers
  enforce : next.mEnforceSingleSubscriber = machine.mEnforceSingleSubscriber

theorem SameRow.of_onlyReports {next machine : AgpsStateMachine}
    (h : next.OnlyReports machine) : SameRow next machine :=
  ⟨h.keeps.2.2.1, h.keeps.1, h.keeps.2.1, h.keeps.2.2.2⟩

section Invariants

variable {kind : SubscriberKind} {A : Subscriber → Prop} {P : AgpsStateMachine → Prop}

/-- A property of the rows that every event preserves is preserved by the
resource events of both classes. -/
theorem onRsrcEvent_preserves
    (hdispatch : ∀ {machine : AgpsStateMachine} {event : Event} (answer : Int),
      P machine → event.Occurs kind machine → (∀ s, event = .subscribe s → A s) →
      P (machine.dispatch event answer))
    {machine : AgpsStateMachine} (h : P machine) (event : AgpsRsrcStatus) (answer : Int) :
    P (machine.onRsrcEvent event answer) := by
  have hgranted : P (machine.dispatch .granted answer) := hdispatch answer h trivial nofun
  have hreleased : P (machine.dispatch .released answer) := hdispatch answer h trivial nofun
  have hdenied : P (machine.dispatch .denied answer) := hdispatch answer h trivial nofun
  unfold onRsrcEvent
  split
  · cases event <;> assumption
  · cases event with
    | released =>
        simp only [onDsEvent]
        split
        · exact hdispatch answer hreleased trivial nofun
        · exact hreleased
    | _ => assumption

/-- A property of the rows that every event preserves is preserved by every
call into the machine. `A` restricts the subscribers that subscribe. -/
theorem step_preserves
    (hrow : ∀ {machine next : AgpsStateMachine}, SameRow next machine → P machine → P next)
    (hdispatch : ∀ {machine : AgpsStateMachine} {event : Event} (answer : Int),
      P machine → event.Occurs kind machine → (∀ s, event = .subscribe s → A s) →
      P (machine.dispatch event answer))
    {machine next : AgpsStateMachine} {label : Label}
    (hlabel : ∀ s answer, label = .subscribe s answer → A s) (h : P machine)
    (hstep : machine.step kind label = some next) : P next := by
  have hsame : SameRow { machine with log := [] } machine := ⟨rfl, rfl, rfl, rfl⟩
  have hcleared := hrow hsame h
  cases label with
  | subscribe s answer =>
      obtain ⟨hkind, rfl⟩ := step_subscribe hstep
      unfold subscribeRsrc
      split
      · have hnotify := notifySubscriber_onlyReports (.toGroup .broadcastAll .denied true) s
          { machine with log := [] }
        exact hrow (.of_onlyReports hnotify) hcleared
      · rename_i hsingle
        refine hdispatch answer hcleared ⟨hkind, fun henforce => ?_⟩ fun t heq => ?_
        · have hmode : machine.mEnforceSingleSubscriber = true := henforce
          rw [← hasSubscribers_eq_false]
          simpa [hmode] using hsingle
        · obtain rfl : s = t := Event.subscribe.inj heq
          exact hlabel s answer rfl
  | unsubscribe s answer =>
      obtain ⟨hkind, rfl⟩ := step_unsubscribe hstep
      rw [unsubscribeRsrc, findSubscriber_eq]
      split
      · rename_i listed hfind
        exact hdispatch answer hcleared (List.mem_of_find?_eq_some hfind) (by simp)
      · exact hcleared
  | rsrcEvent event answer =>
      obtain rfl := Option.some.inj hstep
      exact onRsrcEvent_preserves hdispatch hcleared event answer
  | setBearer bearer =>
      obtain rfl := Option.some.inj hstep
      have hset : SameRow { machine with log := [], mBearer := bearer } machine :=
        ⟨rfl, rfl, rfl, rfl⟩
      exact hrow hset h
  | setAPN apn =>
      obtain rfl := Option.some.inj hstep
      have hset : SameRow { machine with log := [], mAPN := apn } machine :=
        ⟨rfl, rfl, rfl, rfl⟩
      exact hrow hset h
  | retry =>
      obtain ⟨-, rfl⟩ := step_retry hstep
      refine hrow ?_ h
      unfold retryCallback
      split <;> exact ⟨rfl, rfl, rfl, rfl⟩

end Invariants

/-- In every run, of either class, the list has one kind and no client twice. -/
theorem listing_of_step {kind : SubscriberKind} {machine next : AgpsStateMachine}
    {label : Label} (h : Listing kind machine.mSubscribers)
    (hstep : machine.step kind label = some next) : Listing kind next.mSubscribers := by
  refine step_preserves (A := fun _ => True)
    (P := fun machine => Listing kind machine.mSubscribers) ?_ ?_ (fun _ _ _ => trivial) h hstep
  · intro machine next hsame h
    rwa [hsame.mSubscribers]
  · intro machine event answer h hoccurs _
    rw [(machine.dispatch_keeps event answer).1]
    exact listing_listAfter h hoccurs

end AgpsStateMachine

end Msm8916.Agps
