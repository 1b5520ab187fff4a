import Msm8916.Agps.Objects
import Mathlib.Data.List.Pairwise

/-!
What the methods of a state machine use of the listed objects. Every search
compares live objects, but for one: the walk that tells a client of its own
unsubscribe deletes the object it was given as the receiver, and goes on
comparing with it if others are listed.
-/

namespace Msm8916.Agps

open AgpsStateMachine

/-! ## Equality of clients of any kinds -/

namespace Subscriber

theorem strncmpIsZero_comm (as bs : List UInt8) : strncmpIsZero as bs = strncmpIsZero bs as := by
  induction as generalizing bs with
  | nil => cases bs <;> rfl
  | cons a as ih =>
      cases bs with
      | nil => rfl
      | cons b bs =>
          by_cases hab : a = b
          · subst hab
            simp [strncmpIsZero, ih]
          · have hne : (a == b) = false := by simpa using hab
            have hne' : (b == a) = false := by simpa using Ne.symm hab
            simp only [strncmpIsZero, hne, hne', Bool.false_and]

theorem equals_comm (s t : Subscriber) : s.equals t = t.equals s := by
  have hID : (s.ID == t.ID) = (t.ID == s.ID) := Bool.beq_comm
  cases s with
  | bit ID mIPv6Addr =>
      cases t with
      | bit tID tIPv6Addr =>
          by_cases hsame : ID = tID
          · subst hsame
            simp [equals, strncmpIsZero_comm mIPv6Addr.toList]
          · have hne : (ID == tID) = false := by simpa using hsame
            have hne' : (tID == ID) = false := by simpa using Ne.symm hsame
            simp only [equals, hne, hne', Bool.false_and]
      | _ => exact hID
  | _ => cases t <;> exact hID

theorem equals_clone (s t : Subscriber) : s.equals t.clone = s.equals t := by
  cases s <;> cases t <;> rfl

theorem equals_deactivate (s t : Subscriber) : s.equals t.deactivate = s.equals t := by
  cases s <;> cases t <;> rfl

theorem deactivate_equals (s t : Subscriber) : s.deactivate.equals t = s.equals t := by
  rw [equals_comm, equals_deactivate, equals_comm]

end Subscriber

namespace Store

variable {store : Store} {accepts : Subscriber → Bool} {rcver : Option Nat}

/-! ## Searches -/

/-- A search uses listed objects and the receiver, and nothing if the list is
empty. -/
theorem search_eq (accepts : Subscriber → Bool) (rcver : Option Nat) (rmIfFound : Bool)
    (store : Store) :
    ∃ objects, store.search accepts rcver rmIfFound =
        (⟨if rmIfFound then store.listed.eraseP fun data => accepts data.2 else store.listed,
            store.arena.use objects⟩,
          store.listed.find? fun data => accepts data.2) ∧
      (∀ object ∈ objects, object ∈ store.listed.map Prod.fst ∨ object ∈ rcver) ∧
      (store.listed = [] → objects = []) ∧
      (store.listed ≠ [] → ∀ object ∈ rcver, object ∈ objects) := by
  obtain ⟨listed, arena⟩ := store
  dsimp only [search]
  induction listed generalizing arena with
  | nil => exact ⟨[], by simp [linkedListSearch], by simp, fun _ => rfl, fun h => absurd rfl h⟩
  | cons data listed ih =>
      have hreceiver : ∀ object ∈ rcver, object ∈ data.1 :: rcver.toList := fun object hobject =>
        List.mem_cons_of_mem _ (Option.mem_toList.mpr hobject)
      have hused : ∀ object ∈ data.1 :: rcver.toList,
          object ∈ (data :: listed).map Prod.fst ∨ object ∈ rcver := by
        intro object hobject
        rcases List.mem_cons.mp hobject with rfl | hobject
        · exact .inl List.mem_cons_self
        · exact .inr (Option.mem_toList.mp hobject)
      cases hdata : accepts data.2 with
      | true =>
          refine ⟨data.1 :: rcver.toList, ?_, hused, by simp, fun _ => hreceiver⟩
          simp [linkedListSearch, hdata, compare]
      | false =>
          obtain ⟨objects, heq, hobjects, -, -⟩ := ih (compare rcver data arena)
          refine ⟨data.1 :: rcver.toList ++ objects, ?_, ?_, by simp, fun _ object hobject =>
            List.mem_append_left _ (hreceiver object hobject)⟩
          · have hrest := Prod.mk.inj heq
            simp only [linkedListSearch, hdata, List.find?_cons_of_neg, Bool.false_eq_true,
              not_false_eq_true, List.eraseP_cons_of_neg]
            simp only [Store.mk.injEq] at hrest
            obtain ⟨⟨hlisted, harena⟩, hfound⟩ := hrest
            rw [hlisted, harena, hfound, compare, Arena.use_use]
            cases rmIfFound <;> rfl
          · intro object hobject
            rcases List.mem_append.mp hobject with hobject | hobject
            · exact hused object hobject
            · exact (hobjects object hobject).imp_left fun hmem => List.mem_cons_of_mem _ hmem

theorem listed_search (accepts : Subscriber → Bool) (rcver : Option Nat) (store : Store) :
    (store.search accepts rcver false).1.listed = store.listed := by
  obtain ⟨objects, heq, -⟩ := search_eq accepts rcver false store
  rw [heq]
  rfl

theorem search_snd (accepts : Subscriber → Bool) (rcver : Option Nat) (rmIfFound : Bool)
    (store : Store) : (store.search accepts rcver rmIfFound).2 =
      store.listed.find? fun data => accepts data.2 := by
  obtain ⟨objects, heq, -⟩ := search_eq accepts rcver rmIfFound store
  rw [heq]

/-- The search for a client. -/
theorem findSubscriber_eq (s : Subscriber) (object : Nat) (store : Store) :
    (store.findSubscriber (.toSubscriber s .statusMax false) (some object)).1.listed =
        store.listed ∧
      (store.findSubscriber (.toSubscriber s .statusMax false) (some object)).2 =
        store.listed.find? fun other => other.2.equals s := by
  refine ⟨listed_search _ _ store, ?_⟩
  rw [findSubscriber, search_snd]
  simp

/-! ## What every operation keeps -/

/-- What holds of the store at any time. The objects of `held` are those of the
call in progress, which are not listed. -/
structure Sound (held : List Nat) (store : Store) : Prop where
  arena : store.arena.Sound
  live : ∀ data ∈ store.listed, data.1 ∈ store.arena.live
  nodup : (store.listed.map Prod.fst).Nodup
  distinct : store.listed.Pairwise fun data other => data.2.equals other.2 = false
  held : ∀ object ∈ held, object ∈ store.arena.live ∧ object ∉ store.listed.map Prod.fst

/-- `next` is sound, and has used no dead object that `store` had not. -/
structure Tidy (held : List Nat) (store next : Store) : Prop where
  sound : next.Sound held
  clean : next.arena.Clean ↔ store.arena.Clean

variable {held : List Nat}

theorem Tidy.refl (h : store.Sound held) : Tidy held store store := ⟨h, .rfl⟩

theorem Tidy.trans {first second third : Store} (h₁ : Tidy held first second)
    (h₂ : Tidy held second third) : Tidy held first third :=
  ⟨h₂.sound, h₂.clean.trans h₁.clean⟩

theorem empty_sound : empty.Sound [] :=
  ⟨Arena.empty_sound, by simp [empty], List.nodup_nil, .nil, by simp⟩

namespace Sound

theorem use (h : store.Sound held) (objects : List Nat) :
    Sound held ⟨store.listed, store.arena.use objects⟩ :=
  ⟨h.arena.use objects, h.live, h.nodup, h.distinct, h.held⟩

theorem use_tidy (h : store.Sound held) (objects : List Nat)
    (hlive : ∀ object ∈ objects, object ∈ store.arena.live) :
    Tidy held store ⟨store.listed, store.arena.use objects⟩ :=
  ⟨h.use objects, by rw [Arena.clean_use_iff, and_iff_left hlive]⟩

theorem mem_live (h : store.Sound held) {object : Nat}
    (hobject : object ∈ store.listed.map Prod.fst) : object ∈ store.arena.live := by
  obtain ⟨data, hdata, rfl⟩ := List.mem_map.mp hobject
  exact h.live data hdata

theorem search_tidy (h : store.Sound held) (accepts : Subscriber → Bool)
    (hrcver : ∀ object ∈ rcver, object ∈ store.arena.live) :
    Tidy held store (store.search accepts rcver false).1 := by
  obtain ⟨objects, heq, hobjects, -⟩ := search_eq accepts rcver false store
  rw [heq]
  exact h.use_tidy objects fun object hobject =>
    (hobjects object hobject).elim h.mem_live (hrcver object)

theorem findSubscriber_tidy (h : store.Sound held) (s : Subscriber) {object : Nat}
    (hobject : object ∈ store.arena.live) :
    Tidy held store
      (store.findSubscriber (.toSubscriber s .statusMax false) (some object)).1 :=
  h.search_tidy _ fun _ hother => Option.mem_some.mp hother ▸ hobject

/-- Two listed subscribers that are equal are one. -/
theorem eq_of_equals (h : store.Sound held) {data other : Nat × Subscriber}
    (hdata : data ∈ store.listed) (hother : other ∈ store.listed)
    (hequals : data.2.equals other.2 = true) : data = other := by
  by_contra hne
  have hsymm : Std.Symm fun data other : Nat × Subscriber => data.2.equals other.2 = false :=
    ⟨fun data other hequals => (Subscriber.equals_comm other.2 data.2).trans hequals⟩
  rw [h.distinct.forall hdata hother hne] at hequals
  cases hequals

/-! ## Deletion -/

theorem erase_of_find {list : List (Nat × Subscriber)} {p : Nat × Subscriber → Bool}
    {data : Nat × Subscriber} (h : list.find? p = some data) :
    ∃ before rest, list = before ++ data :: rest ∧ list.eraseP p = before ++ rest := by
  obtain ⟨hdata, before, rest, rfl, hbefore⟩ := List.find?_eq_some_iff_append.mp h
  refine ⟨before, rest, rfl, ?_⟩
  rw [List.eraseP_append_right _ fun other hother => by simpa using hbefore other hother,
    List.eraseP_cons_of_pos hdata]

/-- The object a search has taken off the list is deleted. -/
theorem remove (h : store.Sound held) {p : Nat × Subscriber → Bool} {data : Nat × Subscriber}
    (hfind : store.listed.find? p = some data) (objects : List Nat) :
    Sound held ⟨store.listed.eraseP p, (store.arena.use objects).delete data.1⟩ := by
  obtain ⟨before, rest, hlist, herase⟩ := erase_of_find hfind
  have hmem : data ∈ store.listed := List.mem_of_find?_eq_some hfind
  have hsub : store.listed.eraseP p |>.Sublist store.listed := List.eraseP_sublist
  have hgone : data.1 ∉ (store.listed.eraseP p).map Prod.fst := by
    have hnodup := h.nodup
    rw [hlist, List.map_append, List.map_cons, List.nodup_middle, List.nodup_cons] at hnodup
    rw [herase, List.map_append]
    exact hnodup.1
  refine ⟨(h.arena.use objects).delete (h.live data hmem), fun other hother => ?_,
    h.nodup.sublist (hsub.map _), h.distinct.sublist hsub, fun object hobject => ?_⟩
  · refine Arena.mem_live_leave.mpr ⟨h.live other (hsub.subset hother), fun heq => hgone ?_⟩
    rw [← heq]
    exact List.mem_map_of_mem hother
  · obtain ⟨hlive, hfree⟩ := h.held object hobject
    refine ⟨Arena.mem_live_leave.mpr ⟨hlive, fun heq => hfree ?_⟩, fun hmem => hfree ?_⟩
    · rw [heq]
      exact List.mem_map_of_mem hmem
    · exact (hsub.map _).subset hmem

/-- The loop without a receiver deletes what is accepted, and compares only what
is live. -/
theorem deleteUntilNone_tidy (h : store.Sound held) (accepts : Subscriber → Bool) {rounds : Nat}
    (hrounds : store.listed.length < rounds) :
    Tidy held store (store.deleteUntilNone accepts none rounds) ∧
      (store.deleteUntilNone accepts none rounds).listed =
        store.listed.filter fun data => !accepts data.2 := by
  induction rounds generalizing store with
  | zero => exact absurd hrounds (Nat.not_lt_zero _)
  | succ rounds ih =>
      obtain ⟨objects, heq, hobjects, -⟩ := search_eq accepts none true store
      have hlive : ∀ object ∈ objects, object ∈ store.arena.live := fun object hobject =>
        h.mem_live ((hobjects object hobject).resolve_right (by simp))
      rw [Store.deleteUntilNone, heq]
      cases hfind : store.listed.find? (fun data => accepts data.2) with
      | none =>
          have hnone : ∀ data ∈ store.listed, accepts data.2 = false := by
            simpa [List.find?_eq_none] using hfind
          have hkept : store.listed.eraseP (fun data => accepts data.2) = store.listed :=
            List.eraseP_of_forall_not fun data hdata => by simp [hnone data hdata]
          have hall : store.listed.filter (fun data => !accepts data.2) = store.listed :=
            List.filter_eq_self.mpr fun data hdata => by simp [hnone data hdata]
          dsimp only [if_true]
          rw [if_pos rfl, hkept, hall]
          exact ⟨h.use_tidy objects hlive, rfl⟩
      | some data =>
          obtain ⟨-, hrest, hlength⟩ := filter_of_find hfind
          have hremoved := h.remove hfind objects
          have hloop := ih hremoved (Nat.lt_of_lt_of_le hlength (Nat.le_of_lt_succ hrounds))
          dsimp only
          rw [if_pos rfl]
          refine ⟨⟨hloop.1.sound, hloop.1.clean.trans ?_⟩, hloop.2.trans hrest⟩
          exact Arena.clean_use_iff.trans (and_iff_left hlive)

theorem find_self (h : store.Sound held) {data : Nat × Subscriber}
    (hdata : data ∈ store.listed) :
    store.listed.find? (fun other => other.2.equals data.2) = some data := by
  obtain ⟨other, hother⟩ : ∃ other,
      store.listed.find? (fun other => other.2.equals data.2) = some other :=
    Option.isSome_iff_exists.mp (List.find?_isSome.mpr ⟨data, hdata, by simp⟩)
  have hequals : other.2.equals data.2 = true := by simpa using List.find?_some hother
  rw [hother, h.eq_of_equals (List.mem_of_find?_eq_some hother) hdata hequals]

/-- Nobody else on the list is equal to a listed subscriber. -/
theorem erase_self (h : store.Sound held) {data : Nat × Subscriber}
    (hdata : data ∈ store.listed) :
    store.listed.eraseP (fun other => other.2.equals data.2) =
      store.listed.filter fun other => !other.2.equals data.2 := by
  have hfind := h.find_self hdata
  obtain ⟨before, rest, hlist, herase⟩ := erase_of_find hfind
  obtain ⟨-, hkept, -⟩ := filter_of_find hfind
  rw [← hkept, List.filter_eq_self.mpr]
  intro other hother
  rw [Bool.not_eq_true', ← Bool.not_eq_true]
  intro hequals
  have hmem : other ∈ store.listed := List.eraseP_sublist.subset hother
  obtain rfl := h.eq_of_equals hmem hdata hequals
  have hnodup := h.nodup
  rw [hlist, List.map_append, List.map_cons, List.nodup_middle, List.nodup_cons,
    ← List.map_append, ← herase] at hnodup
  exact hnodup.1 (List.mem_map_of_mem hother)

theorem erase_self_eq_nil (h : store.Sound held) {data : Nat × Subscriber}
    (hdata : data ∈ store.listed) :
    store.listed.eraseP (fun other => other.2.equals data.2) = [] ↔ store.listed = [data] := by
  obtain ⟨before, rest, hlist, herase⟩ := erase_of_find (h.find_self hdata)
  constructor
  · intro hnil
    obtain ⟨rfl, rfl⟩ := List.append_eq_nil_iff.mp (herase.symm.trans hnil)
    exact hlist
  · intro hsingle
    rw [hsingle]
    simp

/-- The walk that tells a client of its own unsubscribe. It deletes the receiver
at its first round, and looks for others with it at its second. -/
theorem deleteUntilNone_self (h : store.Sound held) {data : Nat × Subscriber}
    (hdata : data ∈ store.listed) {rounds : Nat} (hrounds : store.listed.length < rounds) :
    (store.deleteUntilNone (fun s => s.equals data.2) (some data.1) rounds).Sound held ∧
      ((store.deleteUntilNone (fun s => s.equals data.2) (some data.1) rounds).arena.Clean ↔
        store.arena.Clean ∧ store.listed = [data]) ∧
      (store.deleteUntilNone (fun s => s.equals data.2) (some data.1) rounds).listed =
        store.listed.filter fun other => !other.2.equals data.2 := by
  obtain ⟨rounds, rfl⟩ : ∃ fewer, rounds = fewer + 2 := by
    have hpos := List.length_pos_of_mem hdata
    exact ⟨rounds - 2, by omega⟩
  have hfind := h.find_self hdata
  obtain ⟨objects, hfirst, hobjects, -, -⟩ :=
    search_eq (fun s => s.equals data.2) (some data.1) true store
  have hlive : ∀ object ∈ objects, object ∈ store.arena.live := by
    intro object hobject
    rcases hobjects object hobject with hmem | hmem
    · exact h.mem_live hmem
    · obtain rfl := Option.mem_some.mp hmem
      exact h.live data hdata
  have hremoved := h.remove hfind objects
  have hnone : (store.listed.eraseP fun other => other.2.equals data.2).find?
      (fun other => other.2.equals data.2) = none := by
    rw [h.erase_self hdata]
    simp
  obtain ⟨more, hsecond, hmore, hnil, hcons⟩ :=
    search_eq (fun s => s.equals data.2) (some data.1) true
      ⟨store.listed.eraseP fun other => other.2.equals data.2,
        (store.arena.use objects).delete data.1⟩
  have hrun : store.deleteUntilNone (fun s => s.equals data.2) (some data.1) (rounds + 2) =
      ⟨store.listed.eraseP fun other => other.2.equals data.2,
        ((store.arena.use objects).delete data.1).use more⟩ := by
    rw [Store.deleteUntilNone, hfirst, hfind]
    dsimp only
    rw [if_pos rfl, Store.deleteUntilNone, hsecond, hnone]
    dsimp only
    rw [if_pos rfl, List.eraseP_of_forall_not]
    simpa [List.find?_eq_none] using hnone
  rw [hrun]
  refine ⟨hremoved.use more, ?_, h.erase_self hdata⟩
  have hclean : ((store.arena.use objects).delete data.1).Clean ↔ store.arena.Clean :=
    Arena.clean_use_iff.trans (and_iff_left hlive)
  rw [Arena.clean_use_iff, hclean, ← h.erase_self_eq_nil hdata]
  refine and_congr_right fun _ => ⟨fun hall => ?_, fun hempty => ?_⟩
  · by_contra hne
    -- the receiver is compared again, and it is dead
    have hdead := hall data.1 (hcons hne data.1 rfl)
    exact (Arena.mem_live_leave.mp hdead).2 rfl
  · rw [hnil hempty]
    simp

/-! ## The methods -/

theorem notify_broadcast (h : store.Sound held) (notification : Notification)
    (hhandles : handlesStatus notification.rsrcStatus = true) :
    Tidy held store (store.notifySubscribers notification none) ∧
      (store.notifySubscribers notification none).listed =
        if notification.postNotifyDelete then
          store.listed.filter fun data => !data.2.forMe notification
        else store.listed := by
  unfold notifySubscribers
  split
  · simpa only [hhandles, Bool.and_true] using
      h.deleteUntilNone_tidy (fun s => s.forMe notification) (Nat.lt_succ_self _)
  · exact ⟨h.search_tidy _ (by simp), listed_search _ _ store⟩

theorem notify_self (h : store.Sound held) {data : Nat × Subscriber}
    (hdata : data ∈ store.listed) :
    (store.notifySubscribers (.toSubscriber data.2 .unsubscribe true) (some data.1)).Sound held ∧
      ((store.notifySubscribers (.toSubscriber data.2 .unsubscribe true)
          (some data.1)).arena.Clean ↔ store.arena.Clean ∧ store.listed = [data]) ∧
      (store.notifySubscribers (.toSubscriber data.2 .unsubscribe true) (some data.1)).listed =
        store.listed.filter fun other => !other.2.equals data.2 := by
  have hself := h.deleteUntilNone_self hdata (Nat.lt_succ_self _)
  have haccepts : (fun s : Subscriber =>
      s.forMe (.toSubscriber data.2 .unsubscribe true) && handlesStatus .unsubscribe) =
        fun s => s.equals data.2 := by
    funext s
    simp [handlesStatus]
  rw [← haccepts] at hself
  have hnotify : store.notifySubscribers (.toSubscriber data.2 .unsubscribe true)
      (some data.1) = store.deleteUntilNone (fun s =>
        s.forMe (.toSubscriber data.2 .unsubscribe true) && handlesStatus .unsubscribe)
        (some data.1) (store.listed.length + 1) := if_pos rfl
  rw [hnotify]
  simpa only [forMe_toSubscriber] using hself

theorem firstActive_tidy (h : store.Sound held) : Tidy held store store.firstActive.1 :=
  h.search_tidy _ (by simp)

theorem sendRsrcRequest_tidy (h : store.Sound held) : Tidy held store store.sendRsrcRequest :=
  h.firstActive_tidy

theorem releaseIfUnused_tidy (h : store.Sound held) : Tidy held store store.releaseIfUnused := by
  have hactive := h.firstActive_tidy
  unfold releaseIfUnused
  split
  · exact h.sendRsrcRequest_tidy
  · split
    · rename_i heq
      rw [heq] at hactive
      exact hactive.trans hactive.sound.sendRsrcRequest_tidy
    · rename_i heq
      rwa [heq] at hactive

theorem addSubscriber_tidy (h : store.Sound held) (data : Nat × Subscriber)
    (hdata : data.1 ∈ store.arena.live) : Tidy held store (store.addSubscriber data) := by
  have hfound := h.findSubscriber_tidy data.2 hdata
  obtain ⟨hlisted, hfind⟩ := findSubscriber_eq data.2 data.1 store
  unfold addSubscriber
  split
  · rename_i heq
    rwa [heq] at hfound
  · rename_i searched heq
    rw [heq] at hfound hlisted hfind
    have hnew := hfound.sound.arena.construct_fresh
    refine hfound.trans ⟨⟨hfound.sound.arena.construct, fun other hother => ?_, ?_, ?_,
      fun object hobject => ?_⟩, .rfl⟩
    · rcases List.mem_cons.mp hother with rfl | hother
      · exact List.mem_cons_self
      · exact List.mem_cons_of_mem _ (hfound.sound.live other hother)
    · rw [List.map_cons, List.nodup_cons]
      exact ⟨fun hmem => hnew (hfound.sound.mem_live hmem), hfound.sound.nodup⟩
    · refine .cons (fun other hother => ?_) hfound.sound.distinct
      have hnone : ∀ other ∈ store.listed, other.2.equals data.2 = false := by
        simpa [List.find?_eq_none] using hfind.symm
      rw [Subscriber.equals_comm, Subscriber.equals_clone]
      exact hnone other (hlisted ▸ hother)
    · obtain ⟨hlive, hfree⟩ := hfound.sound.held object hobject
      refine ⟨List.mem_cons_of_mem _ hlive, ?_⟩
      rw [List.map_cons, List.mem_cons, not_or]
      exact ⟨fun hsame => hnew (hsame ▸ hlive), hfree⟩

theorem setInactive_tidy (h : store.Sound held) (data : Nat × Subscriber) :
    Tidy held store (store.setInactive data) := by
  have hobjects : (store.setInactive data).listed.map Prod.fst = store.listed.map Prod.fst := by
    rw [setInactive, List.map_map]
    refine List.map_congr_left fun other _ => ?_
    dsimp only [Function.comp]
    split <;> rfl
  refine ⟨⟨h.arena, fun other hother => ?_, by rw [hobjects]; exact h.nodup, ?_,
    fun object hobject => by rw [hobjects]; exact h.held object hobject⟩, .rfl⟩
  · refine h.mem_live ?_
    rw [← hobjects]
    exact List.mem_map_of_mem hother
  · refine List.pairwise_map.mpr (h.distinct.imp fun {first second} hfalse => ?_)
    split <;> split <;>
      simpa only [Subscriber.equals_deactivate, Subscriber.deactivate_equals] using hfalse

end Sound

/-! ## The list a method leaves -/

/-- The values of the listed objects. -/
def values (store : Store) : List Subscriber := store.listed.map Prod.snd

theorem any_values (p : Subscriber → Bool) (store : Store) :
    store.values.any p = store.listed.any fun data => p data.2 := by
  rw [values, List.any_map]
  rfl

theorem filter_values (p : Subscriber → Bool) (store : Store) :
    store.values.filter p = (store.listed.filter fun data => p data.2).map Prod.snd := by
  rw [values, List.filter_map]
  rfl

theorem values_of_listed {next : Store} (h : next.listed = store.listed) :
    next.values = store.values := by
  rw [values, h, values]

theorem values_firstActive (store : Store) : store.firstActive.1.values = store.values :=
  values_of_listed (listed_search _ _ store)

theorem values_releaseIfUnused (store : Store) : store.releaseIfUnused.values = store.values := by
  have hactive := values_firstActive store
  unfold releaseIfUnused
  split
  · exact hactive
  · split
    · rename_i heq
      rw [heq] at hactive
      exact (values_firstActive _).trans hactive
    · rename_i heq
      rwa [heq] at hactive

theorem values_addSubscriber (store : Store) (data : Nat × Subscriber) :
    (store.addSubscriber data).values = added store.values data.2 := by
  obtain ⟨hlisted, hfind⟩ := findSubscriber_eq data.2 data.1 store
  unfold addSubscriber added
  rw [any_values]
  split
  · rename_i other heq
    rw [heq] at hlisted hfind
    have hany : (store.listed.any fun other => other.2.equals data.2) = true :=
      List.any_eq_true.mpr ⟨other, List.mem_of_find?_eq_some hfind.symm, by
        simpa using List.find?_some hfind.symm⟩
    rw [hany, if_pos rfl]
    exact values_of_listed hlisted
  · rename_i searched heq
    rw [heq] at hlisted hfind
    have hany : (store.listed.any fun other => other.2.equals data.2) = false := by
      simpa [List.find?_eq_none] using hfind.symm
    rw [hany, if_neg Bool.false_ne_true]
    exact congrArg (data.2.clone :: ·) (values_of_listed hlisted)

theorem Sound.values_setInactive (h : store.Sound held) {data : Nat × Subscriber}
    (hdata : data ∈ store.listed) :
    (store.setInactive data).values = store.values.replace data.2 data.2.deactivate := by
  obtain ⟨before, rest, hlist⟩ := List.append_of_mem hdata
  have hnodup := h.nodup
  rw [hlist, List.map_append, List.map_cons, List.nodup_middle, List.nodup_cons,
    ← List.map_append] at hnodup
  have hother : ∀ other ∈ before ++ rest, other.1 ≠ data.1 := fun other hmem heq =>
    hnodup.1 (heq ▸ List.mem_map_of_mem hmem)
  have hkept : ∀ part : List (Nat × Subscriber), (∀ other ∈ part, other ∈ before ++ rest) →
      part.map (fun other => if other.1 = data.1 then (other.1, other.2.deactivate) else other) =
        part := by
    intro part hpart
    refine (List.map_congr_left fun other hmem => ?_).trans (List.map_id part)
    exact if_neg (hother other (hpart other hmem))
  have hfresh : data.2 ∉ before.map Prod.snd := by
    rintro hmem
    obtain ⟨other, hbefore, hsame⟩ := List.mem_map.mp hmem
    have hmem : other ∈ store.listed := by
      rw [hlist]
      exact List.mem_append_left _ hbefore
    have heq := h.eq_of_equals hmem hdata (by rw [hsame]; exact Subscriber.equals_self _)
    exact hother other (List.mem_append_left _ hbefore) (by rw [heq])
  have hvalues : store.values = before.map Prod.snd ++ data.2 :: rest.map Prod.snd := by
    rw [values, hlist, List.map_append, List.map_cons]
  rw [hvalues, List.replace_append_right hfresh, List.replace_cons_self, values, setInactive,
    hlist]
  simp only [List.map_append, List.map_cons, if_true]
  rw [hkept before fun _ hmem => List.mem_append_left _ hmem,
    hkept rest fun _ hmem => List.mem_append_right _ hmem]

/-- The list a method leaves, and whether it has used a dead object that `store`
had not: only if `harmless` fails. -/
structure Effect (held : List Nat) (harmless : Prop) (list : List Subscriber)
    (store next : Store) : Prop where
  sound : next.Sound held
  clean : next.arena.Clean ↔ store.arena.Clean ∧ harmless
  values : next.values = list

theorem Tidy.effect {next : Store} (h : Tidy held store next) {harmless : Prop}
    (hharmless : harmless) {list : List Subscriber} (hvalues : next.values = list) :
    Effect held harmless list store next :=
  ⟨h.sound, h.clean.trans (and_iff_left hharmless).symm, hvalues⟩

theorem Effect.tidy {harmless : Prop} {list : List Subscriber} {next last : Store}
    (h : Effect held harmless list store next) (hlast : Tidy held next last)
    (hvalues : last.values = next.values) : Effect held harmless list store last :=
  ⟨hlast.sound, hlast.clean.trans h.clean, hvalues.trans h.values⟩

theorem Effect.of_harmless {harmless : Prop} {list list' : List Subscriber} {next : Store}
    (h : Effect held True list store next) (hharmless : harmless) (hlist : list = list') :
    Effect held harmless list' store next :=
  ⟨h.sound, h.clean.trans (and_congr_right fun _ => iff_of_true trivial hharmless),
    h.values.trans hlist⟩

theorem values_eq_singleton {data : Nat × Subscriber} (hdata : data ∈ store.listed) :
    store.values = [data.2] ↔ store.listed = [data] := by
  constructor
  · intro hvalues
    obtain ⟨other, hlisted, -⟩ := List.map_eq_singleton_iff.mp hvalues
    rw [hlisted] at hdata
    rw [hlisted, List.mem_singleton.mp hdata]
  · intro hlisted
    rw [values, hlisted]
    rfl

theorem Sound.dismiss_effect (h : store.Sound held) {data : Nat × Subscriber}
    (hdata : data ∈ store.listed) :
    Effect held (data.2.waitForCloseComplete = false → store.values = [data.2])
      (dismissed store.values data.2) store (store.dismiss data) := by
  unfold dismiss dismissed
  cases hwait : data.2.waitForCloseComplete with
  | true => exact (h.setInactive_tidy data).effect (by simp) (h.values_setInactive hdata)
  | false =>
      obtain ⟨hsound, hclean, hlisted⟩ := h.notify_self hdata
      refine ⟨hsound, ?_, ?_⟩
      · rw [values_eq_singleton hdata]
        simpa using hclean
      · rw [filter_values]
        exact congrArg (List.map Prod.snd) hlisted

theorem Sound.broadcast_keeps (h : store.Sound held) (group : NotificationGroup)
    (status : AgpsRsrcStatus) (hhandles : handlesStatus status = true) :
    Effect held True store.values store
      (store.notifySubscribers (.toGroup group status false) none) := by
  obtain ⟨htidy, hlisted⟩ := h.notify_broadcast (.toGroup group status false) hhandles
  exact htidy.effect trivial (values_of_listed hlisted)

theorem Sound.broadcast_deletes (h : store.Sound held) (group : NotificationGroup)
    (status : AgpsRsrcStatus) (hhandles : handlesStatus status = true) :
    Effect held True (store.values.filter fun s => !s.forMe (.toGroup group status true)) store
      (store.notifySubscribers (.toGroup group status true) none) := by
  obtain ⟨htidy, hlisted⟩ := h.notify_broadcast (.toGroup group status true) hhandles
  refine htidy.effect trivial ?_
  rw [filter_values]
  exact congrArg (List.map Prod.snd) hlisted

theorem Sound.finishReleasing_effect (h : store.Sound held) (status : AgpsRsrcStatus)
    (hhandles : handlesStatus status = true) :
    Effect held True (store.values.filter fun s => !s.isInactive) store
      (store.finishReleasing status) := by
  have hnotified := h.broadcast_deletes .broadcastInactive status hhandles
  simp only [forMe_broadcastInactive] at hnotified
  have hactive := hnotified.tidy hnotified.sound.firstActive_tidy (values_firstActive _)
  unfold finishReleasing
  split
  · rename_i heq
    rw [heq] at hactive
    exact hactive.tidy hactive.sound.sendRsrcRequest_tidy (values_firstActive _)
  · rename_i heq
    rwa [heq] at hactive

/-- The step of a state uses a dead object only when a client that does not wait
for the close to complete unsubscribes while others are listed. -/
def Harmless (state : AgpsState) (event : Event) (list : List Subscriber) : Prop :=
  ∀ t, event = .unsubscribe t → state ≠ .released → t.waitForCloseComplete = false → list = [t]

theorem Sound.dispatch_effect (h : store.Sound held) (state : AgpsState) {event : Event}
    {object : Nat} (hobject : ∀ s, event = .subscribe s → object ∈ store.arena.live)
    (hlisted : ∀ t, event = .unsubscribe t → (object, t) ∈ store.listed) :
    Effect held (Harmless state event store.values) (listAfter state event store.values) store
      (store.dispatch state event object) := by
  have hnone : (∀ t, event ≠ .unsubscribe t) → Harmless state event store.values :=
    fun hne t heq => absurd heq (hne t)
  cases event with
  | subscribe s =>
      have hlive := hobject s rfl
      have hadded := (h.addSubscriber_tidy (object, s) hlive).effect
        (hnone (by simp)) (values_addSubscriber store (object, s))
      cases state with
      | released =>
          exact hadded.tidy hadded.sound.sendRsrcRequest_tidy (values_firstActive _)
      | pending | releasing => exact hadded
      | acquired =>
          have hcompared := h.use_tidy [object, object] (by simpa using hlive)
          have hagain := hcompared.trans
            (hcompared.sound.addSubscriber_tidy (object, s) hlive)
          exact hagain.effect (hnone (by simp)) (values_addSubscriber _ (object, s))
  | unsubscribe t =>
      have hmem := hlisted t rfl
      have hdismissed := h.dismiss_effect hmem
      have hharmless : state ≠ .released →
          ((t.waitForCloseComplete = false → store.values = [t]) ↔
            Harmless state (.unsubscribe t) store.values) := by
        intro hstate
        simp [Harmless, hstate]
      cases state with
      | released =>
          have hlive := h.live _ hmem
          refine (h.use_tidy [object, object] (by simpa using hlive)).effect ?_ rfl
          exact fun _ _ hstate => absurd rfl hstate
      | pending | acquired =>
          rw [hharmless (by simp)] at hdismissed
          exact hdismissed.tidy hdismissed.sound.releaseIfUnused_tidy (values_releaseIfUnused _)
      | releasing =>
          rw [hharmless (by simp)] at hdismissed
          exact hdismissed
  | granted =>
      have hharmless := hnone (by simp)
      cases state with
      | pending =>
          have hnotified := h.broadcast_keeps .broadcastActive .granted rfl
          exact hnotified.of_harmless hharmless rfl
      | released | acquired | releasing => exact (Tidy.refl h).effect hharmless rfl
  | released =>
      have hharmless := hnone (by simp)
      cases state with
      | acquired =>
          have hnotified := h.broadcast_deletes .broadcastAll .released rfl
          exact hnotified.of_harmless hharmless (by simp [listAfter])
      | releasing => exact (h.finishReleasing_effect .released rfl).of_harmless hharmless rfl
      | released | pending => exact (Tidy.refl h).effect hharmless rfl
  | denied =>
      have hharmless := hnone (by simp)
      cases state with
      | pending =>
          have hnotified := h.broadcast_deletes .broadcastAll .denied rfl
          exact hnotified.of_harmless hharmless (by simp [listAfter])
      | releasing => exact (h.finishReleasing_effect .denied rfl).of_harmless hharmless rfl
      | released | acquired => exact (Tidy.refl h).effect hharmless rfl

end Store

end Msm8916.Agps
