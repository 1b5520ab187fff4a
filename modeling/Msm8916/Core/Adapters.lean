import Mathlib.Data.Finset.Card
import Msm8916.Core.LocApiBase

/-!
The array of adapters over whole sequences of calls. Its occupied slots come first and hold
the live adapters, each once, so that the loops reach all of them.
-/

namespace Msm8916.Core

open Compact Transition

variable {α σ : Type*}

/-! ## What the loops do -/

/-- The adapters are tried in order until one handles the call. -/
def firstHandling (call : σ → α → σ × Bool) : List α → σ → σ
  | [], state => state
  | adapter :: rest, state =>
      let (state, handled) := call state adapter
      if handled then state else firstHandling call rest state

theorem toAllFrom_slotsOf (call : σ → α → σ) (size : Nat) (order : List α)
    (remaining i : Nat) (state : σ) :
    toAllFrom call (slotsOf size order) remaining i state =
      ((order.drop i).take remaining).foldl call state := by
  induction remaining generalizing i state with
  | zero => rfl
  | succ remaining ih =>
      rw [toAllFrom, slot_slotsOf]
      rcases Nat.lt_or_ge i order.length with hin | hout
      · rw [List.getElem?_eq_getElem hin, List.drop_eq_getElem_cons hin, List.take_succ_cons,
          List.foldl_cons]
        exact ih (i + 1) (call state order[i])
      · rw [List.getElem?_eq_none hout, List.drop_eq_nil_of_le hout]
        rfl

theorem toFirstFrom_slotsOf (call : σ → α → σ × Bool) (size : Nat) (order : List α)
    (remaining i : Nat) (state : σ) :
    toFirstFrom call (slotsOf size order) remaining i state =
      firstHandling call ((order.drop i).take remaining) state := by
  induction remaining generalizing i state with
  | zero => rfl
  | succ remaining ih =>
      rw [toFirstFrom, slot_slotsOf]
      rcases Nat.lt_or_ge i order.length with hin | hout
      · rw [List.getElem?_eq_getElem hin, List.drop_eq_getElem_cons hin, List.take_succ_cons,
          firstHandling]
        dsimp only
        rw [ih]
      · rw [List.getElem?_eq_none hout, List.drop_eq_nil_of_le hout]
        rfl

/-- The array holds the adapters, each once, in this order. -/
structure Keeps (api : LocApiBase α) (order : List α) : Prop where
  slots : api.mLocAdapters = slotsOf maxAdapters order
  room : order.length ≤ maxAdapters
  nodup : order.Nodup

namespace Keeps

variable {api : LocApiBase α} {order : List α}

theorem toAll (h : Keeps api order) (call : σ → α → σ) (state : σ) :
    toAllAdapters call api.mLocAdapters state = order.foldl call state := by
  rw [toAllAdapters, h.slots, toAllFrom_slotsOf, List.drop_zero, List.take_of_length_le h.room]

theorem toFirst (h : Keeps api order) (call : σ → α → σ × Bool) (state : σ) :
    toFirstHandlingAdapter call api.mLocAdapters state = firstHandling call order state := by
  rw [toFirstHandlingAdapter, h.slots, toFirstFrom_slotsOf, List.drop_zero,
    List.take_of_length_le h.room]

variable [DecidableEq α]

theorem card (h : Keeps api order) : order.toFinset.card = order.length :=
  List.toFinset_card_of_nodup h.nodup

/-- The masks may be put together in any order. -/
theorem getEvtMask (h : Keeps api order) (evtMask : α → EventMask) :
    api.getEvtMask evtMask =
      masksOf order.toFinset evtMask &&& ~~~api.mExcludedMask := by
  have hval : order.toFinset.val = (order : Multiset α) := by
    rw [List.toFinset_val, h.nodup.dedup]
  rw [LocApiBase.getEvtMask, h.toAll]
  unfold masksOf Finset.fold
  rw [hval, Multiset.map_coe, Multiset.coe_fold_l, List.foldl_map]

end Keeps

/-! ## Adding an adapter -/

section Add

variable [DecidableEq α] {evtMask : α → EventMask} {adapter : α} {api : LocApiBase α}
  {order : List α}

/-- An adapter in the array is found before its end. -/
theorem addFrom_of_mem (h : Keeps api order) {remaining i : Nat}
    (hmem : adapter ∈ order.drop i) : api.addFrom evtMask adapter remaining i = api := by
  induction remaining generalizing i with
  | zero => rfl
  | succ remaining ih =>
      rw [LocApiBase.addFrom, h.slots, slot_slotsOf]
      have hin : i < order.length := by
        by_contra hout
        rw [List.drop_eq_nil_of_le (Nat.le_of_not_lt hout)] at hmem
        cases hmem
      rw [List.drop_eq_getElem_cons hin] at hmem
      rw [List.getElem?_eq_getElem hin, if_neg (Option.some_ne_none _)]
      split
      · rfl
      · rename_i hne
        rcases List.mem_cons.mp hmem with rfl | hrest
        · exact absurd rfl hne
        · exact ih hrest

/-- A new adapter goes behind the last one. -/
theorem addFrom_of_not_mem (h : Keeps api order) (hnot : adapter ∉ order)
    (hroom : order.length < maxAdapters) {remaining i : Nat} (hi : i ≤ order.length)
    (hremaining : order.length < i + remaining) :
    api.addFrom evtMask adapter remaining i =
      { api with mLocAdapters := slotsOf maxAdapters (order ++ [adapter]) }.emit
        (.sendOpen (evtMask adapter)) := by
  induction remaining generalizing i with
  | zero => omega
  | succ remaining ih =>
      rw [LocApiBase.addFrom, h.slots, slot_slotsOf]
      rcases Nat.lt_or_eq_of_le hi with hin | rfl
      · have hne : order[i] ≠ adapter := by
          rintro rfl
          exact hnot (List.getElem_mem hin)
        rw [List.getElem?_eq_getElem hin, if_neg (fun heq => hne (Option.some.inj heq)),
          if_neg (Option.some_ne_none _)]
        exact ih hin (by omega)
      · rw [List.getElem?_eq_none (Nat.le_refl _), if_neg nofun, if_pos rfl,
          set_slotsOf_end hroom]

end Add

/-! ## Removing an adapter -/

theorem slot_set_of_ne {slots : List (Option α)} {j k : Nat} (h : k ≠ j) (value : Option α) :
    slot (slots.set j value) k = slot slots k := by
  rw [slot, slot, List.getD_eq_getElem?_getD, List.getD_eq_getElem?_getD,
    List.getElem?_set_ne (Ne.symm h)]

/-- The scan behind the hole stops at the end of the adapters. -/
theorem endFrom_eq {adapters : List (Option α)} {order : List α}
    (hroom : order.length ≤ maxAdapters) {remaining i : Nat}
    (hslots : ∀ k, i < k → slot adapters k = order[k]?) (hi : i < order.length)
    (hremaining : order.length ≤ i + remaining) :
    LocApiBase.endFrom adapters remaining i = order.length := by
  induction remaining generalizing i with
  | zero => omega
  | succ remaining ih =>
      rw [LocApiBase.endFrom, hslots (i + 1) (Nat.lt_succ_self i)]
      rcases Nat.lt_or_ge (i + 1) order.length with hin | hend
      · rw [List.getElem?_eq_getElem hin, if_pos ⟨by omega, Option.some_ne_none _⟩]
        exact ih (fun k hk => hslots k (by omega)) hin (by omega)
      · rw [List.getElem?_eq_none hend, if_neg (fun h => h.2 rfl)]
        omega

section Remove

variable {evtMask : α → EventMask} {adapter : α} {api : LocApiBase α} {front : List α} {last : α}
  {j : Nat}

/-- The last adapter moves into the place of the one that goes. -/
theorem Keeps.removed (h : Keeps api (front ++ [last])) (hj : (front ++ [last])[j]? = some adapter)
    (effects : List Effect) :
    Keeps { api with mLocAdapters := slotsOf maxAdapters (front.set j last), effects }
      (front.set j last) where
  slots := rfl
  room := by
    have hroom := h.room
    rw [List.length_append, List.length_singleton] at hroom
    rw [List.length_set]
    omega
  nodup := nodup_set h.nodup hj

variable [DecidableEq α]

theorem toFinset_removed (h : Keeps api (front ++ [last]))
    (hj : (front ++ [last])[j]? = some adapter) :
    (front.set j last).toFinset = (front ++ [last]).toFinset.erase adapter := by
  ext b
  rw [List.mem_toFinset, mem_set_iff h.nodup hj, Finset.mem_erase, List.mem_toFinset, and_comm]

/-- What the removal leaves, and what it sends or calls. -/
theorem removeAt_eq (h : Keeps api (front ++ [last])) (hj : (front ++ [last])[j]? = some adapter) :
    api.removeAt evtMask j =
      ({ api with
          mLocAdapters := slotsOf maxAdapters (front.set j last)
          effects := api.effects ++
            (Call.remove adapter evtMask).effects api.mExcludedMask (front ++ [last]).toFinset },
        front.length) := by
  have hroom := h.room
  have hinside := (List.getElem?_eq_some_iff.mp hj).1
  have hjlt := hinside
  rw [List.length_append, List.length_singleton] at hroom hjlt
  have hend :
      LocApiBase.endFrom (api.mLocAdapters.set j none) maxAdapters j = front.length + 1 := by
    have hlength : (front ++ [last]).length = front.length + 1 := by
      rw [List.length_append, List.length_singleton]
    rw [← hlength]
    refine endFrom_eq h.room (fun k hk => ?_) (by omega) (by omega)
    rw [slot_set_of_ne (Nat.ne_of_gt hk), h.slots, slot_slotsOf]
  -- the hole is filled, unless it is where the last adapter was
  have hslots : ((api.mLocAdapters.set j none).set j
      (slot (api.mLocAdapters.set j none) front.length)).set front.length none =
        slotsOf maxAdapters (front.set j last) := by
    rw [h.slots]
    rcases Nat.lt_or_eq_of_le (Nat.lt_succ_iff.mp hjlt) with hin | rfl
    · have hlast : slot ((slotsOf maxAdapters (front ++ [last])).set j none) front.length =
          some last := by
        rw [slot_set_of_ne (Nat.ne_of_gt hin), slot_slotsOf, List.getElem?_concat_length]
      have hmoved : (front ++ [last]).set j last = front.set j last ++ [last] :=
        List.set_append_left _ _ hin
      have hfront : (front.set j last).length = front.length := List.length_set
      rw [hlast, List.set_set, set_slotsOf_inside hinside, hmoved, ← hfront,
        set_slotsOf_last (by omega)]
    · rw [List.set_set, List.set_set, set_slotsOf_last (by omega),
        List.set_eq_of_length_le (Nat.le_refl _)]
  have hmem : adapter ∈ (front ++ [last]).toFinset :=
    List.mem_toFinset.mpr (List.mem_of_getElem? hj)
  have hempties : (front ++ [last]).toFinset = {adapter} ↔ front.length = 0 := by
    rw [List.length_eq_zero_iff]
    constructor
    · intro honly
      have hcard := h.card
      rw [honly, Finset.card_singleton, List.length_append, List.length_singleton] at hcard
      exact List.length_eq_zero_iff.mp (Nat.succ_inj.mp hcard).symm
    · rintro rfl
      rw [List.nil_append] at hmem ⊢
      rw [List.mem_toFinset.mp hmem |> List.mem_singleton.mp]
      rfl
  have hmask := (h.removed hj api.effects).getEvtMask evtMask
  rw [toFinset_removed h hj] at hmask
  unfold LocApiBase.removeAt
  dsimp only
  rw [hend, Nat.add_sub_cancel, hslots, Call.effects, if_pos hmem, if_congr hempties rfl rfl]
  split
  · rfl
  · rw [← hmask]
    rfl

/-- An adapter that is not in the array is not found. -/
theorem removeFrom_of_not_mem {order : List α} (h : Keeps api order) (hnot : adapter ∉ order)
    {fuel i : Nat} (hpos : 0 < fuel) (hfuel : order.length < i + fuel) :
    api.removeFrom evtMask adapter fuel i = some api := by
  induction fuel generalizing i with
  | zero => omega
  | succ fuel ih =>
      have hroom := h.room
      rw [LocApiBase.removeFrom, h.slots, slot_slotsOf]
      rcases Nat.lt_or_ge i order.length with hin | hout
      · have hne : order[i] ≠ adapter := by
          rintro rfl
          exact hnot (List.getElem_mem hin)
        rw [List.getElem?_eq_getElem hin, if_pos ⟨by omega, Option.some_ne_none _⟩,
          if_neg (fun heq => hne (Option.some.inj heq))]
        exact ih (by omega) (by omega)
      · rw [List.getElem?_eq_none hout, if_neg (fun hloop => hloop.2 rfl)]

/-- The loop passes the adapters before the one that goes, and ends behind the last. -/
theorem removeFrom_of_mem (h : Keeps api (front ++ [last]))
    (hj : (front ++ [last])[j]? = some adapter)
    {fuel i : Nat} (hi : i ≤ j) (hfuel : front.length + 1 < i + fuel) :
    api.removeFrom evtMask adapter fuel i =
      some { api with
        mLocAdapters := slotsOf maxAdapters (front.set j last)
        effects := api.effects ++
          (Call.remove adapter evtMask).effects api.mExcludedMask (front ++ [last]).toFinset } := by
  have hroom := h.room
  obtain ⟨hjlt, hget⟩ := List.getElem?_eq_some_iff.mp hj
  have hjle := hjlt
  rw [List.length_append, List.length_singleton] at hroom hjle
  induction fuel generalizing i with
  | zero => omega
  | succ fuel ih =>
      rw [LocApiBase.removeFrom, h.slots, slot_slotsOf]
      have hin : i < (front ++ [last]).length := Nat.lt_of_le_of_lt hi hjlt
      rw [List.getElem?_eq_getElem hin, if_pos ⟨by omega, Option.some_ne_none _⟩]
      rcases Nat.lt_or_eq_of_le hi with hbefore | rfl
      · have hne : (front ++ [last])[i] ≠ adapter := by
          rw [← hget]
          exact fun heq => Nat.ne_of_lt hbefore ((h.nodup.getElem_inj_iff).mp heq)
        rw [if_neg (fun heq => hne (Option.some.inj heq))]
        exact ih hbefore (by omega)
      · rw [if_pos (congrArg some hget), removeAt_eq h hj]
        have hgone := (List.nodup_cons.mp ((perm_cons_set hj).nodup_iff.mpr h.nodup)).1
        have hset : (front.set i last).length = front.length := List.length_set
        exact removeFrom_of_not_mem (h.removed hj _) hgone (by omega) (by omega)

end Remove

/-! ## Whole sequences of calls -/

section Runs

variable [DecidableEq α] {api : LocApiBase α} {order : List α}

/-- A call that leaves no more live adapters than there are slots. -/
theorem Keeps.step (h : Keeps api order) (call : Call α)
    (hlive : (call.live order.toFinset).card ≤ maxAdapters) :
    ∃ next order', Core.step api call = some next ∧ Keeps next order' ∧
      order'.toFinset = call.live order.toFinset ∧ next.mExcludedMask = api.mExcludedMask ∧
      next.effects = api.effects ++ call.effects api.mExcludedMask order.toFinset := by
  cases call with
  | add adapter evtMask =>
      by_cases hmem : adapter ∈ order
      · have hin := List.mem_toFinset.mpr hmem
        refine ⟨api, order, ?_, h, (Finset.insert_eq_of_mem hin).symm, rfl, ?_⟩
        · exact congrArg some (addFrom_of_mem h hmem)
        · rw [Call.effects, if_pos hin, List.append_nil]
      · have hnot : adapter ∉ order.toFinset := fun hin => hmem (List.mem_toFinset.mp hin)
        have hroom : order.length < maxAdapters := by
          rw [Call.live, Finset.card_insert_of_notMem hnot, h.card] at hlive
          exact hlive
        refine ⟨_, order ++ [adapter], congrArg some (addFrom_of_not_mem h hmem hroom
          (Nat.zero_le _) (by omega)), ⟨rfl, ?_, ?_⟩, ?_, rfl, ?_⟩
        · rw [List.length_append]
          exact hroom
        · exact (List.perm_append_singleton adapter order).nodup_iff.mpr
            (List.nodup_cons.mpr ⟨hmem, h.nodup⟩)
        · ext other
          simp [Call.live]
        · rw [Call.effects, if_neg hnot]
          rfl
  | remove adapter evtMask =>
      by_cases hmem : adapter ∈ order
      · rcases List.eq_nil_or_concat' order with rfl | ⟨front, last, rfl⟩
        · cases hmem
        · obtain ⟨j, hj⟩ := List.mem_iff_getElem?.mp hmem
          have hroom := h.room
          rw [List.length_append, List.length_singleton] at hroom
          exact ⟨_, front.set j last, removeFrom_of_mem h hj (Nat.zero_le j) (by omega),
            h.removed hj _, toFinset_removed h hj, rfl, rfl⟩
      · have hnot : adapter ∉ order.toFinset := fun hin => hmem (List.mem_toFinset.mp hin)
        have hroom := h.room
        refine ⟨api, order, removeFrom_of_not_mem h hmem (by decide) (by omega), h,
          (Finset.erase_eq_of_notMem hnot).symm, rfl, ?_⟩
        rw [Call.effects, if_neg hnot, List.append_nil]

theorem live_append_singleton (calls : List (Call α)) (call : Call α) :
    live (calls ++ [call]) = call.live (live calls) := by
  rw [live, List.foldl_append]
  rfl

/-- The array after a sequence of calls with enough slots for the live adapters. -/
theorem exec_keeps (excludedMask : EventMask) (calls : List (Call α))
    (hlive : ∀ before, before <+: calls → (live before).card ≤ maxAdapters) :
    ∃ api order, exec step (constructed excludedMask) calls = some api ∧ Keeps api order ∧
      order.toFinset = live calls ∧ api.mExcludedMask = excludedMask := by
  induction calls using List.reverseRecOn with
  | nil =>
      have hempty : Keeps (constructed excludedMask) ([] : List α) :=
        ⟨rfl, Nat.zero_le _, List.nodup_nil⟩
      exact ⟨_, [], rfl, hempty, rfl, rfl⟩
  | append_singleton calls call ih =>
      obtain ⟨api, order, hrun, hkeeps, hlive', hmask⟩ :=
        ih fun before hbefore => hlive before (hbefore.trans (List.prefix_append _ _))
      have hcard := hlive _ (List.prefix_refl _)
      rw [live_append_singleton, ← hlive'] at hcard
      obtain ⟨next, order', hstep, hnext, hset, hmask', -⟩ := hkeeps.step call hcard
      refine ⟨next, order', ?_, hnext, ?_, hmask'.trans hmask⟩
      · rw [exec_append, hrun]
        simp [hstep]
      · rw [live_append_singleton, hset, hlive']

/-- What a call sends and calls in a sequence. -/
theorem exec_effects (excludedMask : EventMask) {before after : List (Call α)} {call : Call α}
    (hlive : ∀ first, first <+: before ++ call :: after → (live first).card ≤ maxAdapters) :
    ∃ api next, exec step (constructed excludedMask) before = some api ∧
      Core.step api call = some next ∧
      next.effects = api.effects ++ call.effects excludedMask (live before) := by
  obtain ⟨api, order, hrun, hkeeps, hset, hmask⟩ := exec_keeps excludedMask before
    fun first hfirst => hlive first (hfirst.trans (List.prefix_append _ _))
  have hcard := hlive (before ++ [call]) ⟨after, List.append_assoc _ _ _⟩
  rw [live_append_singleton, ← hset] at hcard
  obtain ⟨next, -, hstep, -, -, -, heffects⟩ := hkeeps.step call hcard
  refine ⟨api, next, hrun, hstep, ?_⟩
  rw [heffects, hmask, hset]

end Runs

/-- The adapters of a sequence of calls: the array, what the loops reach, the mask, and what
each call sends and calls. -/
structure AdaptersRight [DecidableEq α] (excludedMask : EventMask) (calls : List (Call α))
    (api : LocApiBase α) (order : List α) : Prop where
  slots : api.mLocAdapters = slotsOf maxAdapters order
  nodup : order.Nodup
  live : ∀ adapter, adapter ∈ order ↔ adapter ∈ live calls
  all : ∀ (σ : Type) (call : σ → α → σ) (state : σ),
    toAllAdapters call api.mLocAdapters state = order.foldl call state
  first : ∀ (σ : Type) (call : σ → α → σ × Bool) (state : σ),
    toFirstHandlingAdapter call api.mLocAdapters state = firstHandling call order state
  mask : ∀ evtMask, api.getEvtMask evtMask = masksOf (Core.live calls) evtMask &&& ~~~excludedMask
  closes : ∀ before call after, calls = before ++ call :: after →
    ∃ earlier later, exec step (constructed excludedMask) before = some earlier ∧
      step earlier call = some later ∧
      later.effects = earlier.effects ++ call.effects excludedMask (Core.live before)

/-- In every sequence of calls with at most `MAX_ADAPTERS` live adapters the loops reach all of
them, each once, and `close` is called exactly when a removal leaves none. -/
theorem adapter_array_right [DecidableEq α] (excludedMask : EventMask) (calls : List (Call α))
    (hlive : ∀ before, before <+: calls → (live before).card ≤ maxAdapters) :
    ∃ api order, exec step (constructed excludedMask) calls = some api ∧
      AdaptersRight excludedMask calls api order := by
  obtain ⟨api, order, hrun, hkeeps, hset, hmask⟩ := exec_keeps excludedMask calls hlive
  refine ⟨api, order, hrun, hkeeps.slots, hkeeps.nodup, fun adapter => ?_,
    fun _ call state => hkeeps.toAll call state, fun _ call state => hkeeps.toFirst call state,
    fun evtMask => ?_, ?_⟩
  · rw [← hset, List.mem_toFinset]
  · rw [hkeeps.getEvtMask, hset, hmask]
  · rintro before call after rfl
    exact exec_effects excludedMask hlive

/-- Two adapters, of which the first is removed and then the other. -/
theorem adapter_array_right_two :
    ∃ api order, exec step (constructed 0xff)
        [.add 1 fun _ => 3, .add 2 fun _ => 5, .remove 1 fun _ => 5, .remove 2 fun _ => 5] =
          some api ∧
      AdaptersRight 0xff
        [.add 1 fun _ => 3, .add 2 fun _ => 5, .remove 1 fun _ => 5, .remove 2 fun _ => 5]
        api order :=
  adapter_array_right 0xff _ fun before hbefore => by
    have hall : ∀ before ∈ ([.add 1 fun _ => 3, .add 2 fun _ => 5, .remove 1 fun _ => 5,
        .remove 2 fun _ => 5] : List (Call Nat)).inits, (live before).card ≤ maxAdapters := by
      decide
    exact hall before ((List.mem_inits _ _).mpr hbefore)

end Msm8916.Core
