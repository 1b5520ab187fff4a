import Mathlib.Data.List.Basic

/-!
The list of `gps/utils/linked_list.c` as the state machines use it. A search
hands every datum to a callback that may act on its surroundings, so the
callback threads a state through the walk.
-/

namespace Msm8916.Agps

variable {α σ : Type*}

/-- `linked_list_search`: from the head to the first datum the callback accepts,
which is taken off the list when `rmIfFound` is set. -/
def linkedListSearch (equal : α → σ → σ × Bool) (rmIfFound : Bool) :
    List α → σ → List α × Option α × σ
  | [], state => ([], none, state)
  | data :: next, state =>
      match equal data state with
      | (state, true) => (if rmIfFound then next else data :: next, some data, state)
      | (state, false) =>
          let (rest, found, state) := linkedListSearch equal rmIfFound next state
          (data :: rest, found, state)

/-- Searches with removal until one finds nothing. -/
def searchUntilNone (equal : α → σ → σ × Bool) :
    Nat → List α → σ → List α × σ
  | 0, list, state => (list, state)
  | rounds + 1, list, state =>
      match linkedListSearch equal true list state with
      | (list, none, state) => (list, state)
      | (list, some _, state) => searchUntilNone equal rounds list state

/-- A callback that only looks finds the first datum it accepts. -/
theorem linkedListSearch_pure (accepts : α → Bool) (list : List α) (state : σ) :
    linkedListSearch (fun data state => (state, accepts data)) false list state =
      (list, list.find? accepts, state) := by
  induction list with
  | nil => rfl
  | cons data next ih =>
      rw [linkedListSearch]
      cases hdata : accepts data with
      | true => simp [hdata]
      | false => simp [hdata, ih]

/-- A callback that acts on what concerns it and accepts nothing acts on every
datum that concerns it, in order. -/
theorem linkedListSearch_visit {equal : α → σ → σ × Bool} {concerns : α → Bool}
    {act : α → σ → σ}
    (hequal : ∀ data state,
      equal data state = (if concerns data then act data state else state, false))
    (rmIfFound : Bool) (list : List α) (state : σ) :
    linkedListSearch equal rmIfFound list state =
      (list, none, (list.filter concerns).foldl (fun state data => act data state) state) := by
  induction list generalizing state with
  | nil => rfl
  | cons data next ih =>
      rw [linkedListSearch, hequal]
      cases hdata : concerns data with
      | true => simp [hdata, ih]
      | false => simp [hdata, ih]

/-- A search keeps what its callback keeps. -/
theorem linkedListSearch_preserves {P : σ → Prop} {equal : α → σ → σ × Bool}
    (hequal : ∀ data state, P state → P (equal data state).1) (rmIfFound : Bool)
    (list : List α) {state : σ} (h : P state) :
    P (linkedListSearch equal rmIfFound list state).2.2 := by
  induction list generalizing state with
  | nil => exact h
  | cons data next ih =>
      have hdata := hequal data state h
      rw [linkedListSearch]
      split
      · rename_i heq
        rwa [heq] at hdata
      · rename_i heq
        rw [heq] at hdata
        exact ih hdata

theorem searchUntilNone_preserves {P : σ → Prop} {equal : α → σ → σ × Bool}
    (hequal : ∀ data state, P state → P (equal data state).1) (rounds : Nat)
    (list : List α) {state : σ} (h : P state) :
    P (searchUntilNone equal rounds list state).2 := by
  induction rounds generalizing list state with
  | zero => exact h
  | succ rounds ih =>
      have hsearch := linkedListSearch_preserves hequal true list h
      rw [searchUntilNone]
      split
      · rename_i heq
        rwa [heq] at hsearch
      · rename_i heq
        rw [heq] at hsearch
        exact ih _ hsearch

section Removal

variable {equal : α → σ → σ × Bool} {accepts : α → Bool} {act : α → σ → σ}

/-- The callback acts on exactly the data it accepts. -/
def ActsOnAccepted (equal : α → σ → σ × Bool) (accepts : α → Bool) (act : α → σ → σ) : Prop :=
  ∀ data state,
    equal data state = if accepts data then (act data state, true) else (state, false)

theorem linkedListSearch_remove (hequal : ActsOnAccepted equal accepts act)
    (list : List α) (state : σ) :
    linkedListSearch equal true list state =
      match list.find? accepts with
      | none => (list, none, state)
      | some data => (list.eraseP accepts, some data, act data state) := by
  induction list with
  | nil => rfl
  | cons data next ih =>
      rw [linkedListSearch, hequal]
      cases hdata : accepts data with
      | true => simp [hdata]
      | false =>
          simp only [hdata, List.find?_cons_of_neg, ih, List.eraseP_cons_of_neg,
            Bool.false_eq_true, not_false_eq_true, if_false]
          cases next.find? accepts <;> rfl

/-- A search that finds a datum takes the first accepted one off the list. -/
theorem filter_of_find {list : List α} {data : α} (hfind : list.find? accepts = some data) :
    list.filter accepts = data :: (list.eraseP accepts).filter accepts ∧
      (list.eraseP accepts).filter (fun x => !accepts x) = list.filter (fun x => !accepts x) ∧
      (list.eraseP accepts).length < list.length := by
  induction list with
  | nil => cases hfind
  | cons head next ih =>
      cases hhead : accepts head with
      | true =>
          rw [List.find?_cons_of_pos hhead] at hfind
          obtain rfl := Option.some.inj hfind
          simp [hhead]
      | false =>
          rw [List.find?_cons_of_neg (by simp [hhead])] at hfind
          obtain ⟨haccepted, hrest, hlength⟩ := ih hfind
          simp [hhead, haccepted, hrest, hlength]

/-- The loop removes everything the callback accepts, acting on each once and
in order. -/
theorem searchUntilNone_eq (hequal : ActsOnAccepted equal accepts act) {rounds : Nat}
    {list : List α} (hrounds : list.length < rounds) (state : σ) :
    searchUntilNone equal rounds list state =
      (list.filter (fun x => !accepts x),
        (list.filter accepts).foldl (fun state data => act data state) state) := by
  induction rounds generalizing list state with
  | zero => exact absurd hrounds (Nat.not_lt_zero _)
  | succ rounds ih =>
      rw [searchUntilNone, linkedListSearch_remove hequal]
      cases hfind : list.find? accepts with
      | none =>
          have hnone : ∀ x ∈ list, accepts x = false := by
            simpa [List.find?_eq_none] using hfind
          have hkept : list.filter (fun x => !accepts x) = list :=
            List.filter_eq_self.mpr fun x hx => by simp [hnone x hx]
          have hempty : list.filter accepts = [] :=
            List.filter_eq_nil_iff.mpr fun x hx => by simp [hnone x hx]
          rw [hkept, hempty]
          rfl
      | some data =>
          obtain ⟨haccepted, hrest, hlength⟩ := filter_of_find hfind
          have hless : (list.eraseP accepts).length < rounds := by omega
          dsimp only
          rw [ih hless, hrest, haccepted, List.foldl_cons]

end Removal

end Msm8916.Agps
