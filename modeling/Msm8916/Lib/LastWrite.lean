import Msm8916.Lib.Transition

/-!
What a cell holds after a list of steps, each of which may write it: the last
value written, or what was there before.
-/

namespace Msm8916

variable {σ ε α : Type*}

/-- The value written last, if any. -/
def lastWrite (write : ε → Option α) (steps : List ε) : Option α :=
  (steps.filterMap write).getLast?

theorem lastWrite_cons (write : ε → Option α) (first : ε) (rest : List ε) :
    lastWrite write (first :: rest) = (lastWrite write rest).or (write first) := by
  rw [lastWrite, lastWrite, List.filterMap_cons]
  cases write first with
  | none => simp
  | some value => cases hrest : rest.filterMap write <;> simp [List.getLast?_cons]

theorem lastWrite_append (write : ε → Option α) (first second : List ε) :
    lastWrite write (first ++ second) = (lastWrite write second).or (lastWrite write first) := by
  induction first with
  | nil => simp [lastWrite]
  | cons step rest ih => rw [List.cons_append, lastWrite_cons, ih, lastWrite_cons, Option.or_assoc]

theorem foldl_lastWrite (cell : σ → α) {step : σ → ε → σ} {write : ε → Option α}
    (hstep : ∀ state label, cell (step state label) = (write label).getD (cell state))
    (state : σ) (steps : List ε) :
    cell (steps.foldl step state) = (lastWrite write steps).getD (cell state) := by
  induction steps generalizing state with
  | nil => rfl
  | cons first rest ih =>
      rw [List.foldl_cons, ih, hstep, lastWrite_cons]
      cases lastWrite write rest with
      | none => rfl
      | some value => rfl

theorem exec_lastWrite (cell : σ → α) {step : σ → ε → Option σ} {write : ε → Option α}
    (hstep : ∀ state label next, step state label = some next →
      cell next = (write label).getD (cell state))
    {state final : σ} {steps : List ε} (hrun : Transition.exec step state steps = some final) :
    cell final = (lastWrite write steps).getD (cell state) := by
  induction steps generalizing state with
  | nil =>
      obtain rfl : state = final := Option.some.inj hrun
      rfl
  | cons first rest ih =>
      obtain ⟨next, hnext, hrest⟩ := Transition.exec_cons_eq_some.mp hrun
      rw [ih hrest, hstep state first next hnext, lastWrite_cons]
      cases lastWrite write rest with
      | none => rfl
      | some value => rfl

theorem mem_of_lastWrite {write : ε → Option α} {steps : List ε} {value : α}
    (h : lastWrite write steps = some value) : ∃ step ∈ steps, write step = some value :=
  List.mem_filterMap.mp (List.mem_of_getLast? h)

theorem lastWrite_eq_none {write : ε → Option α} {steps : List ε} :
    lastWrite write steps = none ↔ ∀ step ∈ steps, write step = none := by
  rw [lastWrite, List.getLast?_eq_none_iff, List.filterMap_eq_nil_iff]

/-- A value is written last exactly if some step writes it and none behind that step writes. -/
theorem lastWrite_eq_some {write : ε → Option α} {steps : List ε} {value : α} :
    lastWrite write steps = some value ↔
      ∃ (i : Nat) (step : ε), steps[i]? = some step ∧ write step = some value ∧
        ∀ (j : Nat) (later : ε), i < j → steps[j]? = some later → write later = none := by
  induction steps with
  | nil => simp [lastWrite]
  | cons first rest ih =>
      rw [lastWrite_cons, Option.or_eq_some_iff, ih]
      constructor
      · rintro (⟨i, step, hstep, hwrite, hrest⟩ | ⟨hnone, hwrite⟩)
        · refine ⟨i + 1, step, hstep, hwrite, fun j later hj hlater => ?_⟩
          cases j with
          | zero => exact absurd hj (Nat.not_lt_zero _)
          | succ j => exact hrest j later (Nat.lt_of_succ_lt_succ hj) hlater
        · refine ⟨0, first, rfl, hwrite, fun j later hj hlater => ?_⟩
          cases j with
          | zero => exact absurd hj (Nat.lt_irrefl 0)
          | succ j => exact lastWrite_eq_none.mp hnone later (List.mem_of_getElem? hlater)
      · rintro ⟨i, step, hstep, hwrite, hrest⟩
        cases i with
        | zero =>
            obtain rfl := Option.some.inj hstep
            refine .inr ⟨lastWrite_eq_none.mpr fun later hlater => ?_, hwrite⟩
            obtain ⟨j, hj⟩ := List.mem_iff_getElem?.mp hlater
            exact hrest (j + 1) later (Nat.succ_pos j) hj
        | succ i =>
            exact .inl ⟨i, step, hstep, hwrite,
              fun j later hj hlater => hrest (j + 1) later (Nat.succ_lt_succ hj) hlater⟩

/-- Steps that do not write may be left out. -/
theorem lastWrite_filter {write : ε → Option α} {p : ε → Bool} {steps : List ε}
    (h : ∀ step ∈ steps, p step = false → write step = none) :
    lastWrite write (steps.filter p) = lastWrite write steps := by
  rw [lastWrite, lastWrite, List.filterMap_filter]
  congr 1
  apply List.filterMap_congr
  intro step hstep
  cases hp : p step with
  | true => simp
  | false => simp [h step hstep hp]

theorem lastWrite_filterMap (write : α → Option σ) (make : ε → Option α) (steps : List ε) :
    lastWrite write (steps.filterMap make) =
      lastWrite (fun step => (make step).bind write) steps := by
  rw [lastWrite, lastWrite, List.filterMap_filterMap]

/-- A cell is in order in the end if the last value written is, or, without one, the
value before. -/
theorem lastWrite_getD_iff {write : ε → Option α} {steps : List ε} {before : α}
    (p : α → Prop) :
    p ((lastWrite write steps).getD before) ↔
      (∃ value, lastWrite write steps = some value ∧ p value) ∨
        (∀ step ∈ steps, write step = none) ∧ p before := by
  rw [← lastWrite_eq_none]
  cases lastWrite write steps with
  | none => simp
  | some value => simp

theorem lastWrite_getD_eq {write : ε → Option α} {steps : List ε} {before : α} :
    (lastWrite write steps).getD before = before ↔
      (∀ step ∈ steps, write step = none) ∨ lastWrite write steps = some before := by
  rw [← lastWrite_eq_none]
  cases lastWrite write steps with
  | none => simp
  | some value => simp

/-- Steps that all write the same value. -/
theorem lastWrite_const {p : ε → Prop} [DecidablePred p] (value : α) (steps : List ε) :
    lastWrite (fun step => if p step then some value else none) steps =
      if ∃ step ∈ steps, p step then some value else none := by
  induction steps with
  | nil => rfl
  | cons first rest ih =>
      rw [lastWrite_cons, ih]
      by_cases hrest : ∃ step ∈ rest, p step
      · have hall : ∃ step ∈ first :: rest, p step := by
          obtain ⟨step, hmem, hp⟩ := hrest
          exact ⟨step, List.mem_cons_of_mem _ hmem, hp⟩
        rw [if_pos hrest, if_pos hall, Option.some_or]
      · have hiff : (∃ step ∈ first :: rest, p step) ↔ p first := by
          constructor
          · rintro ⟨step, hmem, hp⟩
            rcases List.mem_cons.mp hmem with rfl | hmem
            · exact hp
            · exact absurd ⟨step, hmem, hp⟩ hrest
          · exact fun hp => ⟨first, List.mem_cons_self, hp⟩
        rw [if_neg hrest, Option.none_or, if_congr hiff rfl rfl]

end Msm8916
