import Mathlib.Data.List.Basic

/-!
Finite runs of partial labelled transition systems. `step state label` is the
successor of `state` under `label`, or `none` when the label is not enabled
there. The rules below turn a fact about one step into a fact about every run,
with or without a condition that each step of the run has to meet.
-/

namespace Msm8916.Transition

variable {σ ε : Type*}

/-- Execute the labels in order; `none` if one of them is not enabled. -/
def exec (step : σ → ε → Option σ) : σ → List ε → Option σ
  | state, [] => some state
  | state, label :: labels => (step state label).bind fun next => exec step next labels

@[simp]
theorem exec_nil (step : σ → ε → Option σ) (state : σ) :
    exec step state [] = some state := rfl

@[simp]
theorem exec_cons (step : σ → ε → Option σ) (state : σ) (label : ε) (labels : List ε) :
    exec step state (label :: labels) =
      (step state label).bind fun next => exec step next labels := rfl

theorem exec_cons_eq_some {step : σ → ε → Option σ} {state final : σ}
    {label : ε} {labels : List ε} :
    exec step state (label :: labels) = some final ↔
      ∃ next, step state label = some next ∧ exec step next labels = some final := by
  simp [Option.bind_eq_some_iff]

theorem exec_append (step : σ → ε → Option σ) (state : σ) (first second : List ε) :
    exec step state (first ++ second) =
      (exec step state first).bind fun middle => exec step middle second := by
  induction first generalizing state with
  | nil => rfl
  | cons label labels ih =>
      simp only [List.cons_append, exec_cons]
      cases step state label with
      | none => rfl
      | some next => exact ih next

/-- When every label is enabled everywhere, a run is a fold. -/
theorem exec_total (f : σ → ε → σ) (state : σ) (labels : List ε) :
    exec (fun state label => some (f state label)) state labels = some (labels.foldl f state) := by
  induction labels generalizing state with
  | nil => rfl
  | cons label labels ih => exact ih (f state label)

/-- `state` is reached from `init` by some finite run. -/
def Reachable (step : σ → ε → Option σ) (init state : σ) : Prop :=
  ∃ labels, exec step init labels = some state

theorem Reachable.next {step : σ → ε → Option σ} {init state next : σ} {label : ε}
    (h : Reachable step init state) (hstep : step state label = some next) :
    Reachable step init next := by
  obtain ⟨labels, hrun⟩ := h
  refine ⟨labels ++ [label], ?_⟩
  rw [exec_append, hrun]
  simp [hstep]

/-- `Along step P state labels`: every step the run takes meets `P`, where `P`
sees the state before the step and its label. -/
def Along (step : σ → ε → Option σ) (P : σ → ε → Prop) : σ → List ε → Prop
  | _, [] => True
  | state, label :: labels =>
      P state label ∧ ∀ next, step state label = some next → Along step P next labels

instance decidableAlong (step : σ → ε → Option σ) (P : σ → ε → Prop)
    [∀ state label, Decidable (P state label)] :
    ∀ state labels, Decidable (Along step P state labels)
  | _, [] => isTrue trivial
  | state, label :: labels =>
      match hnext : step state label with
      | none => decidable_of_iff (P state label) (by simp [Along, hnext])
      | some next =>
          have := decidableAlong step P next labels
          decidable_of_iff (P state label ∧ Along step P next labels) (by simp [Along, hnext])

theorem along_of_forall {step : σ → ε → Option σ} {P : σ → ε → Prop} {labels : List ε}
    (h : ∀ label ∈ labels, ∀ state, P state label) (state : σ) : Along step P state labels := by
  induction labels generalizing state with
  | nil => trivial
  | cons label labels ih =>
      refine ⟨h label List.mem_cons_self state, fun next _ => ?_⟩
      exact ih (fun other hother => h other (List.mem_cons_of_mem label hother)) next

/-- A predicate that one step preserves, under the condition the run meets at
each step, holds at the end of the run. -/
theorem invariant_of_along {step : σ → ε → Option σ} {C : σ → ε → Prop}
    {I : σ → Prop}
    (hstep : ∀ state label next, I state → C state label →
      step state label = some next → I next)
    {init final : σ} {labels : List ε} (hinit : I init)
    (hcond : Along step C init labels)
    (hrun : exec step init labels = some final) : I final := by
  induction labels generalizing init with
  | nil =>
      obtain rfl : init = final := Option.some.inj hrun
      exact hinit
  | cons label labels ih =>
      obtain ⟨next, hnext, hrest⟩ := exec_cons_eq_some.mp hrun
      obtain ⟨hlabel, hafter⟩ := hcond
      exact ih (hstep init label next hinit hlabel hnext) (hafter next hnext) hrest

/-- The unconditional rule: one step preserves `I`, so every reachable state
has it. -/
theorem invariant_of_step {step : σ → ε → Option σ} {I : σ → Prop}
    (hstep : ∀ state label next, I state → step state label = some next → I next)
    {init state : σ} (hinit : I init) (hreach : Reachable step init state) :
    I state := by
  obtain ⟨labels, hrun⟩ := hreach
  induction labels generalizing init with
  | nil =>
      obtain rfl : init = state := Option.some.inj hrun
      exact hinit
  | cons label labels ih =>
      obtain ⟨next, hnext, hrest⟩ := exec_cons_eq_some.mp hrun
      exact ih (hstep init label next hinit hnext) hrest

/-- The simulation rule: when every step of one system is a step of another or
leaves it where it is, every reachable state of the first is related to a
reachable state of the second. -/
theorem Reachable.simulated {τ κ : Type*} {step : σ → ε → Option σ}
    {moves : τ → κ → Option τ} {R : σ → τ → Prop}
    (hstep : ∀ state label next other, R state other → step state label = some next →
      ∃ after, R next after ∧ (after = other ∨ ∃ move, moves other move = some after))
    {init state : σ} {start : τ} (hinit : R init start)
    (h : Reachable step init state) :
    ∃ other, Reachable moves start other ∧ R state other := by
  refine invariant_of_step (I := fun state => ∃ other, Reachable moves start other ∧
    R state other) ?_ ⟨start, ⟨[], rfl⟩, hinit⟩ h
  rintro state label next ⟨other, hreach, hrelated⟩ hnext
  obtain ⟨after, hafter, heq | ⟨move, hmove⟩⟩ := hstep state label next other hrelated hnext
  · exact ⟨after, heq ▸ hreach, hafter⟩
  · exact ⟨after, hreach.next hmove, hafter⟩

/-- A condition on the steps of a run that implies another under an invariant
which the steps that meet it keep. -/
theorem Along.imp {step : σ → ε → Option σ} {P Q : σ → ε → Prop} {I : σ → Prop}
    (hstep : ∀ state label next, I state → P state label →
      step state label = some next → I next ∧ Q state label)
    {init final : σ} {labels : List ε} (hinit : I init)
    (hrun : exec step init labels = some final) (h : Along step P init labels) :
    Along step Q init labels := by
  induction labels generalizing init with
  | nil => trivial
  | cons label labels ih =>
      obtain ⟨next, hnext, hrest⟩ := exec_cons_eq_some.mp hrun
      obtain ⟨hkept, hlabel⟩ := hstep init label next hinit h.1 hnext
      refine ⟨hlabel, fun other hother => ?_⟩
      obtain rfl : next = other := Option.some.inj (hnext.symm.trans hother)
      exact ih hkept hrest (h.2 next hnext)

/-- When a label is enabled exactly if it meets `P`, a run is possible exactly if all of
its steps meet `P`. -/
theorem exec_isSome_iff {step : σ → ε → Option σ} {P : σ → ε → Prop}
    (hstep : ∀ state label, (step state label).isSome ↔ P state label) (state : σ)
    (labels : List ε) : (exec step state labels).isSome ↔ Along step P state labels := by
  induction labels generalizing state with
  | nil => exact iff_of_true rfl trivial
  | cons label labels ih =>
      rw [exec_cons, Along, ← hstep]
      cases step state label with
      | none => simp
      | some next => simpa using ih next

/-- What the rest of a run meets, from the state its first part reaches. -/
theorem Along.of_append {step : σ → ε → Option σ} {P : σ → ε → Prop} {init middle : σ}
    {first second : List ε} (h : Along step P init (first ++ second))
    (hrun : exec step init first = some middle) : Along step P middle second := by
  induction first generalizing init with
  | nil =>
      obtain rfl : init = middle := Option.some.inj hrun
      exact h
  | cons label labels ih =>
      obtain ⟨next, hnext, hrest⟩ := exec_cons_eq_some.mp hrun
      exact ih (h.2 next hnext) hrest

/-- Two conditions that agree under an invariant, which the steps that meet them
keep, hold along the same runs. -/
theorem along_congr {step : σ → ε → Option σ} {P Q : σ → ε → Prop} {I : σ → Prop}
    (hstep : ∀ state label next, I state → P state label →
      step state label = some next → I next)
    (hiff : ∀ state label, I state → (P state label ↔ Q state label))
    {init : σ} (hinit : I init) (labels : List ε) :
    Along step P init labels ↔ Along step Q init labels := by
  induction labels generalizing init with
  | nil => exact Iff.rfl
  | cons label labels ih =>
      rw [Along, Along, ← hiff init label hinit]
      apply and_congr_right
      intro hlabel
      exact forall_congr' fun next => forall_congr' fun hnext =>
        ih (hstep init label next hinit hlabel hnext)

/-- When a step keeps `Good` exactly if it meets `P`, a run keeps `Good`
exactly if all of its steps meet `P`. -/
theorem along_iff_of_step {step : σ → ε → Option σ} {P : σ → ε → Prop}
    {I Good : σ → Prop}
    (hstep : ∀ state label next, I state → step state label = some next → I next)
    (hgood : ∀ state label next, I state → step state label = some next →
      (Good next ↔ Good state ∧ P state label))
    {init final : σ} {labels : List ε} (hinit : I init)
    (hrun : exec step init labels = some final) :
    Good final ↔ Good init ∧ Along step P init labels := by
  induction labels generalizing init with
  | nil =>
      obtain rfl : init = final := Option.some.inj hrun
      exact (and_iff_left trivial).symm
  | cons label labels ih =>
      obtain ⟨next, hnext, hrest⟩ := exec_cons_eq_some.mp hrun
      have hafter : Along step P init (label :: labels) ↔
          P init label ∧ Along step P next labels := by
        simp [Along, hnext]
      rw [ih (hstep init label next hinit hnext) hrest, hgood init label next hinit hnext,
        hafter, and_assoc]

/-- Every state of the run is `Good`, the first and the last included. -/
def Always (step : σ → ε → Option σ) (Good : σ → Prop) (init : σ) (labels : List ε) : Prop :=
  ∀ before, before <+: labels → ∀ state, exec step init before = some state → Good state

theorem always_cons_iff {step : σ → ε → Option σ} {Good : σ → Prop} {init next : σ} {label : ε}
    {labels : List ε} (hnext : step init label = some next) :
    Always step Good init (label :: labels) ↔ Good init ∧ Always step Good next labels := by
  constructor
  · intro h
    refine ⟨h [] List.nil_prefix init rfl, fun before hbefore state hrun => ?_⟩
    apply h (label :: before) ((List.prefix_cons_inj label).mpr hbefore) state
    rw [exec_cons, hnext]
    exact hrun
  · rintro ⟨hinit, hrest⟩ before hbefore state hrun
    cases before with
    | nil =>
        obtain rfl : init = state := Option.some.inj hrun
        exact hinit
    | cons first before =>
        obtain ⟨rfl, hlabels⟩ := List.cons_prefix_cons.mp hbefore
        rw [exec_cons, hnext] at hrun
        exact hrest before hlabels state hrun

/-- When a step from a `Good` state leads to a `Good` one exactly if it meets `P`, all
states of a run are `Good` exactly if all of its steps meet `P`. The invariant need be kept
by the steps between `Good` states only. -/
theorem always_iff_of_good_step {step : σ → ε → Option σ} {P : σ → ε → Prop}
    {I Good : σ → Prop}
    (hstep : ∀ state label next, I state → Good state → P state label →
      step state label = some next → I next)
    (hgood : ∀ state label next, I state → Good state → step state label = some next →
      (Good next ↔ P state label))
    {init final : σ} {labels : List ε} (hinit : I init) (hstart : Good init)
    (hrun : exec step init labels = some final) :
    Always step Good init labels ↔ Along step P init labels := by
  induction labels generalizing init with
  | nil =>
      refine iff_of_true (fun before hbefore state hstate => ?_) trivial
      obtain rfl := List.prefix_nil.mp hbefore
      obtain rfl : init = state := Option.some.inj hstate
      exact hstart
  | cons label labels ih =>
      obtain ⟨next, hnext, hrest⟩ := exec_cons_eq_some.mp hrun
      have hafter : Along step P init (label :: labels) ↔
          P init label ∧ Along step P next labels := by
        simp [Along, hnext]
      have hiff := hgood init label next hinit hstart hnext
      rw [always_cons_iff hnext, hafter, and_iff_right hstart]
      constructor
      · intro hall
        have hkept := hall [] List.nil_prefix next rfl
        have hmet := hiff.mp hkept
        exact ⟨hmet, (ih (hstep init label next hinit hstart hmet hnext) hkept hrest).mp hall⟩
      · rintro ⟨hmet, hall⟩
        exact (ih (hstep init label next hinit hstart hmet hnext) (hiff.mpr hmet) hrest).mpr hall

/-- The same for an invariant that every step keeps. -/
theorem always_iff_of_step {step : σ → ε → Option σ} {P : σ → ε → Prop} {I Good : σ → Prop}
    (hstep : ∀ state label next, I state → step state label = some next → I next)
    (hgood : ∀ state label next, I state → Good state → step state label = some next →
      (Good next ↔ P state label))
    {init final : σ} {labels : List ε} (hinit : I init) (hstart : Good init)
    (hrun : exec step init labels = some final) :
    Always step Good init labels ↔ Along step P init labels :=
  always_iff_of_good_step (fun state label next h _ _ hnext => hstep state label next h hnext)
    hgood hinit hstart hrun

/-- When a state that is not `Good` always has a continuation that ends unsafe, a
run meets `P` exactly if no continuation that meets `P` does. -/
theorem along_iff_of_continuations {step : σ → ε → Option σ} {P : σ → ε → Prop}
    {I Good Safe : σ → Prop}
    (hstep : ∀ state label next, I state → step state label = some next → I next)
    (hgood : ∀ state label next, I state → step state label = some next →
      (Good next ↔ Good state ∧ P state label))
    (hsafe : ∀ state, I state → Good state → Safe state)
    (hend : ∀ state, I state → ¬ Good state → ∃ rest last,
      exec step state rest = some last ∧ Along step P state rest ∧ ¬ Safe last)
    {init final : σ} {labels : List ε} (hinit : I init) (hstart : Good init)
    (hrun : exec step init labels = some final) :
    Along step P init labels ↔ ∀ rest last, exec step final rest = some last →
      Along step P final rest → Safe last := by
  have hfinal : I final := invariant_of_step hstep hinit ⟨labels, hrun⟩
  have hiff := (along_iff_of_step hstep hgood hinit hrun).trans (and_iff_right hstart)
  rw [← hiff]
  constructor
  · intro hkept rest last hrest hcond
    have hlast : I last := invariant_of_step hstep hfinal ⟨rest, hrest⟩
    exact hsafe last hlast ((along_iff_of_step hstep hgood hfinal hrest).mpr ⟨hkept, hcond⟩)
  · intro hall
    by_contra hbad
    obtain ⟨rest, last, hrest, hcond, hunsafe⟩ := hend final hfinal hbad
    exact hunsafe (hall rest last hrest hcond)

end Msm8916.Transition
