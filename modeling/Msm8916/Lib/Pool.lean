import Msm8916.Lib.Transition

/-!
Processes that interleave on a shared memory. A process makes one atomic step at
a time and may start another process in it. The label says which process moves
and, where the step depends on what is outside the program, how that turns out.
-/

namespace Msm8916.Transition

variable {μ π κ : Type*}

/-- Processes `π` on a memory `μ`: `call` begins a process for a call `κ`, and
`advance` is one atomic step of the process `pid`. -/
structure Program (μ π κ : Type*) where
  call : μ → κ → μ × π
  advance : μ → Nat → π → Bool → Option (μ × π × Option π)

structure Pool (μ π : Type*) where
  shared : μ
  procs : List π

inductive Move (κ : Type*) where
  | call (request : κ)
  | run (pid : Nat) (outcome : Bool)

namespace Pool

def step (program : Program μ π κ) (pool : Pool μ π) : Move κ → Option (Pool μ π)
  | .call request =>
      some ⟨(program.call pool.shared request).1,
        pool.procs ++ [(program.call pool.shared request).2]⟩
  | .run pid outcome =>
      pool.procs[pid]?.bind fun proc =>
        (program.advance pool.shared pid proc outcome).map fun (shared, next, started) =>
          ⟨shared, pool.procs.set pid next ++ started.toList⟩

/-- A step of a process, inverted. -/
theorem step_run_eq_some {program : Program μ π κ} {pool after : Pool μ π} {pid : Nat}
    {outcome : Bool} :
    pool.step program (.run pid outcome) = some after ↔
      ∃ proc shared next started, pool.procs[pid]? = some proc ∧
        program.advance pool.shared pid proc outcome = some (shared, next, started) ∧
        after = ⟨shared, pool.procs.set pid next ++ started.toList⟩ := by
  simp only [step, Option.bind_eq_some_iff, Option.map_eq_some_iff, Prod.exists]
  constructor
  · rintro ⟨proc, hproc, shared, next, started, hadvance, rfl⟩
    exact ⟨proc, shared, next, started, hproc, hadvance, rfl⟩
  · rintro ⟨proc, shared, next, started, hproc, hadvance, rfl⟩
    exact ⟨proc, hproc, shared, next, started, hadvance, rfl⟩

/-- The processes after a step: the one that moved, those that did not, and the
one that was started. -/
theorem getElem?_after {procs : List π} {pid i : Nat} {next proc : π} {started : Option π}
    (h : (procs.set pid next ++ started.toList)[i]? = some proc) :
    (i = pid ∧ proc = next) ∨ (i ≠ pid ∧ procs[i]? = some proc) ∨
      (i = procs.length ∧ started = some proc) := by
  rcases Nat.lt_trichotomy i procs.length with hlt | heq | hgt
  · rw [List.getElem?_append_left (by rwa [List.length_set])] at h
    by_cases hi : i = pid
    · subst hi
      rw [List.getElem?_set_self hlt] at h
      exact .inl ⟨rfl, (Option.some.inj h).symm⟩
    · rw [List.getElem?_set_ne (Ne.symm hi)] at h
      exact .inr (.inl ⟨hi, h⟩)
  · rw [List.getElem?_append_right (by simp [heq]), List.length_set, heq, Nat.sub_self] at h
    cases started with
    | none => cases h
    | some child => exact .inr (.inr ⟨heq, h⟩)
  · rw [List.getElem?_append_right (by simp; omega), List.length_set] at h
    have hlength : started.toList.length ≤ 1 := by cases started <;> simp
    rw [List.getElem?_eq_none (by omega)] at h
    cases h

/-- A process stays as it is until it moves itself. -/
theorem proc_of_step {program : Program μ π κ} {pool after : Pool μ π} {label : Move κ}
    {pid : Nat} {proc : π} (hproc : pool.procs[pid]? = some proc)
    (hstep : pool.step program label = some after) :
    after.procs[pid]? = some proc ∨
      ∃ outcome shared next started, label = .run pid outcome ∧
        program.advance pool.shared pid proc outcome = some (shared, next, started) ∧
        after.shared = shared ∧ after.procs[pid]? = some next := by
  have hlt := (List.getElem?_eq_some_iff.mp hproc).1
  cases label with
  | call request =>
      obtain rfl := Option.some.inj hstep
      exact .inl ((List.getElem?_append_left hlt).trans hproc)
  | run other outcome =>
      obtain ⟨moved, shared, next, started, hmoved, hadvance, rfl⟩ := step_run_eq_some.mp hstep
      dsimp only
      rw [List.getElem?_append_left (by rwa [List.length_set])]
      rcases eq_or_ne other pid with rfl | hne
      · obtain rfl : proc = moved := Option.some.inj (hproc.symm.trans hmoved)
        exact .inr ⟨outcome, shared, next, started, rfl, hadvance, rfl,
          List.getElem?_set_self hlt⟩
      · exact .inl ((List.getElem?_set_ne hne).trans hproc)

/-- Every process is as `K` says, given the shared memory. -/
def Each (K : μ → Nat → π → Prop) (pool : Pool μ π) : Prop :=
  ∀ pid proc, pool.procs[pid]? = some proc → K pool.shared pid proc

section Each

variable {K : μ → Nat → π → Prop} {pool : Pool μ π} {shared : μ}

/-- A call keeps `K` if the new process meets it and the change to the memory
does not interfere with the others. -/
theorem Each.call {proc : π} (hnew : K shared pool.procs.length proc)
    (hothers : ∀ i other, pool.procs[i]? = some other → K shared i other) :
    Each K ⟨shared, pool.procs ++ [proc]⟩ := by
  intro i other hother
  dsimp only at hother
  rw [List.getElem?_append] at hother
  split at hother
  · exact hothers i other hother
  · rename_i hlength
    obtain ⟨hi, rfl⟩ := List.getElem?_eq_some_iff.mp hother
    have heq : i = pool.procs.length := by
      simp only [List.length_singleton] at hi
      omega
    subst heq
    simpa using hnew

/-- A step keeps `K` if the process that moves meets it again, the process it
starts meets it, and the change to the memory does not interfere with the
others. -/
theorem Each.run {pid : Nat} {next : π} {started : Option π} (hself : K shared pid next)
    (hstarted : ∀ child, started = some child → K shared pool.procs.length child)
    (hothers : ∀ i other, i ≠ pid → pool.procs[i]? = some other → K shared i other) :
    Each K ⟨shared, pool.procs.set pid next ++ started.toList⟩ := by
  intro i other hother
  rcases getElem?_after hother with ⟨rfl, rfl⟩ | ⟨hi, hother⟩ | ⟨rfl, hchild⟩
  · exact hself
  · exact hothers i other hi hother
  · exact hstarted other hchild

end Each

end Pool

end Msm8916.Transition
