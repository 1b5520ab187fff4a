import Msm8916.Camera.Wrapper

/-!
When the cameras do not disturb each other's stored strings.
-/

namespace Msm8916.Camera

open Transition

section Slots

variable {n : Nat} {Params : Type*} {lib : CameraParameters Params}

/-- No string is freed twice, and none that was freed is stored. -/
structure Sound (wrapper : Wrapper n) : Prop where
  freed_once : wrapper.freed.Nodup
  not_dangling : ∀ id p, stored wrapper id = some p → p ∉ wrapper.freed

/-- The step leaves the strings of the other open cameras, and the strings sound. -/
def Independent (lib : CameraParameters Params) (wrapper : Wrapper n) (label : Label n) : Prop :=
  ∀ next, step lib wrapper label = some next →
    (∀ id ∈ wrapper.opened, id ≠ label.id → stored next id = stored wrapper id) ∧ Sound next

/-- A camera is opened while no open camera has a string, and closed while no string is
stored at all. -/
def Safe (wrapper : Wrapper n) : Label n → Prop
  | .deviceOpen id env =>
      id ∉ wrapper.opened → env.check_vendor_module = true → ∀ other ∈ wrapper.opened,
        stored wrapper other = none
  | .setParameters .. => True
  | .deviceClose id => id ∈ wrapper.opened → ∀ other, stored wrapper other = none

/-- Every string has a number of its own, and no other was freed. -/
structure WellFormed (wrapper : Wrapper n) : Prop where
  stored_lt : ∀ id p, stored wrapper id = some p → p < wrapper.strings.length
  freed_lt : ∀ p ∈ wrapper.freed, p < wrapper.strings.length
  distinct : ∀ id id' p, stored wrapper id = some p → stored wrapper id' = some p → id = id'

theorem loaded_sound : Sound (loaded n) := ⟨.nil, nofun⟩

theorem loaded_wellFormed : WellFormed (loaded n) := ⟨nofun, nofun, nofun⟩

/-! ## The operations -/

/-- Opening empties the array, or does nothing. -/
theorem open_spec (wrapper : Wrapper n) (id : Fin n) (env : OpenEnv) :
    (cameraDeviceOpen wrapper id env).2.strings = wrapper.strings ∧
      (cameraDeviceOpen wrapper id env).2.freed = wrapper.freed ∧
      ∀ other, stored (cameraDeviceOpen wrapper id env).2 other =
        if env.check_vendor_module then none else stored wrapper other := by
  unfold cameraDeviceOpen
  cases env.check_vendor_module with
  | false => exact ⟨rfl, rfl, fun _ => rfl⟩
  | true =>
      cases env.fixed_set_params with
      | false => exact ⟨rfl, rfl, fun _ => rfl⟩
      | true =>
          simp only [Bool.not_true, Bool.false_eq_true, if_false]
          split
          · exact ⟨rfl, rfl, fun _ => rfl⟩
          · split
            · exact ⟨rfl, rfl, fun _ => rfl⟩
            · split
              · exact ⟨rfl, rfl, fun _ => rfl⟩
              · split <;> exact ⟨rfl, rfl, fun _ => rfl⟩

theorem setparams_spec {wrapper next : Wrapper n} {id : Fin n} {settings : String}
    {strdup : Bool} (h : cameraFixupSetparams lib wrapper id settings strdup = some next) :
    next.freed = wrapper.freed ++ (stored wrapper id).toList ∧
      wrapper.strings.length ≤ next.strings.length ∧
      (∀ p, stored next id = some p →
        p = wrapper.strings.length ∧ p < next.strings.length) ∧
      ∀ other, other ≠ id → stored next other = stored wrapper other := by
  obtain ⟨params, hparams, hnext⟩ := Option.map_eq_some_iff.mp h
  have hstored : ∀ other, stored wrapper other = params other := fun other => by
    rw [stored, hparams, Option.bind_some]
  cases strdup with
  | true =>
      obtain rfl := hnext
      refine ⟨by rw [hstored]; rfl, by simp, fun p hp => ?_, fun other hne => ?_⟩
      · obtain rfl : wrapper.strings.length = p := by simpa [stored] using hp
        simp
      · rw [hstored]
        simp [stored, hne]
  | false =>
      obtain rfl := hnext
      refine ⟨by rw [hstored]; rfl, le_rfl, fun p hp => ?_, fun other hne => ?_⟩
      · simp [stored] at hp
      · rw [hstored]
        simp [stored, hne]

theorem close_spec {wrapper next : Wrapper n} {id : Fin n}
    (h : cameraDeviceClose wrapper id = some next) :
    next.freed = wrapper.freed ++ (List.finRange n).filterMap (stored wrapper) ∧
      next.strings = wrapper.strings ∧ ∀ other, stored next other = stored wrapper other := by
  obtain ⟨params, hparams, rfl⟩ := Option.map_eq_some_iff.mp h
  have hstored : stored wrapper = params := funext fun other => by
    rw [stored, hparams, Option.bind_some]
  rw [hstored]
  exact ⟨rfl, rfl, fun other => by rw [stored, hparams, Option.bind_some]⟩

/-! ## One step -/

theorem WellFormed.step {wrapper next : Wrapper n} {label : Label n} (h : WellFormed wrapper)
    (hstep : Camera.step lib wrapper label = some next) : WellFormed next := by
  cases label with
  | deviceOpen id env =>
      simp only [Camera.step] at hstep
      split at hstep
      · cases hstep
      · obtain rfl := Option.some.inj hstep
        obtain ⟨hstrings, hfreed, hstored⟩ := open_spec wrapper id env
        have hold : ∀ other p, stored (cameraDeviceOpen wrapper id env).2 other = some p →
            stored wrapper other = some p := by
          intro other p hp
          rw [hstored] at hp
          split at hp
          · cases hp
          · exact hp
        constructor
        · exact fun other p hp => hstrings ▸ h.stored_lt other p (hold other p hp)
        · exact fun p hp => hstrings ▸ h.freed_lt p (hfreed ▸ hp)
        · exact fun c c' p hc hc' => h.distinct c c' p (hold c p hc) (hold c' p hc')
  | setParameters id settings strdup =>
      simp only [Camera.step] at hstep
      split at hstep
      · obtain ⟨hfreed, hle, hself, hother⟩ := setparams_spec hstep
        -- the new string has a number that no other string has
        have hold : ∀ other p, stored next other = some p →
            other = id ∧ p = wrapper.strings.length ∨ stored wrapper other = some p := by
          intro other p hp
          rcases eq_or_ne other id with rfl | hne
          · exact .inl ⟨rfl, (hself p hp).1⟩
          · exact .inr ((hother other hne).symm.trans hp)
        constructor
        · intro other p hp
          rcases eq_or_ne other id with rfl | hne
          · exact (hself p hp).2
          · exact (h.stored_lt other p ((hother other hne).symm.trans hp)).trans_le hle
        · intro p hp
          rw [hfreed] at hp
          rcases List.mem_append.mp hp with hbefore | hfree
          · exact (h.freed_lt p hbefore).trans_le hle
          · exact (h.stored_lt id p (Option.mem_toList.mp hfree)).trans_le hle
        · intro c c' p hc hc'
          rcases hold c p hc with ⟨rfl, hp⟩ | hc <;> rcases hold c' p hc' with ⟨rfl, hp'⟩ | hc'
          · rfl
          · exact absurd (h.stored_lt c' p hc') (by omega)
          · exact absurd (h.stored_lt c p hc) (by omega)
          · exact h.distinct c c' p hc hc'
      · cases hstep
  | deviceClose id =>
      simp only [Camera.step] at hstep
      split at hstep
      · obtain ⟨hfreed, hstrings, hstored⟩ := close_spec hstep
        constructor
        · exact fun other p hp => hstrings ▸ h.stored_lt other p ((hstored other).symm.trans hp)
        · intro p hp
          rw [hfreed] at hp
          rw [hstrings]
          rcases List.mem_append.mp hp with hbefore | hfree
          · exact h.freed_lt p hbefore
          · obtain ⟨other, -, hother⟩ := List.mem_filterMap.mp hfree
            exact h.stored_lt other p hother
        · exact fun c c' p hc hc' =>
            h.distinct c c' p ((hstored c).symm.trans hc) ((hstored c').symm.trans hc')
      · cases hstep

theorem independent_open_iff {wrapper : Wrapper n} (h : Sound wrapper) (id : Fin n)
    (env : OpenEnv) :
    Independent lib wrapper (.deviceOpen id env) ↔ Safe wrapper (.deviceOpen id env) := by
  obtain ⟨-, hfreed, hstored⟩ := open_spec wrapper id env
  have hsound : Sound (cameraDeviceOpen wrapper id env).2 := by
    refine ⟨hfreed ▸ h.freed_once, fun other p hp => hfreed ▸ h.not_dangling other p ?_⟩
    rw [hstored] at hp
    split at hp
    · cases hp
    · exact hp
  by_cases hopened : id ∈ wrapper.opened
  · refine iff_of_true (fun next hstep => ?_) fun hnot => absurd hopened hnot
    simp [step, hopened] at hstep
  · have hstep : step lib wrapper (.deviceOpen id env) =
        some (cameraDeviceOpen wrapper id env).2 := if_neg hopened
    constructor
    · intro hindependent _ hvendor other hother
      have hne : other ≠ id := by
        rintro rfl
        exact hopened hother
      rw [← (hindependent _ hstep).1 other hother hne, hstored, hvendor, if_pos rfl]
    · intro hsafe next hnext
      obtain rfl := Option.some.inj (hstep.symm.trans hnext)
      refine ⟨fun other hother _ => ?_, hsound⟩
      rw [hstored]
      split
      · rename_i hvendor
        exact (hsafe hopened hvendor other hother).symm
      · rfl

theorem independent_setParameters {wrapper : Wrapper n} (hwf : WellFormed wrapper)
    (h : Sound wrapper) (id : Fin n) (settings : String) (strdup : Bool) :
    Independent lib wrapper (.setParameters id settings strdup) := by
  intro next hstep
  simp only [step] at hstep
  split at hstep
  · obtain ⟨hfreed, -, hself, hother⟩ := setparams_spec hstep
    refine ⟨fun other _ hne => hother other hne, ?_, fun other p hp hmem => ?_⟩
    · rw [hfreed]
      refine h.freed_once.append (by cases stored wrapper id <;> simp) ?_
      exact fun p hbefore hfree => h.not_dangling id p (Option.mem_toList.mp hfree) hbefore
    · rw [hfreed] at hmem
      rcases eq_or_ne other id with rfl | hne
      · obtain ⟨rfl, -⟩ := hself p hp
        rcases List.mem_append.mp hmem with hbefore | hfree
        · exact Nat.lt_irrefl _ (hwf.freed_lt _ hbefore)
        · exact Nat.lt_irrefl _ (hwf.stored_lt other _ (Option.mem_toList.mp hfree))
      · rw [hother other hne] at hp
        rcases List.mem_append.mp hmem with hbefore | hfree
        · exact h.not_dangling other p hp hbefore
        · exact hne (hwf.distinct other id p hp (Option.mem_toList.mp hfree))
  · cases hstep

theorem independent_close_iff {wrapper : Wrapper n} (h : Sound wrapper) (id : Fin n) :
    Independent lib wrapper (.deviceClose id) ↔ Safe wrapper (.deviceClose id) := by
  by_cases hopened : id ∈ wrapper.opened
  · have hstep : step lib wrapper (.deviceClose id) = cameraDeviceClose wrapper id :=
      if_pos hopened
    constructor
    · intro hindependent _ other
      refine Option.eq_none_iff_forall_ne_some.mpr fun p hp => ?_
      cases hclose : cameraDeviceClose wrapper id with
      | none =>
          have hnone := Option.map_eq_none_iff.mp hclose
          simp [stored, hnone] at hp
      | some next =>
          obtain ⟨hfreed, -, hstored⟩ := close_spec hclose
          have hsound := (hindependent next (hstep.trans hclose)).2
          refine hsound.not_dangling other p ((hstored other).trans hp) ?_
          rw [hfreed]
          exact List.mem_append_right _
            (List.mem_filterMap.mpr ⟨other, List.mem_finRange other, hp⟩)
    · intro hsafe next hnext
      obtain ⟨hfreed, -, hstored⟩ := close_spec (hstep.symm.trans hnext)
      have hnone : (List.finRange n).filterMap (stored wrapper) = [] :=
        List.filterMap_eq_nil_iff.mpr fun other _ => hsafe hopened other
      rw [hnone, List.append_nil] at hfreed
      refine ⟨fun other _ _ => hstored other, hfreed ▸ h.freed_once, fun other p hp => ?_⟩
      cases (hsafe hopened other).symm.trans ((hstored other).symm.trans hp)
  · refine iff_of_true (fun next hstep => ?_) fun hmem => absurd hmem hopened
    simp [step, hopened] at hstep

/-! ## Runs -/

/-- In every sequence of operations, the cameras are independent throughout if and only if
every open and every close is safe. -/
theorem camera_slots_iff (n : Nat) (lib : CameraParameters Params) (labels : List (Label n)) :
    Along (step lib) (Independent lib) (loaded n) labels ↔
      Along (step lib) Safe (loaded n) labels := by
  apply along_congr (I := fun wrapper => WellFormed wrapper ∧ Sound wrapper)
  · rintro wrapper label next ⟨hwf, -⟩ hindependent hstep
    exact ⟨hwf.step hstep, (hindependent next hstep).2⟩
  · rintro wrapper label ⟨hwf, hsound⟩
    cases label with
    | deviceOpen id env => exact independent_open_iff hsound id env
    | setParameters id settings strdup =>
        exact iff_of_true (independent_setParameters hwf hsound id settings strdup) trivial
    | deviceClose id => exact independent_close_iff hsound id
  · exact ⟨loaded_wellFormed, loaded_sound⟩

end Slots

/-- Two cameras are open and one has a string when they are closed. -/
def twoCameras {n : Nat} (first second : Fin n) : List (Label n) :=
  [.deviceOpen first ⟨true, true, true, 0, true⟩,
    .deviceOpen second ⟨true, true, true, 0, true⟩, .setParameters first "" true,
    .deviceClose first, .deviceClose second]

/-- The string is freed with each camera. -/
theorem string_freed_twice :
    ¬ ∀ {Params : Type} (n : Nat) (lib : CameraParameters Params) (labels : List (Label n)),
      Along (step lib) (Independent lib) (loaded n) labels := by
  intro hall
  let lib : CameraParameters String :=
    ⟨id, id, fun _ _ => none, fun params _ => params, "scene-mode", "hdr", "hdr-need-1x"⟩
  have hrun : (exec (step lib) (loaded 2) (twoCameras 0 1)).map Wrapper.freed = some [0, 0] := by
    decide
  obtain ⟨final, hfinal, hfreed⟩ := Option.map_eq_some_iff.mp hrun
  have hsound : Sound final :=
    invariant_of_along (fun _ _ next _ hindependent hstep => (hindependent next hstep).2)
      loaded_sound (hall 2 lib (twoCameras 0 1)) hfinal
  have honce := hsound.freed_once
  rw [hfreed] at honce
  revert honce
  decide

end Msm8916.Camera
