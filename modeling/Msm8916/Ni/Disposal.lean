import Msm8916.Ni.Integrity
import Msm8916.Ni.Payload

/-!
When every payload is disposed of exactly once.
-/

namespace Msm8916.Ni

open Transition Custody

/-- No payload was freed or given to a message twice. One that the handler has decided on
and that no session holds was so once. -/
def DisposedOnce (ni : NiModule) : Prop :=
  ∀ payload request pc, ni.procs[payload]? = some (.handler request pc) →
    request.passThrough = true →
      disposals ni payload ≤ 1 ∧
        (pc.waits = false → (∀ name, (ni.shared.get name).rawRequest ≠ some payload) →
          disposals ni payload = 1)

/-- The handler is called with the callback in place, and a session record is written
only when its payload was disposed of, which is disposed of only once. -/
def Proc.Orderly (ni : NiModule) (fails : Bool) : Proc → Prop
  | .handler request .entered => ni.shared.niNotifyCb = true ∨ request.passThrough = false
  | .handler request .saveRequest =>
      ∀ payload ∈ (ni.shared.get request.pSession).rawRequest, disposals ni payload ≠ 0
  | .thread pSession _ pc =>
      pc.takes ni.shared pSession fails = true →
        ∀ payload ∈ (ni.shared.get pSession).rawRequest, disposals ni payload = 0
  | .restart (.freeRequest pSession) =>
      ∀ payload ∈ (ni.shared.get pSession).rawRequest, disposals ni payload = 0
  | .restart (.clearRequest pSession) =>
      ∀ payload ∈ (ni.shared.get pSession).rawRequest, disposals ni payload ≠ 0
  | _ => True

def Orderly (ni : NiModule) : Transition.Move Call → Prop
  | .call _ => True
  | .run pid fails => ∀ proc ∈ ni.procs[pid]?, proc.Orderly ni fails

instance (ni : NiModule) (fails : Bool) : DecidablePred (Proc.Orderly ni fails) := fun proc => by
  unfold Proc.Orderly
  split <;> infer_instance

instance (ni : NiModule) : ∀ label, Decidable (Orderly ni label)
  | .call _ => isTrue trivial
  | .run pid fails =>
      inferInstanceAs (Decidable (∀ proc ∈ ni.procs[pid]?, proc.Orderly ni fails))

theorem accounted_store_iff (ni : NiModule) : (store ni).Accounted ↔ DisposedOnce ni := by
  constructor
  · intro h payload request pc hproc hpass
    have hat : ∀ f, At ni f payload = f (.handler request pc) := fun f => by
      rw [At, hproc, Option.any_some]
    obtain ⟨hle, hone⟩ := h payload ((hat Proc.carries).trans hpass)
    refine ⟨hle, fun hwaits hraw => hone (fun hwaiting => ?_) fun hheld => hheld.elim hraw⟩
    have hboth : Proc.waits (.handler request pc) = true := (hat _).symm.trans hwaiting
    rw [Proc.waits, hwaits, Bool.and_false] at hboth
    cases hboth
  · intro h payload hknown
    obtain ⟨proc, hproc, hcarries⟩ := Option.any_eq_true _ _ |>.mp hknown
    cases proc with
    | handler request pc =>
        obtain ⟨hle, hone⟩ := h payload request pc hproc hcarries
        refine ⟨hle, fun hwaiting hheld => hone ?_ fun name hname => hheld ⟨name, hname⟩⟩
        apply Bool.eq_false_iff.mpr
        intro hwaits
        apply hwaiting
        change At ni Proc.waits payload = true
        rw [At, hproc, Option.any_some, Proc.waits, hwaits, Bool.and_true]
        exact hcarries
    | init | thread | respond | restart => cases hcarries

theorem orderly_procMove_iff (ni : NiModule) (pid : Nat) (fails : Bool) (proc : Proc) :
    proc.Orderly ni fails ↔ (store ni).Orderly (procMove ni.shared pid fails proc) := by
  cases proc with
  | handler request pc =>
      cases pc with
      | entered =>
          cases hcb : ni.shared.niNotifyCb <;> cases hpass : request.passThrough <;>
            simp [Proc.Orderly, procMove, handlerMove, Store.Orderly, hcb, hpass]
      | checkSession | checkSessionEs =>
          simp only [procMove, handlerMove]
          split
          · exact iff_of_true trivial rfl
          · exact Iff.rfl
      | saveRequest =>
          simp only [procMove, handlerMove]
          split
          · exact Iff.rfl
          · exact Iff.rfl
      | _ => exact Iff.rfl
  | thread pSession request pc =>
      simp only [procMove, Proc.Orderly]
      split
      · rename_i htakes
        exact ⟨fun h => h htakes, fun h _ => h⟩
      · rename_i htakes
        exact iff_of_true (fun h => absurd h htakes) trivial
  | restart pc => cases pc <;> exact Iff.rfl
  | init | respond => exact Iff.rfl

theorem orderly_iff (ni : NiModule) (label : Transition.Move Call) :
    Orderly ni label ↔ (store ni).Orderly (custodyMove ni label) := by
  cases label with
  | call request =>
      cases request with
      | request request =>
          rw [custodyMove]
          split <;> exact Iff.rfl
      | init | respond | restart => exact Iff.rfl
  | run pid fails =>
      cases hproc : ni.procs[pid]? with
      | none => simp [Orderly, custodyMove, hproc, Store.Orderly]
      | some proc =>
          simp only [Orderly, custodyMove, hproc, Option.mem_some_iff, forall_eq']
          exact orderly_procMove_iff ni pid fails proc

/-! ## A schedule that is orderly -/

/-- The restart has freed the request of the session and not yet cleared the record. -/
def Proc.clearing (pSession : SessionName) : Proc → Bool
  | .restart (.clearRequest name) => decide (name = pSession)
  | _ => false

def Clearing (ni : NiModule) (pSession : SessionName) : Prop :=
  ∃ proc ∈ ni.procs, proc.clearing pSession = true

/-- The handler is called with the callback in place and saves a request in a free record,
and nobody saves, takes or frees a request between the two writes of a restart. -/
def Proc.InTurn (ni : NiModule) (fails : Bool) : Proc → Prop
  | .handler request .entered => ni.shared.niNotifyCb = true ∨ request.passThrough = false
  | .handler request .saveRequest =>
      (ni.shared.get request.pSession).rawRequest = none ∧ ¬ Clearing ni request.pSession
  | .thread pSession _ pc => pc.takes ni.shared pSession fails = true → ¬ Clearing ni pSession
  | .restart (.freeRequest pSession) => ¬ Clearing ni pSession
  | _ => True

def InTurn (ni : NiModule) : Transition.Move Call → Prop
  | .call _ => True
  | .run pid fails => ∀ proc ∈ ni.procs[pid]?, proc.InTurn ni fails

instance (ni : NiModule) (pSession : SessionName) : Decidable (Clearing ni pSession) :=
  inferInstanceAs (Decidable (∃ proc ∈ ni.procs, proc.clearing pSession = true))

instance (ni : NiModule) (fails : Bool) : DecidablePred (Proc.InTurn ni fails) := fun proc => by
  unfold Proc.InTurn
  split <;> infer_instance

instance (ni : NiModule) : ∀ label, Decidable (InTurn ni label)
  | .call _ => isTrue trivial
  | .run pid fails =>
      inferInstanceAs (Decidable (∀ proc ∈ ni.procs[pid]?, proc.InTurn ni fails))

/-- The records that a restart is about to clear. -/
def marks (ni : NiModule) : Set SessionName := { name | Clearing ni name }

theorem procMove_of_clearing {data : NiData} {pid : Nat} {fails : Bool} {proc : Proc}
    {name : SessionName} (h : proc.clearing name = true) :
    procMove data pid fails proc = .empty name := by
  cases proc with
  | restart pc =>
      cases pc with
      | clearRequest pSession =>
          obtain rfl : pSession = name := of_decide_eq_true h
          rfl
      | _ => cases h
  | init | handler | thread | respond => cases h

theorem procMove_eq_dispose {data : NiData} {pid : Nat} {fails : Bool} {proc : Proc}
    {name : SessionName} (h : procMove data pid fails proc = .dispose name) :
    proc = .restart (.freeRequest name) := by
  cases proc with
  | handler request pc =>
      cases pc with
      | entered | checkSession | checkSessionEs | saveRequest =>
          simp only [procMove, handlerMove] at h
          split at h <;> cases h
      | _ => cases h
  | thread pSession request pc =>
      simp only [procMove] at h
      split at h <;> cases h
  | restart pc =>
      cases pc with
      | freeRequest pSession =>
          cases h
          rfl
      | _ => cases h
  | init | respond => cases h

/-- Only the restart that frees a request goes on to clear the record. -/
theorem advance_clearing {data next : NiData} {pid : Nat} {proc after : Proc} {fails : Bool}
    {started : Option Proc} (hstep : advance data pid proc fails = some (next, after, started))
    (name : SessionName) :
    after.clearing name = true ↔ procMove data pid fails proc = .dispose name := by
  constructor
  · intro h
    cases advance_cases hstep with
    | @restart _ pc after hrestart =>
        cases pc with
        | freeRequest pSession =>
            simp only [restartStep] at hrestart
            split at hrestart
            · obtain ⟨-, rfl⟩ := Prod.mk.inj (Option.some.inj hrestart)
              obtain rfl : pSession = name := of_decide_eq_true h
              rfl
            · obtain ⟨-, rfl⟩ := Prod.mk.inj (Option.some.inj hrestart)
              obtain rfl : pSession = name := of_decide_eq_true h
              rfl
        | check pSession =>
            obtain ⟨-, rfl⟩ := Prod.mk.inj (Option.some.inj hrestart)
            split at h
            · cases h
            · cases pSession <;> cases h
        | wake pSession =>
            obtain ⟨-, rfl⟩ := Prod.mk.inj (Option.some.inj hrestart)
            cases pSession <;> cases h
        | entered =>
            obtain ⟨-, rfl⟩ := Prod.mk.inj (Option.some.inj hrestart)
            split at h <;> cases h
        | clearRequest pSession =>
            obtain ⟨-, rfl⟩ := Prod.mk.inj (Option.some.inj hrestart)
            cases h
        | returned => cases hrestart
    | init | handler | thread | respond => cases h
  · intro h
    obtain rfl := procMove_eq_dispose h
    cases advance_cases hstep with
    | restart hrestart =>
        simp only [restartStep] at hrestart
        split at hrestart
        · obtain ⟨-, rfl⟩ := Prod.mk.inj (Option.some.inj hrestart)
          exact decide_eq_true rfl
        · obtain ⟨-, rfl⟩ := Prod.mk.inj (Option.some.inj hrestart)
          exact decide_eq_true rfl

/-- A record becomes one to clear when a restart frees its request, and stays so until it
is cleared. -/
theorem clearing_step {ni next : NiModule} {label : Transition.Move Call}
    (hstep : Ni.step ni label = some next) {name : SessionName}
    (hkept : custodyMove ni label ≠ .empty name) :
    Clearing next name ↔ Clearing ni name ∨ custodyMove ni label = .dispose name := by
  constructor
  · rintro ⟨other, hother, hclearing⟩
    obtain ⟨i, hi⟩ := List.mem_iff_getElem?.mp hother
    cases label with
    | call request =>
        obtain rfl := Option.some.inj hstep
        rcases List.mem_append.mp hother with hold | hnew
        · exact .inl ⟨other, hold, hclearing⟩
        · rw [List.mem_singleton.mp hnew] at hclearing
          cases request <;> cases hclearing
    | run pid fails =>
        obtain ⟨proc, shared, after, started, hproc, hadvance, rfl⟩ :=
          Pool.step_run_eq_some.mp hstep
        rcases Pool.getElem?_after hi with ⟨-, rfl⟩ | ⟨-, hold⟩ | ⟨-, rfl⟩
        · rw [custodyMove, hproc]
          exact .inr ((advance_clearing hadvance name).mp hclearing)
        · exact .inl ⟨other, List.mem_of_getElem? hold, hclearing⟩
        · obtain ⟨pSession, rfl⟩ := advance_started hadvance
          cases hclearing
  · rintro (⟨other, hother, hclearing⟩ | hdispose)
    · obtain ⟨i, hi⟩ := List.mem_iff_getElem?.mp hother
      rcases Pool.proc_of_step hi hstep with hsame | ⟨fails, -, -, -, rfl, -⟩
      · exact ⟨other, List.mem_of_getElem? hsame, hclearing⟩
      · rw [custodyMove, hi] at hkept
        exact absurd (procMove_of_clearing hclearing) hkept
    · cases label with
      | call request =>
          cases request with
          | request request =>
              rw [custodyMove] at hdispose
              split at hdispose <;> cases hdispose
          | init | respond | restart => cases hdispose
      | run pid fails =>
          obtain ⟨proc, shared, after, started, hproc, hadvance, rfl⟩ :=
            Pool.step_run_eq_some.mp hstep
          rw [custodyMove, hproc] at hdispose
          have hlt := (List.getElem?_eq_some_iff.mp hproc).1
          refine ⟨after, List.mem_append_left _ (List.mem_set hlt after), ?_⟩
          exact (advance_clearing hadvance name).mpr hdispose

theorem InTurn.store {ni : NiModule} {label : Transition.Move Call} (h : InTurn ni label) :
    (store ni).InTurn (marks ni) (custodyMove ni label) := by
  cases label with
  | call request =>
      cases request with
      | request request =>
          rw [custodyMove]
          split <;> trivial
      | init | respond | restart => trivial
  | run pid fails =>
      cases hproc : ni.procs[pid]? with
      | none =>
          rw [custodyMove, hproc]
          trivial
      | some proc =>
          have hturn := h proc hproc
          rw [custodyMove, hproc]
          dsimp only
          cases proc with
          | handler request pc =>
              cases pc with
              | entered =>
                  rw [Proc.InTurn, ← Bool.not_eq_true', ← Bool.or_eq_true] at hturn
                  rw [procMove, handlerMove, if_pos hturn]
                  trivial
              | checkSession | checkSessionEs =>
                  simp only [procMove, handlerMove]
                  split
                  · rfl
                  · trivial
              | saveRequest =>
                  simp only [procMove, handlerMove]
                  split
                  · exact hturn
                  · exact .inl hturn.1
              | _ => trivial
          | thread pSession request pc =>
              simp only [procMove]
              split
              · rename_i htakes
                exact hturn htakes
              · trivial
          | restart pc =>
              cases pc with
              | freeRequest pSession => exact hturn
              | clearRequest pSession =>
                  exact .inr ⟨_, List.mem_of_getElem? hproc, decide_eq_true rfl⟩
              | _ => trivial
          | init | respond => trivial

/-! ## Runs -/

/-- The restarts that are about to clear a record have disposed of its payload. -/
structure Cleared (ni : NiModule) : Prop where
  ready : Ready ni
  wellFormed : (store ni).WellFormed
  marked : (store ni).Marked (marks ni)

theorem loaded_cleared : Cleared loaded where
  ready := loaded_ready
  wellFormed := loaded_wellFormed
  marked c _ h := by cases c <;> cases h

theorem Cleared.step {ni next : NiModule} {label : Transition.Move Call} (h : Cleared ni)
    (hturn : InTurn ni label) (hstep : Ni.step ni label = some next) : Cleared next := by
  obtain ⟨hready, hstore, henabled⟩ := step_store h.ready hstep
  refine ⟨hready, hstore ▸ h.wellFormed.apply henabled, ?_⟩
  rw [hstore]
  exact h.marked.apply h.wellFormed henabled hturn.store fun _ hkept => clearing_step hstep hkept

theorem Cleared.orderly {ni : NiModule} {label : Transition.Move Call} (h : Cleared ni)
    (hturn : InTurn ni label) : Orderly ni label :=
  (orderly_iff ni label).mpr (h.marked.orderly hturn.store)

/-- In every run, the payloads are disposed of exactly once if and only if all steps are
orderly. They are when no request comes before the callback, each is saved in a free
record, and nobody uses a record between the two writes of a restart. -/
theorem disposed_once_iff {labels : List (Transition.Move Call)} {final : NiModule}
    (hrun : exec step loaded labels = some final) :
    (DisposedOnce final ↔ Along step Orderly loaded labels) ∧
      (Along step InTurn loaded labels → Along step Orderly loaded labels) := by
  constructor
  · have hinit : DisposedOnce loaded := nofun
    have hiff : DisposedOnce final ↔ DisposedOnce loaded ∧ Along step Orderly loaded labels :=
      along_iff_of_step (I := fun ni => Ready ni ∧ (store ni).WellFormed)
      (fun ni label next ⟨hready, hwf⟩ hstep => by
        obtain ⟨hnext, hstore, henabled⟩ := step_store hready hstep
        exact ⟨hnext, hstore ▸ hwf.apply henabled⟩)
      (fun ni label next ⟨hready, hwf⟩ hstep => by
        obtain ⟨-, hstore, henabled⟩ := step_store hready hstep
        rw [← accounted_store_iff, ← accounted_store_iff, hstore, orderly_iff]
        exact Store.accounted_apply_iff hwf henabled)
      ⟨loaded_ready, loaded_wellFormed⟩ hrun
    rw [hiff, and_iff_right hinit]
  · exact Along.imp (I := Cleared)
      (fun _ _ _ h hturn hstep => ⟨h.step hturn hstep, h.orderly hturn⟩) loaded_cleared hrun

theorem disposed_once_iff_in_time :
    ∃ final, exec step loaded acceptInTime = some final ∧ DisposedOnce final := by
  have hany : (exec step loaded acceptInTime).isSome = true := by decide +kernel
  obtain ⟨final, hrun⟩ := Option.isSome_iff_exists.mp hany
  obtain ⟨hiff, horderly⟩ := disposed_once_iff hrun
  exact ⟨final, hrun, hiff.mpr (horderly (by decide +kernel))⟩

/-- A request that comes with a payload before the module is initialised. -/
def earlyRequest : List (Transition.Move Call) :=
  [.call (.request ⟨false, 20, true⟩), .run 0 false]

/-- Nobody frees the payload of the early request. -/
theorem early_payload_lost :
    ¬ ∀ (labels : List (Transition.Move Call)) (final : NiModule),
      exec step loaded labels = some final → DisposedOnce final := by
  intro hall
  have hany : (exec step loaded earlyRequest).any (fun final =>
      decide (final.procs[0]? = some (.handler ⟨false, 20, true⟩ .returned) ∧
        final.shared.session.rawRequest = none ∧ final.shared.sessionEs.rawRequest = none ∧
        disposals final 0 = 0)) = true := by decide +kernel
  obtain ⟨final, hrun, hfinal⟩ := (Option.any_eq_true _ _).mp hany
  obtain ⟨hproc, hsession, hsessionEs, hzero⟩ := of_decide_eq_true hfinal
  have hone := (hall _ final hrun 0 _ _ hproc rfl).2 rfl fun name hname => by
    cases name with
    | session => cases hsession.symm.trans hname
    | sessionEs => cases hsessionEs.symm.trans hname
  omega

/-- The engine restarts while a request waits for the user: the reset has freed the payload
and is about to clear the record when the thread times out. -/
def restartMeetsTimeout : List (Transition.Move Call) :=
  waitingForUser ++ [.call .restart] ++ List.replicate 4 (.run 3 false) ++ [.run 2 true]

example : (exec step loaded restartMeetsTimeout).map (disposals · 1) = some 2 := by
  decide +kernel

end Msm8916.Ni
