import Msm8916.Lib.Arena
import Msm8916.Lib.Transition

/-!
The ULP proxy of `LocEngAdapter`: the threads that call it through `getUlpProxy`, the
messages that keep a pointer to it, and `LocEngAdapter::setUlpProxy`, which puts another
one in its place on the message thread.
-/

namespace Msm8916.Engine.Ulp

open Transition

variable {M : Type*}

/-- `mPosMode` and `mFixSet` of a `UlpProxyBase`; no mode is `LOC_POSITION_MODE_INVALID`. -/
structure UlpProxyBase (M : Type*) where
  mPosMode : Option M
  mFixSet : Bool
deriving DecidableEq, Repr

/-- The constructor. -/
def UlpProxyBase.new : UlpProxyBase M := ⟨none, false⟩

/-- What a thread reads the pointer for. -/
inductive UlpCall (M : Type*) where
  /-- `loc_eng_start` -/
  | sendStartFix
  /-- `loc_eng_stop` -/
  | sendStopFix
  /-- `loc_eng_set_position_mode` -/
  | sendFixMode (params : M)
  /-- `reportPosition`, `reportSv` or `reportStatus` -/
  | report
  /-- `new LocEngSuplMode` in `loc_eng_configuration_update`, which keeps the pointer -/
  | suplMode
deriving DecidableEq, Repr

/-- What a call does to the two fields. -/
def UlpCall.apply : UlpCall M → UlpProxyBase M → UlpProxyBase M
  | .sendStartFix, proxy => { proxy with mFixSet := true }
  | .sendStopFix, proxy => { proxy with mFixSet := false }
  | .sendFixMode params, proxy => { proxy with mPosMode := some params }
  | .report, proxy | .suplMode, proxy => proxy

/-- The messages that carry a pointer to a proxy; `none` is `NULL`. -/
inductive UlpMsg where
  | setUlpProxy (ulp : Option Nat)
  | suplMode (ulp : Nat)
deriving DecidableEq, Repr

def UlpMsg.pointer : UlpMsg → Option Nat
  | .setUlpProxy ulp => ulp
  | .suplMode ulp => some ulp

/-- Where the message thread is in `LocEngAdapter::setUlpProxy`. -/
inductive SetPoint where
  | outside
  /-- The new proxy has been told the mode and the start. -/
  | told (ulp : Nat)
  | deleted (ulp : Nat)
deriving DecidableEq, Repr

/-- The adapter with the proxies that exist, the pointers that threads have read and not
used yet, and what the framework has asked for so far. -/
structure UlpAdapter (M : Type*) where
  arena : Arena
  proxies : Nat → UlpProxyBase M
  mUlp : Nat
  point : SetPoint
  msgQ : List UlpMsg
  calls : List (Nat × UlpCall M)
  asked : UlpProxyBase M

/-- After the constructor of `LocEngAdapter`. -/
def UlpAdapter.init : UlpAdapter M where
  arena := Arena.empty.construct.2
  proxies _ := .new
  mUlp := 0
  point := .outside
  msgQ := []
  calls := []
  asked := .new

inductive UlpEvent (M : Type*) where
  /-- The ULP library makes a proxy. -/
  | construct
  /-- `LocInternalAdapter::setUlpProxy` -/
  | setUlpProxy (ulp : Option Nat)
  /-- A thread reads `mUlp`. -/
  | getUlpProxy (call : UlpCall M)
  /-- The thread of this read goes on with the pointer. -/
  | finish (index : Nat)
  /-- The message thread goes on. -/
  | proc
deriving DecidableEq, Repr

namespace UlpAdapter

variable (adapter : UlpAdapter M)

def update (ulp : Nat) (proxy : UlpProxyBase M) : Nat → UlpProxyBase M :=
  fun other => if other = ulp then proxy else adapter.proxies other

/-- The fields that `setUlpProxy` has the new proxy set. -/
def handOver (old new : UlpProxyBase M) : UlpProxyBase M where
  mPosMode := if old.mPosMode.isSome then old.mPosMode else new.mPosMode
  mFixSet := if old.mFixSet then true else new.mFixSet

/-- `setUlpProxy` up to the deletion, for a pointer that is not `NULL`. The new proxy is
called only if there is something to tell. -/
def tell (ulp : Nat) : UlpAdapter M :=
  let old := adapter.proxies adapter.mUlp
  let used := if old.mPosMode.isSome || old.mFixSet then [adapter.mUlp, ulp] else [adapter.mUlp]
  { adapter with
    arena := adapter.arena.use used
    proxies := adapter.update ulp (handOver old (adapter.proxies ulp))
    point := .told ulp }

/-- `proc` of the next message, as far as it does not wait for another step. -/
def nextMsg : Option (UlpAdapter M) :=
  match adapter.msgQ with
  | [] => none
  | .suplMode ulp :: msgQ =>
      some { adapter with arena := adapter.arena.use [ulp], msgQ := msgQ }
  | .setUlpProxy none :: msgQ =>
      some (tell { adapter with
        arena := adapter.arena.construct.2
        proxies := adapter.update adapter.arena.construct.1 .new
        msgQ := msgQ } adapter.arena.construct.1)
  | .setUlpProxy (some ulp) :: msgQ =>
      if ulp = adapter.mUlp then some { adapter with msgQ := msgQ }
      else some (tell { adapter with msgQ := msgQ } ulp)

def step (adapter : UlpAdapter M) : UlpEvent M → Option (UlpAdapter M)
  | .construct =>
      some { adapter with
        arena := adapter.arena.construct.2
        proxies := adapter.update adapter.arena.construct.1 .new }
  | .setUlpProxy ulp => some { adapter with msgQ := adapter.msgQ ++ [.setUlpProxy ulp] }
  | .getUlpProxy call => some { adapter with calls := adapter.calls ++ [(adapter.mUlp, call)] }
  | .finish index =>
      match adapter.calls[index]? with
      | none => none
      | some (ulp, .suplMode) =>
          some { adapter with
            calls := adapter.calls.eraseIdx index
            msgQ := adapter.msgQ ++ [.suplMode ulp] }
      | some (ulp, call) =>
          some { adapter with
            arena := adapter.arena.use [ulp]
            proxies := adapter.update ulp (call.apply (adapter.proxies ulp))
            calls := adapter.calls.eraseIdx index
            asked := call.apply adapter.asked }
  | .proc =>
      match adapter.point with
      | .outside => adapter.nextMsg
      | .told ulp =>
          some { adapter with
            arena := (adapter.arena.use [adapter.mUlp]).delete adapter.mUlp
            point := .deleted ulp }
      | .deleted ulp => some { adapter with mUlp := ulp, point := .outside }

/-! ## No dangling pointer, and nothing forgotten -/

/-- The proxy that is installed, or is about to be. -/
def target : Nat :=
  match adapter.point with
  | .outside => adapter.mUlp
  | .told ulp | .deleted ulp => ulp

/-- Every pointer that is kept, or is about to be used, points to a proxy that exists. -/
structure NoneDangling : Prop where
  target : adapter.target ∈ adapter.arena.live
  mUlp : (∀ ulp, adapter.point ≠ .deleted ulp) → adapter.mUlp ∈ adapter.arena.live
  calls : ∀ call ∈ adapter.calls, call.1 ∈ adapter.arena.live
  msgQ : ∀ msg ∈ adapter.msgQ, ∀ ulp ∈ msg.pointer, ulp ∈ adapter.arena.live

/-- No proxy was used after its deletion, none can be through a pointer that is kept,
and the installed one knows what the framework has asked for. -/
structure InOrder : Prop where
  clean : adapter.arena.Clean
  pointers : adapter.NoneDangling
  informed : adapter.proxies adapter.target = adapter.asked

/-- A call or a message has a pointer to the proxy. -/
def Held (ulp : Nat) : Prop :=
  (∃ call ∈ adapter.calls, call.1 = ulp) ∨ ∃ msg ∈ adapter.msgQ, msg.pointer = some ulp

/-- What keeps the adapter in order: the library offers proxies that exist, no thread
reads the pointer between the deletion and the assignment, the proxy is not deleted while
it is held, and what it is asked for between the handover and its deletion is nothing
new. -/
def Undisturbed (adapter : UlpAdapter M) : UlpEvent M → Prop
  | .construct => True
  | .setUlpProxy ulp => ∀ offered ∈ ulp, offered ∈ adapter.arena.live
  | .getUlpProxy _ => ∀ ulp, adapter.point ≠ .deleted ulp
  | .finish index =>
      ∀ ulp, adapter.point = .told ulp →
        ∀ call ∈ adapter.calls[index]?, call.2.apply adapter.asked = adapter.asked
  | .proc => ∀ ulp, adapter.point = .told ulp → ¬ adapter.Held adapter.mUlp

/-- What a run in order keeps besides. -/
structure Settled : Prop where
  sound : adapter.arena.Sound
  known : adapter.mUlp < adapter.arena.next
  fresh : ∀ ulp ∈ adapter.arena.live, ulp ≠ adapter.mUlp → ulp ≠ adapter.target →
    adapter.proxies ulp = .new
  calls : ∀ call ∈ adapter.calls, call.1 = adapter.mUlp ∧ ∀ ulp, adapter.point ≠ .deleted ulp
  other : adapter.point ≠ .outside → adapter.target ≠ adapter.mUlp
  gone : ∀ ulp, adapter.point = .deleted ulp → adapter.mUlp ∉ adapter.arena.live

theorem init_settled : (init : UlpAdapter M).Settled where
  sound := Arena.empty_sound.construct
  known := Nat.zero_lt_one
  fresh _ _ _ _ := rfl
  calls _ hmem := by cases hmem
  other h := absurd rfl h
  gone _ h := by cases h

theorem init_inOrder : (init : UlpAdapter M).InOrder where
  clean := Arena.empty_clean
  pointers :=
    ⟨List.mem_singleton.mpr rfl, fun _ => List.mem_singleton.mpr rfl, nofun, nofun⟩
  informed := rfl

variable {adapter}

@[simp]
theorem update_self (ulp : Nat) (proxy : UlpProxyBase M) :
    adapter.update ulp proxy ulp = proxy := if_pos rfl

theorem update_of_ne {ulp other : Nat} (proxy : UlpProxyBase M) (h : other ≠ ulp) :
    adapter.update ulp proxy other = adapter.proxies other := if_neg h

/-! ### A new proxy -/

/-- The adapter with one more proxy. -/
def constructed (adapter : UlpAdapter M) : UlpAdapter M :=
  { adapter with
    arena := adapter.arena.construct.2
    proxies := adapter.update adapter.arena.construct.1 .new }

theorem mem_live_constructed {ulp : Nat} :
    ulp ∈ adapter.constructed.arena.live ↔ ulp = adapter.arena.next ∨ ulp ∈ adapter.arena.live :=
  List.mem_cons

theorem InOrder.constructed (hsettled : adapter.Settled) (h : adapter.InOrder) :
    adapter.constructed.InOrder where
  clean := h.clean
  pointers :=
    { target := mem_live_constructed.mpr (.inr h.pointers.target)
      mUlp := fun hpoint => mem_live_constructed.mpr (.inr (h.pointers.mUlp hpoint))
      calls := fun call hmem => mem_live_constructed.mpr (.inr (h.pointers.calls call hmem))
      msgQ := fun msg hmem ulp hulp =>
        mem_live_constructed.mpr (.inr (h.pointers.msgQ msg hmem ulp hulp)) }
  informed := by
    have hold : adapter.target < adapter.arena.next :=
      hsettled.sound.fresh _ h.pointers.target
    exact (update_of_ne _ (Nat.ne_of_lt hold)).trans h.informed

theorem Settled.constructed (h : adapter.Settled) : adapter.constructed.Settled where
  sound := h.sound.construct
  known := Nat.lt_succ_of_lt h.known
  fresh ulp hlive hinstalled htarget := by
    rcases mem_live_constructed.mp hlive with rfl | hold
    · exact update_self _ _
    · have hne := Nat.ne_of_lt (h.sound.fresh ulp hold)
      exact (update_of_ne _ hne).trans (h.fresh ulp hold hinstalled htarget)
  calls := h.calls
  other := h.other
  gone ulp hpoint hlive := by
    rcases mem_live_constructed.mp hlive with heq | hold
    · exact Nat.ne_of_lt h.known heq
    · exact h.gone ulp hpoint hold

/-! ### The handover -/

theorem InOrder.next_msg {msg : UlpMsg} {msgQ : List UlpMsg} (h : adapter.InOrder)
    (hmsgQ : adapter.msgQ = msg :: msgQ) : ({ adapter with msgQ := msgQ }).InOrder where
  clean := h.clean
  pointers :=
    { target := h.pointers.target
      mUlp := h.pointers.mUlp
      calls := h.pointers.calls
      msgQ := fun other hmem =>
        h.pointers.msgQ other (hmsgQ ▸ List.mem_cons_of_mem msg hmem) }
  informed := h.informed

theorem Settled.next_msg (h : adapter.Settled) (msgQ : List UlpMsg) :
    ({ adapter with msgQ := msgQ }).Settled :=
  ⟨h.sound, h.known, h.fresh, h.calls, h.other, h.gone⟩

theorem target_outside (h : adapter.point = .outside) : adapter.target = adapter.mUlp := by
  simp [target, h]

theorem target_told {ulp : Nat} (h : adapter.point = .told ulp) : adapter.target = ulp := by
  simp [target, h]

theorem target_deleted {ulp : Nat} (h : adapter.point = .deleted ulp) :
    adapter.target = ulp := by
  simp [target, h]

/-- A proxy that was never called is told all that the old one knows. -/
theorem handOver_new (old : UlpProxyBase M) : handOver old .new = old := by
  obtain ⟨mode, started⟩ := old
  cases mode <;> cases started <;> rfl

/-- `tell` for a proxy that exists and is not the installed one. -/
theorem tell_inOrder {ulp : Nat} (hsettled : adapter.Settled) (h : adapter.InOrder)
    (houtside : adapter.point = .outside) (hlive : ulp ∈ adapter.arena.live)
    (hne : ulp ≠ adapter.mUlp) : (adapter.tell ulp).InOrder ∧ (adapter.tell ulp).Settled := by
  have htarget := target_outside houtside
  have hmUlp : adapter.mUlp ∈ adapter.arena.live := h.pointers.mUlp (by simp [houtside])
  have hnew : adapter.proxies ulp = .new := hsettled.fresh ulp hlive hne (htarget ▸ hne)
  have hinformed : adapter.proxies adapter.mUlp = adapter.asked := htarget ▸ h.informed
  refine ⟨⟨?_, ⟨hlive, fun _ => hmUlp, h.pointers.calls, h.pointers.msgQ⟩, ?_⟩, ?_⟩
  · refine Arena.clean_use_iff.mpr ⟨h.clean, fun object hobject => ?_⟩
    have hcases : object = adapter.mUlp ∨ object = ulp := by
      split at hobject
      · simpa using hobject
      · exact .inl (List.mem_singleton.mp hobject)
    rcases hcases with rfl | rfl
    · exact hmUlp
    · exact hlive
  · exact (update_self _ _).trans (by rw [hnew, handOver_new, hinformed]; rfl)
  · refine ⟨hsettled.sound.use _, hsettled.known, ?_, ?_, fun _ => hne, nofun⟩
    · intro other hother hinstalled hnot
      exact (update_of_ne _ hnot).trans (hsettled.fresh other hother hinstalled
        (htarget ▸ hinstalled))
    · exact fun call hmem => ⟨(hsettled.calls call hmem).1, nofun⟩

/-- The deletion leaves the adapter in order exactly if nobody holds the old proxy. -/
theorem delete_inOrder_iff {ulp : Nat} (hsettled : adapter.Settled) (h : adapter.InOrder)
    (hpoint : adapter.point = .told ulp) :
    ({ adapter with
        arena := (adapter.arena.use [adapter.mUlp]).delete adapter.mUlp
        point := .deleted ulp } : UlpAdapter M).InOrder ↔ ¬ adapter.Held adapter.mUlp := by
  have htarget := target_told hpoint
  have hmUlp : adapter.mUlp ∈ adapter.arena.live := h.pointers.mUlp (by simp [hpoint])
  have hne : ulp ≠ adapter.mUlp := htarget ▸ hsettled.other (by simp [hpoint])
  constructor
  · rintro hafter (⟨call, hmem, heq⟩ | ⟨msg, hmem, hpointer⟩)
    · have hlive := hafter.pointers.calls call hmem
      exact (Arena.mem_live_leave.mp hlive).2 heq
    · have hlive := hafter.pointers.msgQ msg hmem adapter.mUlp hpointer
      exact (Arena.mem_live_leave.mp hlive).2 rfl
  · intro hfree
    refine ⟨?_, ⟨?_, fun hnot => absurd rfl (hnot ulp), ?_, ?_⟩, ?_⟩
    · exact Arena.clean_use_iff.mpr ⟨h.clean, fun object hobject =>
        List.mem_singleton.mp hobject ▸ hmUlp⟩
    · exact Arena.mem_live_leave.mpr ⟨htarget ▸ h.pointers.target, hne⟩
    · intro call hmem
      refine Arena.mem_live_leave.mpr ⟨h.pointers.calls call hmem, fun heq => ?_⟩
      exact hfree (.inl ⟨call, hmem, heq⟩)
    · intro msg hmem other hother
      refine Arena.mem_live_leave.mpr ⟨h.pointers.msgQ msg hmem other hother, fun heq => ?_⟩
      exact hfree (.inr ⟨msg, hmem, heq ▸ hother⟩)
    · exact htarget ▸ h.informed

theorem delete_settled {ulp : Nat} (hsettled : adapter.Settled) (h : adapter.InOrder)
    (hpoint : adapter.point = .told ulp) (hfree : ¬ adapter.Held adapter.mUlp) :
    ({ adapter with
        arena := (adapter.arena.use [adapter.mUlp]).delete adapter.mUlp
        point := .deleted ulp } : UlpAdapter M).Settled where
  sound := (hsettled.sound.use _).delete (h.pointers.mUlp (by simp [hpoint]))
  known := hsettled.known
  fresh other hother hinstalled htarget :=
    hsettled.fresh other (Arena.mem_live_leave.mp hother).1 hinstalled
      (target_told hpoint ▸ htarget)
  calls call hmem := absurd (.inl ⟨call, hmem, (hsettled.calls call hmem).1⟩) hfree
  other _ := target_told hpoint ▸ hsettled.other (by simp [hpoint])
  gone _ _ hlive := (Arena.mem_live_leave.mp hlive).2 rfl

theorem assign_inOrder {ulp : Nat} (h : adapter.InOrder) (hpoint : adapter.point = .deleted ulp) :
    ({ adapter with mUlp := ulp, point := .outside } : UlpAdapter M).InOrder where
  clean := h.clean
  pointers :=
    { target := target_deleted hpoint ▸ h.pointers.target
      mUlp := fun _ => target_deleted hpoint ▸ h.pointers.target
      calls := h.pointers.calls
      msgQ := h.pointers.msgQ }
  informed := target_deleted hpoint ▸ h.informed

theorem assign_settled {ulp : Nat} (hsettled : adapter.Settled) (h : adapter.InOrder)
    (hpoint : adapter.point = .deleted ulp) :
    ({ adapter with mUlp := ulp, point := .outside } : UlpAdapter M).Settled where
  sound := hsettled.sound
  known := hsettled.sound.fresh ulp (target_deleted hpoint ▸ h.pointers.target)
  fresh other hother hinstalled _ := by
    refine hsettled.fresh other hother (fun heq => ?_) (target_deleted hpoint ▸ hinstalled)
    exact hsettled.gone ulp hpoint (heq ▸ hother)
  calls call hmem := absurd hpoint ((hsettled.calls call hmem).2 ulp)
  other hnot := absurd rfl hnot
  gone := nofun

/-! ### A call -/

/-- What a thread does with the pointer that it has read. -/
theorem finish_cases {index : Nat} {next : UlpAdapter M}
    (h : step adapter (.finish index) = some next) :
    ∃ call, adapter.calls[index]? = some call ∧
      (call.2 = .suplMode ∧ next = { adapter with
          calls := adapter.calls.eraseIdx index
          msgQ := adapter.msgQ ++ [.suplMode call.1] } ∨
        next = { adapter with
          arena := adapter.arena.use [call.1]
          proxies := adapter.update call.1 (call.2.apply (adapter.proxies call.1))
          calls := adapter.calls.eraseIdx index
          asked := call.2.apply adapter.asked }) := by
  simp only [step] at h
  split at h
  · cases h
  · next ulp hcall => exact ⟨(ulp, .suplMode), hcall, .inl ⟨rfl, (Option.some.inj h).symm⟩⟩
  · next ulp call _ hcall => exact ⟨(ulp, call), hcall, .inr (Option.some.inj h).symm⟩

theorem supl_mode_inOrder {index ulp : Nat} (h : adapter.InOrder)
    (hlive : ulp ∈ adapter.arena.live) :
    ({ adapter with
        calls := adapter.calls.eraseIdx index
        msgQ := adapter.msgQ ++ [.suplMode ulp] } : UlpAdapter M).InOrder where
  clean := h.clean
  pointers :=
    { target := h.pointers.target
      mUlp := h.pointers.mUlp
      calls := fun call hmem => h.pointers.calls call (List.mem_of_mem_eraseIdx hmem)
      msgQ := fun msg hmem other hother => by
        rcases List.mem_append.mp hmem with hold | hnew
        · exact h.pointers.msgQ msg hold other hother
        · rw [List.mem_singleton.mp hnew] at hother
          obtain rfl := Option.some.inj hother
          exact hlive }
  informed := h.informed

theorem call_inOrder_iff {index : Nat} {call : Nat × UlpCall M} (hsettled : adapter.Settled)
    (h : adapter.InOrder) (hcall : adapter.calls[index]? = some call) :
    ({ adapter with
        arena := adapter.arena.use [call.1]
        proxies := adapter.update call.1 (call.2.apply (adapter.proxies call.1))
        calls := adapter.calls.eraseIdx index
        asked := call.2.apply adapter.asked } : UlpAdapter M).InOrder ↔
      ∀ ulp, adapter.point = .told ulp → call.2.apply adapter.asked = adapter.asked := by
  have hmem := List.mem_of_getElem? hcall
  obtain ⟨hmUlp, hundeleted⟩ := hsettled.calls call hmem
  have hlive := h.pointers.calls call hmem
  have hinformed : ({ adapter with
        arena := adapter.arena.use [call.1]
        proxies := adapter.update call.1 (call.2.apply (adapter.proxies call.1))
        calls := adapter.calls.eraseIdx index
        asked := call.2.apply adapter.asked } : UlpAdapter M).InOrder ↔
      adapter.update call.1 (call.2.apply (adapter.proxies call.1)) adapter.target =
        call.2.apply adapter.asked := by
    refine ⟨fun hafter => hafter.informed, fun hknows => ⟨?_, ?_, hknows⟩⟩
    · exact Arena.clean_use_iff.mpr ⟨h.clean, fun object hobject =>
        List.mem_singleton.mp hobject ▸ hlive⟩
    · exact ⟨h.pointers.target, h.pointers.mUlp,
        fun other hother => h.pointers.calls other (List.mem_of_mem_eraseIdx hother),
        h.pointers.msgQ⟩
  rw [hinformed]
  cases hpoint : adapter.point with
  | outside =>
      have htarget := target_outside hpoint
      refine iff_of_true ?_ nofun
      rw [htarget, ← hmUlp, update_self, hmUlp, ← htarget, h.informed]
  | told ulp =>
      have htarget := target_told hpoint
      have hne : adapter.target ≠ call.1 := by
        rw [hmUlp]
        exact hsettled.other (by simp [hpoint])
      rw [update_of_ne _ hne, h.informed]
      constructor
      · exact fun heq _ _ => heq.symm
      · exact fun heq => (heq ulp rfl).symm
  | deleted ulp => exact absurd hpoint (hundeleted ulp)

/-! ### Every step -/

/-- What the message thread does outside `setUlpProxy` keeps the adapter in order. -/
theorem proc_outside {next : UlpAdapter M} (hsettled : adapter.Settled) (h : adapter.InOrder)
    (hpoint : adapter.point = .outside) (hstep : step adapter .proc = some next) :
    next.InOrder ∧ next.Settled := by
  simp only [step, hpoint] at hstep
  unfold nextMsg at hstep
  split at hstep
  · cases hstep
  · next ulp msgQ hmsgQ =>
    obtain rfl := Option.some.inj hstep
    have hlive := h.pointers.msgQ (.suplMode ulp) (hmsgQ ▸ List.mem_cons_self) ulp rfl
    have hnext := h.next_msg hmsgQ
    refine ⟨⟨?_, ⟨hnext.pointers.target, hnext.pointers.mUlp, hnext.pointers.calls,
      hnext.pointers.msgQ⟩, hnext.informed⟩, ?_⟩
    · exact Arena.clean_use_iff.mpr ⟨h.clean, fun object hobject =>
        List.mem_singleton.mp hobject ▸ hlive⟩
    · exact ⟨hsettled.sound.use _, hsettled.known, hsettled.fresh, hsettled.calls,
        hsettled.other, hsettled.gone⟩
  · next msgQ hmsgQ =>
    obtain rfl := Option.some.inj hstep
    have hnext := (h.next_msg hmsgQ).constructed (hsettled.next_msg msgQ)
    apply tell_inOrder (hsettled.next_msg msgQ).constructed hnext hpoint
    · exact mem_live_constructed.mpr (.inl rfl)
    · exact Nat.ne_of_gt hsettled.known
  · next ulp msgQ hmsgQ =>
    split at hstep
    · obtain rfl := Option.some.inj hstep
      exact ⟨h.next_msg hmsgQ, hsettled.next_msg msgQ⟩
    · next hne =>
      obtain rfl := Option.some.inj hstep
      have hlive := h.pointers.msgQ (.setUlpProxy (some ulp)) (hmsgQ ▸ List.mem_cons_self) ulp rfl
      exact tell_inOrder (hsettled.next_msg msgQ) (h.next_msg hmsgQ) hpoint hlive hne

/-- A step keeps the adapter in order exactly if it meets `Undisturbed`. -/
theorem step_inOrder_iff {event : UlpEvent M} {next : UlpAdapter M}
    (hsettled : adapter.Settled) (h : adapter.InOrder) (hstep : step adapter event = some next) :
    next.InOrder ↔ adapter.Undisturbed event := by
  cases event with
  | construct =>
      obtain rfl := Option.some.inj hstep
      exact iff_of_true (h.constructed hsettled) trivial
  | setUlpProxy ulp =>
      obtain rfl := Option.some.inj hstep
      constructor
      · intro hafter offered hoffered
        exact hafter.pointers.msgQ (.setUlpProxy ulp)
          (List.mem_append_right _ (List.mem_singleton.mpr rfl)) offered hoffered
      · intro hoffered
        refine ⟨h.clean, ⟨h.pointers.target, h.pointers.mUlp, h.pointers.calls, ?_⟩, h.informed⟩
        intro msg hmem other hother
        rcases List.mem_append.mp hmem with hold | hnew
        · exact h.pointers.msgQ msg hold other hother
        · rw [List.mem_singleton.mp hnew] at hother
          exact hoffered other hother
  | getUlpProxy call =>
      obtain rfl := Option.some.inj hstep
      constructor
      · intro hafter ulp hpoint
        apply hsettled.gone ulp hpoint
        exact hafter.pointers.calls (adapter.mUlp, call)
          (List.mem_append_right _ (List.mem_singleton.mpr rfl))
      · intro hpoint
        refine ⟨h.clean, ⟨h.pointers.target, h.pointers.mUlp, ?_, h.pointers.msgQ⟩, h.informed⟩
        intro other hother
        rcases List.mem_append.mp hother with hold | hnew
        · exact h.pointers.calls other hold
        · rw [List.mem_singleton.mp hnew]
          exact h.pointers.mUlp hpoint
  | finish index =>
      obtain ⟨call, hcall, ⟨hsupl, rfl⟩ | rfl⟩ := finish_cases hstep
      · refine iff_of_true ?_ ?_
        · exact supl_mode_inOrder h (h.pointers.calls call (List.mem_of_getElem? hcall))
        · intro ulp _ other hother
          obtain rfl := Option.some.inj (hcall.symm.trans hother)
          rw [hsupl]
          rfl
      · rw [call_inOrder_iff hsettled h hcall]
        constructor
        · intro hsame ulp hpoint other hother
          obtain rfl := Option.some.inj (hcall.symm.trans hother)
          exact hsame ulp hpoint
        · exact fun hsame ulp hpoint => hsame ulp hpoint call hcall
  | proc =>
      cases hpoint : adapter.point with
      | outside =>
          refine iff_of_true (proc_outside hsettled h hpoint hstep).1 fun ulp htold => ?_
          rw [hpoint] at htold
          cases htold
      | told ulp =>
          simp only [step, hpoint] at hstep
          obtain rfl := Option.some.inj hstep
          rw [delete_inOrder_iff hsettled h hpoint]
          exact ⟨fun hfree _ _ => hfree, fun hfree => hfree ulp hpoint⟩
      | deleted ulp =>
          simp only [step, hpoint] at hstep
          obtain rfl := Option.some.inj hstep
          refine iff_of_true (assign_inOrder h hpoint) fun other htold => ?_
          rw [hpoint] at htold
          cases htold

theorem step_settled {event : UlpEvent M} {next : UlpAdapter M} (hsettled : adapter.Settled)
    (h : adapter.InOrder) (hundisturbed : adapter.Undisturbed event)
    (hstep : step adapter event = some next) : next.Settled := by
  cases event with
  | construct =>
      obtain rfl := Option.some.inj hstep
      exact hsettled.constructed
  | setUlpProxy ulp =>
      obtain rfl := Option.some.inj hstep
      exact hsettled.next_msg _
  | getUlpProxy call =>
      obtain rfl := Option.some.inj hstep
      refine ⟨hsettled.sound, hsettled.known, hsettled.fresh, ?_, hsettled.other, hsettled.gone⟩
      intro other hother
      rcases List.mem_append.mp hother with hold | hnew
      · exact hsettled.calls other hold
      · rw [List.mem_singleton.mp hnew]
        exact ⟨rfl, hundisturbed⟩
  | finish index =>
      obtain ⟨call, hcall, ⟨-, rfl⟩ | rfl⟩ := finish_cases hstep
      · exact ⟨hsettled.sound, hsettled.known, hsettled.fresh,
          fun other hother => hsettled.calls other (List.mem_of_mem_eraseIdx hother),
          hsettled.other, hsettled.gone⟩
      · refine ⟨hsettled.sound.use _, hsettled.known, ?_,
          fun other hother => hsettled.calls other (List.mem_of_mem_eraseIdx hother),
          hsettled.other, hsettled.gone⟩
        intro ulp hlive hinstalled htarget
        have hne : ulp ≠ call.1 := by
          rw [(hsettled.calls call (List.mem_of_getElem? hcall)).1]
          exact hinstalled
        exact (update_of_ne _ hne).trans (hsettled.fresh ulp hlive hinstalled htarget)
  | proc =>
      cases hpoint : adapter.point with
      | outside => exact (proc_outside hsettled h hpoint hstep).2
      | told ulp =>
          simp only [step, hpoint] at hstep
          obtain rfl := Option.some.inj hstep
          exact delete_settled hsettled h hpoint (hundisturbed ulp hpoint)
      | deleted ulp =>
          simp only [step, hpoint] at hstep
          obtain rfl := Option.some.inj hstep
          exact assign_settled hsettled h hpoint

/-- Through a whole run, with any number of proxies put in each other's place, no proxy
is used after its deletion nor can be, and the proxy in place knows the mode and the
start that the framework has asked for last, exactly if every step meets
`Undisturbed`. -/
theorem ulp_in_order_iff {events : List (UlpEvent M)}
    (hrun : (exec step (init : UlpAdapter M) events).isSome) :
    Always step InOrder (init : UlpAdapter M) events ↔ Along step Undisturbed init events := by
  obtain ⟨last, hlast⟩ := Option.isSome_iff_exists.mp hrun
  exact always_iff_of_good_step
    (fun _ _ _ hsettled h hundisturbed hstep => step_settled hsettled h hundisturbed hstep)
    (fun _ _ _ hsettled h hstep => step_inOrder_iff hsettled h hstep)
    init_settled init_inOrder hlast

/-- The pointer of a message is read before another proxy takes the place of the one it
points to, and the message comes after that. -/
def suplModeLate : List (UlpEvent Nat) :=
  [.construct, .setUlpProxy (some 1), .getUlpProxy .suplMode, .finish 0, .proc, .proc]

theorem ulp_in_order_iff_late : ¬ Always step InOrder (init : UlpAdapter Nat) suplModeLate := by
  rw [ulp_in_order_iff rfl]
  intro h
  simp [suplModeLate, Along, step, nextMsg, tell, init, Undisturbed, Held, UlpMsg.pointer] at h

end UlpAdapter

end Msm8916.Engine.Ulp
