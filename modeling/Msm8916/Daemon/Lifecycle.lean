import Msm8916.Daemon.ThreadHelper

/-!
What a run of the thread helper calls, and what `loc_eng_dmn_conn_launch_thelper` knows
when it returns.
-/

namespace Msm8916.Daemon.ThreadHelper

open Transition

/-! ## Which procedures are called -/

/-- A procedure that is called once if it is given, and does not fail. -/
def Succeeds (given : Bool) (call : Int → Call) (calls : List Call) : Prop :=
  if given then ∃ result, 0 ≤ result ∧ calls = [call result] else calls = []

/-- The calls before the loop, none of which has failed. -/
def Opened (procs : Procs) (calls : List Call) : Prop :=
  ∃ first second, Succeeds procs.threadProcInit .init first ∧
    Succeeds procs.threadProcPre .pre second ∧ calls = first ++ second

/-- The calls up to the test of a loop whose turns have returned `results`: only the
last turn may have failed. -/
def Looped (procs : Procs) (results : List Int) (calls : List Call) : Prop :=
  ∃ opened, Opened procs opened ∧ calls = opened ++ results.map .proc ∧
    (∀ result ∈ results.dropLast, 0 ≤ result) ∧ (procs.threadProc = true → results ≠ []) ∧
      (procs.threadProc = false → results = [])

/-- The calls of a thread that has finished. -/
inductive Lifecycle (procs : Procs) : List Call → Prop
  | initFailed (hgiven : procs.threadProcInit = true) {result : Int} (h : result < 0) :
      Lifecycle procs [.init result]
  | preFailed (hgiven : procs.threadProcPre = true) {opened : List Call}
      (hopened : Succeeds procs.threadProcInit .init opened) {result : Int} (h : result < 0) :
      Lifecycle procs (opened ++ [.pre result])
  | looped {results : List Int} {calls closing : List Call} (h : Looped procs results calls)
      (hclosing : (∃ result, procs.threadProcPost = true ∧ closing = [.post result]) ∨
        procs.threadProcPost = false ∧ closing = []) :
      Lifecycle procs (calls ++ closing)

/-- The calls that have been made when the thread is at a point of `thelper_main`. -/
def History (procs : Procs) (thread_exit : Bool) (calls : List Call) : ChildPoint → Prop
  | .absent | .init => calls = []
  | .initFailed | .readyLock true | .setReady true | .signal true | .readyUnlock true =>
      procs.threadProcInit = true ∧ ∃ result : Int, result < 0 ∧ calls = [.init result]
  | .readyLock false | .setReady false | .signal false | .readyUnlock false | .pre =>
      Succeeds procs.threadProcInit .init calls
  | .preFailed =>
      procs.threadProcPre = true ∧ ∃ opened, ∃ result : Int,
        Succeeds procs.threadProcInit .init opened ∧ result < 0 ∧ calls = opened ++ [.pre result]
  | .proc =>
      ∃ opened, ∃ results : List Int, Opened procs opened ∧ calls = opened ++ results.map .proc ∧
        (∀ result ∈ results, 0 ≤ result) ∧ (procs.threadProc = false → results = [])
  | .inProc =>
      procs.threadProc = true ∧ ∃ opened, ∃ results : List Int, Opened procs opened ∧
        calls = opened ++ results.map .proc ∧ ∀ result ∈ results, 0 ≤ result
  | .procFailed => ∃ results, Looped procs results calls
  | .loopTest =>
      ∃ results, Looped procs results calls ∧
        (thread_exit = false → ∀ result ∈ results, 0 ≤ result)
  | .post => ∃ results, Looped procs results calls
  | .finished => Lifecycle procs calls

theorem History.mono {procs : Procs} {thread_exit : Bool} {calls : List Call}
    {point : ChildPoint} (h : History procs thread_exit calls point) :
    History procs true calls point := by
  cases point
  case loopTest =>
      obtain ⟨results, hlooped, -⟩ := h
      exact ⟨results, hlooped, fun heq => by cases heq⟩
  case readyLock failed | setReady failed | signal failed | readyUnlock failed =>
      cases failed <;> exact h
  all_goals exact h

theorem Succeeds.of_given {given : Bool} {call : Int → Call} {result : Int}
    (hgiven : given = true) (h : ¬ result < 0) : Succeeds given call [call result] := by
  rw [Succeeds, if_pos hgiven]
  exact ⟨result, Int.not_lt.mp h, rfl⟩

theorem Succeeds.of_null {given : Bool} {call : Int → Call} (hgiven : ¬ given = true) :
    Succeeds given call [] := by
  rw [Succeeds, if_neg hgiven]

/-- A turn of the loop. -/
theorem Looped.turn {procs : Procs} {opened : List Call} {results : List Int}
    (hopened : Opened procs opened) (hgiven : procs.threadProc = true)
    (hresults : ∀ result ∈ results, 0 ≤ result) (result : Int) :
    Looped procs (results ++ [result]) (opened ++ results.map .proc ++ [.proc result]) := by
  refine ⟨opened, hopened, by simp, ?_, fun _ => by simp, fun hnull => ?_⟩
  · rwa [List.dropLast_concat]
  · rw [hgiven] at hnull
    cases hnull

/-- A turn of a loop without `thread_proc`. -/
theorem Looped.idle {procs : Procs} {opened : List Call} {results : List Int}
    (hopened : Opened procs opened) (hgiven : ¬ procs.threadProc = true)
    (hnull : procs.threadProc = false → results = []) :
    Looped procs [] (opened ++ results.map .proc) := by
  obtain rfl := hnull (Bool.not_eq_true _ ▸ hgiven)
  exact ⟨opened, hopened, rfl, by simp, fun h => absurd h hgiven, fun _ => rfl⟩

/-- Every call that the new thread makes continues its history. -/
theorem History.childStep {procs : Procs} {thelper next : Thelper} {result : Int}
    (h : History procs thelper.thread_exit thelper.calls thelper.child)
    (hstep : thelper.childStep procs result = some next) :
    History procs next.thread_exit next.calls next.child := by
  cases hpoint : thelper.child <;> rw [hpoint] at h <;>
    simp only [Thelper.childStep, hpoint] at hstep
  case absent | finished => cases hstep
  case init =>
      have hcalls : thelper.calls = [] := h
      split at hstep <;> obtain rfl := Option.some.inj hstep
      · next hgiven =>
        dsimp only
        rw [hcalls, List.nil_append]
        split
        · next hneg => exact ⟨hgiven, result, hneg, rfl⟩
        · next hneg => exact Succeeds.of_given hgiven hneg
      · next hgiven =>
        dsimp only
        rw [hcalls]
        exact Succeeds.of_null hgiven
  case initFailed =>
      obtain rfl := Option.some.inj hstep
      exact h
  case readyLock failed =>
      obtain ⟨-, hstep⟩ := Option.ite_none_right_eq_some.mp hstep
      obtain rfl := Option.some.inj hstep
      cases failed <;> exact h
  case setReady failed | signal failed =>
      obtain rfl := Option.some.inj hstep
      cases failed <;> exact h
  case readyUnlock failed =>
      obtain rfl := Option.some.inj hstep
      cases failed
      · exact h
      · obtain ⟨hgiven, r, hneg, hcalls⟩ := h
        dsimp only
        rw [hcalls]
        exact .initFailed hgiven hneg
  case pre =>
      split at hstep <;> obtain rfl := Option.some.inj hstep
      · next hgiven =>
        dsimp only
        split
        · next hneg => exact ⟨hgiven, thelper.calls, result, h, hneg, rfl⟩
        · next hneg =>
          exact ⟨thelper.calls ++ [.pre result], [],
            ⟨thelper.calls, [.pre result], h, Succeeds.of_given hgiven hneg, rfl⟩,
            by simp, by simp, fun _ => rfl⟩
      · next hgiven =>
        exact ⟨thelper.calls, [], ⟨thelper.calls, [], h, Succeeds.of_null hgiven, by simp⟩,
          by simp, by simp, fun _ => rfl⟩
  case preFailed =>
      obtain rfl := Option.some.inj hstep
      obtain ⟨hgiven, opened, r, hopened, hneg, hcalls⟩ := h
      dsimp only
      rw [hcalls]
      exact .preFailed hgiven hopened hneg
  case proc =>
      obtain ⟨opened, results, hopened, hcalls, hresults, hnull⟩ := h
      split at hstep <;> obtain rfl := Option.some.inj hstep
      · next hgiven => exact ⟨hgiven, opened, results, hopened, hcalls, hresults⟩
      · next hgiven =>
        refine ⟨[], ?_, fun _ _ hmem => by cases hmem⟩
        dsimp only
        rw [hcalls]
        exact Looped.idle hopened hgiven hnull
  case inProc =>
      obtain rfl := Option.some.inj hstep
      obtain ⟨hgiven, opened, results, hopened, hcalls, hresults⟩ := h
      have hlooped := Looped.turn hopened hgiven hresults result
      rw [← hcalls] at hlooped
      dsimp only
      split
      · exact ⟨_, hlooped⟩
      · next hneg =>
        refine ⟨_, hlooped, fun _ r hmem => ?_⟩
        rcases List.mem_append.mp hmem with hmem | hmem
        · exact hresults r hmem
        · rw [List.mem_singleton.mp hmem]
          exact Int.not_lt.mp hneg
  case procFailed =>
      obtain rfl := Option.some.inj hstep
      obtain ⟨results, hlooped⟩ := h
      exact ⟨results, hlooped, fun heq => by cases heq⟩
  case loopTest =>
      obtain rfl := Option.some.inj hstep
      obtain ⟨results, hlooped, hresults⟩ := h
      dsimp only
      split
      · exact ⟨results, hlooped⟩
      · next hexit =>
        obtain ⟨opened, hopened, hcalls, -, -, hnull⟩ := hlooped
        exact ⟨opened, results, hopened, hcalls, hresults (Bool.not_eq_true _ ▸ hexit), hnull⟩
  case post =>
      obtain ⟨results, hlooped⟩ := h
      split at hstep <;> obtain rfl := Option.some.inj hstep
      · next hgiven => exact .looped hlooped (.inl ⟨result, hgiven, rfl⟩)
      · next hgiven =>
        have hfinished : Lifecycle procs (thelper.calls ++ []) :=
          .looped hlooped (.inr ⟨Bool.not_eq_true _ ▸ hgiven, rfl⟩)
        rwa [List.append_nil] at hfinished

/-- The launching thread calls no procedure; it creates the new thread and clears the
flags before that. -/
theorem launcherStep_frame {procs : Procs} {thelper next : Thelper} {created : Bool}
    (h : thelper.launcherStep procs created = some next) :
    next.calls = thelper.calls ∧ next.begunAfterExit = thelper.begunAfterExit ∧
      ((next.child = thelper.child ∧
          (next.thread_exit = thelper.thread_exit ∨ thelper.launcher = .signalInit)) ∨
        (thelper.launcher = .create ∧ next.child = .init ∧
          next.thread_exit = thelper.thread_exit)) := by
  cases hpoint : thelper.launcher <;> simp only [Thelper.launcherStep, hpoint] at h
  case waiting | launched | joined => cases h
  case lock | relock =>
      obtain ⟨-, h⟩ := Option.ite_none_right_eq_some.mp h
      obtain rfl := Option.some.inj h
      exact ⟨rfl, rfl, .inl ⟨rfl, .inl rfl⟩⟩
  case create =>
      split at h
      · obtain rfl := Option.some.inj h
        exact ⟨rfl, rfl, .inr ⟨rfl, rfl, rfl⟩⟩
      · split at h <;> obtain rfl := Option.some.inj h <;>
          exact ⟨rfl, rfl, .inl ⟨rfl, .inl rfl⟩⟩
  case signalInit =>
      obtain rfl := Option.some.inj h
      exact ⟨rfl, rfl, .inl ⟨rfl, .inr rfl⟩⟩
  case test =>
      split at h <;> obtain rfl := Option.some.inj h <;>
        exact ⟨rfl, rfl, .inl ⟨rfl, .inl rfl⟩⟩
  case testExit | readExit =>
      obtain rfl := Option.some.inj h
      exact ⟨rfl, rfl, .inl ⟨rfl, .inl rfl⟩⟩

theorem Synchronized.child_absent {procs : Procs} {thelper : Thelper}
    (h : Synchronized procs thelper)
    (hpoint : thelper.launcher = .signalInit ∨ thelper.launcher = .create) :
    thelper.child = .absent :=
  phase_eq_absent.mp (h.unmade (hpoint.imp_right .inl))

theorem History.step {procs : Procs} {thelper next : Thelper} {event : Event}
    (hsync : Synchronized procs thelper)
    (h : History procs thelper.thread_exit thelper.calls thelper.child)
    (hstep : step procs thelper event = some next) :
    History procs next.thread_exit next.calls next.child := by
  cases event with
  | launcher created =>
      obtain ⟨hcalls, -, ⟨hchild, hexit | hpoint⟩ | ⟨hpoint, hchild, -⟩⟩ :=
        launcherStep_frame hstep
      · rwa [hcalls, hchild, hexit]
      · rw [hsync.child_absent (.inl hpoint)] at h hchild
        rw [hcalls, hchild]
        exact h
      · rw [hsync.child_absent (.inr hpoint)] at h
        rw [hcalls, hchild]
        exact h
  | child result => exact h.childStep hstep
  | spuriousWakeup =>
      obtain ⟨-, hstep⟩ := Option.ite_none_right_eq_some.mp hstep
      obtain rfl := Option.some.inj hstep
      exact h
  | unblock =>
      obtain rfl := Option.some.inj hstep
      exact h.mono
  | join =>
      obtain ⟨-, -, rfl⟩ := join_cases hstep
      exact h

/-- The thread is past the call of `thread_proc` that it last began. -/
def ChildPoint.pastProc : ChildPoint → Bool
  | .inProc | .procFailed | .loopTest | .post | .finished => true
  | _ => false

/-- At most one call of `thread_proc` is begun once the thread is to exit, and none
after that. -/
structure LastTurn (thelper : Thelper) : Prop where
  once : thelper.begunAfterExit ≤ 1
  exit : 0 < thelper.begunAfterExit → thelper.thread_exit = true ∧ thelper.child.pastProc

theorem LastTurn.childStep {procs : Procs} {thelper next : Thelper} {result : Int}
    (h : LastTurn thelper) (hstep : thelper.childStep procs result = some next) :
    LastTurn next := by
  obtain ⟨honce, hexit⟩ := h
  have hnone : thelper.child.pastProc = false → thelper.begunAfterExit = 0 := by
    intro hpast
    by_contra hbegun
    obtain ⟨-, hpast'⟩ := hexit (Nat.pos_of_ne_zero hbegun)
    rw [hpast] at hpast'
    cases hpast'
  cases hpoint : thelper.child <;> rw [hpoint] at hexit hnone <;>
    simp only [Thelper.childStep, hpoint] at hstep
  case absent | finished => cases hstep
  case proc =>
      have hzero := hnone rfl
      split at hstep <;> obtain rfl := Option.some.inj hstep
      · constructor <;> dsimp only <;> split <;> simp_all [ChildPoint.pastProc]
      · constructor <;> simp_all
  case readyLock =>
      obtain ⟨-, hstep⟩ := Option.ite_none_right_eq_some.mp hstep
      obtain rfl := Option.some.inj hstep
      constructor <;> simp_all [ChildPoint.pastProc]
  case init | pre =>
      have hzero := hnone rfl
      split at hstep <;> obtain rfl := Option.some.inj hstep <;> constructor <;> simp_all
  case post =>
      split at hstep <;> obtain rfl := Option.some.inj hstep <;> constructor <;>
        simp_all [ChildPoint.pastProc]
  case loopTest =>
      obtain rfl := Option.some.inj hstep
      refine ⟨honce, fun hbegun => ?_⟩
      obtain ⟨hset, -⟩ := hexit hbegun
      simp [hset, ChildPoint.pastProc]
  case inProc =>
      obtain rfl := Option.some.inj hstep
      refine ⟨honce, fun hbegun => ⟨(hexit hbegun).1, ?_⟩⟩
      dsimp only
      split <;> rfl
  all_goals
    obtain rfl := Option.some.inj hstep
    constructor <;> simp_all [ChildPoint.pastProc]

theorem LastTurn.step {procs : Procs} {thelper next : Thelper} {event : Event}
    (hsync : Synchronized procs thelper) (h : LastTurn thelper)
    (hstep : step procs thelper event = some next) : LastTurn next := by
  cases event with
  | launcher created =>
      obtain ⟨-, hbegun, hchild⟩ := launcherStep_frame hstep
      refine ⟨hbegun ▸ h.once, fun hpos => ?_⟩
      obtain ⟨hexit, hpast⟩ := h.exit (hbegun ▸ hpos)
      rcases hchild with ⟨hchild, hsame | hpoint⟩ | ⟨hpoint, -⟩
      · exact ⟨hsame ▸ hexit, hchild ▸ hpast⟩
      · simp [hsync.child_absent (.inl hpoint), ChildPoint.pastProc] at hpast
      · simp [hsync.child_absent (.inr hpoint), ChildPoint.pastProc] at hpast
  | child result => exact h.childStep hstep
  | spuriousWakeup =>
      obtain ⟨-, hstep⟩ := Option.ite_none_right_eq_some.mp hstep
      obtain rfl := Option.some.inj hstep
      exact ⟨h.once, h.exit⟩
  | unblock =>
      obtain rfl := Option.some.inj hstep
      exact ⟨h.once, fun hpos => ⟨rfl, (h.exit hpos).2⟩⟩
  | join =>
      obtain ⟨-, -, rfl⟩ := join_cases hstep
      exact ⟨h.once, h.exit⟩

/-- What holds after every run. -/
theorem Reached.history {procs : Procs} {thelper : Thelper} (h : Reached procs thelper) :
    History procs thelper.thread_exit thelper.calls thelper.child ∧ LastTurn thelper := by
  obtain ⟨thread_exit, thread_ready, hreach⟩ := h
  refine (invariant_of_step (I := fun thelper => Synchronized procs thelper ∧
    History procs thelper.thread_exit thelper.calls thelper.child ∧ LastTurn thelper)
    ?_ ⟨synchronized_unlaunched procs thread_exit thread_ready, rfl, Nat.zero_le 1, ?_⟩ hreach).2
  · rintro state label next ⟨hsync, hhistory, hlast⟩ hstep
    exact ⟨hsync.next hstep, hhistory.step hsync hstep, hlast.step hsync hstep⟩
  · intro hpos
    cases hpos

/-- A thread that has finished has called `thread_proc_init` and `thread_proc_pre` at
most once, in this order and before the loop, nothing after the first of them that
failed, and after the loop `thread_proc_post` once. A turn of the loop that failed was
the last one, and at most one turn was begun after the thread had been unblocked. -/
theorem calls_of_finished {procs : Procs} {thelper : Thelper} (h : Reached procs thelper)
    (hfinished : thelper.child = .finished) :
    Lifecycle procs thelper.calls ∧ thelper.begunAfterExit ≤ 1 := by
  obtain ⟨hhistory, hlast⟩ := h.history
  rw [hfinished] at hhistory
  exact ⟨hhistory, hlast.once⟩

/-- The second turn fails. -/
def secondTurnFails : List Event :=
  [.launcher true, .launcher true] ++ List.replicate 10 (.child 0) ++
    List.replicate 4 (.child (-1))

theorem calls_of_finished_second_turn :
    let thelper : Thelper := ⟨true, true, none, .lock, .finished,
      [.init 0, .pre 0, .proc 0, .proc (-1), .post (-1)], 0⟩
    exec (step ⟨true, true, true, true, true⟩) (.unlaunched false false) secondTurnFails =
        some thelper ∧
      Lifecycle ⟨true, true, true, true, true⟩ thelper.calls ∧ thelper.begunAfterExit ≤ 1 :=
  ⟨by decide, calls_of_finished ⟨false, false, secondTurnFails, by decide⟩ rfl⟩

/-! ## What the launch answers -/

def LaunchPoint.returned : LaunchPoint → Bool
  | .launched _ | .joined => true
  | _ => false

/-- The launching thread is past its wait. -/
def LaunchPoint.woken : LaunchPoint → Bool
  | .relock | .testExit | .readExit | .joined => true
  | .launched result => result != -1
  | _ => false

/-- What `thread_proc_init` has returned is in the flags. -/
def ChildPoint.initDone : ChildPoint → Bool
  | .absent | .init | .initFailed => false
  | _ => true

/-- The condition variable wakes the launching thread up on a signal only, and nobody
unblocks the thread while it is being launched. -/
def Quiet (thelper : Thelper) : Event → Prop
  | .spuriousWakeup => False
  | .unblock => thelper.launcher.returned
  | _ => True

def InitFailed (calls : List Call) : Prop :=
  ∃ result : Int, .init result ∈ calls ∧ result < 0

/-- What a quiet launch goes by. -/
structure Informed (thelper : Thelper) : Prop where
  exit : thelper.launcher.returned = false → thelper.launcher ≠ .signalInit →
    thelper.thread_exit = true → thelper.child.initDone
  woken : thelper.launcher.woken → thelper.child.initDone
  failed : thelper.child.initDone → InitFailed thelper.calls → thelper.thread_exit = true
  answer : ∀ result, thelper.launcher = .launched result → result = -1 ∨ result = 1 ∨
    result = 0 ∧ ¬ InitFailed thelper.calls

theorem Informed.launcherStep {procs : Procs} {thelper next : Thelper} {created : Bool}
    (hsync : Synchronized procs thelper) (h : Informed thelper)
    (hstep : thelper.launcherStep procs created = some next) : Informed next := by
  obtain ⟨hexit, hwoken, hfailed, hanswer⟩ := h
  cases hpoint : thelper.launcher <;> rw [hpoint] at hexit hwoken <;>
    simp only [Thelper.launcherStep, hpoint] at hstep
  case waiting | launched | joined => cases hstep
  case signalInit =>
      have hchild := hsync.child_absent (.inl hpoint)
      obtain rfl := Option.some.inj hstep
      constructor <;> simp_all [LaunchPoint.woken, ChildPoint.initDone]
  case create =>
      have hchild := hsync.child_absent (.inr hpoint)
      split at hstep
      · obtain rfl := Option.some.inj hstep
        constructor <;> simp_all [LaunchPoint.woken, LaunchPoint.returned, ChildPoint.initDone]
      · split at hstep <;> obtain rfl := Option.some.inj hstep <;> constructor <;>
          simp_all [LaunchPoint.woken, LaunchPoint.returned, ChildPoint.initDone]
  case lock | relock =>
      obtain ⟨-, hstep⟩ := Option.ite_none_right_eq_some.mp hstep
      obtain rfl := Option.some.inj hstep
      constructor <;> simp_all [LaunchPoint.woken, LaunchPoint.returned]
  case test =>
      split at hstep <;> obtain rfl := Option.some.inj hstep
      · constructor <;> simp_all [LaunchPoint.woken, LaunchPoint.returned]
      · next hflags =>
        have hdone : thelper.child.initDone := by
          by_cases hset : thelper.thread_exit = true
          · exact hexit rfl (by simp) hset
          · have hready : thelper.child.phase.isReady = true := by
              rw [← hsync.ready (by simp [hpoint])]
              simpa [hset] using hflags
            cases hchild : thelper.child <;>
              simp_all [ChildPoint.phase, Phase.isReady, ChildPoint.initDone]
        constructor <;> simp_all [LaunchPoint.woken, LaunchPoint.returned]
  case testExit =>
      obtain rfl := Option.some.inj hstep
      constructor <;> simp_all [LaunchPoint.woken, LaunchPoint.returned]
  case readExit =>
      obtain rfl := Option.some.inj hstep
      have hdone : thelper.child.initDone := hwoken rfl
      refine ⟨by simp [LaunchPoint.returned], fun _ => hdone, hfailed, fun result heq => ?_⟩
      obtain rfl := LaunchPoint.launched.inj heq
      by_cases hset : thelper.thread_exit = true
      · simp [hset]
      · have hsucceeded : ¬ InitFailed thelper.calls := fun h => hset (hfailed hdone h)
        simp [hset, hsucceeded]

theorem initFailed_append {calls : List Call} {call : Call}
    (hcall : ∀ result : Int, call = .init result → 0 ≤ result) :
    InitFailed (calls ++ [call]) ↔ InitFailed calls := by
  constructor
  · rintro ⟨result, hmem, hneg⟩
    rcases List.mem_append.mp hmem with hmem | hmem
    · exact ⟨result, hmem, hneg⟩
    · have hnonneg := hcall result (List.mem_singleton.mp hmem).symm
      omega
  · rintro ⟨result, hmem, hneg⟩
    exact ⟨result, List.mem_append_left _ hmem, hneg⟩

/-- What a step of the new thread does to what the launch goes by. -/
theorem childStep_informed {procs : Procs} {thelper next : Thelper} {result : Int}
    (h : thelper.childStep procs result = some next) :
    (thelper.child.initDone → next.child.initDone) ∧
      (thelper.thread_exit = true → next.thread_exit = true) ∧
      (next.thread_exit = true → thelper.thread_exit = true ∨ next.child.initDone) ∧
      (next.child.initDone → InitFailed next.calls →
        InitFailed thelper.calls ∧ (thelper.child = .initFailed → next.thread_exit = true)) := by
  cases hpoint : thelper.child <;> simp only [Thelper.childStep, hpoint] at h
  case absent | finished => cases h
  case init =>
      split at h <;> obtain rfl := Option.some.inj h
      · by_cases hneg : result < 0
        · simp [hneg, ChildPoint.initDone]
        · refine ⟨by simp [ChildPoint.initDone], id, .inl, fun _ hfailed => ⟨?_, by simp⟩⟩
          refine (initFailed_append fun r heq => ?_).mp hfailed
          obtain rfl := Call.init.inj heq
          exact Int.not_lt.mp hneg
      · exact ⟨fun _ => rfl, id, .inl, fun _ hfailed => ⟨hfailed, by simp⟩⟩
  case initFailed =>
      obtain rfl := Option.some.inj h
      exact ⟨fun _ => rfl, fun _ => rfl, fun _ => .inr rfl,
        fun _ hfailed => ⟨hfailed, fun _ => rfl⟩⟩
  case readyLock =>
      obtain ⟨-, h⟩ := Option.ite_none_right_eq_some.mp h
      obtain rfl := Option.some.inj h
      exact ⟨id, id, .inl, fun _ hfailed => ⟨hfailed, by simp⟩⟩
  case setReady | signal =>
      obtain rfl := Option.some.inj h
      exact ⟨id, id, .inl, fun _ hfailed => ⟨hfailed, by simp⟩⟩
  case readyUnlock failed =>
      obtain rfl := Option.some.inj h
      cases failed <;> exact ⟨id, id, .inl, fun _ hfailed => ⟨hfailed, by simp⟩⟩
  case preFailed | procFailed =>
      obtain rfl := Option.some.inj h
      exact ⟨id, fun _ => rfl, fun _ => .inr rfl, fun _ hfailed => ⟨hfailed, by simp⟩⟩
  case loopTest =>
      obtain rfl := Option.some.inj h
      refine ⟨fun _ => ?_, id, .inl, fun _ hfailed => ⟨hfailed, by simp⟩⟩
      dsimp only
      split <;> rfl
  case inProc =>
      obtain rfl := Option.some.inj h
      refine ⟨fun _ => ?_, id, .inl,
        fun _ hfailed => ⟨(initFailed_append (by simp)).mp hfailed, by simp⟩⟩
      dsimp only
      split <;> rfl
  case pre =>
      split at h <;> obtain rfl := Option.some.inj h
      · refine ⟨fun _ => ?_, id, .inl,
          fun _ hfailed => ⟨(initFailed_append (by simp)).mp hfailed, by simp⟩⟩
        dsimp only
        split <;> rfl
      · exact ⟨fun _ => rfl, id, .inl, fun _ hfailed => ⟨hfailed, by simp⟩⟩
  case proc =>
      split at h <;> obtain rfl := Option.some.inj h <;>
        exact ⟨fun _ => rfl, id, .inl, fun _ hfailed => ⟨hfailed, by simp⟩⟩
  case post =>
      split at h <;> obtain rfl := Option.some.inj h
      · exact ⟨fun _ => rfl, id, .inl,
          fun _ hfailed => ⟨(initFailed_append (by simp)).mp hfailed, by simp⟩⟩
      · exact ⟨fun _ => rfl, id, .inl, fun _ hfailed => ⟨hfailed, by simp⟩⟩

theorem Informed.childStep {procs : Procs} {thelper next : Thelper} {result : Int}
    (hhistory : History procs thelper.thread_exit thelper.calls thelper.child)
    (h : Informed thelper) (hstep : thelper.childStep procs result = some next) :
    Informed next := by
  obtain ⟨hexit, hwoken, hfailed, hanswer⟩ := h
  obtain ⟨hdone, hset, hnewly, hcalls⟩ := childStep_informed hstep
  have hlauncher : next.launcher = thelper.launcher ∨
      (thelper.launcher = .waiting ∧ next.launcher = .relock ∧ next.child.initDone) := by
    rcases childStep_handshake hstep with ⟨-, -, hl, -⟩ | ⟨-, -, -, -, hl, -⟩ |
      ⟨-, -, -, hl, -⟩ | ⟨-, -, -, hl, hphase⟩ | ⟨-, -, -, hl, -⟩
    case inr.inr.inr.inl =>
      by_cases hwaiting : thelper.launcher = .waiting
      · rw [if_pos hwaiting] at hl
        refine .inr ⟨hwaiting, hl, ?_⟩
        cases hchild : next.child <;> simp_all [ChildPoint.phase, ChildPoint.initDone]
      · exact .inl (by rw [hl, if_neg hwaiting])
    all_goals exact .inl hl
  have hafter : next.child.initDone → InitFailed next.calls → next.thread_exit = true := by
    intro hafter hinit
    obtain ⟨hbefore, hlate⟩ := hcalls hafter hinit
    by_cases hwas : thelper.child.initDone
    · exact hset (hfailed hwas hbefore)
    · cases hchild : thelper.child <;> simp only [hchild, ChildPoint.initDone, not_true] at hwas
      case absent => simp [Thelper.childStep, hchild] at hstep
      case init =>
          rw [hchild] at hhistory
          obtain ⟨result, hmem, -⟩ := hbefore
          rw [show thelper.calls = [] from hhistory] at hmem
          cases hmem
      case initFailed => exact hlate hchild
  rcases hlauncher with hlauncher | ⟨hwaiting, hlauncher, hdone'⟩
  · refine ⟨?_, ?_, hafter, ?_⟩ <;> rw [hlauncher]
    · intro hunreturned hinit hexit'
      rcases hnewly hexit' with hbefore | hdone'
      · exact hdone (hexit hunreturned hinit hbefore)
      · exact hdone'
    · exact fun hw => hdone (hwoken hw)
    · intro result hpoint
      rcases hanswer result hpoint with heq | heq | ⟨heq, hsucceeded⟩
      · exact .inl heq
      · exact .inr (.inl heq)
      · refine .inr (.inr ⟨heq, fun hinit => ?_⟩)
        have hwas : thelper.child.initDone := hwoken (by simp [hpoint, heq, LaunchPoint.woken])
        exact hsucceeded (hcalls (hdone hwas) hinit).1
  · refine ⟨fun _ _ _ => hdone', fun _ => hdone', hafter, ?_⟩
    simp [hlauncher]

theorem Informed.step {procs : Procs} {thelper next : Thelper} {event : Event}
    (hsync : Synchronized procs thelper)
    (hhistory : History procs thelper.thread_exit thelper.calls thelper.child)
    (h : Informed thelper) (hquiet : Quiet thelper event)
    (hstep : step procs thelper event = some next) : Informed next := by
  cases event with
  | launcher created => exact h.launcherStep hsync hstep
  | child result => exact h.childStep hhistory hstep
  | spuriousWakeup => exact hquiet.elim
  | unblock =>
      obtain rfl := Option.some.inj hstep
      have hreturned : thelper.launcher.returned := hquiet
      refine ⟨fun hunreturned => ?_, h.woken, fun _ _ => rfl, h.answer⟩
      rw [hreturned] at hunreturned
      cases hunreturned
  | join =>
      obtain ⟨-, hfinished, rfl⟩ := join_cases hstep
      have hdone : thelper.child.initDone := by rw [hfinished]; rfl
      exact ⟨fun _ _ _ => hdone, fun _ => hdone, h.failed, nofun⟩

theorem informed_of_quiet {procs : Procs} {thread_exit thread_ready : Bool}
    {events : List Event} {thelper : Thelper}
    (hrun : exec (step procs) (Thelper.unlaunched thread_exit thread_ready) events =
      some thelper)
    (hquiet : Along (step procs) Quiet (Thelper.unlaunched thread_exit thread_ready) events) :
    Informed thelper := by
  refine (invariant_of_along (I := fun thelper => Synchronized procs thelper ∧
    History procs thelper.thread_exit thelper.calls thelper.child ∧ Informed thelper)
    ?_ ⟨synchronized_unlaunched procs thread_exit thread_ready, rfl, ?_⟩ hquiet hrun).2.2
  · rintro state label next ⟨hsync, hhistory, hinformed⟩ hlabel hstep
    exact ⟨hsync.next hstep, hhistory.step hsync hstep,
      hinformed.step hsync hhistory hlabel hstep⟩
  · constructor <;> simp [Thelper.unlaunched, LaunchPoint.woken, ChildPoint.initDone]

theorem Succeeds.mem {given : Bool} {call : Int → Call} {calls : List Call}
    (h : Succeeds given call calls) (hgiven : given = true) : ∃ result, call result ∈ calls := by
  rw [Succeeds, if_pos hgiven] at h
  obtain ⟨result, -, rfl⟩ := h
  exact ⟨result, List.mem_singleton.mpr rfl⟩

theorem Opened.mem {procs : Procs} {calls : List Call} (h : Opened procs calls)
    (hgiven : procs.threadProcInit = true) : ∃ result, .init result ∈ calls := by
  obtain ⟨first, second, hfirst, -, rfl⟩ := h
  obtain ⟨result, hmem⟩ := hfirst.mem hgiven
  exact ⟨result, List.mem_append_left second hmem⟩

theorem Looped.mem {procs : Procs} {results : List Int} {calls : List Call}
    (h : Looped procs results calls) (hgiven : procs.threadProcInit = true) :
    ∃ result, .init result ∈ calls := by
  obtain ⟨opened, hopened, rfl, -⟩ := h
  obtain ⟨result, hmem⟩ := hopened.mem hgiven
  exact ⟨result, List.mem_append_left _ hmem⟩

theorem Lifecycle.mem {procs : Procs} {calls : List Call} (h : Lifecycle procs calls)
    (hgiven : procs.threadProcInit = true) : ∃ result, .init result ∈ calls := by
  cases h with
  | initFailed => exact ⟨_, List.mem_singleton.mpr rfl⟩
  | preFailed _ hopened =>
      obtain ⟨result, hmem⟩ := hopened.mem hgiven
      exact ⟨result, List.mem_append_left _ hmem⟩
  | looped hlooped =>
      obtain ⟨result, hmem⟩ := hlooped.mem hgiven
      exact ⟨result, List.mem_append_left _ hmem⟩

theorem History.init_called {procs : Procs} {thread_exit : Bool} {calls : List Call}
    {point : ChildPoint} (h : History procs thread_exit calls point) (hdone : point.initDone)
    (hgiven : procs.threadProcInit = true) : ∃ result, .init result ∈ calls := by
  cases point
  case absent | init | initFailed => cases hdone
  case readyLock failed | setReady failed | signal failed | readyUnlock failed =>
      cases failed
      · exact Succeeds.mem h hgiven
      · obtain ⟨-, result, -, rfl⟩ := h
        exact ⟨result, List.mem_singleton.mpr rfl⟩
  case pre => exact Succeeds.mem h hgiven
  case preFailed =>
      obtain ⟨-, opened, -, hopened, -, rfl⟩ := h
      obtain ⟨result, hmem⟩ := hopened.mem hgiven
      exact ⟨result, List.mem_append_left _ hmem⟩
  case proc =>
      obtain ⟨opened, results, hopened, rfl, -⟩ := h
      obtain ⟨result, hmem⟩ := hopened.mem hgiven
      exact ⟨result, List.mem_append_left _ hmem⟩
  case inProc =>
      obtain ⟨-, opened, results, hopened, rfl, -⟩ := h
      obtain ⟨result, hmem⟩ := hopened.mem hgiven
      exact ⟨result, List.mem_append_left _ hmem⟩
  case procFailed | post =>
      obtain ⟨results, hlooped⟩ := h
      exact hlooped.mem hgiven
  case loopTest =>
      obtain ⟨results, hlooped, -⟩ := h
      exact hlooped.mem hgiven
  case finished => exact Lifecycle.mem h hgiven

/-- A launch that is not disturbed, by a wake-up without a signal or by an unblock, returns -1
only if `pthread_create` has made no thread, and otherwise when `thread_proc_init` has
returned, and 0 only if that has not failed. One wake-up without a signal is enough to let it
return 0 before `thread_proc_init` is called, which then fails: `thelper_signal_wait` tests
its condition with an `if`. -/
theorem launch_answers (procs : Procs) (thread_exit thread_ready : Bool) :
    (∀ events thelper result,
      exec (step procs) (Thelper.unlaunched thread_exit thread_ready) events = some thelper →
      Along (step procs) Quiet (Thelper.unlaunched thread_exit thread_ready) events →
      thelper.launcher = .launched result →
        result = -1 ∧ thelper.child = .absent ∧ procs.createThreadCb = false ∨
        thelper.child.initDone ∧
          (procs.threadProcInit = true → ∃ returned, .init returned ∈ thelper.calls) ∧
          (result = 1 ∨ result = 0 ∧ ¬ InitFailed thelper.calls)) ∧
    (procs.threadProcInit = true → ∃ events thelper rest last,
      exec (step procs) (Thelper.unlaunched thread_exit thread_ready) events = some thelper ∧
      events.count .spuriousWakeup = 1 ∧ .unblock ∉ events ∧
      thelper.launcher = .launched 0 ∧ thelper.calls = [] ∧
      exec (step procs) thelper rest = some last ∧ InitFailed last.calls) := by
  constructor
  · intro events thelper result hrun hquiet hlaunched
    have hreached : Reached procs thelper := ⟨thread_exit, thread_ready, events, hrun⟩
    have hinformed := informed_of_quiet hrun hquiet
    by_cases hnone : result = -1
    · have hminus : thelper.launcher = .launched (-1) := hnone ▸ hlaunched
      have habsent := hreached.synchronized.unmade (.inr (.inr hminus))
      exact .inl ⟨hnone, phase_eq_absent.mp habsent, hreached.synchronized.refused hminus⟩
    · have hdone : thelper.child.initDone :=
        hinformed.woken (by simp [hlaunched, hnone, LaunchPoint.woken])
      refine .inr ⟨hdone, hreached.history.1.init_called hdone, ?_⟩
      exact (hinformed.answer result hlaunched).resolve_left hnone
  · intro hgiven
    obtain ⟨init, pre, proc, post, create⟩ := procs
    obtain rfl : init = true := hgiven
    exact ⟨[.launcher true, .launcher true, .launcher true, .launcher true, .spuriousWakeup,
      .launcher true, .launcher true, .launcher true], _, [.child (-1)], _, rfl, by decide,
      by decide, rfl, rfl, rfl, -1, List.mem_singleton.mpr rfl, by decide⟩

/-- The launching thread waits for a procedure that fails. -/
def waitsForFailure : List Event :=
  List.replicate 4 (.launcher true) ++ List.replicate 6 (.child (-1)) ++
    List.replicate 3 (.launcher true)

theorem launch_answers_failure :
    let thelper : Thelper := ⟨true, true, none, .launched 1, .finished, [.init (-1)], 0⟩
    exec (step ⟨true, false, true, false, true⟩) (.unlaunched true true) waitsForFailure =
        some thelper ∧
      thelper.child.initDone ∧ ∃ returned, .init returned ∈ thelper.calls := by
  have hquiet : ∀ event ∈ waitsForFailure, ∀ thelper, Quiet thelper event := by
    intro event hmem thelper
    simp only [waitsForFailure, List.mem_append, List.mem_replicate] at hmem
    rcases hmem with (⟨-, rfl⟩ | ⟨-, rfl⟩) | ⟨-, rfl⟩ <;> trivial
  refine ⟨by decide, ?_⟩
  rcases (launch_answers ⟨true, false, true, false, true⟩ true true).1 waitsForFailure
    ⟨true, true, none, .launched 1, .finished, [.init (-1)], 0⟩ 1 (by decide)
    (along_of_forall hquiet _) rfl with ⟨hfalse, -⟩ | ⟨hdone, hcalled, -⟩
  · cases hfalse
  · exact ⟨hdone, hcalled rfl⟩

end Msm8916.Daemon.ThreadHelper
