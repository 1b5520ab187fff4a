import Msm8916.Daemon.Lifecycle

/-!
`loc_eng_dmn_conn_loc_api_server_unblock` of `loc_eng_dmn_conn.cpp`: the thread helper
with `loc_api_server_proc` on its pipe, other processes that write to the pipe, and a
thread that sets `thread_exit` and then writes `GPSONE_UNBLOCK`.
-/

namespace Msm8916.Daemon.Shutdown

open Transition ThreadHelper

/-- `ctrl_type` of a frame, as the switch of `loc_api_server_proc` tells it. -/
inductive CtrlType where
  | ifRequest
  | ifRelease
  | unblock
  | unsupported
deriving DecidableEq, Repr

/-- Where `loc_eng_dmn_conn_loc_api_server_unblock` is. -/
inductive UnblockPoint where
  | uncalled
  /-- `thread_exit` is set, the frame not written. -/
  | flagged
  | returned
deriving DecidableEq, Repr

/-- The helper of the server, the pipe of `loc_api_server_msgqid` once
`loc_api_server_proc_init` has opened it, and whether the call of unblock began before
that. -/
structure LocApiServer where
  thelper : Thelper
  opened : Bool
  pipe : List CtrlType
  unblock : UnblockPoint
  early : Bool
deriving DecidableEq, Repr

def LocApiServer.unlaunched (thread_exit thread_ready : Bool) : LocApiServer where
  thelper := .unlaunched thread_exit thread_ready
  opened := false
  pipe := []
  unblock := .uncalled
  early := false

inductive ServerEvent where
  | launcher (created : Bool)
  | spuriousWakeup
  /-- The server thread goes on; `received` tells whether a receive succeeds. -/
  | child (received : Bool)
  /-- A client writes a frame. -/
  | write (ctrl_type : CtrlType)
  | unblock
  | join
deriving DecidableEq, Repr

/-- `loc_eng_dmn_conn_loc_api_server_launch` gives all four procedures, and what makes the
thread if it gets that itself. -/
def serverProcs (createThreadCb : Bool) : Procs where
  threadProcInit := true
  threadProcPre := true
  threadProc := true
  threadProcPost := true
  createThreadCb := createThreadCb

section Server

variable (createThreadCb : Bool)

/-- The server thread. `loc_api_server_proc_init`, `_pre` and `_post` return 0, and
`loc_api_server_proc` waits for a frame, whatever it is, to return 0. -/
def LocApiServer.childStep (server : LocApiServer) (received : Bool) : Option LocApiServer :=
  match server.thelper.child with
  | .init =>
      (server.thelper.childStep (serverProcs createThreadCb) 0).map fun thelper =>
        { server with thelper := thelper, opened := true }
  | .inProc =>
      if received then
        match server.pipe with
        | [] => none
        | _ :: pipe =>
            (server.thelper.childStep (serverProcs createThreadCb) 0).map fun thelper =>
              { server with thelper := thelper, pipe := pipe }
      else
        (server.thelper.childStep (serverProcs createThreadCb) (-1)).map fun thelper =>
          { server with thelper := thelper }
  | _ =>
      (server.thelper.childStep (serverProcs createThreadCb) 0).map fun thelper =>
        { server with thelper := thelper }

/-- `loc_eng_dmn_conn_unblock_thelper` and `loc_eng_dmn_conn_unblock_proc`, whose frame
goes nowhere while the pipe is not open. -/
def LocApiServer.unblockStep (server : LocApiServer) : Option LocApiServer :=
  match server.unblock with
  | .uncalled =>
      some { server with
        thelper := { server.thelper with thread_exit := true }
        unblock := .flagged
        early := !server.opened }
  | .flagged =>
      some { server with
        pipe := if server.opened then server.pipe ++ [.unblock] else server.pipe
        unblock := .returned }
  | .returned => none

def serverStep (server : LocApiServer) : ServerEvent → Option LocApiServer
  | .launcher created =>
      (server.thelper.launcherStep (serverProcs createThreadCb) created).map fun thelper =>
        { server with thelper := thelper }
  | .spuriousWakeup =>
      (step (serverProcs createThreadCb) server.thelper .spuriousWakeup).map fun thelper =>
        { server with thelper := thelper }
  | .child received => server.childStep createThreadCb received
  | .write ctrl_type => some { server with pipe := server.pipe ++ [ctrl_type] }
  | .unblock => server.unblockStep
  | .join =>
      (step (serverProcs createThreadCb) server.thelper .join).map fun thelper =>
        { server with thelper := thelper }

variable {createThreadCb}

/-! ## The helper within the server -/

/-- What a step of the server thread does. -/
theorem childStep_cases {server next : LocApiServer} {received : Bool}
    (h : server.childStep createThreadCb received = some next) :
    ∃ result, server.thelper.childStep (serverProcs createThreadCb) result = some next.thelper ∧
      next.unblock = server.unblock ∧ next.early = server.early ∧
      (server.thelper.child = .init ∧ next.opened = true ∧ next.pipe = server.pipe ∨
        server.thelper.child = .inProc ∧ next.opened = server.opened ∨
        server.thelper.child ≠ .init ∧ server.thelper.child ≠ .inProc ∧
          next.opened = server.opened ∧ next.pipe = server.pipe) := by
  unfold LocApiServer.childStep at h
  split at h
  · next hpoint =>
    obtain ⟨thelper, hstep, rfl⟩ := Option.map_eq_some_iff.mp h
    exact ⟨0, hstep, rfl, rfl, .inl ⟨hpoint, rfl, rfl⟩⟩
  · next hpoint =>
    split at h
    · split at h
      · cases h
      · obtain ⟨thelper, hstep, rfl⟩ := Option.map_eq_some_iff.mp h
        exact ⟨0, hstep, rfl, rfl, .inr (.inl ⟨hpoint, rfl⟩)⟩
    · obtain ⟨thelper, hstep, rfl⟩ := Option.map_eq_some_iff.mp h
      exact ⟨-1, hstep, rfl, rfl, .inr (.inl ⟨hpoint, rfl⟩)⟩
  · next hinit hproc =>
    obtain ⟨thelper, hstep, rfl⟩ := Option.map_eq_some_iff.mp h
    exact ⟨0, hstep, rfl, rfl, .inr (.inr ⟨hinit, hproc, rfl, rfl⟩)⟩

/-- A step of the server is a step of its helper or leaves that as it is. -/
theorem serverStep_simulated {server next : LocApiServer} {event : ServerEvent}
    (h : serverStep createThreadCb server event = some next) :
    next.thelper = server.thelper ∨
      ∃ move, step (serverProcs createThreadCb) server.thelper move = some next.thelper := by
  cases event with
  | launcher created =>
      obtain ⟨thelper, hstep, rfl⟩ := Option.map_eq_some_iff.mp h
      exact .inr ⟨.launcher created, hstep⟩
  | spuriousWakeup =>
      obtain ⟨thelper, hstep, rfl⟩ := Option.map_eq_some_iff.mp h
      exact .inr ⟨.spuriousWakeup, hstep⟩
  | child received =>
      obtain ⟨result, hstep, -⟩ := childStep_cases h
      exact .inr ⟨.child result, hstep⟩
  | write ctrl_type =>
      obtain rfl := Option.some.inj h
      exact .inl rfl
  | unblock =>
      simp only [serverStep, LocApiServer.unblockStep] at h
      split at h
      · obtain rfl := Option.some.inj h
        exact .inr ⟨.unblock, rfl⟩
      · obtain rfl := Option.some.inj h
        exact .inl rfl
      · cases h
  | join =>
      obtain ⟨thelper, hstep, rfl⟩ := Option.map_eq_some_iff.mp h
      exact .inr ⟨.join, hstep⟩

theorem reached_thelper {thread_exit thread_ready : Bool} {server : LocApiServer}
    (h : Reachable (serverStep createThreadCb) (.unlaunched thread_exit thread_ready) server) :
    Reached (serverProcs createThreadCb) server.thelper := by
  have hstep : ∀ server event next thelper, server.thelper = thelper →
      serverStep createThreadCb server event = some next → ∃ after, next.thelper = after ∧
        (after = thelper ∨
          ∃ move, step (serverProcs createThreadCb) thelper move = some after) := by
    rintro server event next _ rfl hstep
    exact ⟨_, rfl, serverStep_simulated hstep⟩
  obtain ⟨thelper, hreach, rfl⟩ := h.simulated hstep rfl
  exact ⟨thread_exit, thread_ready, hreach⟩

/-! ## The frame that ends the server -/

/-- The thread does not read the pipe any more, once it is to exit. -/
def pastLastTurn : ChildPoint → Bool
  | .procFailed | .loopTest | .post | .finished => true
  | _ => false

/-- What becomes of the flag and of the frame of an unblock that began when the pipe was
open. -/
structure Unblocked (server : LocApiServer) : Prop where
  opened : server.opened = true → server.thelper.child.phase ≠ .absent ∧
    server.thelper.child ≠ .init
  late : server.unblock ≠ .uncalled → server.early = false → server.opened = true
  flag : server.unblock ≠ .uncalled → server.early = false → server.thelper.thread_exit = true
  frame : server.unblock = .returned → server.early = false →
    .unblock ∈ server.pipe ∨ pastLastTurn server.thelper.child

/-- A thread that is to exit makes no turn after the one it is in. -/
theorem childStep_pastLastTurn {procs : Procs} {thelper next : Thelper} {result : Int}
    (h : thelper.childStep procs result = some next) :
    (thelper.child = .inProc → pastLastTurn next.child) ∧
      (thelper.thread_exit = true → pastLastTurn thelper.child → pastLastTurn next.child) := by
  cases hpoint : thelper.child <;> simp only [Thelper.childStep, hpoint] at h
  case inProc =>
      obtain rfl := Option.some.inj h
      refine ⟨fun _ => ?_, by simp [pastLastTurn]⟩
      dsimp only
      split <;> rfl
  case procFailed =>
      obtain rfl := Option.some.inj h
      exact ⟨by simp, fun _ _ => rfl⟩
  case loopTest =>
      obtain rfl := Option.some.inj h
      refine ⟨by simp, fun hexit _ => ?_⟩
      simp [hexit, pastLastTurn]
  case post => split at h <;> obtain rfl := Option.some.inj h <;> exact ⟨by simp, fun _ _ => rfl⟩
  case finished => cases h
  all_goals exact ⟨by simp, by simp [pastLastTurn]⟩

theorem Unblocked.childStep {server next : LocApiServer} {received : Bool}
    (h : Unblocked server) (hstep : server.childStep createThreadCb received = some next) :
    Unblocked next := by
  obtain ⟨result, hchild, hunblock, hearly, hcases⟩ := childStep_cases hstep
  obtain ⟨-, hexit, -⟩ := childStep_informed hchild
  obtain ⟨hturn, hpast⟩ := childStep_pastLastTurn hchild
  have hopened : server.opened = true → next.opened = true := by
    intro ho
    rcases hcases with ⟨-, hn, -⟩ | ⟨-, hn⟩ | ⟨-, -, hn, -⟩
    · exact hn
    · rw [hn, ho]
    · rw [hn, ho]
  refine ⟨fun _ => childStep_started hchild, ?_, ?_, ?_⟩ <;> rw [hunblock, hearly]
  · exact fun hcalled hlate => hopened (h.late hcalled hlate)
  · exact fun hcalled hlate => hexit (h.flag hcalled hlate)
  · intro hreturned hlate
    have hset := h.flag (by simp [hreturned]) hlate
    rcases hcases with ⟨hinit, -, -⟩ | ⟨hproc, -⟩ | ⟨-, -, -, hpipe⟩
    · exact absurd hinit (h.opened (h.late (by simp [hreturned]) hlate)).2
    · exact .inr (hturn hproc)
    · rw [hpipe]
      exact (h.frame hreturned hlate).imp_right (hpast hset)

theorem Unblocked.launcherStep {server : LocApiServer} {thelper : Thelper} {created : Bool}
    (hsync : Synchronized (serverProcs createThreadCb) server.thelper) (h : Unblocked server)
    (hstep : server.thelper.launcherStep (serverProcs createThreadCb) created = some thelper) :
    Unblocked { server with thelper := thelper } := by
  obtain ⟨-, -, hframe⟩ := launcherStep_frame hstep
  have hclosed : server.thelper.launcher = .signalInit ∨ server.thelper.launcher = .create →
      server.opened = false := by
    intro hpoint
    apply Bool.eq_false_iff.mpr
    intro hopened
    apply (h.opened hopened).1
    rw [hsync.child_absent hpoint]
    rfl
  rcases hframe with ⟨hchild, hexit | hpoint⟩ | ⟨hpoint, -, -⟩
  · refine ⟨?_, h.late, ?_, ?_⟩ <;> dsimp only
    · rw [hchild]
      exact h.opened
    · rw [hexit]
      exact h.flag
    · rw [hchild]
      exact h.frame
  · have hnot := hclosed (.inl hpoint)
    constructor <;> dsimp only <;> intro hcalled
    · rw [hnot] at hcalled
      cases hcalled
    · exact h.late hcalled
    · intro hlate
      rw [h.late hcalled hlate] at hnot
      cases hnot
    · intro hlate
      rw [h.late (by simp [hcalled]) hlate] at hnot
      cases hnot
  · have hnot := hclosed (.inr hpoint)
    constructor <;> dsimp only <;> intro hcalled
    · rw [hnot] at hcalled
      cases hcalled
    · exact h.late hcalled
    · intro hlate
      rw [h.late hcalled hlate] at hnot
      cases hnot
    · intro hlate
      rw [h.late (by simp [hcalled]) hlate] at hnot
      cases hnot

theorem Unblocked.unblockStep {server next : LocApiServer} (h : Unblocked server)
    (hstep : server.unblockStep = some next) : Unblocked next := by
  simp only [LocApiServer.unblockStep] at hstep
  split at hstep
  · obtain rfl := Option.some.inj hstep
    exact ⟨h.opened, fun _ hlate => by simpa using hlate, fun _ _ => rfl, nofun⟩
  · next hpoint =>
    obtain rfl := Option.some.inj hstep
    have hcalled : server.unblock ≠ .uncalled := by simp [hpoint]
    refine ⟨h.opened, fun _ => h.late hcalled, fun _ => h.flag hcalled, fun _ hlate => .inl ?_⟩
    simp [h.late hcalled hlate]
  · cases hstep

theorem Unblocked.step {server next : LocApiServer} {event : ServerEvent}
    (hsync : Synchronized (serverProcs createThreadCb) server.thelper) (h : Unblocked server)
    (hstep : serverStep createThreadCb server event = some next) : Unblocked next := by
  cases event with
  | launcher created =>
      obtain ⟨thelper, hmove, rfl⟩ := Option.map_eq_some_iff.mp hstep
      exact h.launcherStep hsync hmove
  | spuriousWakeup =>
      obtain ⟨thelper, hmove, rfl⟩ := Option.map_eq_some_iff.mp hstep
      obtain ⟨-, hmove⟩ := Option.ite_none_right_eq_some.mp hmove
      obtain rfl := Option.some.inj hmove
      exact ⟨h.opened, h.late, h.flag, h.frame⟩
  | child received => exact h.childStep hstep
  | write ctrl_type =>
      obtain rfl := Option.some.inj hstep
      refine ⟨h.opened, h.late, h.flag, fun hreturned hlate => ?_⟩
      exact (h.frame hreturned hlate).imp_left (List.mem_append_left _)
  | unblock => exact h.unblockStep hstep
  | join =>
      obtain ⟨thelper, hmove, rfl⟩ := Option.map_eq_some_iff.mp hstep
      obtain ⟨-, -, rfl⟩ := join_cases hmove
      exact ⟨h.opened, h.late, h.flag, h.frame⟩

theorem unblocked_of_reachable {thread_exit thread_ready : Bool} {server : LocApiServer}
    (h : Reachable (serverStep createThreadCb) (.unlaunched thread_exit thread_ready) server) :
    Synchronized (serverProcs createThreadCb) server.thelper ∧ Unblocked server := by
  refine invariant_of_step
    (I := fun server => Synchronized (serverProcs createThreadCb) server.thelper ∧ Unblocked server)
    ?_ ⟨synchronized_unlaunched _ thread_exit thread_ready, ?_⟩ h
  · rintro server event next ⟨hsync, hunblocked⟩ hstep
    refine ⟨?_, hunblocked.step hsync hstep⟩
    rcases serverStep_simulated hstep with hsame | ⟨move, hmove⟩
    · rwa [hsame]
    · exact hsync.next hmove
  · exact ⟨nofun, fun hcalled => absurd rfl hcalled, fun hcalled => absurd rfl hcalled, nofun⟩

/-! ## The end of the server thread -/

/-- The steps of the server thread until it has finished, when it is to exit. -/
def stepsToFinish : ChildPoint → Nat
  | .absent | .init | .initFailed => 11
  | .readyLock _ => 10
  | .setReady _ => 9
  | .signal _ => 8
  | .readyUnlock _ => 7
  | .pre => 6
  | .proc => 5
  | .inProc => 4
  | .procFailed => 3
  | .loopTest => 2
  | .post | .preFailed => 1
  | .finished => 0

/-- The server has been launched, and unblock has returned that began when the pipe was
open. -/
structure Ending (createThreadCb : Bool) (server : LocApiServer) : Prop where
  synchronized : Synchronized (serverProcs createThreadCb) server.thelper
  unblocked : Unblocked server
  launched : ∃ result, server.thelper.launcher = .launched result
  returned : server.unblock = .returned
  late : server.early = false

theorem Ending.mutex_free {server : LocApiServer} (h : Ending createThreadCb server)
    (hchild : server.thelper.child.phase.holdsMutex = false) :
    server.thelper.thread_mutex = none := by
  obtain ⟨result, hlaunched⟩ := h.launched
  have hlauncher := h.synchronized.launcher_mutex
  have hmutex := h.synchronized.child_mutex
  rw [hlaunched] at hlauncher
  rw [hchild] at hmutex
  rcases hheld : server.thelper.thread_mutex with - | side
  · rfl
  · cases side
    · simp [hheld, LaunchPoint.holdsMutex] at hlauncher
    · simp [hheld] at hmutex

theorem childStep_launcher {procs : Procs} {thelper next : Thelper} {result answer : Int}
    (h : thelper.childStep procs result = some next)
    (hlaunched : thelper.launcher = .launched answer) : next.launcher = .launched answer := by
  rcases childStep_handshake h with ⟨-, -, hl, -⟩ | ⟨-, -, -, -, hl, -⟩ | ⟨-, -, -, hl, -⟩ |
    ⟨-, -, -, hl, -⟩ | ⟨-, -, -, hl, -⟩
  case inr.inr.inr.inl => simp [hl, hlaunched]
  all_goals rw [hl, hlaunched]

/-- The helper of a server that ends can go on after every answer of its procedures. -/
theorem Ending.thelper_step {server : LocApiServer} (h : Ending createThreadCb server)
    (hfinished : server.thelper.child ≠ .finished) (result : Int) :
    ∃ next, server.thelper.childStep (serverProcs createThreadCb) result = some next ∧
      stepsToFinish next.child < stepsToFinish server.thelper.child := by
  have hreturned : server.unblock ≠ .uncalled := by simp [h.returned]
  have hexit := h.unblocked.flag hreturned h.late
  obtain ⟨hthere, hinit⟩ := h.unblocked.opened (h.unblocked.late hreturned h.late)
  cases hpoint : server.thelper.child <;> simp only [Thelper.childStep, hpoint]
  case absent => simp [hpoint, ChildPoint.phase] at hthere
  case init => exact absurd hpoint hinit
  case finished => exact absurd hpoint hfinished
  case readyLock failed =>
      rw [if_pos (h.mutex_free (by rw [hpoint]; rfl))]
      exact ⟨_, rfl, by simp [stepsToFinish]⟩
  case readyUnlock failed =>
      refine ⟨_, rfl, ?_⟩
      cases failed <;> simp [stepsToFinish]
  case pre | inProc =>
      refine ⟨_, rfl, ?_⟩
      dsimp only
      split <;> simp [stepsToFinish]
  case loopTest => exact ⟨_, rfl, by simp [hexit, stepsToFinish]⟩
  all_goals exact ⟨_, rfl, by simp [stepsToFinish]⟩

/-- The server thread never waits again, and every step brings it nearer to its end. -/
theorem Ending.childStep {server : LocApiServer} (h : Ending createThreadCb server)
    (hfinished : server.thelper.child ≠ .finished) (received : Bool) :
    ∃ next, serverStep createThreadCb server (.child received) = some next ∧
      Ending createThreadCb next ∧
      stepsToFinish next.thelper.child < stepsToFinish server.thelper.child := by
  have hgo : ∃ next, serverStep createThreadCb server (.child received) = some next ∧
      stepsToFinish next.thelper.child < stepsToFinish server.thelper.child := by
    simp only [serverStep, LocApiServer.childStep]
    split
    · obtain ⟨thelper, hmove, hnearer⟩ := h.thelper_step hfinished 0
      exact ⟨_, Option.map_eq_some_iff.mpr ⟨thelper, hmove, rfl⟩, hnearer⟩
    · next hpoint =>
      split
      · have hwritten : .unblock ∈ server.pipe := by
          rcases h.unblocked.frame h.returned h.late with hmem | hpast
          · exact hmem
          · rw [hpoint] at hpast
            cases hpast
        obtain ⟨thelper, hmove, hnearer⟩ := h.thelper_step hfinished 0
        split
        · next hempty =>
          rw [hempty] at hwritten
          cases hwritten
        · exact ⟨_, Option.map_eq_some_iff.mpr ⟨thelper, hmove, rfl⟩, hnearer⟩
      · obtain ⟨thelper, hmove, hnearer⟩ := h.thelper_step hfinished (-1)
        exact ⟨_, Option.map_eq_some_iff.mpr ⟨thelper, hmove, rfl⟩, hnearer⟩
    · obtain ⟨thelper, hmove, hnearer⟩ := h.thelper_step hfinished 0
      exact ⟨_, Option.map_eq_some_iff.mpr ⟨thelper, hmove, rfl⟩, hnearer⟩
  obtain ⟨next, hstep, hnearer⟩ := hgo
  obtain ⟨result, hmove, hunblock, hearly, -⟩ := childStep_cases hstep
  obtain ⟨answer, hlaunched⟩ := h.launched
  exact ⟨next, hstep, ⟨h.synchronized.childStep hmove, h.unblocked.childStep hstep,
    ⟨answer, childStep_launcher hmove hlaunched⟩, hunblock.trans h.returned,
    hearly.trans h.late⟩, hnearer⟩

theorem Ending.finishes {server : LocApiServer} (h : Ending createThreadCb server)
    (received : List Bool) (hlength : stepsToFinish server.thelper.child ≤ received.length) :
    ∃ n ≤ stepsToFinish server.thelper.child, ∃ last,
      exec (serverStep createThreadCb) server ((received.take n).map .child) = some last ∧
        Ending createThreadCb last ∧ last.thelper.child = .finished := by
  induction received generalizing server with
  | nil =>
      by_cases hfinished : server.thelper.child = .finished
      · exact ⟨0, Nat.zero_le _, server, rfl, h, hfinished⟩
      · obtain ⟨next, -, -, hnearer⟩ := h.childStep hfinished true
        simp only [List.length_nil] at hlength
        omega
  | cons first received ih =>
      by_cases hfinished : server.thelper.child = .finished
      · exact ⟨0, Nat.zero_le _, server, rfl, h, hfinished⟩
      · obtain ⟨next, hstep, hnext, hnearer⟩ := h.childStep hfinished first
        obtain ⟨n, hn, last, hrun, hlast⟩ := ih hnext (by
          simp only [List.length_cons] at hlength
          omega)
        refine ⟨n + 1, by omega, last, ?_, hlast⟩
        rw [List.take_succ_cons, List.map_cons, exec_cons, hstep]
        exact hrun

/-- Once the server has been launched and an unblock that began with the pipe open has
returned, at most eleven steps of the server thread end it, whatever it receives and
other processes have written, and join returns then. An unblock that began before may
leave the thread in a receive: then nothing happens until a client writes a frame or the
receive fails. -/
theorem server_ends_when_unblocked (createThreadCb thread_exit thread_ready : Bool) :
    (∀ server result,
      Reachable (serverStep createThreadCb) (.unlaunched thread_exit thread_ready) server →
      server.thelper.launcher = .launched result → server.unblock = .returned →
      server.early = false → ∀ received : List Bool, 11 ≤ received.length →
        ∃ n ≤ 11, ∃ last,
          exec (serverStep createThreadCb) server ((received.take n).map .child) = some last ∧
          last.thelper.child = .finished ∧
          Lifecycle (serverProcs createThreadCb) last.thelper.calls ∧
          (serverStep createThreadCb last .join).isSome) ∧
    ∃ events server,
      exec (serverStep createThreadCb) (.unlaunched thread_exit thread_ready) events =
        some server ∧
      (∃ result, server.thelper.launcher = .launched result) ∧ server.unblock = .returned ∧
      server.thelper.child = .inProc ∧
      ∀ event, (serverStep createThreadCb server event).isSome ↔
        event = .child false ∨ ∃ ctrl_type, event = .write ctrl_type := by
  constructor
  · intro server result hreach hlaunched hreturned hlate received hlength
    obtain ⟨hsync, hunblocked⟩ := unblocked_of_reachable hreach
    have hending : Ending createThreadCb server :=
      ⟨hsync, hunblocked, ⟨result, hlaunched⟩, hreturned, hlate⟩
    have hbound : stepsToFinish server.thelper.child ≤ 11 := by
      cases server.thelper.child <;> simp [stepsToFinish]
    obtain ⟨n, hn, last, hrun, hlast, hfinished⟩ :=
      hending.finishes received (Nat.le_trans hbound hlength)
    refine ⟨n, Nat.le_trans hn hbound, last, hrun, hfinished, ?_, ?_⟩
    · obtain ⟨labels, hrun'⟩ := hreach
      have hreach' : Reachable (serverStep createThreadCb)
          (.unlaunched thread_exit thread_ready) last :=
        ⟨labels ++ (received.take n).map .child, by rw [exec_append, hrun']; exact hrun⟩
      exact (calls_of_finished (reached_thelper hreach') hfinished).1
    · obtain ⟨answer, hjoinable⟩ := hlast.launched
      simp [serverStep, step, hjoinable, hfinished]
  · refine ⟨[.launcher true, .launcher true, .unblock, .unblock, .launcher true, .launcher true,
      .launcher true, .launcher true, .child true, .child true, .child true, .child true,
      .child true, .child true, .child true], _, rfl, ⟨1, rfl⟩, rfl, rfl, fun event => ?_⟩
    cases event with
    | launcher created => exact iff_of_false Bool.false_ne_true (by simp)
    | spuriousWakeup => exact iff_of_false Bool.false_ne_true (by simp)
    | child received =>
        cases received with
        | false => exact iff_of_true rfl (.inl rfl)
        | true => exact iff_of_false Bool.false_ne_true (by simp)
    | write ctrl_type => exact iff_of_true rfl (.inr ⟨ctrl_type, rfl⟩)
    | unblock => exact iff_of_false Bool.false_ne_true (by simp)
    | join => exact iff_of_false Bool.false_ne_true (by simp)

/-- The server is unblocked in its first receive. -/
def unblockReceiving : List ServerEvent :=
  [.launcher true, .launcher true] ++ List.replicate 7 (.child true) ++
    List.replicate 4 (.launcher true) ++ [.unblock, .unblock]

theorem server_ends_when_unblocked_receiving :
    let server : LocApiServer := ⟨⟨true, true, none, .launched 0, .inProc, [.init 0, .pre 0], 0⟩,
      true, [.unblock], .returned, false⟩
    exec (serverStep true) (.unlaunched false false) unblockReceiving = some server ∧
      ∃ n ≤ 11, ∃ last,
        exec (serverStep true) server (((List.replicate 11 true).take n).map .child) =
          some last ∧
        last.thelper.child = .finished ∧ Lifecycle (serverProcs true) last.thelper.calls ∧
        (serverStep true last .join).isSome :=
  ⟨by decide, (server_ends_when_unblocked true false false).1 _ 0 ⟨unblockReceiving, by decide⟩
    rfl rfl rfl (List.replicate 11 true) (by simp)⟩

end Server

end Msm8916.Daemon.Shutdown
