import Msm8916.Daemon.Server

/-!
Which of the frames that arrive the server gets to. The frames are those a server
would find that receives again after every failure; the one of the source leaves its
loop at the first.
-/

namespace Msm8916.Daemon

open Memory

/-- What receiving yields turn after turn, whatever it has returned before; nothing in
a turn without a buffer. -/
def arrivals (abi : Abi) : List (Option (Nat → UInt8)) → Pipe → List (Option Msgrcv)
  | [], _ => []
  | none :: buffers, pipe => none :: arrivals abi buffers pipe
  | some pCmsgbuf :: buffers, pipe =>
      let received := locEngDmnConnGlueMsgrcv abi pipe pCmsgbuf (cmsgbufSize abi)
      some received :: arrivals abi buffers received.pipe

/-- The receive of the turn has failed. -/
def FailedAt (arrived : List (Option Msgrcv)) (turn : Nat) : Prop :=
  ∃ received, arrived[turn]? = some (some received) ∧ received.result ≤ 0

/-- A frame for the handler has been received in the turn, its header at least. -/
def ArrivedAt (abi : Abi) (arrived : List (Option Msgrcv)) (turn : Nat) (handler : Handler) :
    Prop :=
  ∃ received, arrived[turn]? = some (some received) ∧ abi.sizeofSizeT ≤ received.result ∧
    handlerOf abi received.msgp = some handler

/-- The handler has been called in the turn. -/
def CalledAt (server : Server) (turn : Nat) (handler : Handler) : Prop :=
  ∃ messages, (turn + 1, handler, messages) ∈ server.called

theorem failedAt_succ {arrival : Option Msgrcv} {arrived : List (Option Msgrcv)} {turn : Nat} :
    FailedAt (arrival :: arrived) (turn + 1) ↔ FailedAt arrived turn := Iff.rfl

theorem arrivedAt_succ {abi : Abi} {arrival : Option Msgrcv} {arrived : List (Option Msgrcv)}
    {turn : Nat} {handler : Handler} :
    ArrivedAt abi (arrival :: arrived) (turn + 1) handler ↔ ArrivedAt abi arrived turn handler :=
  Iff.rfl

/-! ## One turn -/

section Turn

variable {abi : Abi} {locApiHandle : Bool} {pCmsgbuf : Nat → UInt8} {server : Server}

/-- The loop ends with the turn that fails, and no handler is called in it. -/
theorem loop_of_failed (buffers : List (Option (Nat → UInt8)))
    (h : (locEngDmnConnGlueMsgrcv abi server.pipe pCmsgbuf (cmsgbufSize abi)).result ≤ 0) :
    ((locApiServer abi locApiHandle).loop (some pCmsgbuf :: buffers) server).1.called =
      server.called := by
  have hturn : server.turn abi locApiHandle (some pCmsgbuf) =
      (-1, { pipe := (locEngDmnConnGlueMsgrcv abi server.pipe pCmsgbuf (cmsgbufSize abi)).pipe
             cnt := server.cnt + 1
             called := server.called ++ [] }) := by
    unfold Server.turn locApiServerProc
    dsimp only
    rw [if_pos h]
    rfl
  have hneg : (server.turn abi locApiHandle (some pCmsgbuf)).1 < 0 := by
    rw [hturn]
    exact Int.negSucc_lt_zero 0
  rw [Thelper.loop_of_neg _ buffers hneg]
  change (server.turn abi locApiHandle (some pCmsgbuf)).2.called = server.called
  rw [hturn]
  exact List.append_nil _

theorem loop_of_no_memory (buffers : List (Option (Nat → UInt8))) :
    ((locApiServer abi locApiHandle).loop (none :: buffers) server).1.called =
      server.called := by
  have hneg : (server.turn abi locApiHandle none).1 < 0 := Int.negSucc_lt_zero 0
  rw [Thelper.loop_of_neg _ buffers hneg]
  exact List.append_nil _

/-- The server after a turn that has received. -/
def afterReceive (abi : Abi) (locApiHandle : Bool) (server : Server) (received : Msgrcv) :
    Server where
  pipe := received.pipe
  cnt := server.cnt + 1
  called := server.called ++ ((handlerOf abi received.msgp).map fun handler =>
    (server.cnt + 1, handler, handler.messages abi locApiHandle received.msgp)).toList

/-- The loop goes on after a turn that receives. -/
theorem loop_of_received (buffers : List (Option (Nat → UInt8)))
    (h : 0 < (locEngDmnConnGlueMsgrcv abi server.pipe pCmsgbuf (cmsgbufSize abi)).result) :
    (locApiServer abi locApiHandle).loop (some pCmsgbuf :: buffers) server =
      (locApiServer abi locApiHandle).loop buffers (afterReceive abi locApiHandle server
        (locEngDmnConnGlueMsgrcv abi server.pipe pCmsgbuf (cmsgbufSize abi))) := by
  have hturn : server.turn abi locApiHandle (some pCmsgbuf) =
      (0, afterReceive abi locApiHandle server
        (locEngDmnConnGlueMsgrcv abi server.pipe pCmsgbuf (cmsgbufSize abi))) := by
    unfold Server.turn locApiServerProc afterReceive
    dsimp only
    rw [if_neg (not_le.mpr h)]
    cases handlerOf abi
      (locEngDmnConnGlueMsgrcv abi server.pipe pCmsgbuf (cmsgbufSize abi)).msgp with
    | none => rfl
    | some handler => rfl
  have hnonneg : 0 ≤ (server.turn abi locApiHandle (some pCmsgbuf)).1 := by
    rw [hturn]
  rw [Thelper.loop_of_nonneg _ buffers hnonneg]
  change (locApiServer abi locApiHandle).loop buffers
    (server.turn abi locApiHandle (some pCmsgbuf)).2 = _
  rw [hturn]

end Turn

/-! ## The loop -/

section Loop

variable {abi : Abi} {locApiHandle : Bool}

/-- The loop keeps what was called before it. -/
theorem loop_keeps_called (buffers : List (Option (Nat → UInt8))) (server : Server) :
    server.called <+: ((locApiServer abi locApiHandle).loop buffers server).1.called := by
  induction buffers generalizing server with
  | nil => exact List.prefix_rfl
  | cons buffer buffers ih =>
      have hturn : server.called <+: (server.turn abi locApiHandle buffer).2.called :=
        List.prefix_append _ _
      rw [Thelper.loop]
      dsimp only
      split
      · exact hturn
      · exact hturn.trans (ih _)

/-- No handler is called in a turn after one that has failed. -/
theorem not_failedAt_of_called {buffers : List (Option (Nat → UInt8))} {server : Server}
    {n : Nat} {handler : Handler} {messages : List Engine.AgpsMsg}
    (h : (n, handler, messages) ∈
      ((locApiServer abi locApiHandle).loop buffers server).1.called) :
    (n, handler, messages) ∈ server.called ∨
      ∃ turn, n = server.cnt + turn + 1 ∧
        ∀ before < turn, ¬ FailedAt (arrivals abi buffers server.pipe) before := by
  induction buffers generalizing server with
  | nil => exact .inl h
  | cons buffer buffers ih =>
      cases buffer with
      | none =>
          rw [loop_of_no_memory] at h
          exact .inl h
      | some pCmsgbuf =>
          rcases Int.lt_or_le 0
            (locEngDmnConnGlueMsgrcv abi server.pipe pCmsgbuf (cmsgbufSize abi)).result with
            hreceived | hfailed
          · rw [loop_of_received buffers hreceived] at h
            rcases ih h with hturn | ⟨turn, rfl, hturns⟩
            · rcases List.mem_append.mp hturn with hold | hnew
              · exact .inl hold
              · refine .inr ⟨0, ?_, fun before hbefore => absurd hbefore (Nat.not_lt_zero _)⟩
                cases hhandler : handlerOf abi
                  (locEngDmnConnGlueMsgrcv abi server.pipe pCmsgbuf (cmsgbufSize abi)).msgp with
                | none =>
                    rw [hhandler] at hnew
                    cases hnew
                | some other =>
                    rw [hhandler] at hnew
                    exact congrArg Prod.fst (List.mem_singleton.mp hnew)
            · refine .inr ⟨turn + 1, by unfold afterReceive; dsimp only; omega, ?_⟩
              intro before hbefore
              cases before with
              | zero =>
                  rintro ⟨received, harrived, hresult⟩
                  obtain rfl := Option.some.inj (Option.some.inj harrived)
                  omega
              | succ before =>
                  intro hfailed
                  exact hturns before (by omega) (failedAt_succ.mp hfailed)
          · rw [loop_of_failed buffers hfailed] at h
            exact .inl h

/-- As long as every turn receives a frame, each of them gets to its handler. -/
theorem called_of_received {buffers : List (Option (Nat → UInt8))} {server : Server}
    {turn : Nat} {handler : Handler}
    (hbefore : ∀ before < turn, ∃ received,
      (arrivals abi buffers server.pipe)[before]? = some (some received) ∧ 0 < received.result)
    (harrived : ArrivedAt abi (arrivals abi buffers server.pipe) turn handler) :
    ∃ messages, (server.cnt + turn + 1, handler, messages) ∈
      ((locApiServer abi locApiHandle).loop buffers server).1.called := by
  induction buffers generalizing server turn with
  | nil =>
      obtain ⟨received, hnil, _⟩ := harrived
      cases hnil
  | cons buffer buffers ih =>
      have hfirst : ∃ received, (arrivals abi (buffer :: buffers) server.pipe)[0]? =
          some (some received) ∧ 0 < received.result := by
        cases turn with
        | zero =>
            obtain ⟨received, hreceived, hresult, _⟩ := harrived
            have hpos := sizeofSizeT_pos abi
            exact ⟨received, hreceived, by omega⟩
        | succ turn => exact hbefore 0 (Nat.succ_pos turn)
      cases buffer with
      | none =>
          obtain ⟨received, hnone, _⟩ := hfirst
          cases hnone
      | some pCmsgbuf =>
          obtain ⟨received, hreceived, hresult⟩ := hfirst
          obtain rfl := Option.some.inj (Option.some.inj hreceived)
          rw [loop_of_received buffers hresult]
          cases turn with
          | zero =>
              obtain ⟨received, hreceived, _, hhandler⟩ := harrived
              obtain rfl := Option.some.inj (Option.some.inj hreceived)
              refine ⟨handler.messages abi locApiHandle
                (locEngDmnConnGlueMsgrcv abi server.pipe pCmsgbuf (cmsgbufSize abi)).msgp,
                (loop_keeps_called buffers _).subset (List.mem_append_right _ ?_)⟩
              rw [hhandler]
              exact List.mem_singleton_self _
          | succ turn =>
              obtain ⟨messages, hmessages⟩ := @ih (afterReceive abi locApiHandle server
                  (locEngDmnConnGlueMsgrcv abi server.pipe pCmsgbuf (cmsgbufSize abi))) turn
                (fun before hless => hbefore (before + 1) (Nat.succ_lt_succ hless))
                (arrivedAt_succ.mp harrived)
              refine ⟨messages, ?_⟩
              rw [show server.cnt + (turn + 1) + 1 = server.cnt + 1 + turn + 1 by omega]
              exact hmessages

end Loop

/-! ## The server -/

section Serve

variable (abi : Abi) (locApiHandle : Bool) (buffers : List (Option (Nat → UInt8))) (pipe : Pipe)

theorem serve_called :
    (serve abi locApiHandle buffers pipe).called =
      ((locApiServer abi locApiHandle).loop buffers ⟨pipe, 0, []⟩).1.called := by
  unfold serve Thelper.main
  dsimp only [locApiServer]
  rw [if_neg (by decide), if_neg (by decide)]
  split <;> rfl

/-- Frames are handled until a receive fails. -/
theorem serve_calledAt {turn : Nat} {handler : Handler}
    (hbefore : ∀ before < turn, ∃ received,
      (arrivals abi buffers pipe)[before]? = some (some received) ∧ 0 < received.result)
    (harrived : ArrivedAt abi (arrivals abi buffers pipe) turn handler) :
    CalledAt (serve abi locApiHandle buffers pipe) turn handler := by
  obtain ⟨messages, hmessages⟩ :=
    @called_of_received abi locApiHandle buffers ⟨pipe, 0, []⟩ turn handler hbefore harrived
  refine ⟨messages, ?_⟩
  rw [serve_called]
  rwa [show turn + 1 = 0 + turn + 1 by omega]

/-- Every frame that arrives after a failed receive is handled. -/
def SurvivesFailures : Prop :=
  ∀ failed turn handler, failed < turn → FailedAt (arrivals abi buffers pipe) failed →
    ArrivedAt abi (arrivals abi buffers pipe) turn handler →
      CalledAt (serve abi locApiHandle buffers pipe) turn handler

/-- That is so only where no frame arrives after a failed receive. -/
theorem survivesFailures_iff :
    SurvivesFailures abi locApiHandle buffers pipe ↔
      ∀ failed turn handler, failed < turn → FailedAt (arrivals abi buffers pipe) failed →
        ¬ ArrivedAt abi (arrivals abi buffers pipe) turn handler := by
  constructor
  · intro h failed turn handler hlt hfailed harrived
    obtain ⟨messages, hcalled⟩ := h failed turn handler hlt hfailed harrived
    rw [serve_called] at hcalled
    rcases not_failedAt_of_called hcalled with hnil | ⟨other, hturn, hnone⟩
    · cases hnil
    · exact hnone failed (by dsimp only at hturn; omega) hfailed
  · intro h failed turn handler hlt hfailed harrived
    exact absurd harrived (h failed turn handler hlt hfailed)

/-- A frame larger than the buffer, and then a request of the size of the structure. -/
theorem request_after_large_frame :
    ¬ ∀ (abi : Abi) (locApiHandle : Bool) (buffers : List (Option (Nat → UInt8)))
      (pipe : Pipe), SurvivesFailures abi locApiHandle buffers pipe := by
  intro h
  have hsurvives := h .lp64 true [some fun _ => 0, some fun _ => 0]
    ⟨[0, 2, 0, 0, 0, 0, 0, 0, 128, 0, 0, 0, 0, 0, 0, 0] ++ (List.replicate 8 0 ++
      0xF0 :: List.replicate 111 0), [.upTo 8, .upTo 8, .upTo 120]⟩ 0 1 .ifRequest (by decide)
    ⟨_, rfl, by decide⟩ ⟨_, rfl, by decide +kernel, by decide +kernel⟩
  obtain ⟨messages, hcalled⟩ := hsurvives
  cases hcalled

end Serve

end Msm8916.Daemon
