import Msm8916.Daemon.GlueMsg
import Msm8916.Engine.Network

/-!
The server thread of the daemon: `loc_api_server_proc` and the two handlers of
`loc_eng_dmn_conn_handler.cpp`, under the loop of `thelper_main`. The handlers read
the fields of `struct ctrl_msgbuf` out of the buffer wherever the frame ends.
-/

namespace Msm8916.Daemon

open Memory Agps Engine

def gpsoneLocApiIfRequest : Nat := 0xF0
def gpsoneLocApiIfRelease : Nat := 0xF1

/-! ## Where the fields of `struct ctrl_msgbuf` are -/

def alignUp (off align : Nat) : Nat := (off + align - 1) / align * align

namespace CtrlMsgbuf

def reserved1 (abi : Abi) : Nat := abi.sizeofSizeT

def reserved2 (abi : Abi) : Nat := alignUp (reserved1 abi + 2) 4

def ctrlType (abi : Abi) : Nat := reserved2 abi + 4

/-- The union is aligned as the `unsigned long` in it. -/
def cmsg (abi : Abi) : Nat := alignUp (ctrlType abi + 1) abi.sizeofSizeT

/-- `cmsg.cmsg_if_request.type`, and so the others. -/
def type (abi : Abi) : Nat := cmsg abi

def senderId (abi : Abi) : Nat := type abi + 4

def ipv4Addr (abi : Abi) : Nat := alignUp (senderId abi + 4) abi.sizeofSizeT

def ipv6Addr (abi : Abi) : Nat := ipv4Addr abi + abi.sizeofSizeT

def ssid (abi : Abi) : Nat := ipv6Addr abi + 16

def password (abi : Abi) : Nat := ssid abi + ssidBufSize

/-- `sizeof(struct ctrl_msgbuf)`. -/
def size (abi : Abi) : Nat := alignUp (password abi + ssidBufSize) abi.sizeofSizeT

end CtrlMsgbuf

/-! ## The handlers -/

inductive IfReqSenderId where
  | quipc
  | msapm
  | msapu
  | gpsoneDaemon
  | modem
deriving DecidableEq, Repr

/-- The value of a `LOC_ENG_IF_REQUEST_SENDER_ID`, which names the same senders. -/
def IfReqSenderId.value : IfReqSenderId → Nat
  | .quipc => 0
  | .msapm => 1
  | .msapu => 2
  | .gpsoneDaemon => 3
  | .modem => 4

/-- The type a request is for, by its `IF_REQUEST_TYPE`. -/
def typeOf : Nat → Option AGpsExtType
  | 0 => some .supl
  | 1 => some .wifi
  | 2 => some .any
  | _ => none

/-- The senders that the handlers know, by `IF_REQUEST_SENDER_ID`. -/
def senderOf : Nat → Option IfReqSenderId
  | 0 => some .quipc
  | 1 => some .msapm
  | 2 => some .msapu
  | 3 => some .gpsoneDaemon
  | _ => none

section Handlers

variable (abi : Abi) (pmsg : Nat → UInt8)

/-- `strlcpy` of the string that starts at the offset, as the constructor of
`LocEngReqRelWifi` does it. -/
def copyString (off : Nat) : List UInt8 := strlcpy (window pmsg off (ssidBufSize - 1))

def typeField : Nat := leValue (window pmsg (CtrlMsgbuf.type abi) 4)

def senderField : Nat := leValue (window pmsg (CtrlMsgbuf.senderId abi) 4)

/-- `new LocEngReqRelWifi`. -/
def wifiMessage (type : AGpsExtType) (sender : IfReqSenderId) (mIsReq : Bool) : AgpsMsg :=
  .reqRelWifi type (UInt32.ofNat sender.value)
    (some (copyString pmsg (CtrlMsgbuf.ssid abi)))
    (some (copyString pmsg (CtrlMsgbuf.password abi))) mIsReq

/-- `new LocEngReqRelBIT`, which takes the `unsigned long` as an `int`. -/
def bitMessage (type : AGpsExtType) (mIsReq : Bool) : AgpsMsg :=
  .reqRelBIT type
    (UInt32.ofNat (leValue (window pmsg (CtrlMsgbuf.ipv4Addr abi) abi.sizeofSizeT)))
    (Vector.ofFn fun i => pmsg (CtrlMsgbuf.ipv6Addr abi + i)) mIsReq

/-- The two switches of both handlers: what they return and the messages they send. -/
def sendReqRel (mIsReq : Bool) : Int × List AgpsMsg :=
  match typeOf (typeField abi pmsg) with
  | none => (-1, [])
  | some type =>
      match senderOf (senderField abi pmsg) with
      | some .quipc => (0, [wifiMessage abi pmsg type .quipc mIsReq])
      | some .msapm => (0, [wifiMessage abi pmsg type .msapm mIsReq])
      | some .msapu => (0, [wifiMessage abi pmsg type .msapu mIsReq])
      | some .gpsoneDaemon => (0, [bitMessage abi pmsg type mIsReq])
      | some .modem | none => (-1, [])

/-- `loc_eng_dmn_conn_loc_api_server_if_request_handler`. -/
def ifRequestHandler (locApiHandle : Bool) : Int × List AgpsMsg :=
  if locApiHandle then sendReqRel abi pmsg true else (1, [])

/-- `loc_eng_dmn_conn_loc_api_server_if_release_handler`, which does not look at
`loc_api_handle`. -/
def ifReleaseHandler : Int × List AgpsMsg := sendReqRel abi pmsg false

end Handlers

/-! ## The server -/

inductive Handler where
  | ifRequest
  | ifRelease
deriving DecidableEq, Repr

/-- What one call of `loc_api_server_proc` returns, the pipe after it, and the handler
it has called with the messages that one has sent. -/
structure ProcReturn where
  result : Int
  pipe : Pipe
  called : Option (Handler × List AgpsMsg)

/-- The size of the buffer of a frame. -/
def cmsgbufSize (abi : Abi) : Nat := CtrlMsgbuf.size abi + 256

/-- The handler a received frame is for. -/
def handlerOf (abi : Abi) (pCmsgbuf : Nat → UInt8) : Option Handler :=
  if (pCmsgbuf (CtrlMsgbuf.ctrlType abi)).toNat = gpsoneLocApiIfRequest then some .ifRequest
  else if (pCmsgbuf (CtrlMsgbuf.ctrlType abi)).toNat = gpsoneLocApiIfRelease then some .ifRelease
  else none

/-- The messages of a handler. -/
def Handler.messages (abi : Abi) (locApiHandle : Bool) (pCmsgbuf : Nat → UInt8) :
    Handler → List AgpsMsg
  | .ifRequest => (ifRequestHandler abi pCmsgbuf locApiHandle).2
  | .ifRelease => (ifReleaseHandler abi pCmsgbuf).2

/-- `loc_api_server_proc`. `pCmsgbuf` is what `malloc` returns, with what the memory
holds. What a handler returns is not looked at. -/
def locApiServerProc (abi : Abi) (locApiHandle : Bool) (pCmsgbuf : Option (Nat → UInt8))
    (pipe : Pipe) : ProcReturn :=
  match pCmsgbuf with
  | none => ⟨-1, pipe, none⟩
  | some pCmsgbuf =>
      let received := locEngDmnConnGlueMsgrcv abi pipe pCmsgbuf (cmsgbufSize abi)
      if received.result ≤ 0 then ⟨-1, received.pipe, none⟩
      else
        ⟨0, received.pipe, (handlerOf abi received.msgp).map fun handler =>
          (handler, handler.messages abi locApiHandle received.msgp)⟩

/-- The procedures of a thread helper. A turn of the loop has an input of its own. -/
structure Thelper (σ ι : Type*) where
  threadProcInit : σ → Int × σ
  threadProcPre : σ → Int × σ
  threadProc : ι → σ → Int × σ
  threadProcPost : σ → Int × σ

namespace Thelper

variable {σ ι : Type*} (thelper : Thelper σ ι)

/-- The loop of `thelper_main` and `thread_exit` after it. Where no input is left the
thread waits. -/
def loop : List ι → σ → σ × Bool
  | [], state => (state, false)
  | input :: inputs, state =>
      let (result, state) := thelper.threadProc input state
      if result < 0 then (state, true) else loop inputs state

theorem loop_of_neg {input : ι} {state : σ} (inputs : List ι)
    (h : (thelper.threadProc input state).1 < 0) :
    thelper.loop (input :: inputs) state = ((thelper.threadProc input state).2, true) := by
  rw [loop]
  exact if_pos h

theorem loop_of_nonneg {input : ι} {state : σ} (inputs : List ι)
    (h : 0 ≤ (thelper.threadProc input state).1) :
    thelper.loop (input :: inputs) state =
      thelper.loop inputs (thelper.threadProc input state).2 := by
  rw [loop]
  exact if_neg (not_lt.mpr h)

/-- `thelper_main`. -/
def main (inputs : List ι) (state : σ) : σ :=
  let (result, state) := thelper.threadProcInit state
  if result < 0 then state
  else
    let (result, state) := thelper.threadProcPre state
    if result < 0 then state
    else
      let (state, thread_exit) := thelper.loop inputs state
      if thread_exit then (thelper.threadProcPost state).2 else state

end Thelper

/-- The server: the pipe, the turns it has made, and the handlers called with the turn
of each. -/
structure Server where
  pipe : Pipe
  cnt : Nat
  called : List (Nat × Handler × List AgpsMsg)

/-- A turn of the server. -/
def Server.turn (abi : Abi) (locApiHandle : Bool) (pCmsgbuf : Option (Nat → UInt8))
    (server : Server) : Int × Server :=
  let proc := locApiServerProc abi locApiHandle pCmsgbuf server.pipe
  (proc.result,
    { pipe := proc.pipe
      cnt := server.cnt + 1
      called := server.called ++ proc.called.toList.map (server.cnt + 1, ·) })

/-- The procedures given to `loc_eng_dmn_conn_launch_thelper`. Opening and removing the
pipes does not fail. -/
def locApiServer (abi : Abi) (locApiHandle : Bool) : Thelper Server (Option (Nat → UInt8)) where
  threadProcInit server := (0, server)
  threadProcPre server := (0, server)
  threadProc := Server.turn abi locApiHandle
  threadProcPost server := (0, server)

/-- The server thread on a pipe. -/
def serve (abi : Abi) (locApiHandle : Bool) (buffers : List (Option (Nat → UInt8)))
    (pipe : Pipe) : Server :=
  (locApiServer abi locApiHandle).main buffers ⟨pipe, 0, []⟩

end Msm8916.Daemon
