import Mathlib.Algebra.Ring.Nat
import Mathlib.Data.List.Induction
import Mathlib.Tactic.SplitIfs
import Msm8916.Engine.Network
import Msm8916.Lib.CString
import Msm8916.Lib.LastWrite

/-!
How the address of an assistance server gets to the modem:
`loc_eng_set_server_proxy`, `loc_eng_init`, `loc_eng_agps_init` and the restart of
the engine, in `loc_eng.cpp`. A C string is the list of its characters without
the terminating one.
-/

namespace Msm8916.Engine

open CString

inductive LocServerType
  | cdmaPde
  | customPde
  | mpc
  | supl
deriving DecidableEq, Repr

/-- `MAX_URL_LEN`, the size of the buffer a URL is printed to. -/
def maxUrlLen : Nat := 256

/-- The size of `supl_host_buf` and of `c2k_host_buf`. -/
def hostBufSize : Nat := 101

/-- What `%s:%u` prints. -/
def printUrl (hostname : List Char) (port : UInt32) : List Char :=
  hostname ++ ':' :: Nat.toDigits 10 port.toNat

def htonl (addr : UInt32) : UInt32 :=
  let n := addr.toNat
  UInt32.ofNat (n % 256 * 256 ^ 3 + n / 256 % 256 * 256 ^ 2 + n / 256 ^ 2 % 256 * 256 + n / 256 ^ 3)

/-- `LocEngSetServerUrl` and `LocEngSetServerIpv4`. -/
inductive SetServer
  | url (mUrl : List Char) (mLen : Nat)
  | ipv4 (mNlAddr mPort : UInt32) (mServerType : LocServerType)
deriving DecidableEq, Repr

def SetServer.type : SetServer → LocServerType
  | .url _ _ => .supl
  | .ipv4 _ _ mServerType => mServerType

/-- An address that came before its time: `supl_host_set`, `supl_host_buf` and
`supl_port_buf`, or the same of `c2k`. -/
structure HostBuf where
  host_set : Bool
  host_buf : List Char
  port_buf : UInt32
deriving DecidableEq, Repr

def HostBuf.zero : HostBuf := ⟨false, [], 0⟩

/-- The part of `loc_eng_data_s_type` that has to do with servers. Of a pointer
we keep whether it is set. -/
structure ServerData where
  adapter : Bool
  agps_status_cb : Bool
  internet_nif : Bool
  wifi_nif : Bool
  agnss_nif : Bool
  supl : HostBuf
  c2k : HostBuf
deriving DecidableEq, Repr

/-- After `memset`. -/
def ServerData.zero : ServerData := ⟨false, false, false, false, false, .zero, .zero⟩

/-- `resolve_in_addr` is given by `resolve`: the address a name stands for, in
network order. The result is what is sent to the adapter, and what is
returned. -/
def locEngSetServer (resolve : List Char → Option UInt32) (type : LocServerType)
    (hostname : Option (List Char)) (port : UInt32) : List SetServer × Int :=
  match type with
  | .supl =>
      let url :=
        match hostname with
        | none => []
        | some hostname =>
            if hostname.map Char.toLower = "none".toList then [] else printUrl hostname port
      (if url.length < maxUrlLen then [.url url url.length] else [], 0)
  | _ =>
      match hostname.bind resolve with
      | none => ([], -2)
      | some addr => ([.ipv4 (htonl addr) port type], 0)

def locEngSetServerProxy (resolve : List Char → Option UInt32) (data : ServerData)
    (type : LocServerType) (hostname : List Char) (port : UInt32) :
    ServerData × List SetServer × Int :=
  let buffer : HostBuf := ⟨true, strlcpy hostname hostBufSize, port⟩
  let data :=
    match type with
    | .supl => { data with supl := buffer }
    | .cdmaPde => { data with c2k := buffer }
    | _ => data
  (data, if data.adapter then locEngSetServer resolve type (some hostname) port else ([], 0))

/-- `loc_eng_init`; `callbacks` tells whether there are any. -/
def locEngInit (data : ServerData) (callbacks : Bool) (event : UInt32) : ServerData × Int :=
  if callbacks = false ∨ event = 0 then
    (data, -1)
  else if data.adapter then
    (data, 0)
  else
    ({ ServerData.zero with adapter := true }, 0)

def locEngAgpsReinit (resolve : List Char → Option UInt32) (data : ServerData) : List SetServer :=
  (if data.supl.host_set then
    (locEngSetServer resolve .supl (some data.supl.host_buf) data.supl.port_buf).1
  else
    []) ++
  if data.c2k.host_set then
    (locEngSetServer resolve .cdmaPde (some data.c2k.host_buf) data.c2k.port_buf).1
  else
    []

/-- `gps_conf.CAPABILITIES` allows one of the two modes that need a server. -/
def needsServer (capabilities : UInt32) : Bool :=
  capabilities &&& gpsCapabilityMsa ≠ 0 || capabilities &&& gpsCapabilityMsb ≠ 0

/-- `loc_eng_agps_init`; of the callbacks, if there are any, we keep whether
`status_cb` is set. -/
def locEngAgpsInit (resolve : List Char → Option UInt32) (capabilities : UInt32)
    (data : ServerData) (callbacks : Option Bool) : ServerData × List SetServer :=
  if data.adapter = false ∨ data.agps_status_cb then
    (data, [])
  else
    match callbacks with
    | none => (data, [])
    | some status_cb =>
        let data :=
          { data with agps_status_cb := status_cb, internet_nif := true, wifi_nif := true }
        if needsServer capabilities then
          ({ data with agnss_nif := true }, locEngAgpsReinit resolve data)
        else
          (data, [])

/-- The part of `loc_eng_handle_engine_up` that has to do with servers. -/
def handleEngineUp (resolve : List Char → Option UInt32) (data : ServerData) : List SetServer :=
  if data.agps_status_cb then locEngAgpsReinit resolve data else []

/-! ## Calls -/

inductive ServerCall
  | setServer (type : LocServerType) (hostname : List Char) (port : UInt32)
  | init (callbacks : Bool) (event : UInt32)
  | agpsInit (callbacks : Option Bool)
  | engineUp
deriving DecidableEq, Repr

namespace Servers

variable (resolve : List Char → Option UInt32) (capabilities : UInt32)

/-- What a call leaves behind and what it sends to the adapter. Before there is an
adapter nobody hears that the engine is up. -/
def perform (data : ServerData) : ServerCall → ServerData × List SetServer
  | .setServer type hostname port =>
      let (data, sent, _) := locEngSetServerProxy resolve data type hostname port
      (data, sent)
  | .init callbacks event => ((locEngInit data callbacks event).1, [])
  | .agpsInit callbacks => locEngAgpsInit resolve capabilities data callbacks
  | .engineUp => (data, if data.adapter then handleEngineUp resolve data else [])

/-- The state of the engine and all that was sent to the adapter. -/
def run : ServerData × List SetServer → List ServerCall → ServerData × List SetServer :=
  List.foldl fun (data, sent) call =>
    let (data, messages) := perform resolve capabilities data call
    (data, sent ++ messages)

def start : ServerData × List SetServer := (.zero, [])

theorem run_concat (state : ServerData × List SetServer) (calls : List ServerCall)
    (call : ServerCall) :
    run resolve capabilities state (calls ++ [call]) =
      ((perform resolve capabilities (run resolve capabilities state calls).1 call).1,
        (run resolve capabilities state calls).2 ++
          (perform resolve capabilities (run resolve capabilities state calls).1 call).2) := by
  simp only [run, List.foldl_append, List.foldl_cons, List.foldl_nil]

/-! ## The server given last -/

/-- The two types of which the engine keeps a server. -/
def Assists (type : LocServerType) : Prop := type = .supl ∨ type = .cdmaPde

/-- The server of the type that a call gives. -/
def given (type : LocServerType) : ServerCall → Option (List Char × UInt32)
  | .setServer other hostname port => if other = type then some (hostname, port) else none
  | _ => none

def lastGiven (type : LocServerType) (calls : List ServerCall) : Option (List Char × UInt32) :=
  (calls.filterMap (given type)).getLast?

/-- A call of `loc_eng_init` that is not refused for its parameters. -/
def inits : ServerCall → Bool
  | .init callbacks event => callbacks && event ≠ 0
  | _ => false

/-- The calls after the first that initializes the engine. -/
def sinceInit : List ServerCall → List ServerCall
  | [] => []
  | call :: calls => if inits call then calls else sinceInit calls

theorem sinceInit_concat (calls : List ServerCall) (call : ServerCall) :
    sinceInit (calls ++ [call]) = if calls.any inits then sinceInit calls ++ [call] else [] := by
  induction calls with
  | nil => cases hinits : inits call <;> simp [sinceInit, hinits]
  | cons first rest ih =>
      cases hfirst : inits first with
      | true => simp [sinceInit, hfirst]
      | false => simp [sinceInit, hfirst, ih]

theorem sinceInit_suffix (calls : List ServerCall) : sinceInit calls <:+ calls := by
  induction calls with
  | nil => exact List.suffix_refl _
  | cons call calls ih =>
      rw [sinceInit]
      split
      · exact List.suffix_cons call calls
      · exact ih.trans (List.suffix_cons call calls)

theorem lastGiven_concat (type : LocServerType) (calls : List ServerCall) (call : ServerCall) :
    lastGiven type (calls ++ [call]) = (given type call).or (lastGiven type calls) := by
  have hlast : lastWrite (given type) [call] = given type call := lastWrite_cons _ call []
  have happend := lastWrite_append (given type) calls [call]
  rw [hlast] at happend
  exact happend

/-- A server given since the start is the last one given. -/
theorem lastGiven_of_sinceInit {type : LocServerType} {calls : List ServerCall}
    {server : List Char × UInt32} (h : lastGiven type (sinceInit calls) = some server) :
    lastGiven type calls = some server := by
  obtain ⟨before, heq⟩ := sinceInit_suffix calls
  have happend := lastWrite_append (given type) before (sinceInit calls)
  rw [heq, show lastWrite (given type) (sinceInit calls) = some server from h,
    Option.some_or] at happend
  exact happend

/-! ## What the engine keeps -/

/-- What is kept of the server given last. -/
def kept : Option (List Char × UInt32) → HostBuf
  | none => .zero
  | some (hostname, port) => ⟨true, strlcpy hostname hostBufSize, port⟩

/-- The buffer of a type; only two have one. -/
def bufferOf (data : ServerData) : LocServerType → HostBuf
  | .supl => data.supl
  | .cdmaPde => data.c2k
  | _ => .zero

/-- Once the engine is initialized, its buffers hold the servers given since; before
that it has sent nothing and has no callbacks. -/
structure Tracks (calls : List ServerCall) (state : ServerData × List SetServer) : Prop where
  adapter : state.1.adapter = calls.any inits
  silent : state.1.adapter = false → state.2 = [] ∧ state.1.agps_status_cb = false
  buffer : state.1.adapter = true → ∀ type, Assists type →
    bufferOf state.1 type = kept (lastGiven type (sinceInit calls))

theorem start_tracks : Tracks [] start :=
  ⟨rfl, fun _ => ⟨rfl, rfl⟩, fun h => absurd h (by decide)⟩

theorem proxy_adapter (data : ServerData) (type : LocServerType) (hostname : List Char)
    (port : UInt32) :
    (locEngSetServerProxy resolve data type hostname port).1.adapter = data.adapter := by
  cases type <;> rfl

theorem proxy_status_cb (data : ServerData) (type : LocServerType) (hostname : List Char)
    (port : UInt32) :
    (locEngSetServerProxy resolve data type hostname port).1.agps_status_cb =
      data.agps_status_cb := by
  cases type <;> rfl

/-- The proxy keeps the server it is given, and no other. -/
theorem proxy_buffer (data : ServerData) (type other : LocServerType) (hostname : List Char)
    (port : UInt32) (h : Assists other) :
    bufferOf (locEngSetServerProxy resolve data type hostname port).1 other =
      if type = other then kept (some (hostname, port)) else bufferOf data other := by
  rcases h with rfl | rfl
  · cases type <;> rfl
  · cases type <;> rfl

variable {resolve capabilities}

theorem init_of_adapter {data : ServerData} (h : data.adapter = true) (callbacks : Bool)
    (event : UInt32) : (locEngInit data callbacks event).1 = data := by
  unfold locEngInit
  split_ifs
  · rfl
  · rfl

theorem init_of_new {data : ServerData} (h : data.adapter = false) (callbacks : Bool)
    (event : UInt32) :
    (locEngInit data callbacks event).1 =
      if inits (.init callbacks event) then { ServerData.zero with adapter := true } else data := by
  cases callbacks with
  | false => simp [locEngInit, inits]
  | true =>
      by_cases hevent : event = 0
      · simp [locEngInit, inits, hevent]
      · simp [locEngInit, inits, hevent, h]

theorem agpsInit_kept (data : ServerData) (callbacks : Option Bool) :
    (locEngAgpsInit resolve capabilities data callbacks).1.adapter = data.adapter ∧
      ∀ type, bufferOf (locEngAgpsInit resolve capabilities data callbacks).1 type =
        bufferOf data type := by
  unfold locEngAgpsInit
  split
  · exact ⟨rfl, fun type => rfl⟩
  · split
    · exact ⟨rfl, fun type => rfl⟩
    · dsimp only
      split
      · exact ⟨rfl, fun type => by cases type <;> rfl⟩
      · exact ⟨rfl, fun type => by cases type <;> rfl⟩

theorem agpsInit_of_new {data : ServerData} (h : data.adapter = false) (callbacks : Option Bool) :
    locEngAgpsInit resolve capabilities data callbacks = (data, []) := by
  simp [locEngAgpsInit, h]

/-- A call before the engine is initialized sends nothing. -/
theorem perform_silent {data : ServerData} (hadapter : data.adapter = false)
    (hcb : data.agps_status_cb = false) (call : ServerCall) :
    (perform resolve capabilities data call).2 = [] ∧
      (perform resolve capabilities data call).1.agps_status_cb = false := by
  cases call with
  | setServer type hostname port =>
      refine ⟨?_, (proxy_status_cb resolve data type hostname port).trans hcb⟩
      cases type <;> simp [perform, locEngSetServerProxy, hadapter]
  | init callbacks event =>
      refine ⟨rfl, ?_⟩
      rw [perform, init_of_new hadapter]
      split
      · rfl
      · exact hcb
  | agpsInit callbacks =>
      rw [perform, agpsInit_of_new hadapter]
      exact ⟨rfl, hcb⟩
  | engineUp =>
      simp [perform, hadapter, hcb]

theorem perform_new_adapter {data : ServerData} (hadapter : data.adapter = false)
    (call : ServerCall) : (perform resolve capabilities data call).1.adapter = inits call := by
  cases call with
  | setServer type hostname port =>
      exact (proxy_adapter resolve data type hostname port).trans hadapter
  | init callbacks event =>
      rw [perform, init_of_new hadapter]
      split
      · rename_i hinits
        exact hinits.symm
      · rename_i hinits
        exact hadapter.trans (Bool.eq_false_iff.mpr hinits).symm
  | agpsInit callbacks =>
      rw [perform, agpsInit_of_new hadapter]
      exact hadapter
  | engineUp => exact hadapter

/-- The first call that initializes the engine clears what was kept before. -/
theorem perform_inits {data : ServerData} (hadapter : data.adapter = false) {call : ServerCall}
    (h : inits call = true) :
    (perform resolve capabilities data call).1 = { ServerData.zero with adapter := true } := by
  cases call with
  | init callbacks event => rw [perform, init_of_new hadapter, if_pos h]
  | setServer type hostname port => cases h
  | agpsInit callbacks => cases h
  | engineUp => cases h

/-- Afterwards a call keeps the server it gives, and the others as they are. -/
theorem perform_keeps {data : ServerData} (hadapter : data.adapter = true)
    {servers : LocServerType → Option (List Char × UInt32)}
    (hbuffer : ∀ type, Assists type → bufferOf data type = kept (servers type))
    (call : ServerCall) :
    (perform resolve capabilities data call).1.adapter = true ∧
      ∀ type, Assists type → bufferOf (perform resolve capabilities data call).1 type =
        kept ((given type call).or (servers type)) := by
  cases call with
  | setServer other hostname port =>
      refine ⟨(proxy_adapter resolve data other hostname port).trans hadapter,
        fun type hassists => ?_⟩
      apply (proxy_buffer resolve data other type hostname port hassists).trans
      rw [given]
      split
      · rfl
      · exact hbuffer type hassists
  | init callbacks event =>
      rw [perform, init_of_adapter hadapter]
      exact ⟨hadapter, hbuffer⟩
  | agpsInit callbacks =>
      obtain ⟨hkeptAdapter, hkeptBuffer⟩ := @agpsInit_kept resolve capabilities data callbacks
      exact ⟨hkeptAdapter.trans hadapter, fun type hassists =>
        (hkeptBuffer type).trans (hbuffer type hassists)⟩
  | engineUp => exact ⟨hadapter, hbuffer⟩

theorem Tracks.perform {calls : List ServerCall} {state : ServerData × List SetServer}
    (h : Tracks calls state) (call : ServerCall) :
    Tracks (calls ++ [call]) ((perform resolve capabilities state.1 call).1,
      state.2 ++ (perform resolve capabilities state.1 call).2) := by
  have hany : (calls ++ [call]).any inits = (state.1.adapter || inits call) := by
    rw [List.any_append, h.adapter]
    simp
  cases hadapter : state.1.adapter with
  | false =>
      have hsince : sinceInit (calls ++ [call]) = [] := by
        rw [sinceInit_concat, ← h.adapter, hadapter]
        rfl
      obtain ⟨hsent, hcb⟩ := h.silent hadapter
      obtain ⟨hquiet, hcbNext⟩ := @perform_silent resolve capabilities _ hadapter hcb call
      have hnext := @perform_new_adapter resolve capabilities _ hadapter call
      refine ⟨?_, fun _ => ⟨?_, hcbNext⟩, fun hset type hassists => ?_⟩
      · rw [hany, hadapter, Bool.false_or, hnext]
      · rw [hsent, hquiet, List.nil_append]
      · rw [hnext] at hset
        rw [perform_inits hadapter hset, hsince]
        rcases hassists with rfl | rfl
        · rfl
        · rfl
  | true =>
      have hsince : sinceInit (calls ++ [call]) = sinceInit calls ++ [call] := by
        rw [sinceInit_concat, ← h.adapter, hadapter, if_pos rfl]
      obtain ⟨hnext, hbuffer⟩ :=
        @perform_keeps resolve capabilities _ hadapter _ (h.buffer hadapter) call
      refine ⟨?_, fun hnone => absurd (hnext.symm.trans hnone) (by decide),
        fun _ type hassists => ?_⟩
      · rw [hany, hadapter, Bool.true_or]
        exact hnext
      · rw [hsince, lastGiven_concat]
        exact hbuffer type hassists

theorem run_tracks (calls : List ServerCall) :
    Tracks calls (run resolve capabilities start calls) := by
  induction calls using List.reverseRecOn with
  | nil => exact start_tracks
  | append_singleton calls call ih =>
      rw [run_concat]
      exact ih.perform call

end Servers

end Msm8916.Engine
