import Msm8916.Engine.Server

/-!
What reaches the modem: the message a server is set with at once, the one
`loc_eng_agps_reinit` repeats from the stored address, and when the last message
of a type is the one for the server given last.
-/

namespace Msm8916.Engine.Servers

open CString

variable {resolve : List Char → Option UInt32} {capabilities : UInt32}

theorem messages_type (resolve : List Char → Option UInt32) (type : LocServerType)
    (hostname : Option (List Char)) (port : UInt32) :
    ∀ message ∈ (locEngSetServer resolve type hostname port).1, message.type = type := by
  intro message hmem
  cases type with
  | supl =>
      simp only [locEngSetServer] at hmem
      split_ifs at hmem with hfits
      · rw [List.mem_singleton] at hmem
        rw [hmem]
        rfl
      · cases hmem
  | _ =>
      simp only [locEngSetServer] at hmem
      split at hmem
      · cases hmem
      · rw [List.mem_singleton] at hmem
        rw [hmem]
        rfl

/-- The messages that set a server of the type. -/
def ofType (type : LocServerType) (messages : List SetServer) : List SetServer :=
  messages.filter fun message => message.type = type

theorem ofType_messages (resolve : List Char → Option UInt32) (type other : LocServerType)
    (hostname : Option (List Char)) (port : UInt32) :
    ofType type (locEngSetServer resolve other hostname port).1 =
      if other = type then (locEngSetServer resolve other hostname port).1 else [] := by
  have htype := messages_type resolve other hostname port
  split
  · rename_i heq
    apply List.filter_eq_self.mpr
    intro message hmem
    exact decide_eq_true ((htype message hmem).trans heq)
  · rename_i hne
    apply List.filter_eq_nil_iff.mpr
    intro message hmem hsame
    exact hne ((htype message hmem).symm.trans (of_decide_eq_true hsame))

/-- What a replay sends for the contents of one buffer. -/
def replayed (resolve : List Char → Option UInt32) (type : LocServerType) (buffer : HostBuf) :
    List SetServer :=
  if buffer.host_set then
    (locEngSetServer resolve type (some buffer.host_buf) buffer.port_buf).1
  else
    []

theorem ofType_reinit {type : LocServerType} (h : Assists type) (data : ServerData) :
    ofType type (locEngAgpsReinit resolve data) = replayed resolve type (bufferOf data type) := by
  have hreplayed : ∀ other buffer, ofType type (replayed resolve other buffer) =
      if other = type then replayed resolve other buffer else [] := by
    intro other buffer
    unfold replayed
    split
    · exact ofType_messages resolve type other _ _
    · split
      · rfl
      · rfl
  have happend : ofType type (locEngAgpsReinit resolve data) =
      ofType type (replayed resolve .supl data.supl) ++
        ofType type (replayed resolve .cdmaPde data.c2k) :=
    List.filter_append _ _
  rw [happend, hreplayed, hreplayed]
  rcases h with rfl | rfl
  · simp [bufferOf]
  · simp [bufferOf]

/-- The calls on which the servers are sent once more: the engine has restarted,
or the assistance is initialized late. -/
def Replays (capabilities : UInt32) (data : ServerData) (call : ServerCall) : Prop :=
  call = .engineUp ∧ data.agps_status_cb = true ∨
    ∃ status_cb, call = .agpsInit (some status_cb) ∧ data.agps_status_cb = false ∧
      needsServer capabilities = true

theorem perform_replays {data : ServerData} {call : ServerCall} (hadapter : data.adapter = true)
    (h : Replays capabilities data call) {type : LocServerType} (hassists : Assists type) :
    ofType type (perform resolve capabilities data call).2 =
      replayed resolve type (bufferOf data type) := by
  rcases h with ⟨rfl, hcb⟩ | ⟨status_cb, rfl, hcb, hneeds⟩
  · simp only [perform, handleEngineUp, hadapter, hcb, if_true]
    exact ofType_reinit hassists data
  · simp only [perform, locEngAgpsInit, hadapter, hcb, hneeds, if_true, Bool.true_eq_false,
      Bool.false_eq_true, or_self, if_false]
    rw [ofType_reinit hassists]
    rcases hassists with rfl | rfl
    · rfl
    · rfl

/-- The buffer of the type holds the name, or what it holds stands for the same
address. -/
def SameAddress (resolve : List Char → Option UInt32) (type : LocServerType)
    (hostname : List Char) : Prop :=
  match type with
  | .supl => hostname.length < hostBufSize
  | _ => resolve (strlcpy hostname hostBufSize) = resolve hostname

theorem strlcpy_of_fits {hostname : List Char} (h : hostname.length < hostBufSize) :
    strlcpy hostname hostBufSize = hostname :=
  List.take_of_length_le (Nat.le_sub_one_of_lt h)

theorem toNat_htonl (addr : UInt32) :
    (htonl addr).toNat = addr.toNat % 256 * 256 ^ 3 + addr.toNat / 256 % 256 * 256 ^ 2 +
      addr.toNat / 256 ^ 2 % 256 * 256 + addr.toNat / 256 ^ 3 := by
  have hlt := addr.toNat_lt
  have htop : addr.toNat / 256 ^ 3 < 256 := by omega
  rw [htonl, UInt32.toNat_ofNat']
  apply Nat.mod_eq_of_lt
  omega

theorem htonl_injective {addr other : UInt32} (h : htonl addr = htonl other) : addr = other := by
  have hbytes : ∀ n : Nat, n = n % 256 + n / 256 % 256 * 256 + n / 256 ^ 2 % 256 * 256 ^ 2 +
      n / 256 ^ 3 * 256 ^ 3 := by
    omega
  have htop : ∀ x : UInt32, x.toNat / 256 ^ 3 < 256 := by
    intro x
    have hlt := x.toNat_lt
    omega
  have hnat := congrArg UInt32.toNat h
  rw [toNat_htonl, toNat_htonl] at hnat
  have haddr := htop addr
  have hother := htop other
  apply UInt32.toNat_inj.mp
  rw [hbytes addr.toNat, hbytes other.toNat]
  -- the four bytes of each, by their own names
  generalize addr.toNat / 256 ^ 3 = a3 at *
  generalize other.toNat / 256 ^ 3 = b3 at *
  generalize addr.toNat / 256 ^ 2 = a2 at *
  generalize other.toNat / 256 ^ 2 = b2 at *
  generalize addr.toNat / 256 = a1 at *
  generalize other.toNat / 256 = b1 at *
  omega

/-- A URL printed from a name that is cut off is another one. -/
theorem supl_replay_iff (resolve : List Char → Option UInt32) {hostname : List Char}
    {port : UInt32} (hfits : (printUrl hostname port).length < maxUrlLen) :
    (locEngSetServer resolve .supl (some (strlcpy hostname hostBufSize)) port).1 =
      (locEngSetServer resolve .supl (some hostname) port).1 ↔ hostname.length < hostBufSize := by
  constructor
  · intro heq
    by_contra hlong
    have hlength : (strlcpy hostname hostBufSize).length = 100 := by
      rw [strlcpy, List.length_take]
      simp only [hostBufSize] at hlong ⊢
      omega
    have hname : ∀ name : List Char, 100 ≤ name.length →
        name.map Char.toLower ≠ "none".toList := by
      intro name hlong hnone
      have hfour := congrArg List.length hnone
      simp at hfour
      omega
    have hcut := hname (strlcpy hostname hostBufSize) (by omega)
    have hwhole := hname hostname (by simp only [hostBufSize] at hlong; omega)
    have hurl : ∀ name : List Char, (printUrl name port).length =
        name.length + 1 + (Nat.toDigits 10 port.toNat).length := by
      intro name
      simp only [printUrl, List.length_append, List.length_cons]
      omega
    have hcutFits : (printUrl (strlcpy hostname hostBufSize) port).length < maxUrlLen := by
      rw [hurl] at hfits ⊢
      simp only [hostBufSize] at hlong
      omega
    simp only [locEngSetServer, if_neg hcut, if_neg hwhole, if_pos hfits, if_pos hcutFits,
      List.cons.injEq, SetServer.url.injEq, and_true] at heq
    have hsame := heq.2
    rw [hurl, hurl, hlength] at hsame
    simp only [hostBufSize] at hlong
    omega
  · intro hshort
    rw [strlcpy_of_fits hshort]

theorem cdma_replay_iff (resolve : List Char → Option UInt32) {hostname cut : List Char}
    {port : UInt32} :
    (locEngSetServer resolve .cdmaPde (some cut) port).1 =
      (locEngSetServer resolve .cdmaPde (some hostname) port).1 ↔
      resolve cut = resolve hostname := by
  simp only [locEngSetServer, Option.bind_some]
  cases resolve cut with
  | none =>
      cases resolve hostname with
      | none => simp
      | some addr => simp
  | some cutAddr =>
      cases resolve hostname with
      | none => simp
      | some addr =>
          simp only [List.cons.injEq, SetServer.ipv4.injEq, and_true, Option.some.injEq]
          exact ⟨htonl_injective, congrArg htonl⟩

/-- What is sent once more for the server given last is what was sent for it
directly, exactly if its name went whole into the buffer or what went there stands
for the same address. -/
theorem replay_eq_direct_iff {resolve : List Char → Option UInt32} {capabilities : UInt32}
    {calls : List ServerCall} {call : ServerCall} {type : LocServerType} {hostname : List Char}
    {port : UInt32} (hassists : Assists type)
    (hgiven : lastGiven type (sinceInit calls) = some (hostname, port))
    (hfits : (printUrl hostname port).length < maxUrlLen)
    (hreplays : Replays capabilities (run resolve capabilities start calls).1 call) :
    ofType type (perform resolve capabilities (run resolve capabilities start calls).1 call).2 =
      (perform resolve capabilities (run resolve capabilities start calls).1
        (.setServer type hostname port)).2 ↔ SameAddress resolve type hostname := by
  have htracks := @run_tracks resolve capabilities calls
  have hadapter : (run resolve capabilities start calls).1.adapter = true := by
    rw [htracks.adapter]
    by_contra hnever
    have hsince : ∀ calls : List ServerCall, ¬ calls.any inits = true → sinceInit calls = [] := by
      intro calls
      induction calls with
      | nil => exact fun _ => rfl
      | cons first rest ih =>
          intro hnone
          simp only [List.any_cons, Bool.or_eq_true, not_or] at hnone
          rw [sinceInit, if_neg hnone.1]
          exact ih hnone.2
    rw [hsince calls hnever] at hgiven
    cases hgiven
  have hbuffer := htracks.buffer hadapter type hassists
  rw [perform_replays hadapter hreplays hassists, hbuffer, hgiven]
  have hdirect : (perform resolve capabilities (run resolve capabilities start calls).1
      (.setServer type hostname port)).2 =
        (locEngSetServer resolve type (some hostname) port).1 := by
    rcases hassists with rfl | rfl
    · simp [perform, locEngSetServerProxy, hadapter]
    · simp [perform, locEngSetServerProxy, hadapter]
  rw [hdirect]
  rcases hassists with rfl | rfl
  · exact supl_replay_iff resolve hfits
  · exact cdma_replay_iff resolve

/-- Both kinds of replay after a short name. -/
theorem replay_eq_direct_iff_short :
    let resolve : List Char → Option UInt32 := fun _ => some 0x0100007f
    let calls : List ServerCall :=
      [.init true 1, .setServer .supl "supl.host".toList 7275,
        .setServer .cdmaPde "pde".toList 4911]
    ofType .supl (perform resolve 0x4 (run resolve 0x4 start calls).1 (.agpsInit (some true))).2 =
        [.url "supl.host:7275".toList 14] ∧
      (ofType .supl (perform resolve 0x4 (run resolve 0x4 start calls).1
          (.agpsInit (some true))).2 =
        (perform resolve 0x4 (run resolve 0x4 start calls).1
          (.setServer .supl "supl.host".toList 7275)).2 ↔
        SameAddress resolve .supl "supl.host".toList) := by
  intro resolve calls
  refine ⟨by decide, replay_eq_direct_iff (.inl rfl) (by decide) (by decide) ?_⟩
  exact .inr ⟨true, rfl, by decide, by decide⟩

/-- A name of 101 characters fits the URL but not the buffer. -/
theorem long_name_cut :
    ¬ ∀ (resolve : List Char → Option UInt32) (capabilities : UInt32) (calls : List ServerCall)
      (call : ServerCall) (type : LocServerType) (hostname : List Char) (port : UInt32),
      Assists type → lastGiven type (sinceInit calls) = some (hostname, port) →
      (printUrl hostname port).length < maxUrlLen →
      Replays capabilities (run resolve capabilities start calls).1 call →
      ofType type (perform resolve capabilities (run resolve capabilities start calls).1 call).2 =
        (perform resolve capabilities (run resolve capabilities start calls).1
          (.setServer type hostname port)).2 := by
  intro hall
  have hsame := hall (fun _ => none) 0x4
    [.init true 1, .setServer .supl (List.replicate 101 'a') 7275] (.agpsInit (some true)) .supl
    (List.replicate 101 'a') 7275 (.inl rfl) (by decide) (by decide)
    (.inr ⟨true, rfl, by decide, by decide⟩)
  have hlength := congrArg (List.map fun message : SetServer =>
    match message with
    | .url _ mLen => mLen
    | _ => 0) hsame
  exact absurd hlength (by decide)

/-! ## The server given last reaches the modem -/

/-- A name that fits its buffer and its URL, or is resolved. -/
def Usable (resolve : List Char → Option UInt32) (type : LocServerType) (hostname : List Char)
    (port : UInt32) : Prop :=
  hostname.length < hostBufSize ∧
    match type with
    | .supl => (printUrl hostname port).length < maxUrlLen
    | _ => (resolve hostname).isSome

/-- The message that sets a server. -/
def messageFor (resolve : List Char → Option UInt32) (type : LocServerType)
    (server : List Char × UInt32) : Option SetServer :=
  (locEngSetServer resolve type (some server.1) server.2).1.getLast?

def lastSent (type : LocServerType) (messages : List SetServer) : Option SetServer :=
  (ofType type messages).getLast?

theorem lastSent_append (type : LocServerType) (first second : List SetServer) :
    lastSent type (first ++ second) = (lastSent type second).or (lastSent type first) := by
  rw [lastSent, ofType, List.filter_append, List.getLast?_append]
  rfl

theorem messageFor_isSome {type : LocServerType} (hassists : Assists type) {hostname : List Char}
    {port : UInt32} (h : Usable resolve type hostname port) :
    (messageFor resolve type (hostname, port)).isSome := by
  rcases hassists with rfl | rfl
  · have hfits : (printUrl hostname port).length < maxUrlLen := h.2
    have hshort : ([] : List Char).length < maxUrlLen := by decide
    simp only [messageFor, locEngSetServer]
    split_ifs
    · rfl
    · rfl
  · obtain ⟨addr, haddr⟩ := Option.isSome_iff_exists.mp h.2
    simp [messageFor, locEngSetServer, haddr]

theorem mem_of_lastGiven {type : LocServerType} {calls : List ServerCall} {hostname : List Char}
    {port : UInt32} (h : lastGiven type calls = some (hostname, port)) :
    .setServer type hostname port ∈ calls := by
  obtain ⟨call, hmem, hgiven⟩ := mem_of_lastWrite h
  cases call with
  | setServer other name number =>
      rw [given] at hgiven
      split at hgiven
      · rename_i heq
        cases hgiven
        rw [← heq]
        exact hmem
      · cases hgiven
  | init callbacks event => cases hgiven
  | agpsInit callbacks => cases hgiven
  | engineUp => cases hgiven

/-- A replay sends nothing but the server given last. -/
theorem lastSent_replayed {type : LocServerType} (server : Option (List Char × UInt32))
    (hshort : ∀ hostname port, server = some (hostname, port) → hostname.length < hostBufSize) :
    (replayed resolve type (kept server)).getLast? = server.bind (messageFor resolve type) := by
  cases server with
  | none => rfl
  | some given =>
      obtain ⟨hostname, port⟩ := given
      have hwhole := strlcpy_of_fits (hshort hostname port rfl)
      simp [replayed, kept, hwhole, messageFor]

theorem agpsInit_of_not_replays {data : ServerData} {callbacks : Option Bool}
    (h : ¬ Replays capabilities data (.agpsInit callbacks)) :
    (perform resolve capabilities data (.agpsInit callbacks)).2 = [] := by
  simp only [perform, locEngAgpsInit]
  split
  · rfl
  · rename_i hstate
    split
    · rfl
    · rename_i status_cb
      split
      · rename_i hneeds
        simp only [not_or, Bool.not_eq_true] at hstate
        exact absurd (.inr ⟨status_cb, rfl, hstate.2, hneeds⟩) h
      · rfl

/-- What a call sends of a type, once the engine is initialized: a new server, the
one given last once more, or nothing. -/
theorem lastSent_perform {data : ServerData} (hadapter : data.adapter = true)
    {type : LocServerType} (hassists : Assists type) {server : Option (List Char × UInt32)}
    (hbuffer : bufferOf data type = kept server)
    (hshort : ∀ hostname port, server = some (hostname, port) → hostname.length < hostBufSize)
    (call : ServerCall) :
    lastSent type (perform resolve capabilities data call).2 =
        (given type call).bind (messageFor resolve type) ∨
      given type call = none ∧ lastSent type (perform resolve capabilities data call).2 =
        server.bind (messageFor resolve type) := by
  have hreinit : lastSent type (locEngAgpsReinit resolve data) =
      server.bind (messageFor resolve type) := by
    rw [lastSent, ofType_reinit hassists, hbuffer]
    exact lastSent_replayed server hshort
  cases call with
  | setServer other hostname port =>
      apply Or.inl
      have hsent : (perform resolve capabilities data (.setServer other hostname port)).2 =
          (locEngSetServer resolve other (some hostname) port).1 := by
        cases other <;> simp [perform, locEngSetServerProxy, hadapter]
      rw [hsent, lastSent, ofType_messages, given]
      split
      · rename_i heq
        rw [heq]
        rfl
      · rfl
  | init callbacks event => exact .inl rfl
  | agpsInit callbacks =>
      by_cases hreplays : Replays capabilities data (.agpsInit callbacks)
      · refine .inr ⟨rfl, ?_⟩
        rw [lastSent, perform_replays hadapter hreplays hassists, hbuffer]
        exact lastSent_replayed server hshort
      · apply Or.inl
        rw [agpsInit_of_not_replays hreplays]
        rfl
  | engineUp =>
      simp only [perform, hadapter, if_true, handleEngineUp]
      split
      · exact .inr ⟨rfl, hreinit⟩
      · exact .inl rfl

/-- Once the engine is initialized, what it sent last of a type is the server given
last since then. -/
theorem lastSent_run {calls : List ServerCall}
    (husable : ∀ type hostname port, Assists type → .setServer type hostname port ∈ calls →
      Usable resolve type hostname port) {type : LocServerType} (hassists : Assists type) :
    lastSent type (run resolve capabilities start calls).2 =
      (lastGiven type (sinceInit calls)).bind (messageFor resolve type) := by
  induction calls using List.reverseRecOn with
  | nil => rfl
  | append_singleton calls call ih =>
      have htracks := @run_tracks resolve capabilities calls
      have hbefore := ih fun other hostname port hother hmem =>
        husable other hostname port hother (List.mem_append_left _ hmem)
      rw [run_concat]
      cases hadapter : (run resolve capabilities start calls).1.adapter with
      | false =>
          obtain ⟨hsent, hcb⟩ := htracks.silent hadapter
          obtain ⟨hquiet, -⟩ := @perform_silent resolve capabilities _ hadapter hcb call
          have hnever : calls.any inits = false := by rw [← htracks.adapter, hadapter]
          rw [hsent, hquiet, sinceInit_concat, hnever]
          rfl
      | true =>
          have hsince : sinceInit (calls ++ [call]) = sinceInit calls ++ [call] := by
            rw [sinceInit_concat, ← htracks.adapter, hadapter, if_pos rfl]
          have hshort : ∀ hostname port,
              lastGiven type (sinceInit calls) = some (hostname, port) →
              hostname.length < hostBufSize := by
            intro hostname port hgiven
            have hmem := mem_of_lastGiven (lastGiven_of_sinceInit hgiven)
            exact (husable type hostname port hassists (List.mem_append_left _ hmem)).1
          rw [lastSent_append, hbefore, hsince, lastGiven_concat]
          rcases @lastSent_perform resolve capabilities _ hadapter type hassists _
            (htracks.buffer hadapter type hassists) hshort call with hnew | ⟨hnone, hsame⟩
          · rw [hnew]
            cases hgiven : given type call with
            | none => rfl
            | some server =>
                obtain ⟨hostname, port⟩ := server
                have hmem : .setServer type hostname port ∈ calls ++ [call] := by
                  apply mem_of_lastGiven
                  rw [lastGiven_concat, hgiven, Option.some_or]
                have hsome := messageFor_isSome hassists (husable type hostname port hassists hmem)
                obtain ⟨message, hmessage⟩ := Option.isSome_iff_exists.mp hsome
                simp only [Option.bind_some, hmessage, Option.some_or]
          · rw [hnone, hsame, Option.none_or, Option.or_self]

/-- In every run the server given last for a type is the one sent last to the
adapter, for both types, exactly if for each type that was given a server one was
given after the engine was initialized. -/
theorem server_reaches_modem_iff {resolve : List Char → Option UInt32} {capabilities : UInt32}
    {calls : List ServerCall}
    (husable : ∀ type hostname port, Assists type → .setServer type hostname port ∈ calls →
      Usable resolve type hostname port) :
    (∀ type server, Assists type → lastGiven type calls = some server →
      ∃ message, messageFor resolve type server = some message ∧
        lastSent type (run resolve capabilities start calls).2 = some message) ↔
    ∀ type, Assists type → lastGiven type calls ≠ none →
      lastGiven type (sinceInit calls) ≠ none := by
  constructor
  · intro hall type hassists hgiven hnone
    obtain ⟨server, hserver⟩ := Option.ne_none_iff_exists'.mp hgiven
    obtain ⟨message, -, hsent⟩ := hall type server hassists hserver
    rw [lastSent_run husable hassists, hnone] at hsent
    cases hsent
  · intro hall type server hassists hserver
    have hsince := hall type hassists (by simp [hserver])
    obtain ⟨other, hother⟩ := Option.ne_none_iff_exists'.mp hsince
    have hsame := (lastGiven_of_sinceInit hother).symm.trans hserver
    obtain ⟨hostname, port⟩ := server
    have hmem := mem_of_lastGiven hserver
    obtain ⟨message, hmessage⟩ := Option.isSome_iff_exists.mp
      (messageFor_isSome hassists (husable type hostname port hassists hmem))
    refine ⟨message, hmessage, ?_⟩
    rw [lastSent_run husable hassists, hother, hsame, Option.bind_some, hmessage]

theorem server_reaches_modem_iff_supl :
    let resolve : List Char → Option UInt32 := fun _ => none
    let calls : List ServerCall :=
      [.init true 1, .setServer .supl "supl.host".toList 7275, .agpsInit (some true)]
    (∀ type server, Assists type → lastGiven type calls = some server →
      ∃ message, messageFor resolve type server = some message ∧
        lastSent type (run resolve 0x4 start calls).2 = some message) ↔
    ∀ type, Assists type → lastGiven type calls ≠ none →
      lastGiven type (sinceInit calls) ≠ none := by
  intro resolve calls
  apply server_reaches_modem_iff
  intro type hostname port hassists hmem
  simp only [calls, List.mem_cons, reduceCtorEq, List.not_mem_nil, or_false, false_or,
    ServerCall.setServer.injEq] at hmem
  obtain ⟨rfl, rfl, rfl⟩ := hmem
  exact ⟨by decide, by decide⟩

/-- A server that is set before the engine is initialized is wiped out with the rest
of its data. -/
theorem early_server_lost :
    ¬ ∀ (resolve : List Char → Option UInt32) (capabilities : UInt32) (calls : List ServerCall),
      needsServer capabilities = true →
      (∀ type hostname port, Assists type → .setServer type hostname port ∈ calls →
        Usable resolve type hostname port) →
      (run resolve capabilities start calls).1.internet_nif = true →
      ∀ type server, Assists type → lastGiven type calls = some server →
        ∃ message, messageFor resolve type server = some message ∧
          lastSent type (run resolve capabilities start calls).2 = some message := by
  intro hall
  obtain ⟨message, -, hsent⟩ := hall (fun _ => none) 0x4
    [.setServer .supl "supl.host".toList 7275, .init true 1, .agpsInit (some true)] (by decide)
    (by
      intro type hostname port hassists hmem
      simp only [List.mem_cons, reduceCtorEq, List.not_mem_nil, or_false,
        ServerCall.setServer.injEq] at hmem
      obtain ⟨rfl, rfl, rfl⟩ := hmem
      exact ⟨by decide, by decide⟩)
    (by decide) .supl ("supl.host".toList, 7275) (.inl rfl) (by decide)
  cases hsent

end Msm8916.Engine.Servers
