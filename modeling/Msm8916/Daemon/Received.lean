import Msm8916.Daemon.Server

/-!
When the messages that a frame makes the server send are a function of the bytes
received: the handlers read the fields of the structure out of the buffer, and a field
that the frame does not reach is what the memory held before.
-/

namespace Msm8916.Daemon

open Memory Agps Engine

/-! ## The order of the fields -/

section Offsets

variable (abi : Abi)

theorem ctrlType_lt_type : CtrlMsgbuf.ctrlType abi < CtrlMsgbuf.type abi := by
  cases abi <;> decide

theorem senderId_le_ipv4Addr : CtrlMsgbuf.senderId abi + 4 ≤ CtrlMsgbuf.ipv4Addr abi := by
  cases abi <;> decide

theorem senderId_le_ipv6Addr : CtrlMsgbuf.senderId abi + 4 ≤ CtrlMsgbuf.ipv6Addr abi := by
  have hipv4 := senderId_le_ipv4Addr abi
  unfold CtrlMsgbuf.ipv6Addr
  omega

theorem senderId_le_ssid : CtrlMsgbuf.senderId abi + 4 ≤ CtrlMsgbuf.ssid abi := by
  have hipv6 := senderId_le_ipv6Addr abi
  unfold CtrlMsgbuf.ssid
  omega

theorem senderId_le_password : CtrlMsgbuf.senderId abi + 4 ≤ CtrlMsgbuf.password abi := by
  have hssid := senderId_le_ssid abi
  unfold CtrlMsgbuf.password
  omega

end Offsets

/-! ## Messages of a frame -/

/-- The messages that the frame in the buffer makes its handler send. -/
def frameMessages (abi : Abi) (locApiHandle : Bool) (pCmsgbuf : Nat → UInt8) : List AgpsMsg :=
  match handlerOf abi pCmsgbuf with
  | none => []
  | some handler => handler.messages abi locApiHandle pCmsgbuf

/-- The messages a call of `loc_api_server_proc` has sent. -/
def ProcReturn.messages (proc : ProcReturn) : List AgpsMsg :=
  match proc.called with
  | none => []
  | some (_, messages) => messages

/-- Whether a handler with this `ctrl_type` gets to its switches, and what it sends then
is a request. -/
def sendsFor (locApiHandle : Bool) (ctrlType : UInt8) : Option Bool :=
  if ctrlType.toNat = gpsoneLocApiIfRequest then if locApiHandle then some true else none
  else if ctrlType.toNat = gpsoneLocApiIfRelease then some false
  else none

theorem frameMessages_eq (abi : Abi) (locApiHandle : Bool) (pCmsgbuf : Nat → UInt8) :
    frameMessages abi locApiHandle pCmsgbuf =
      match sendsFor locApiHandle (pCmsgbuf (CtrlMsgbuf.ctrlType abi)) with
      | none => []
      | some mIsReq => (sendReqRel abi pCmsgbuf mIsReq).2 := by
  unfold frameMessages handlerOf sendsFor
  rcases Decidable.em ((pCmsgbuf (CtrlMsgbuf.ctrlType abi)).toNat = gpsoneLocApiIfRequest) with
    hrequest | hother
  · rw [if_pos hrequest, if_pos hrequest]
    cases locApiHandle <;> rfl
  · rw [if_neg hother, if_neg hother]
    rcases Decidable.em ((pCmsgbuf (CtrlMsgbuf.ctrlType abi)).toNat = gpsoneLocApiIfRelease) with
      hrelease | hunknown
    · rw [if_pos hrelease, if_pos hrelease]
      rfl
    · rw [if_neg hunknown, if_neg hunknown]

theorem typeOf_lt {value : Nat} {type : AGpsExtType} (h : typeOf value = some type) :
    value < 3 := by
  unfold typeOf at h
  split at h <;> first | omega | cases h

theorem typeOf_of_lt {value : Nat} (h : value < 3) : ∃ type, typeOf value = some type := by
  rcases value with _ | _ | _ | value
  · exact ⟨.supl, rfl⟩
  · exact ⟨.wifi, rfl⟩
  · exact ⟨.any, rfl⟩
  · omega

theorem senderOf_lt {value : Nat} {sender : IfReqSenderId} (h : senderOf value = some sender) :
    value < 4 := by
  unfold senderOf at h
  split at h <;> first | omega | cases h

theorem senderOf_ne_modem (value : Nat) : senderOf value ≠ some .modem := by
  unfold senderOf
  split <;> decide

section SendReqRel

variable {abi : Abi} {pmsg : Nat → UInt8} {mIsReq : Bool} {type : AGpsExtType}
  {sender : IfReqSenderId}

/-- The message for a sender. -/
def messageFor (abi : Abi) (pmsg : Nat → UInt8) (type : AGpsExtType) (mIsReq : Bool) :
    IfReqSenderId → AgpsMsg
  | .gpsoneDaemon => bitMessage abi pmsg type mIsReq
  | sender => wifiMessage abi pmsg type sender mIsReq

theorem sendReqRel_eq (htype : typeOf (typeField abi pmsg) = some type)
    (hsender : senderOf (senderField abi pmsg) = some sender) :
    (sendReqRel abi pmsg mIsReq).2 = [messageFor abi pmsg type mIsReq sender] := by
  unfold sendReqRel
  rw [htype, hsender]
  cases sender with
  | quipc => rfl
  | msapm => rfl
  | msapu => rfl
  | gpsoneDaemon => rfl
  | modem => exact absurd hsender (senderOf_ne_modem _)

/-- The type and the sender in the buffer are ones the switches have. -/
def Recognized (abi : Abi) (pmsg : Nat → UInt8) : Prop :=
  ∃ type sender, typeOf (typeField abi pmsg) = some type ∧
    senderOf (senderField abi pmsg) = some sender

theorem sendReqRel_of_not_recognized (h : ¬ Recognized abi pmsg) :
    (sendReqRel abi pmsg mIsReq).2 = [] := by
  unfold sendReqRel
  cases htype : typeOf (typeField abi pmsg) with
  | none => rfl
  | some type =>
      cases hsender : senderOf (senderField abi pmsg) with
      | none => rfl
      | some sender => exact absurd ⟨type, sender, htype, hsender⟩ h

end SendReqRel

/-! ## What has to be received -/

/-- The field at the offset may read as the value, by what is known of its bytes. -/
def MayRead (known : List UInt8) (off value : Nat) : Prop :=
  ∀ i byte, (leBytes 4 value)[i]? = some byte → ∀ byte', known[off + i]? = some byte' →
    byte = byte'

/-- The bytes that `strlcpy` copies are known: as many as the copy holds, or the
terminating one. -/
def StringReceived (known : List UInt8) (off : Nat) : Prop :=
  off + (ssidBufSize - 1) ≤ known.length ∨ ∃ i < ssidBufSize - 1, known[off + i]? = some 0

/-- The arguments of the message for the sender are known. -/
def ArgumentsReceived (abi : Abi) (known : List UInt8) : IfReqSenderId → Prop
  | .gpsoneDaemon => CtrlMsgbuf.ipv6Addr abi + 16 ≤ known.length
  | _ => StringReceived known (CtrlMsgbuf.ssid abi) ∧
      StringReceived known (CtrlMsgbuf.password abi)

/-- The frame has its `ctrl_type`, and where a handler gets to its switches, a known byte
of the type or of the sender is one no case has, or the sender and its arguments are
known. -/
def Covers (abi : Abi) (locApiHandle : Bool) (known : List UInt8) : Prop :=
  ∃ ctrlType, known[CtrlMsgbuf.ctrlType abi]? = some ctrlType ∧
    (sendsFor locApiHandle ctrlType ≠ none →
      (∃ value < 3, MayRead known (CtrlMsgbuf.type abi) value) →
      ∀ value sender, senderOf value = some sender →
        MayRead known (CtrlMsgbuf.senderId abi) value →
          CtrlMsgbuf.senderId abi + 4 ≤ known.length ∧ ArgumentsReceived abi known sender)

/-! ## A frame that covers what is read -/

section Agreeing

variable {abi : Abi} {known : List UInt8} {mem other : Nat → UInt8}

/-- What a field reads as it may read as. -/
theorem mayRead_of_agrees (h : Agrees known mem) (off : Nat) :
    MayRead known off (leValue (window mem off 4)) := by
  intro i byte hbyte byte' hknown
  have hbytes := leBytes_leValue (window mem off 4)
  rw [length_window] at hbytes
  rw [hbytes, getElem?_window] at hbyte
  split at hbyte
  · obtain rfl := Option.some.inj hbyte
    exact h _ _ hknown
  · cases hbyte

theorem takeWhile_ne_congr {first second : List UInt8} {i : Nat}
    (h : ∀ j ≤ i, first[j]? = second[j]?) (hzero : first[i]? = some 0) :
    first.takeWhile (· != 0) = second.takeWhile (· != 0) := by
  induction i generalizing first second with
  | zero =>
      have hhead := h 0 (Nat.le_refl 0)
      rcases first with _ | ⟨a, first⟩
      · cases hzero
      · rcases second with _ | ⟨b, second⟩
        · cases hhead
        · obtain rfl : a = 0 := Option.some.inj hzero
          obtain rfl : 0 = b := Option.some.inj hhead
          rfl
  | succ i ih =>
      have hhead := h 0 (Nat.zero_le _)
      rcases first with _ | ⟨a, first⟩
      · cases hzero
      · rcases second with _ | ⟨b, second⟩
        · cases hhead
        · obtain rfl : a = b := Option.some.inj hhead
          have hrest := ih (fun j hj => h (j + 1) (Nat.succ_le_succ hj)) hzero
          rw [List.takeWhile_cons, List.takeWhile_cons, hrest]

theorem copyString_eq_of_received (h : Agrees known mem) (h' : Agrees known other) {off : Nat}
    (hreceived : StringReceived known off) : copyString mem off = copyString other off := by
  unfold copyString
  rcases hreceived with hlength | ⟨i, hi, hzero⟩
  · rw [h.window_eq h' hlength]
  · unfold strlcpy
    congr 1
    obtain ⟨hlt, _⟩ := List.getElem?_eq_some_iff.mp hzero
    apply takeWhile_ne_congr (i := i)
    · intro j hj
      rw [getElem?_window, getElem?_window, h.eq_of_lt h' (by omega)]
    · rw [getElem?_window, if_pos hi, h _ _ hzero]

/-- With the arguments known the message is. -/
theorem messageFor_eq_of_received (h : Agrees known mem) (h' : Agrees known other)
    {sender : IfReqSenderId} (hreceived : ArgumentsReceived abi known sender)
    (type : AGpsExtType) (mIsReq : Bool) :
    messageFor abi mem type mIsReq sender = messageFor abi other type mIsReq sender := by
  have hwifi : ∀ sender : IfReqSenderId, StringReceived known (CtrlMsgbuf.ssid abi) ∧
      StringReceived known (CtrlMsgbuf.password abi) →
      wifiMessage abi mem type sender mIsReq = wifiMessage abi other type sender mIsReq := by
    rintro sender ⟨hssid, hpassword⟩
    unfold wifiMessage
    rw [copyString_eq_of_received h h' hssid, copyString_eq_of_received h h' hpassword]
  cases sender with
  | quipc => exact hwifi .quipc hreceived
  | msapm => exact hwifi .msapm hreceived
  | msapu => exact hwifi .msapu hreceived
  | modem => exact hwifi .modem hreceived
  | gpsoneDaemon =>
      change CtrlMsgbuf.ipv6Addr abi + 16 ≤ known.length at hreceived
      change bitMessage abi mem type mIsReq = bitMessage abi other type mIsReq
      have hipv4 : CtrlMsgbuf.ipv6Addr abi = CtrlMsgbuf.ipv4Addr abi + abi.sizeofSizeT := rfl
      have hipv6 : (fun i : Fin 16 => mem (CtrlMsgbuf.ipv6Addr abi + i)) =
          fun i : Fin 16 => other (CtrlMsgbuf.ipv6Addr abi + i) := by
        funext i
        exact h.eq_of_lt h' (by omega)
      unfold bitMessage
      rw [h.window_eq h' (by omega), hipv6]

/-- Fields that are recognized in one memory are known, and with them the arguments. -/
theorem fields_eq_of_recognized {locApiHandle : Bool} {ctrlType : UInt8}
    (hcovers : Covers abi locApiHandle known)
    (hctrl : known[CtrlMsgbuf.ctrlType abi]? = some ctrlType)
    (hsends : sendsFor locApiHandle ctrlType ≠ none)
    (h : Agrees known mem) (h' : Agrees known other) {type : AGpsExtType}
    {sender : IfReqSenderId} (htype : typeOf (typeField abi mem) = some type)
    (hsender : senderOf (senderField abi mem) = some sender) :
    typeField abi mem = typeField abi other ∧ senderField abi mem = senderField abi other ∧
      ArgumentsReceived abi known sender := by
  obtain ⟨ctrlType', hctrl', hfields⟩ := hcovers
  obtain rfl := Option.some.inj (hctrl.symm.trans hctrl')
  obtain ⟨hlength, harguments⟩ := hfields hsends
    ⟨_, typeOf_lt htype, mayRead_of_agrees h (CtrlMsgbuf.type abi)⟩ _ sender
    hsender (mayRead_of_agrees h (CtrlMsgbuf.senderId abi))
  have hoff : CtrlMsgbuf.senderId abi = CtrlMsgbuf.type abi + 4 := rfl
  have htypes : window mem (CtrlMsgbuf.type abi) 4 = window other (CtrlMsgbuf.type abi) 4 :=
    h.window_eq h' (by omega)
  have hsenders := h.window_eq h' hlength
  exact ⟨congrArg leValue htypes, congrArg leValue hsenders, harguments⟩

/-- The frame determines the messages where it covers what the handlers read. -/
theorem determined_of_covers {locApiHandle : Bool} (hcovers : Covers abi locApiHandle known) :
    Determined known (frameMessages abi locApiHandle) := by
  rw [determined_iff]
  intro mem other h h'
  obtain ⟨ctrlType, hctrl, _⟩ := id hcovers
  rw [frameMessages_eq, frameMessages_eq, h _ _ hctrl, h' _ _ hctrl]
  cases hsends : sendsFor locApiHandle ctrlType with
  | none => rfl
  | some mIsReq =>
      have hsends : sendsFor locApiHandle ctrlType ≠ none := by
        rw [hsends]
        exact Option.some_ne_none mIsReq
      change (sendReqRel abi mem mIsReq).2 = (sendReqRel abi other mIsReq).2
      rcases Classical.em (Recognized abi mem) with
        ⟨type, sender, htype, hsender⟩ | hmem
      · obtain ⟨htypes, hsenders, harguments⟩ :=
          fields_eq_of_recognized hcovers hctrl hsends h h' htype hsender
        rw [sendReqRel_eq htype hsender, sendReqRel_eq (htypes ▸ htype) (hsenders ▸ hsender),
          messageFor_eq_of_received h h' harguments]
      · have hother : ¬ Recognized abi other := by
          rintro ⟨type, sender, htype, hsender⟩
          obtain ⟨htypes, hsenders, _⟩ :=
            fields_eq_of_recognized hcovers hctrl hsends h' h htype hsender
          exact hmem ⟨type, sender, htypes ▸ htype, hsenders ▸ hsender⟩
        rw [sendReqRel_of_not_recognized hmem, sendReqRel_of_not_recognized hother]

end Agreeing

/-! ## A frame that does not -/

section Distinguishing

variable {abi : Abi} {known : List UInt8} {locApiHandle : Bool}

/-- A memory that starts with the known bytes and has the type and the sender. -/
def withFields (abi : Abi) (known : List UInt8) (type sender : Nat) : Nat → UInt8 :=
  store (store (store (fun _ => 0) 0 known) (CtrlMsgbuf.type abi) (leBytes 4 type))
    (CtrlMsgbuf.senderId abi) (leBytes 4 sender)

theorem agrees_withFields {type sender : Nat}
    (htype : MayRead known (CtrlMsgbuf.type abi) type)
    (hsender : MayRead known (CtrlMsgbuf.senderId abi) sender) :
    Agrees known (withFields abi known type sender) :=
  ((agrees_store known _).store_consistent htype).store_consistent hsender

theorem window_store_leBytes (mem : Nat → UInt8) (off value : Nat) :
    window (store mem off (leBytes 4 value)) off 4 = leBytes 4 value := by
  have hself := window_store_self mem off (leBytes 4 value)
  rwa [length_leBytes] at hself

theorem typeField_withFields {type sender : Nat} (h : type < 256 ^ 4) :
    typeField abi (withFields abi known type sender) = type := by
  have hoff : CtrlMsgbuf.senderId abi = CtrlMsgbuf.type abi + 4 := rfl
  unfold typeField withFields
  rw [window_store_disjoint (.inl (by omega)), window_store_leBytes, leValue_leBytes h]

theorem senderField_withFields {type sender : Nat} (h : sender < 256 ^ 4) :
    senderField abi (withFields abi known type sender) = sender := by
  unfold senderField withFields
  rw [window_store_leBytes, leValue_leBytes h]

/-- What is written after the sender leaves the type and the sender. -/
theorem fields_store {off : Nat} (h : CtrlMsgbuf.senderId abi + 4 ≤ off) (mem : Nat → UInt8)
    (bytes : List UInt8) :
    typeField abi (store mem off bytes) = typeField abi mem ∧
      senderField abi (store mem off bytes) = senderField abi mem := by
  have hoff : CtrlMsgbuf.senderId abi = CtrlMsgbuf.type abi + 4 := rfl
  constructor
  · exact congrArg leValue (window_store_disjoint (.inl (by omega)))
  · exact congrArg leValue (window_store_disjoint (.inl h))

theorem frameMessages_of_agrees {mem : Nat → UInt8} {ctrlType : UInt8} {mIsReq : Bool}
    (h : Agrees known mem) (hctrl : known[CtrlMsgbuf.ctrlType abi]? = some ctrlType)
    (hsends : sendsFor locApiHandle ctrlType = some mIsReq) :
    frameMessages abi locApiHandle mem = (sendReqRel abi mem mIsReq).2 := by
  rw [frameMessages_eq, h _ _ hctrl, hsends]

/-- Where the frame ends before its `ctrl_type`, the memory may hold a release. -/
theorem ctrlType_lt_of_determined (h : Determined known (frameMessages abi locApiHandle)) :
    CtrlMsgbuf.ctrlType abi < known.length := by
  apply Nat.lt_of_not_le
  intro hshort
  have hoff : CtrlMsgbuf.senderId abi = CtrlMsgbuf.type abi + 4 := rfl
  have hctrl := ctrlType_lt_type abi
  have hbase := agrees_store known fun _ => 0
  have hsame := determined_iff.mp h _ _
    (hbase.store_beyond hshort [0xF1]) (hbase.store_beyond hshort [0])
  have hzero : ∀ off, CtrlMsgbuf.type abi ≤ off →
      leValue (window (store (store (fun _ => 0) 0 known) (CtrlMsgbuf.ctrlType abi) [0xF1])
        off 4) = 0 := by
    intro off hle
    rw [window_store_disjoint (.inr (by rw [List.length_singleton]; omega)),
      window_store_disjoint (.inr (by omega))]
    rfl
  have htype : typeOf (typeField abi
      (store (store (fun _ => 0) 0 known) (CtrlMsgbuf.ctrlType abi) [0xF1])) = some .supl :=
    congrArg typeOf (hzero _ (Nat.le_refl _))
  have hsender : senderOf (senderField abi
      (store (store (fun _ => 0) 0 known) (CtrlMsgbuf.ctrlType abi) [0xF1])) = some .quipc :=
    congrArg senderOf (hzero _ (by omega))
  have hbyte : ∀ byte : UInt8, store (store (fun _ => 0) 0 known) (CtrlMsgbuf.ctrlType abi)
      [byte] (CtrlMsgbuf.ctrlType abi) = byte :=
    fun byte => store_inside (i := 0) rfl
  rw [frameMessages_eq, frameMessages_eq, hbyte, hbyte] at hsame
  change (sendReqRel abi _ false).2 = [] at hsame
  rw [sendReqRel_eq htype hsender] at hsame
  cases hsame

section Sending

variable {ctrlType : UInt8} {mIsReq : Bool} {value sender' : Nat} {sender : IfReqSenderId}

/-- Where the frame ends before its sender does, the rest of it may be one no case has. -/
theorem senderId_le_of_determined (h : Determined known (frameMessages abi locApiHandle))
    (hctrl : known[CtrlMsgbuf.ctrlType abi]? = some ctrlType)
    (hsends : sendsFor locApiHandle ctrlType = some mIsReq)
    (hvalue : value < 3) (htype : MayRead known (CtrlMsgbuf.type abi) value)
    (hknows : senderOf sender' = some sender)
    (hsender : MayRead known (CtrlMsgbuf.senderId abi) sender') :
    CtrlMsgbuf.senderId abi + 4 ≤ known.length := by
  apply Nat.le_of_not_lt
  intro hshort
  have hagrees := agrees_withFields htype hsender
  have hbeyond : known.length ≤ CtrlMsgbuf.senderId abi + 3 := by omega
  have hother := hagrees.store_beyond hbeyond [0xFF]
  have hsame := determined_iff.mp h _ _ hagrees hother
  obtain ⟨type, hsupported⟩ := typeOf_of_lt hvalue
  rw [frameMessages_of_agrees hagrees hctrl hsends, frameMessages_of_agrees hother hctrl hsends,
    sendReqRel_eq (by rw [typeField_withFields (by omega)]; exact hsupported)
      (by rw [senderField_withFields (by have := senderOf_lt hknows; omega)]; exact hknows),
    sendReqRel_of_not_recognized] at hsame
  · cases hsame
  · rintro ⟨type, sender, _, hsender⟩
    have hlast : (window (store (withFields abi known value sender') (CtrlMsgbuf.senderId abi + 3)
        [0xFF]) (CtrlMsgbuf.senderId abi) 4)[3]? = some 0xFF := by
      rw [getElem?_window, if_pos (by decide)]
      exact congrArg some (store_inside (i := 0) rfl)
    have hlarge := le_leValue hlast
    have hsmall := senderOf_lt hsender
    unfold senderField at hsmall
    have hbyte : (0xFF : UInt8).toNat * 256 ^ 3 ≥ 4 := by decide
    omega

/-- Writing after the frame, in the part of the arguments, changes no message. -/
theorem messageFor_eq_of_determined (h : Determined known (frameMessages abi locApiHandle))
    (hctrl : known[CtrlMsgbuf.ctrlType abi]? = some ctrlType)
    (hsends : sendsFor locApiHandle ctrlType = some mIsReq)
    (hvalue : value < 3) (htype : MayRead known (CtrlMsgbuf.type abi) value)
    (hknows : senderOf sender' = some sender)
    (hsender : MayRead known (CtrlMsgbuf.senderId abi) sender') {off : Nat}
    (hoff : CtrlMsgbuf.senderId abi + 4 ≤ off) (hshort : known.length ≤ off) :
    ∃ type, messageFor abi (store (withFields abi known value sender') off [0]) type mIsReq
        sender =
      messageFor abi (store (withFields abi known value sender') off [1]) type mIsReq sender := by
  obtain ⟨type, hsupported⟩ := typeOf_of_lt hvalue
  have hagrees := agrees_withFields htype hsender
  have hmessages : ∀ byte : UInt8, frameMessages abi locApiHandle
      (store (withFields abi known value sender') off [byte]) =
      [messageFor abi (store (withFields abi known value sender') off [byte]) type mIsReq
        sender] := by
    intro byte
    obtain ⟨htypes, hsenders⟩ := fields_store hoff (withFields abi known value sender') [byte]
    rw [frameMessages_of_agrees (hagrees.store_beyond hshort [byte]) hctrl hsends, sendReqRel_eq
      (by rw [htypes, typeField_withFields (by omega)]; exact hsupported)
      (by rw [hsenders, senderField_withFields (by have := senderOf_lt hknows; omega)]
          exact hknows)]
  have hsame := determined_iff.mp h _ _ (hagrees.store_beyond hshort [0])
    (hagrees.store_beyond hshort [1])
  rw [hmessages 0, hmessages 1] at hsame
  exact ⟨type, (List.cons.inj hsame).1⟩

end Sending

/-! ### The arguments -/

theorem takeWhile_ne_of_zero {bytes : List UInt8} {i : Nat} (h : bytes[i]? = some 0) :
    (bytes.takeWhile (· != 0))[i]? = none := by
  induction i generalizing bytes with
  | zero =>
      rcases bytes with _ | ⟨byte, bytes⟩
      · rfl
      · obtain rfl : byte = 0 := Option.some.inj h
        rfl
  | succ i ih =>
      rcases bytes with _ | ⟨byte, bytes⟩
      · rfl
      · rw [List.takeWhile_cons]
        split
        · exact ih h
        · rfl

theorem takeWhile_ne_of_nonzero {bytes : List UInt8} {i : Nat}
    (h : ∀ j ≤ i, ∃ byte, bytes[j]? = some byte ∧ byte ≠ 0) :
    (bytes.takeWhile (· != 0))[i]? = bytes[i]? := by
  induction i generalizing bytes with
  | zero =>
      obtain ⟨byte, hbyte, hne⟩ := h 0 (Nat.le_refl 0)
      rcases bytes with _ | ⟨first, bytes⟩
      · cases hbyte
      · obtain rfl : first = byte := Option.some.inj hbyte
        rw [List.takeWhile_cons, if_pos (by simpa using hne)]
        rfl
  | succ i ih =>
      obtain ⟨byte, hbyte, hne⟩ := h 0 (Nat.zero_le _)
      rcases bytes with _ | ⟨first, bytes⟩
      · cases hbyte
      · obtain rfl : first = byte := Option.some.inj hbyte
        rw [List.takeWhile_cons, if_pos (by simpa using hne)]
        exact ih fun j hj => h (j + 1) (Nat.succ_le_succ hj)

theorem copyString_getElem? {mem : Nat → UInt8} {off i : Nat} (h : i < ssidBufSize - 1) :
    (copyString mem off)[i]? =
      ((window mem off (ssidBufSize - 1)).takeWhile (· != 0))[i]? := by
  unfold copyString strlcpy
  rw [List.getElem?_take_of_lt h]

/-- A string of which the copy does not change with the first unknown byte is known. -/
theorem stringReceived_of_copyString {mem : Nat → UInt8} {off : Nat} (h : Agrees known mem)
    (hcopy : copyString (store mem (max off known.length) [0]) off =
      copyString (store mem (max off known.length) [1]) off) : StringReceived known off := by
  apply Classical.byContradiction
  intro hunknown
  have hlength : known.length < off + (ssidBufSize - 1) := by
    apply Nat.lt_of_not_le
    intro hle
    exact hunknown (.inl hle)
  have hnonzero : ∀ i < ssidBufSize - 1, known[off + i]? ≠ some 0 := by
    intro i hi hzero
    exact hunknown (.inr ⟨i, hi, hzero⟩)
  -- The first unknown byte of the string.
  let i := max off known.length - off
  have hi : i < ssidBufSize - 1 := by
    have hpos : 0 < ssidBufSize - 1 := by decide
    dsimp only [i]
    omega
  have hat : ∀ byte : UInt8, (window (store mem (max off known.length) [byte]) off
      (ssidBufSize - 1))[i]? = some byte := by
    intro byte
    rw [getElem?_window, if_pos hi, show off + i = max off known.length + 0 by
      dsimp only [i]; omega]
    exact congrArg some (store_inside rfl)
  have hbefore : ∀ j < i, ∃ byte, (window (store mem (max off known.length) [1]) off
      (ssidBufSize - 1))[j]? = some byte ∧ byte ≠ 0 := by
    intro j hj
    have hjlt : off + j < known.length := by dsimp only [i] at hj; omega
    have hknown := List.getElem?_eq_getElem hjlt
    refine ⟨known[off + j], ?_, ?_⟩
    · rw [getElem?_window, if_pos (by omega), store_outside (.inl (by omega)), h _ _ hknown]
    · intro hzero
      rw [hzero] at hknown
      exact hnonzero j (by omega) hknown
  have hread := congrArg (·[i]?) hcopy
  rw [copyString_getElem? hi, copyString_getElem? hi, takeWhile_ne_of_zero (hat 0),
    takeWhile_ne_of_nonzero, hat 1] at hread
  · cases hread
  · intro j hj
    rcases Nat.lt_or_ge j i with hlt | hge
    · exact hbefore j hlt
    · obtain rfl : j = i := Nat.le_antisymm hj hge
      exact ⟨1, hat 1, by decide⟩

section Arguments

variable {ctrlType : UInt8} {mIsReq : Bool} {value sender' : Nat} {sender : IfReqSenderId}

theorem argumentsReceived_of_determined (h : Determined known (frameMessages abi locApiHandle))
    (hctrl : known[CtrlMsgbuf.ctrlType abi]? = some ctrlType)
    (hsends : sendsFor locApiHandle ctrlType = some mIsReq)
    (hvalue : value < 3) (htype : MayRead known (CtrlMsgbuf.type abi) value)
    (hknows : senderOf sender' = some sender)
    (hsender : MayRead known (CtrlMsgbuf.senderId abi) sender') :
    ArgumentsReceived abi known sender := by
  have hagrees := agrees_withFields htype hsender
  have hsame := @messageFor_eq_of_determined abi known locApiHandle ctrlType mIsReq value sender'
    sender h hctrl hsends hvalue htype hknows hsender
  have hstrings : (∀ mem : Nat → UInt8, ∀ type, messageFor abi mem type mIsReq sender =
      wifiMessage abi mem type sender mIsReq) →
      StringReceived known (CtrlMsgbuf.ssid abi) ∧
        StringReceived known (CtrlMsgbuf.password abi) := by
    intro hwifi
    constructor
    · obtain ⟨type, heq⟩ := @hsame (max (CtrlMsgbuf.ssid abi) known.length)
        ((senderId_le_ssid abi).trans (Nat.le_max_left _ _)) (Nat.le_max_right _ _)
      rw [hwifi, hwifi] at heq
      injection heq with _ _ hssid
      exact stringReceived_of_copyString hagrees (Option.some.inj hssid)
    · obtain ⟨type, heq⟩ := @hsame (max (CtrlMsgbuf.password abi) known.length)
        ((senderId_le_password abi).trans (Nat.le_max_left _ _)) (Nat.le_max_right _ _)
      rw [hwifi, hwifi] at heq
      injection heq with _ _ _ hpassword
      exact stringReceived_of_copyString hagrees (Option.some.inj hpassword)
  cases sender with
  | quipc => exact hstrings fun _ _ => rfl
  | msapm => exact hstrings fun _ _ => rfl
  | msapu => exact hstrings fun _ _ => rfl
  | modem => exact hstrings fun _ _ => rfl
  | gpsoneDaemon =>
      change CtrlMsgbuf.ipv6Addr abi + 16 ≤ known.length
      apply Nat.le_of_not_lt
      intro hshort
      have hipv6 := senderId_le_ipv6Addr abi
      obtain ⟨type, heq⟩ := @hsame (CtrlMsgbuf.ipv6Addr abi + 15) (by omega) (by omega)
      change bitMessage abi _ type mIsReq = bitMessage abi _ type mIsReq at heq
      injection heq with _ _ haddr
      have hbyte : ∀ byte : UInt8, (Vector.ofFn fun i : Fin 16 =>
          store (withFields abi known value sender') (CtrlMsgbuf.ipv6Addr abi + 15) [byte]
            (CtrlMsgbuf.ipv6Addr abi + i))[15] = byte := by
        intro byte
        rw [Vector.getElem_ofFn]
        exact store_inside (i := 0) rfl
      have hlast := (hbyte 0).symm.trans ((congrArg (·[15]) haddr).trans (hbyte 1))
      cases hlast

end Arguments

/-- Where the messages are determined, the frame covers what the handlers read. -/
theorem covers_of_determined (h : Determined known (frameMessages abi locApiHandle)) :
    Covers abi locApiHandle known := by
  have hctrl := List.getElem?_eq_getElem (ctrlType_lt_of_determined h)
  refine ⟨_, hctrl, ?_⟩
  rintro hsends ⟨value, hvalue, htype⟩ sender' sender hknows hsender
  obtain ⟨mIsReq, hsends⟩ := Option.ne_none_iff_exists'.mp hsends
  exact ⟨senderId_le_of_determined h hctrl hsends hvalue htype hknows hsender,
    argumentsReceived_of_determined h hctrl hsends hvalue htype hknows hsender⟩

end Distinguishing

/-! ## The frames the server accepts -/

/-- What a call sends for a frame it accepts, by the bytes of the frame. -/
theorem messages_eq {abi : Abi} {locApiHandle : Bool} {pipe : Pipe} {size : Nat}
    (hdeclared : declared abi pipe = some size) (hle : size ≤ cmsgbufSize abi)
    (hbody : (bodyRead abi pipe size).result = toInt (abi.sub size abi.sizeofSizeT))
    (hpos : 0 < toInt size) (pCmsgbuf : Nat → UInt8) :
    (locApiServerProc abi locApiHandle (some pCmsgbuf) pipe).messages =
      frameMessages abi locApiHandle (store pCmsgbuf 0 (frame abi pipe size)) := by
  unfold locApiServerProc frameMessages
  dsimp only
  rw [msgrcv_of_declared pCmsgbuf hdeclared hle, if_pos hbody, if_neg (not_le.mpr hpos)]
  cases hhandler : handlerOf abi (store pCmsgbuf 0 (frame abi pipe size)) with
  | none => rfl
  | some handler => rfl

/-- A call that accepts has received a frame of the size it declares. -/
theorem accepted_cases {abi : Abi} {locApiHandle : Bool} {pipe : Pipe}
    {pCmsgbuf : Nat → UInt8}
    (h : (locApiServerProc abi locApiHandle (some pCmsgbuf) pipe).result = 0) :
    ∃ size, declared abi pipe = some size ∧ size ≤ cmsgbufSize abi ∧
      (bodyRead abi pipe size).result = toInt (abi.sub size abi.sizeofSizeT) ∧
      0 < toInt size := by
  have hpositive : 0 < (locEngDmnConnGlueMsgrcv abi pipe pCmsgbuf (cmsgbufSize abi)).result := by
    apply Int.lt_of_not_ge
    intro hfailed
    unfold locApiServerProc at h
    dsimp only at h
    rw [if_pos hfailed] at h
    cases h
  rcases Classical.em (∃ size, declared abi pipe = some size ∧ size ≤ cmsgbufSize abi) with
    ⟨size, hdeclared, hfits⟩ | hrejected
  · rw [msgrcv_of_declared pCmsgbuf hdeclared hfits] at hpositive
    dsimp only at hpositive
    split at hpositive
    · rename_i hbody
      exact ⟨size, hdeclared, hfits, hbody, hpositive⟩
    · cases hpositive
  · rw [(msgrcv_of_rejected pCmsgbuf fun size hdeclared => ?_).1] at hpositive
    · cases hpositive
    · exact Nat.lt_of_not_le fun hfits => hrejected ⟨size, hdeclared, hfits⟩

/-- Two calls that receive the same frame send the same messages, whatever their buffers
held, exactly for a frame that covers what the handlers read. -/
theorem messages_determined_iff {abi : Abi} {locApiHandle : Bool} {pipe : Pipe}
    {pCmsgbuf : Nat → UInt8}
    (h : (locApiServerProc abi locApiHandle (some pCmsgbuf) pipe).result = 0) :
    (∀ mem other : Nat → UInt8,
      (locApiServerProc abi locApiHandle (some mem) pipe).messages =
        (locApiServerProc abi locApiHandle (some other) pipe).messages) ↔
      Covers abi locApiHandle
        (locEngDmnConnGlueMsgrcv abi pipe pCmsgbuf (cmsgbufSize abi)).received := by
  obtain ⟨size, hdeclared, hle, hbody, hpos⟩ := accepted_cases h
  have hmessages := @messages_eq abi locApiHandle pipe size hdeclared hle hbody hpos
  rw [msgrcv_of_declared pCmsgbuf hdeclared hle]
  constructor
  · intro hsame
    apply covers_of_determined
    intro mem other
    rw [← hmessages mem, ← hmessages other]
    exact hsame mem other
  · intro hcovers mem other
    rw [hmessages mem, hmessages other]
    exact determined_of_covers hcovers mem other

/-- A frame of the size of the structure. -/
theorem messages_whole_frame :
    (locApiServerProc .lp64 true (some fun _ => 0)
      ⟨128 :: List.replicate 15 0 ++ 0xF0 :: List.replicate 111 0, [.upTo 8, .upTo 120]⟩).messages =
    (locApiServerProc .lp64 true (some fun _ => 0xFF)
      ⟨128 :: List.replicate 15 0 ++ 0xF0 :: List.replicate 111 0,
        [.upTo 8, .upTo 120]⟩).messages := by
  refine (@messages_determined_iff .lp64 true _ (fun _ => 0) (by decide +kernel)).mpr ?_ _ _
  refine ⟨0xF0, by decide +kernel, ?_⟩
  intro _ _ value sender _ _
  refine ⟨by decide +kernel, ?_⟩
  cases sender with
  | gpsoneDaemon => change (56 : Nat) ≤ _; decide +kernel
  | quipc => exact ⟨.inl (by decide +kernel), .inl (by decide +kernel)⟩
  | msapm => exact ⟨.inl (by decide +kernel), .inl (by decide +kernel)⟩
  | msapu => exact ⟨.inl (by decide +kernel), .inl (by decide +kernel)⟩
  | modem => exact ⟨.inl (by decide +kernel), .inl (by decide +kernel)⟩

/-- A release that ends before its type. -/
theorem messages_short_release :
    ¬ ∀ (abi : Abi) (locApiHandle : Bool) (pipe : Pipe) (pCmsgbuf : Nat → UInt8),
      (locApiServerProc abi locApiHandle (some pCmsgbuf) pipe).result = 0 →
      ∀ mem other : Nat → UInt8,
        (locApiServerProc abi locApiHandle (some mem) pipe).messages =
          (locApiServerProc abi locApiHandle (some other) pipe).messages := by
  intro h
  have hsame := h .lp64 true
    ⟨[24, 0, 0, 0, 0, 0, 0, 0, 0, 0, 0, 0, 0, 0, 0, 0, 0xF1, 0, 0, 0, 0, 0, 0, 0],
      [.upTo 8, .upTo 16]⟩ (fun _ => 0) (by decide +kernel) (fun _ => 0) (fun _ => 0xFF)
  revert hsame
  decide +kernel

end Msm8916.Daemon
