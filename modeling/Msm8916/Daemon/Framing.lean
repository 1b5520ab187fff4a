import Mathlib.Data.List.Forall2
import Msm8916.Daemon.GlueMsg

/-!
Messages on the way through a pipe. `loc_eng_dmn_conn_glue_msgsnd` puts the size of a message
into its first field, and `loc_eng_dmn_conn_glue_msgrcv` takes the message off the pipe by it.
-/

namespace Msm8916.Daemon

open Memory

/-- What the kernel does with one `write`. -/
inductive WriteAnswer where
  | failed
  | upTo (n : Nat)
deriving DecidableEq, Repr

/-- `loc_eng_dmn_conn_glue_pipewrite`: what it returns, and the bytes on the pipe after it. -/
def locEngDmnConnGluePipewrite (stream buf : List UInt8) : WriteAnswer → Int × List UInt8
  | .failed => (-1, stream)
  | .upTo n =>
      let bytes := buf.take (min n maxRwCount)
      (bytes.length, stream ++ bytes)

/-- What `loc_eng_dmn_conn_glue_msgsnd` returns, and the message and the bytes on the pipe after
it. -/
structure Msgsnd where
  result : Int
  msgp : List UInt8
  stream : List UInt8

/-- The message with `msgsz` in its first field. -/
def framed (abi : Abi) (msgp : List UInt8) : List UInt8 :=
  leBytes abi.sizeofSizeT msgp.length ++ msgp.drop abi.sizeofSizeT

/-- `loc_eng_dmn_conn_glue_msgsnd` of all the bytes of a message. -/
def locEngDmnConnGlueMsgsnd (abi : Abi) (stream msgp : List UInt8) (answer : WriteAnswer) :
    Msgsnd :=
  let msgsz := msgp.length
  let msgp := framed abi msgp
  let (result, stream) := locEngDmnConnGluePipewrite stream msgp answer
  if result ≠ toInt msgsz then ⟨-1, msgp, stream⟩ else ⟨result, msgp, stream⟩

/-- Messages sent one after the other: for each what the call returns and leaves in the message,
and the bytes on the pipe after all. -/
def sendAll (abi : Abi) : (stream : List UInt8) → List (List UInt8 × WriteAnswer) →
    List (Int × List UInt8) × List UInt8
  | stream, [] => ([], stream)
  | stream, (msgp, answer) :: sends =>
      let sent := locEngDmnConnGlueMsgsnd abi stream msgp answer
      let (results, stream) := sendAll abi sent.stream sends
      ((sent.result, sent.msgp) :: results, stream)

/-- Messages received one after the other, each into a buffer: for each what the call returns
and has in the buffer up to that size, and the pipe after all. -/
def receiveAll (abi : Abi) (msgbufsz : Nat) : Pipe → (buffers : List (Nat → UInt8)) →
    List (Int × List UInt8) × Pipe
  | pipe, [] => ([], pipe)
  | pipe, msgp :: buffers =>
      let received := locEngDmnConnGlueMsgrcv abi pipe msgp msgbufsz
      let (results, pipe) := receiveAll abi msgbufsz received.pipe buffers
      ((received.result, window received.msgp 0 received.result.toNat) :: results, pipe)

/-! ## Whole transfers -/

/-- The kernel writes all bytes asked for. -/
def WriteAnswer.Transfers (answer : WriteAnswer) (sz : Nat) : Prop :=
  match answer with
  | .failed => False
  | .upTo n => sz ≤ min n maxRwCount

/-- The kernel reads all bytes asked for. -/
def ReadAnswer.Transfers (answer : ReadAnswer) (sz : Nat) : Prop :=
  match answer with
  | .failed => False
  | .upTo n => sz ≤ min n maxRwCount

theorem toInt_of_le {size : Nat} (h : size ≤ maxRwCount) : toInt size = size := by
  rw [maxRwCount] at h
  apply Int.bmod_eq_of_le
  · omega
  · omega

theorem WriteAnswer.Transfers.size_le {answer : WriteAnswer} {sz : Nat}
    (h : answer.Transfers sz) : sz ≤ maxRwCount := by
  cases answer with
  | failed => exact h.elim
  | upTo n => exact Nat.le_trans h (Nat.min_le_right _ _)

theorem pipewrite_all {answer : WriteAnswer} {buf : List UInt8}
    (h : answer.Transfers buf.length) (stream : List UInt8) :
    locEngDmnConnGluePipewrite stream buf answer = ((buf.length : Int), stream ++ buf) := by
  cases answer with
  | failed => exact h.elim
  | upTo n =>
      have hall : buf.take (min n maxRwCount) = buf := List.take_of_length_le h
      rw [locEngDmnConnGluePipewrite, hall]

/-- A read of as many bytes as a part of the stream has takes that part. -/
theorem piperead_all {answer : ReadAnswer} {bytes : List UInt8}
    (h : answer.Transfers bytes.length) (rest : List UInt8) (answers : List ReadAnswer) :
    locEngDmnConnGluePiperead ⟨bytes ++ rest, answer :: answers⟩ bytes.length =
      ⟨bytes.length, bytes, ⟨rest, answers⟩⟩ := by
  cases answer with
  | failed => exact h.elim
  | upTo n =>
      have hmin : min n (min bytes.length maxRwCount) = bytes.length := by
        have hle : bytes.length ≤ min n maxRwCount := h
        omega
      rw [locEngDmnConnGluePiperead]
      dsimp only
      rw [hmin, List.take_left, List.drop_left]

/-! ## One message -/

section Message

variable {abi : Abi} {msgp : List UInt8}

theorem length_framed (hheader : abi.sizeofSizeT ≤ msgp.length) :
    (framed abi msgp).length = msgp.length := by
  rw [framed, List.length_append, length_leBytes, List.length_drop]
  omega

theorem msgsnd_all {answer : WriteAnswer} (hheader : abi.sizeofSizeT ≤ msgp.length)
    (hwrite : answer.Transfers msgp.length) (stream : List UInt8) :
    locEngDmnConnGlueMsgsnd abi stream msgp answer =
      ⟨msgp.length, framed abi msgp, stream ++ framed abi msgp⟩ := by
  have hlength := length_framed hheader
  have hpipe := pipewrite_all (hlength.symm ▸ hwrite) stream
  rw [hlength] at hpipe
  rw [locEngDmnConnGlueMsgsnd, hpipe]
  dsimp only
  rw [toInt_of_le hwrite.size_le, if_neg (not_not.mpr rfl)]

/-- The sizes the receiver asks the pipe for. -/
def askedSizes (abi : Abi) (msgp : List UInt8) : List Nat :=
  [abi.sizeofSizeT, msgp.length - abi.sizeofSizeT]

/-- A framed message at the start of the stream is received as a whole, and nothing of what is
behind it. -/
theorem msgrcv_framed {msgbufsz : Nat} {header body : ReadAnswer} (hbuf : msgbufsz < abi.sizeBound)
    (hheader : abi.sizeofSizeT ≤ msgp.length) (hfits : msgp.length ≤ msgbufsz)
    (hsize : msgp.length ≤ maxRwCount) (hread : header.Transfers abi.sizeofSizeT)
    (hrest : body.Transfers (msgp.length - abi.sizeofSizeT)) (rest : List UInt8)
    (answers : List ReadAnswer) (buffer : Nat → UInt8) :
    ∃ received, locEngDmnConnGlueMsgrcv abi
        ⟨framed abi msgp ++ rest, header :: body :: answers⟩ buffer msgbufsz = received ∧
      received.result = msgp.length ∧ window received.msgp 0 msgp.length = framed abi msgp ∧
      received.pipe = ⟨rest, answers⟩ := by
  have hfield : header.Transfers (leBytes abi.sizeofSizeT msgp.length).length := by
    rwa [length_leBytes]
  have hfirst := piperead_all hfield (msgp.drop abi.sizeofSizeT ++ rest) (body :: answers)
  rw [length_leBytes, ← List.append_assoc, ← framed] at hfirst
  have hremainder : body.Transfers (msgp.drop abi.sizeofSizeT).length := by
    rwa [List.length_drop]
  have hsecond := piperead_all hremainder rest answers
  rw [List.length_drop] at hsecond
  have hvalue : leValue (leBytes abi.sizeofSizeT msgp.length) = msgp.length :=
    leValue_leBytes (Nat.lt_of_le_of_lt hfits hbuf)
  have hdeclared : declared abi ⟨framed abi msgp ++ rest, header :: body :: answers⟩ =
      some msgp.length := by
    rw [declared, hfirst, if_pos rfl, hvalue]
  have hasked : abi.sub msgp.length abi.sizeofSizeT = msgp.length - abi.sizeofSizeT :=
    sub_of_le hheader (Nat.lt_of_le_of_lt hfits hbuf)
  have hbody : bodyRead abi ⟨framed abi msgp ++ rest, header :: body :: answers⟩ msgp.length =
      ⟨(msgp.length - abi.sizeofSizeT : Nat), msgp.drop abi.sizeofSizeT, ⟨rest, answers⟩⟩ := by
    rw [bodyRead, hfirst, hasked, hsecond]
  have hframe : frame abi ⟨framed abi msgp ++ rest, header :: body :: answers⟩ msgp.length =
      framed abi msgp := by
    rw [frame, hfirst, hbody, framed]
  have hresult : toInt (msgp.length - abi.sizeofSizeT) = (msgp.length - abi.sizeofSizeT : Nat) :=
    toInt_of_le (by omega)
  have hwindow := window_store_self buffer 0 (framed abi msgp)
  rw [length_framed hheader] at hwindow
  refine ⟨_, msgrcv_of_declared buffer hdeclared hfits, ?_, ?_, ?_⟩
  · rw [hbody, hasked, if_pos hresult.symm, toInt_of_le hsize]
  · rw [hframe]
    exact hwindow
  · rw [hbody]

end Message

/-! ## All messages -/

section RoundTrip

variable {abi : Abi} {msgbufsz : Nat} {sends : List (List UInt8 × WriteAnswer)}

/-- A message that has its header and fits the receiver's buffer. -/
def Fits (abi : Abi) (msgbufsz : Nat) (msgp : List UInt8) : Prop :=
  abi.sizeofSizeT ≤ msgp.length ∧ msgp.length ≤ msgbufsz

theorem sendAll_spec (hfits : ∀ send ∈ sends, Fits abi msgbufsz send.1)
    (hwrites : ∀ send ∈ sends, send.2.Transfers send.1.length) (stream : List UInt8) :
    sendAll abi stream sends =
      (sends.map fun send => ((send.1.length : Int), framed abi send.1),
        stream ++ sends.flatMap fun send => framed abi send.1) := by
  induction sends generalizing stream with
  | nil => simp [sendAll]
  | cons send sends ih =>
      obtain ⟨msgp, answer⟩ := send
      rw [List.forall_mem_cons] at hfits hwrites
      rw [sendAll, msgsnd_all hfits.1.1 hwrites.1]
      dsimp only
      rw [ih hfits.2 hwrites.2, List.append_assoc, List.flatMap_cons, List.map_cons]

theorem receiveAll_spec (hbuf : msgbufsz < abi.sizeBound) {messages : List (List UInt8)}
    (hfits : ∀ msgp ∈ messages, Fits abi msgbufsz msgp)
    (hsizes : ∀ msgp ∈ messages, msgp.length ≤ maxRwCount) {answers : List ReadAnswer}
    (hreads : List.Forall₂ ReadAnswer.Transfers answers (messages.flatMap (askedSizes abi)))
    {buffers : List (Nat → UInt8)} (hbuffers : buffers.length = messages.length) :
    receiveAll abi msgbufsz ⟨messages.flatMap (framed abi), answers⟩ buffers =
      (messages.map fun msgp => ((msgp.length : Int), framed abi msgp), ⟨[], []⟩) := by
  induction messages generalizing answers buffers with
  | nil =>
      obtain rfl := List.length_eq_zero_iff.mp hbuffers
      obtain rfl := List.forall₂_nil_right_iff.mp hreads
      rfl
  | cons msgp messages ih =>
      obtain ⟨buffer, buffers, rfl⟩ := List.exists_cons_of_length_eq_add_one hbuffers
      rw [List.forall_mem_cons] at hfits hsizes
      rw [List.flatMap_cons, askedSizes, List.cons_append, List.cons_append, List.nil_append]
        at hreads
      obtain ⟨header, after, hread, hafter, rfl⟩ := List.forall₂_cons_right_iff.mp hreads
      obtain ⟨body, more, hrest, hmore, rfl⟩ := List.forall₂_cons_right_iff.mp hafter
      obtain ⟨received, hreceived, hresult, hwindow, hpipe⟩ :=
        msgrcv_framed hbuf hfits.1.1 hfits.1.2 hsizes.1 hread hrest
          (messages.flatMap (framed abi)) more buffer
      have hnext := ih hfits.2 hsizes.2 hmore (Nat.succ.inj hbuffers)
      rw [List.flatMap_cons, receiveAll, hreceived]
      dsimp only
      rw [hpipe, hnext, hresult, Int.toNat_natCast, hwindow, List.map_cons]

/-- Messages that are sent into an empty pipe are received, in order, by as many calls, each with
its length in the first field and its own bytes behind it, and leave the pipe empty, if every
write and every read transfers all bytes asked for. -/
theorem frames_round_trip (hbuf : msgbufsz < abi.sizeBound)
    (hfits : ∀ send ∈ sends, Fits abi msgbufsz send.1)
    (hwrites : ∀ send ∈ sends, send.2.Transfers send.1.length) {answers : List ReadAnswer}
    (hreads : List.Forall₂ ReadAnswer.Transfers answers
      (sends.flatMap fun send => askedSizes abi send.1))
    {buffers : List (Nat → UInt8)} (hbuffers : buffers.length = sends.length) :
    (sendAll abi [] sends).1 =
        (sends.map fun send => ((send.1.length : Int),
          leBytes abi.sizeofSizeT send.1.length ++ send.1.drop abi.sizeofSizeT)) ∧
      receiveAll abi msgbufsz ⟨(sendAll abi [] sends).2, answers⟩ buffers =
        (sends.map fun send => ((send.1.length : Int),
          leBytes abi.sizeofSizeT send.1.length ++ send.1.drop abi.sizeofSizeT), ⟨[], []⟩) := by
  have hsizes : ∀ msgp ∈ sends.map Prod.fst, msgp.length ≤ maxRwCount := by
    intro msgp hmsgp
    obtain ⟨send, hsend, rfl⟩ := List.mem_map.mp hmsgp
    exact (hwrites send hsend).size_le
  have hmessages : ∀ msgp ∈ sends.map Prod.fst, Fits abi msgbufsz msgp := by
    intro msgp hmsgp
    obtain ⟨send, hsend, rfl⟩ := List.mem_map.mp hmsgp
    exact hfits send hsend
  have hasked : List.Forall₂ ReadAnswer.Transfers answers
      ((sends.map Prod.fst).flatMap (askedSizes abi)) := by
    rwa [List.flatMap_map]
  have hcalls : buffers.length = (sends.map Prod.fst).length := by
    rwa [List.length_map]
  have hreceived := receiveAll_spec hbuf hmessages hsizes hasked hcalls
  rw [sendAll_spec hfits hwrites []]
  rw [List.flatMap_map, List.map_map] at hreceived
  exact ⟨rfl, hreceived⟩

/-- Two messages, the second of a header alone. -/
def twoSends : List (List UInt8 × WriteAnswer) :=
  [([0, 0, 0, 0, 1, 2], .upTo 6), ([0, 0, 0, 0], .upTo 4)]

theorem frames_round_trip_two :
    (sendAll .ilp32 [] twoSends).1 =
        (twoSends.map fun send => ((send.1.length : Int),
          leBytes 4 send.1.length ++ send.1.drop 4)) ∧
      receiveAll .ilp32 368
          ⟨(sendAll .ilp32 [] twoSends).2, [.upTo 4, .upTo 2, .upTo 4, .upTo 0]⟩
          [fun _ => 0, fun _ => 255] =
        (twoSends.map fun send => ((send.1.length : Int),
          leBytes 4 send.1.length ++ send.1.drop 4), ⟨[], []⟩) := by
  refine frames_round_trip (by decide) ?_ ?_ ?_ rfl
  · unfold Fits
    decide
  · intro send hsend
    simp only [twoSends, List.mem_cons, List.not_mem_nil, or_false] at hsend
    rcases hsend with rfl | rfl
    · exact (by decide : 6 ≤ min 6 maxRwCount)
    · exact (by decide : 4 ≤ min 4 maxRwCount)
  · exact .cons (by decide : 4 ≤ min 4 maxRwCount) <| .cons (by decide : 2 ≤ min 2 maxRwCount) <|
      .cons (by decide : 4 ≤ min 4 maxRwCount) <| .cons (by decide : 0 ≤ min 0 maxRwCount) .nil

end RoundTrip

end Msm8916.Daemon
