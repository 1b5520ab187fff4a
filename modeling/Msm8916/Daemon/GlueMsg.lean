import Msm8916.Lib.Memory

/-!
The pipe from the daemon and the receiving of a message from it, as
`loc_eng_dmn_conn_glue_pipe.c` and `loc_eng_dmn_conn_glue_msg.c` have it. A message
starts with its own size.
-/

namespace Msm8916.Daemon

open Memory

/-- The two data models the library is built for. -/
inductive Abi where
  | ilp32
  | lp64
deriving DecidableEq, Repr

/-- `sizeof(size_t)`, and `sizeof(unsigned long)`. -/
def Abi.sizeofSizeT : Abi → Nat
  | .ilp32 => 4
  | .lp64 => 8

/-- One more than `SIZE_MAX`. -/
def Abi.sizeBound (abi : Abi) : Nat := 256 ^ abi.sizeofSizeT

/-- Subtraction of two `size_t`. -/
def Abi.sub (abi : Abi) (a b : Nat) : Nat := (a + abi.sizeBound - b) % abi.sizeBound

/-- Conversion of a `size_t` to `int`. -/
def toInt (size : Nat) : Int := (size : Int).bmod (2 ^ 32)

/-- What the kernel does with one `read`. -/
inductive ReadAnswer where
  | failed
  | upTo (n : Nat)
deriving DecidableEq, Repr

/-- No `read` transfers more bytes than these. -/
def maxRwCount : Nat := 0x7ffff000

/-- The bytes on the pipe and the answers of its next reads. -/
structure Pipe where
  stream : List UInt8
  answers : List ReadAnswer
deriving DecidableEq, Repr

/-- What a read returns, the bytes it stores, and the pipe after it. -/
structure Piperead where
  result : Int
  bytes : List UInt8
  pipe : Pipe

/-- `loc_eng_dmn_conn_glue_piperead`. Where no answer is left the pipe is at its end. -/
def locEngDmnConnGluePiperead (pipe : Pipe) (sz : Nat) : Piperead :=
  match pipe.answers with
  | [] => ⟨0, [], pipe⟩
  | .failed :: answers => ⟨-1, [], { pipe with answers }⟩
  | .upTo n :: answers =>
      let bytes := pipe.stream.take (min n (min sz maxRwCount))
      ⟨bytes.length, bytes, ⟨pipe.stream.drop bytes.length, answers⟩⟩

/-- What `loc_eng_dmn_conn_glue_msgrcv` returns and leaves in the buffer, with the
bytes it has received and the sizes it has asked the pipe for after the header. -/
structure Msgrcv where
  result : Int
  msgp : Nat → UInt8
  received : List UInt8
  asked : List Nat
  pipe : Pipe

/-- `loc_eng_dmn_conn_glue_msgrcv`. -/
def locEngDmnConnGlueMsgrcv (abi : Abi) (pipe : Pipe) (msgp : Nat → UInt8) (msgbufsz : Nat) :
    Msgrcv :=
  let header := locEngDmnConnGluePiperead pipe abi.sizeofSizeT
  let msgp := store msgp 0 header.bytes
  if header.result ≠ abi.sizeofSizeT then
    ⟨-1, msgp, header.bytes, [], header.pipe⟩
  else
    let msgsz := leValue (window msgp 0 abi.sizeofSizeT)
    if msgbufsz < msgsz then
      ⟨-1, msgp, header.bytes, [], header.pipe⟩
    else
      let sz := abi.sub msgsz abi.sizeofSizeT
      let body := locEngDmnConnGluePiperead header.pipe sz
      let msgp := store msgp abi.sizeofSizeT body.bytes
      if body.result ≠ toInt sz then
        ⟨-1, msgp, header.bytes ++ body.bytes, [sz], body.pipe⟩
      else
        ⟨toInt msgsz, msgp, header.bytes ++ body.bytes, [sz], body.pipe⟩

/-! ## Reading -/

section Piperead

variable (pipe : Pipe) (sz : Nat)

/-- A read fails or returns how many bytes it has stored. -/
theorem piperead_result :
    (locEngDmnConnGluePiperead pipe sz).result =
      ((locEngDmnConnGluePiperead pipe sz).bytes.length : Int) ∨
    (locEngDmnConnGluePiperead pipe sz).result = -1 ∧
      (locEngDmnConnGluePiperead pipe sz).bytes = [] := by
  rcases pipe with ⟨stream, _ | ⟨_ | n, answers⟩⟩
  · exact .inl rfl
  · exact .inr ⟨rfl, rfl⟩
  · exact .inl rfl

/-- A read that returns a size has stored as many bytes. -/
theorem length_piperead {pipe : Pipe} {sz n : Nat}
    (h : (locEngDmnConnGluePiperead pipe sz).result = n) :
    (locEngDmnConnGluePiperead pipe sz).bytes.length = n := by
  rcases piperead_result pipe sz with hlength | ⟨hfailed, _⟩
  · exact Int.ofNat_inj.mp (hlength.symm.trans h)
  · rw [hfailed] at h
    omega

end Piperead

/-! ## The header -/

/-- The size a message declares, if its header is received as a whole. -/
def declared (abi : Abi) (pipe : Pipe) : Option Nat :=
  let header := locEngDmnConnGluePiperead pipe abi.sizeofSizeT
  if header.result = abi.sizeofSizeT then some (leValue header.bytes) else none

/-- A header that is received as a whole and declares at least its own size, and no
more than the buffer has. -/
def WellFormed (abi : Abi) (pipe : Pipe) (msgbufsz : Nat) : Prop :=
  ∃ size, declared abi pipe = some size ∧ abi.sizeofSizeT ≤ size ∧ size ≤ msgbufsz

theorem declared_lt {abi : Abi} {pipe : Pipe} {size : Nat} (h : declared abi pipe = some size) :
    size < abi.sizeBound := by
  unfold declared at h
  dsimp only at h
  split at h
  · rename_i hresult
    obtain rfl := Option.some.inj h
    have hvalue := leValue_lt (locEngDmnConnGluePiperead pipe abi.sizeofSizeT).bytes
    rwa [length_piperead hresult] at hvalue
  · cases h

theorem sizeofSizeT_pos (abi : Abi) : 0 < abi.sizeofSizeT := by
  cases abi <;> decide

theorem sizeofSizeT_lt_sizeBound (abi : Abi) : abi.sizeofSizeT < abi.sizeBound := by
  cases abi <;> decide

theorem sub_of_le {abi : Abi} {a b : Nat} (hle : b ≤ a) (hlt : a < abi.sizeBound) :
    abi.sub a b = a - b := by
  unfold Abi.sub
  rw [show a + abi.sizeBound - b = a - b + abi.sizeBound by omega, Nat.add_mod_right]
  exact Nat.mod_eq_of_lt (by omega)

/-- Below zero the subtraction wraps. -/
theorem sub_of_lt {abi : Abi} {a b : Nat} (hlt : a < b) (hb : b ≤ abi.sizeBound) :
    abi.sub a b = abi.sizeBound - (b - a) := by
  unfold Abi.sub
  rw [show a + abi.sizeBound - b = abi.sizeBound - (b - a) by omega]
  exact Nat.mod_eq_of_lt (by omega)

/-- The header in the buffer is the header received. -/
theorem window_header {abi : Abi} {pipe : Pipe} (msgp : Nat → UInt8)
    (h : (locEngDmnConnGluePiperead pipe abi.sizeofSizeT).result = abi.sizeofSizeT) :
    window (store msgp 0 (locEngDmnConnGluePiperead pipe abi.sizeofSizeT).bytes) 0
      abi.sizeofSizeT = (locEngDmnConnGluePiperead pipe abi.sizeofSizeT).bytes := by
  have hself := window_store_self msgp 0 (locEngDmnConnGluePiperead pipe abi.sizeofSizeT).bytes
  rwa [length_piperead h] at hself

/-! ## Receiving, by what the header declares -/

section Msgrcv

variable {abi : Abi} {pipe : Pipe} {msgbufsz size : Nat} (msgp : Nat → UInt8)

/-- The read of what follows the header. -/
def bodyRead (abi : Abi) (pipe : Pipe) (size : Nat) : Piperead :=
  locEngDmnConnGluePiperead (locEngDmnConnGluePiperead pipe abi.sizeofSizeT).pipe
    (abi.sub size abi.sizeofSizeT)

/-- The bytes of the header and of what is read after it. -/
def frame (abi : Abi) (pipe : Pipe) (size : Nat) : List UInt8 :=
  (locEngDmnConnGluePiperead pipe abi.sizeofSizeT).bytes ++ (bodyRead abi pipe size).bytes

/-- Without a whole header, or with a size the buffer does not have, nothing more is
asked for and the call fails. -/
theorem msgrcv_of_rejected (h : ∀ size, declared abi pipe = some size → msgbufsz < size) :
    (locEngDmnConnGlueMsgrcv abi pipe msgp msgbufsz).result = -1 ∧
      (locEngDmnConnGlueMsgrcv abi pipe msgp msgbufsz).asked = [] := by
  unfold locEngDmnConnGlueMsgrcv
  dsimp only
  split
  · exact ⟨rfl, rfl⟩
  · rename_i hresult
    have hwhole := not_not.mp hresult
    rw [window_header msgp hwhole, if_pos (h _ (if_pos hwhole))]
    exact ⟨rfl, rfl⟩

/-- Any other size, however small, is what the second read is computed from. -/
theorem msgrcv_of_declared (h : declared abi pipe = some size) (hle : size ≤ msgbufsz) :
    locEngDmnConnGlueMsgrcv abi pipe msgp msgbufsz =
      { result := if (bodyRead abi pipe size).result = toInt (abi.sub size abi.sizeofSizeT) then
          toInt size else -1
        msgp := store msgp 0 (frame abi pipe size)
        received := frame abi pipe size
        asked := [abi.sub size abi.sizeofSizeT]
        pipe := (bodyRead abi pipe size).pipe } := by
  unfold declared at h
  dsimp only at h
  split at h
  · rename_i hresult
    obtain rfl := Option.some.inj h
    have hstored := store_store_append msgp 0
      (locEngDmnConnGluePiperead pipe abi.sizeofSizeT).bytes
      (bodyRead abi pipe (leValue (locEngDmnConnGluePiperead pipe abi.sizeofSizeT).bytes)).bytes
    rw [length_piperead hresult, Nat.zero_add] at hstored
    unfold locEngDmnConnGlueMsgrcv
    dsimp only
    rw [if_neg (not_not.mpr hresult), window_header msgp hresult, if_neg (Nat.not_lt.mpr hle),
      frame, ← hstored]
    unfold bodyRead
    split
    · rfl
    · rename_i hbody
      rw [if_pos (not_not.mp hbody)]
  · cases h

/-- A size below the header's makes the call ask for nearly the whole address space. -/
theorem msgrcv_of_small (h : declared abi pipe = some size) (hsmall : size < abi.sizeofSizeT)
    (hbuf : abi.sizeofSizeT ≤ msgbufsz) :
    (locEngDmnConnGlueMsgrcv abi pipe msgp msgbufsz).asked =
      [abi.sizeBound - (abi.sizeofSizeT - size)] := by
  have hbound := sizeofSizeT_lt_sizeBound abi
  rw [msgrcv_of_declared msgp h (by omega), sub_of_lt hsmall (by omega)]

/-- The call stays within the buffer after the header and fails on every header that
is not well formed. -/
def ReceivesSafely (abi : Abi) (pipe : Pipe) (msgp : Nat → UInt8) (msgbufsz : Nat) : Prop :=
  (∀ sz ∈ (locEngDmnConnGlueMsgrcv abi pipe msgp msgbufsz).asked,
    sz ≤ msgbufsz - abi.sizeofSizeT) ∧
  (¬ WellFormed abi pipe msgbufsz → (locEngDmnConnGlueMsgrcv abi pipe msgp msgbufsz).result < 0)

theorem receivesSafely_of_rejected
    (h : ∀ size, declared abi pipe = some size → msgbufsz < size) :
    ReceivesSafely abi pipe msgp msgbufsz := by
  obtain ⟨hresult, hasked⟩ := msgrcv_of_rejected msgp h
  constructor
  · rw [hasked]
    intro sz hsz
    cases hsz
  · rw [hresult]
    intro _
    decide

/-- Exactly a declared size below the header's own goes wrong. -/
theorem receivesSafely_iff (hbuf : abi.sizeofSizeT ≤ msgbufsz) (hsize : msgbufsz < abi.sizeBound) :
    ReceivesSafely abi pipe msgp msgbufsz ↔
      ∀ size, declared abi pipe = some size → abi.sizeofSizeT ≤ size := by
  constructor
  · intro h size hdeclared
    apply Nat.le_of_not_lt
    intro hsmall
    have hasked := h.1 _ (by
      rw [msgrcv_of_small msgp hdeclared hsmall hbuf]
      exact List.mem_cons_self)
    have hpos := sizeofSizeT_lt_sizeBound abi
    omega
  · intro h
    rcases Classical.em (∃ size, declared abi pipe = some size ∧ size ≤ msgbufsz) with
      ⟨size, hdeclared, hfits⟩ | hrejected
    · have hheader := h size hdeclared
      constructor
      · intro sz hsz
        rw [msgrcv_of_declared msgp hdeclared hfits,
          sub_of_le hheader (declared_lt hdeclared)] at hsz
        obtain rfl := List.mem_singleton.mp hsz
        omega
      · intro hmalformed
        exact absurd ⟨size, hdeclared, hheader, hfits⟩ hmalformed
    · apply receivesSafely_of_rejected msgp
      intro size hdeclared
      apply Nat.lt_of_not_le
      intro hfits
      exact hrejected ⟨size, hdeclared, hfits⟩

/-- A frame of a header and four more bytes, received in two reads. -/
theorem receivesSafely_short_frame :
    ReceivesSafely .ilp32 ⟨[8, 0, 0, 0, 1, 2, 3, 4], [.upTo 4, .upTo 4]⟩ (fun _ => 0) 368 := by
  refine (receivesSafely_iff _ (by decide) (by decide)).mpr ?_
  intro size hdeclared
  obtain rfl : 8 = size := Option.some.inj hdeclared
  decide

/-- A declared size of one byte less than the header's: the second read fails with the
very value that the size converts to. -/
theorem receives_failed_read :
    ¬ (∀ (abi : Abi) (pipe : Pipe) (msgp : Nat → UInt8) (msgbufsz : Nat),
      abi.sizeofSizeT ≤ msgbufsz → msgbufsz < abi.sizeBound →
        ReceivesSafely abi pipe msgp msgbufsz) := by
  intro h
  have hsafe := h .lp64 ⟨[7, 0, 0, 0, 0, 0, 0, 0], [.upTo 8, .failed]⟩ (fun _ => 0) 384
    (by decide) (by decide)
  have hnegative := hsafe.2 (by
    rintro ⟨size, hdeclared, hheader, _⟩
    have hseven : (7 : Nat) = size := Option.some.inj hdeclared
    have hlp64 : (8 : Nat) ≤ size := hheader
    omega)
  revert hnegative
  decide

end Msgrcv

end Msm8916.Daemon
