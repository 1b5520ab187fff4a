import Msm8916.Lib.HexFields
import Msm8916.Lib.Memory

/-!
The address that `wcnss_asus/wcnss_asus_client.c` gives the wireless driver, and when it is
whole. What the function stores depends on the files, on `rand`, and on the memory behind the
characters it reads, which nothing initializes.
-/

namespace Msm8916.Wcnss

open HexFields Memory

def macAddrSize : Nat := 12
def maxWaitCount : Nat := 10
def asusMacPrefix : List UInt8 := [0x2c, 0x56, 0xdc]

/-- The file of an address that was stored before. -/
inductive Genmac where
  | missing
  | unopenable
  | content (bytes : List UInt8)

/-- What the function meets: how `sscanf` takes a bare prefix, whether the file of the address is
missing at each look, whether it opens, how many characters `read` returns at most unless it
fails, its text, the file of a stored address and whether it can be created, and the numbers of
`rand`. -/
structure Env where
  bare : BarePrefix
  missing : Nat → Bool
  opens : Bool
  read : Option Nat
  content : List Char
  genmac : Genmac
  creates : Bool
  rand : Nat → Nat

/-- The stores through `pBdAddr`, each an offset and its bytes, and the file that is written. -/
structure Returned where
  stores : List (Nat × List UInt8)
  genmac : Option (List UInt8)

/-- The loop that waits for the file: how often it was missing. -/
def waitFor (missing : Nat → Bool) : Nat → Nat → Nat
  | 0, i => i
  | left + 1, i => if missing i then waitFor missing left (i + 1) else i

/-- The characters in `buf`, or nothing where the file could not be read. -/
def buf (env : Env) : Option (List Char) :=
  if waitFor env.missing maxWaitCount 0 = maxWaitCount then none
  else if !env.opens then none
  else env.read.map fun count => env.content.take (min 12 count)

/-- The bytes after the prefix of a generated address. -/
def randomBytes (env : Env) : List UInt8 :=
  (List.range (macAddrSize - asusMacPrefix.length)).map fun i => UInt8.ofNat (env.rand i % 255)

/-- A generated address, which has no value where its file cannot be created. -/
def generate (env : Env) (before : List (Nat × List UInt8)) : Option Returned :=
  if env.creates then
    some
      { stores := before ++ [(0, asusMacPrefix), (asusMacPrefix.length, randomBytes env)]
        genmac := some (asusMacPrefix ++ randomBytes env) }
  else none

/-- `wcnss_qmi_get_wlan_address`, with the characters behind those in `buf`. It has no value
where it uses a file that `fopen` did not open. -/
def wcnssQmiGetWlanAddress (env : Env) (behind : List Char) : Option Returned :=
  match buf env with
  | some text => some ⟨[(0, scanFields env.bare 6 (text ++ behind))], none⟩
  | none =>
      match env.genmac with
      | .missing => generate env []
      | .unopenable => none
      | .content bytes =>
          if (bytes.take 6).length = 6 then some ⟨[(0, bytes.take 6)], none⟩
          else generate env [(0, bytes.take 6)]

/-- The six bytes of the address, over what the memory held before. -/
def Returned.address (returned : Returned) (pBdAddr : Nat → UInt8) : List UInt8 :=
  window (returned.stores.foldl (fun mem bytes => store mem bytes.1 bytes.2) pBdAddr) 0 6

/-- The indices that are written. -/
def Returned.written (returned : Returned) : List Nat :=
  returned.stores.flatMap fun bytes => List.range' bytes.1 bytes.2.length

/-- The bytes are all of the address in the file's text, all of the stored one, or the address
of the prefix and three numbers. -/
def Complete (env : Env) (six : List UInt8) : Prop :=
  six.length = 6 ∧
    (HexText env.bare (env.content ++ ['\x00']) six ∨
      (∃ bytes, env.genmac = .content bytes ∧ six = bytes.take 6) ∨
      six = asusMacPrefix ++ (randomBytes env).take 3)

/-- The address is complete and nothing else is written, whatever the memory held. -/
def Whole (env : Env) : Prop :=
  ∃ six, Complete env six ∧ ∀ behind pBdAddr, ∃ returned,
    wcnssQmiGetWlanAddress env behind = some returned ∧ returned.address pBdAddr = six ∧
      ∀ i ∈ returned.written, i < 6

/-- The file is there within ten looks, opens and is read. -/
def Readable (env : Env) : Prop :=
  (∃ i < maxWaitCount, env.missing i = false) ∧ env.opens = true ∧ env.read.isSome

/-- The characters read start with six fields, whatever may stand behind them; or the file is
not read, and the stored address opens and has six bytes. -/
def Supplied (env : Env) : Prop :=
  (Readable env ∧ ∃ six, six.length = 6 ∧
      HexText env.bare (env.content.take (min 12 (env.read.getD 0))) six) ∨
    ¬ Readable env ∧ ∃ bytes, env.genmac = .content bytes ∧ 6 ≤ bytes.length

/-! ## The file of the address -/

/-- The loop gives up exactly if the file is missing at every look. -/
theorem waitFor_eq_iff (missing : Nat → Bool) (left i : Nat) :
    waitFor missing left i = i + left ↔ ∀ k < left, missing (i + k) = true := by
  induction left generalizing i with
  | zero => exact iff_of_true rfl nofun
  | succ left ih =>
      rw [waitFor]
      cases hmissing : missing i with
      | false =>
          refine iff_of_false (by simp) fun hall => ?_
          have hfirst := hall 0 (Nat.succ_pos left)
          rw [Nat.add_zero, hmissing] at hfirst
          cases hfirst
      | true =>
          rw [if_pos rfl, Nat.add_comm left 1, ← Nat.add_assoc, ih]
          constructor
          · intro hrest k hk
            cases k with
            | zero => exact hmissing
            | succ k =>
                rw [Nat.add_comm k 1, ← Nat.add_assoc]
                exact hrest k (by omega)
          · intro hall k hk
            rw [Nat.add_assoc]
            exact hall (1 + k) (by omega)

theorem waitFor_ne_iff (missing : Nat → Bool) :
    waitFor missing maxWaitCount 0 ≠ maxWaitCount ↔ ∃ i < maxWaitCount, missing i = false := by
  have hiff := waitFor_eq_iff missing maxWaitCount 0
  simp only [Nat.zero_add] at hiff
  rw [Ne, hiff]
  constructor
  · intro hnot
    by_contra hnone
    refine hnot fun k hk => ?_
    by_contra hthere
    exact hnone ⟨k, hk, eq_false_of_ne_true hthere⟩
  · rintro ⟨i, hi, hthere⟩ hall
    cases (hall i hi).symm.trans hthere

theorem buf_eq (env : Env) [Decidable (Readable env)] :
    buf env =
      if Readable env then some (env.content.take (min 12 (env.read.getD 0))) else none := by
  unfold buf
  by_cases hwait : waitFor env.missing maxWaitCount 0 = maxWaitCount
  · have hnot : ¬ Readable env := fun h => (waitFor_ne_iff env.missing).mpr h.1 hwait
    rw [if_pos hwait, if_neg hnot]
  · have hthere := (waitFor_ne_iff env.missing).mp hwait
    rw [if_neg hwait]
    cases hopens : env.opens with
    | false =>
        have hnot : ¬ Readable env := fun h => nomatch hopens.symm.trans h.2.1
        rw [if_neg hnot]
        rfl
    | true =>
        cases hread : env.read with
        | none =>
            have hnot : ¬ Readable env := by
              rintro ⟨-, -, hsome⟩
              rw [hread] at hsome
              cases hsome
            rw [if_neg hnot]
            rfl
        | some count =>
            have hreadable : Readable env := ⟨hthere, hopens, by rw [hread]; rfl⟩
            rw [if_pos hreadable]
            rfl

/-! ## Addresses -/

theorem address_single (bytes : List UInt8) (genmac : Option (List UInt8))
    (pBdAddr : Nat → UInt8) :
    (Returned.mk [(0, bytes)] genmac).address pBdAddr = window (store pBdAddr 0 bytes) 0 6 := rfl

/-- Six bytes stored at the start are the address. -/
theorem address_of_length {bytes : List UInt8} (h : bytes.length = 6)
    (genmac : Option (List UInt8)) (pBdAddr : Nat → UInt8) :
    (Returned.mk [(0, bytes)] genmac).address pBdAddr = bytes := by
  rw [address_single, ← h]
  exact window_store_self pBdAddr 0 bytes

theorem written_single {bytes : List UInt8} (h : bytes.length ≤ 6)
    (genmac : Option (List UInt8)) : ∀ i ∈ (Returned.mk [(0, bytes)] genmac).written, i < 6 := by
  intro i hi
  rw [Returned.written, List.flatMap_singleton, List.mem_range'_1] at hi
  dsimp only at hi
  omega

/-- Stored bytes that leave the address the same over any memory are all of it. -/
theorem length_of_address {bytes six : List UInt8} (hle : bytes.length ≤ 6)
    (h : ∀ pBdAddr, window (store pBdAddr 0 bytes) 0 6 = six) : bytes.length = 6 := by
  by_contra hne
  have hlast : ∀ value : UInt8, six[5]? = some value := by
    intro value
    rw [← h fun _ => value, getElem?_window, if_pos (by decide)]
    exact congrArg some (store_outside (.inr (by omega)))
  cases (hlast 0).symm.trans (hlast 1)

/-- A generated address is written beyond its six bytes. -/
theorem generate_written {env : Env} {before : List (Nat × List UInt8)} {returned : Returned}
    (h : generate env before = some returned) : 6 ∈ returned.written := by
  unfold generate at h
  split at h
  · obtain rfl := Option.some.inj h
    have hlength : (randomBytes env).length = 9 := by simp [randomBytes, macAddrSize, asusMacPrefix]
    refine List.mem_flatMap.mpr ⟨(asusMacPrefix.length, randomBytes env), by simp, ?_⟩
    rw [List.mem_range'_1, hlength]
    change 3 ≤ 6 ∧ 6 < 3 + 9
    decide
  · cases h

/-! ## The result -/

theorem whole_of_text {env : Env} {text : List Char} (hbuf : buf env = some text)
    (hfront : text <+: env.content) :
    Whole env ↔ ∃ six, six.length = 6 ∧ HexText env.bare text six := by
  have hrun : ∀ behind, wcnssQmiGetWlanAddress env behind =
      some ⟨[(0, scanFields env.bare 6 (text ++ behind))], none⟩ := by
    intro behind
    rw [wcnssQmiGetWlanAddress, hbuf]
  constructor
  · rintro ⟨six, _, hall⟩
    have haddress : ∀ behind pBdAddr,
        window (store pBdAddr 0 (scanFields env.bare 6 (text ++ behind))) 0 6 = six := by
      intro behind pBdAddr
      obtain ⟨returned, hreturned, haddress, _⟩ := hall behind pBdAddr
      obtain rfl := Option.some.inj ((hrun behind).symm.trans hreturned)
      exact haddress
    have hlength : ∀ behind, (scanFields env.bare 6 (text ++ behind)).length = 6 := fun behind =>
      length_of_address (length_scanFields_le 6 _) (haddress behind)
    have hscan : ∀ behind, scanFields env.bare 6 (text ++ behind) = six := by
      intro behind
      have hself := window_store_self (fun _ => 0) 0 (scanFields env.bare 6 (text ++ behind))
      rw [hlength behind] at hself
      exact hself.symm.trans (haddress behind fun _ => 0)
    have hsix : six.length = 6 := (congrArg List.length (hscan [])).symm.trans (hlength [])
    refine ⟨six, hsix, hexText_of_scanFields fun behind => ?_⟩
    rw [hsix]
    exact hscan behind
  · rintro ⟨six, hsix, htext⟩
    obtain ⟨rest, hrest⟩ := hfront
    have hcontent : HexText env.bare (env.content ++ ['\x00']) six := by
      rw [← hrest, List.append_assoc]
      exact htext.append _
    refine ⟨six, ⟨hsix, .inl hcontent⟩, fun behind pBdAddr => ⟨_, hrun behind, ?_, ?_⟩⟩
    · have hscan := htext.scanFields_append behind
      rw [hsix] at hscan
      rw [hscan]
      exact address_of_length hsix none pBdAddr
    · exact written_single (length_scanFields_le 6 _) none

theorem whole_of_stored {env : Env} (hbuf : buf env = none) :
    Whole env ↔ ∃ bytes, env.genmac = .content bytes ∧ 6 ≤ bytes.length := by
  have hgenerated : ∀ before six, ¬ ∀ (_ : List Char) pBdAddr, ∃ returned,
      generate env before = some returned ∧ returned.address pBdAddr = six ∧
        ∀ i ∈ returned.written, i < 6 := by
    intro before six hall
    obtain ⟨returned, hreturned, _, hwritten⟩ := hall [] fun _ => 0
    exact Nat.lt_irrefl 6 (hwritten 6 (generate_written hreturned))
  constructor
  · rintro ⟨six, _, hall⟩
    simp only [wcnssQmiGetWlanAddress, hbuf] at hall
    cases hgenmac : env.genmac with
    | missing =>
        rw [hgenmac] at hall
        exact absurd hall (hgenerated [] six)
    | unopenable =>
        rw [hgenmac] at hall
        obtain ⟨_, hnone, _⟩ := hall [] fun _ => 0
        cases hnone
    | content bytes =>
        rw [hgenmac] at hall
        refine ⟨bytes, rfl, ?_⟩
        by_contra hshort
        have hcount : ¬ (bytes.take 6).length = 6 := by
          rw [List.length_take]
          omega
        simp only [if_neg hcount] at hall
        exact hgenerated [(0, bytes.take 6)] six hall
  · rintro ⟨bytes, hgenmac, hlength⟩
    have hcount : (bytes.take 6).length = 6 := List.length_take_of_le hlength
    have hrun : ∀ behind, wcnssQmiGetWlanAddress env behind =
        some ⟨[(0, bytes.take 6)], none⟩ := by
      intro behind
      rw [wcnssQmiGetWlanAddress, hbuf, hgenmac]
      exact if_pos hcount
    refine ⟨bytes.take 6, ⟨hcount, .inr (.inl ⟨bytes, hgenmac, rfl⟩)⟩,
      fun behind pBdAddr => ⟨_, hrun behind, ?_, ?_⟩⟩
    · exact address_of_length hcount none pBdAddr
    · exact written_single hcount.le none

/-- Whatever the files hold, the address is whole if and only if one of them supplies it. -/
theorem address_whole_iff (env : Env) : Whole env ↔ Supplied env := by
  classical
  have hbuf := buf_eq env
  rw [Supplied]
  by_cases hreadable : Readable env
  · rw [if_pos hreadable] at hbuf
    rw [whole_of_text hbuf (List.take_prefix _ _)]
    simp only [hreadable, true_and, not_true_eq_false, false_and, or_false]
  · rw [if_neg hreadable] at hbuf
    rw [whole_of_stored hbuf]
    simp only [hreadable, false_and, not_false_eq_true, true_and, false_or]

/-- The text of two bytes is taken for an address. -/
theorem two_bytes_not_whole : ¬ ∀ env, Whole env := by
  intro hall
  let env : Env :=
    ⟨.letterLeft, fun _ => false, true, some 12, ['2', 'c', '5', '6'], .missing, true,
      fun _ => 0⟩
  obtain ⟨six, _, hsix⟩ := hall env
  have hrun : wcnssQmiGetWlanAddress env [] = some ⟨[(0, [0x2c, 0x56])], none⟩ := by rfl
  have haddress : ∀ pBdAddr, window (store pBdAddr 0 [0x2c, 0x56]) 0 6 = six := by
    intro pBdAddr
    obtain ⟨returned, hreturned, haddress, _⟩ := hsix [] pBdAddr
    obtain rfl := Option.some.inj (hrun.symm.trans hreturned)
    exact haddress
  exact absurd (length_of_address (by decide) haddress) (by decide)

end Msm8916.Wcnss
