import Msm8916.Lib.SetBits

/-!
The installation of certificates: `loc_eng_agps_install_certificates` of
`gps/loc_api/libloc_api_50001/loc_eng.cpp` and the message `LocEngInstallAGpsCert`.
-/

namespace Msm8916.Engine

open SetBits

/-- `DerEncodedCertificate`. The data have as many bytes as the length says at least. -/
structure DerEncodedCertificate where
  length : Nat
  data : List UInt8
  readable : length ≤ data.length

def agpsCertificateMaxLength : Nat := 2000

/-- The results `AGPS_CERTIFICATE_...` that the call returns. -/
inductive AgpsCertificateResult where
  | operationSuccess
  | errorGeneric
  | errorTooManyCertificates
deriving DecidableEq, Repr

/-- `LocEngInstallAGpsCert`. -/
structure LocEngInstallAGpsCert (Adapter : Type*) where
  mpAdapter : Adapter
  mNumberOfCerts : Nat
  mSlotBitMask : UInt32
  mpData : List DerEncodedCertificate

/-- A certificate in memory of its own. -/
def DerEncodedCertificate.copy (cert : DerEncodedCertificate) : DerEncodedCertificate where
  length := cert.length
  data := cert.data.take cert.length
  readable := by
    rw [List.length_take]
    exact Nat.le_min.mpr ⟨Nat.le_refl _, cert.readable⟩

/-- The constructor of the message, which copies the certificates. -/
def LocEngInstallAGpsCert.new {Adapter : Type*} (adapter : Adapter)
    (pData : List DerEncodedCertificate) (slotBitMask : UInt32) :
    LocEngInstallAGpsCert Adapter where
  mpAdapter := adapter
  mNumberOfCerts := pData.length
  mSlotBitMask := slotBitMask
  mpData := pData.map DerEncodedCertificate.copy

/-- The loop that counts the slots. -/
def countSlots : (rounds : Nat) → (slotBitMaskCounter : UInt32) → (slotCount : Nat) → Option Nat
  | 0, _, _ => none
  | rounds + 1, slotBitMaskCounter, slotCount =>
      if slotBitMaskCounter = 0 then some slotCount
      else
        countSlots rounds (slotBitMaskCounter &&& (slotBitMaskCounter - 1)) (slotCount + 1)

/-- The loop over the lengths. -/
def checkLengths : List DerEncodedCertificate → AgpsCertificateResult
  | [] => .operationSuccess
  | cert :: certificates =>
      if cert.length > agpsCertificateMaxLength then .errorGeneric
      else checkLengths certificates

/-- `loc_eng_agps_install_certificates`: what it returns and the messages it sends. A mask of 32
bits takes no more than 33 rounds. -/
def locEngAgpsInstallCertificates {Adapter : Type*} (slotBitMask : UInt32)
    (adapter : Option Adapter) (certificates : List DerEncodedCertificate) :
    Option (AgpsCertificateResult × List (LocEngInstallAGpsCert Adapter)) :=
  (countSlots 33 slotBitMask 0).map fun slotCount =>
    if certificates.length = 0 then
      (.operationSuccess, [])
    else
      match adapter with
      | none => (.errorGeneric, [])
      | some adapter =>
          if slotCount < certificates.length then
            (.errorTooManyCertificates, [])
          else
            let ret_val := checkLengths certificates
            if ret_val = .operationSuccess then
              (ret_val, [.new adapter certificates slotBitMask])
            else
              (ret_val, [])

/-! ## The loops -/

/-- Each round clears a set bit. -/
theorem countSlots_eq {rounds : Nat} {mask : UInt32}
    (hrounds : mask.toNat.bitIndices.length < rounds) (slotCount : Nat) :
    countSlots rounds mask slotCount = some (slotCount + mask.toNat.bitIndices.length) := by
  induction rounds generalizing mask slotCount with
  | zero => cases hrounds
  | succ rounds ih =>
      rw [countSlots]
      split
      · rename_i hzero
        subst hzero
        rfl
      · rename_i hne
        have hpos : 1 ≤ mask.toNat := by
          apply Nat.pos_of_ne_zero
          intro hzero
          exact hne (UInt32.toNat_inj.mp hzero)
        have hcleared : (mask &&& (mask - 1)).toNat = mask.toNat &&& (mask.toNat - 1) := by
          have hle : 1 ≤ mask := UInt32.le_iff_toNat_le.mpr hpos
          rw [UInt32.toNat_and, UInt32.toNat_sub_of_le _ _ hle]
          rfl
        have hbits : (mask &&& (mask - 1)).toNat.bitIndices.length + 1 =
            mask.toNat.bitIndices.length := by
          have hnonempty : mask.toNat.bitIndices ≠ [] := by
            rw [Ne, bitIndices_eq_nil]
            exact Nat.ne_of_gt hpos
          have hlength := List.length_pos_iff.mpr hnonempty
          rw [hcleared, bitIndices_and_pred, List.length_tail]
          omega
        rw [ih (by omega), ← hbits]
        congr 1
        omega

theorem countSlots_mask (mask : UInt32) :
    countSlots 33 mask 0 = some mask.toNat.bitIndices.length := by
  have hwidth := length_bitIndices_le mask.toNat_lt
  rw [countSlots_eq (Nat.lt_succ_of_le hwidth), Nat.zero_add]

/-- The loop accepts the lengths exactly if none is too great, and fails otherwise. -/
theorem checkLengths_spec (certificates : List DerEncodedCertificate) :
    checkLengths certificates = .operationSuccess ↔
      ∀ cert ∈ certificates, cert.length ≤ agpsCertificateMaxLength := by
  induction certificates with
  | nil => exact ⟨fun _ => nofun, fun _ => rfl⟩
  | cons cert certificates ih =>
      rw [checkLengths, List.forall_mem_cons]
      split
      · rename_i hlong
        constructor
        · intro hgeneric
          cases hgeneric
        · intro hshort
          exact absurd hshort.1 (Nat.not_le.mpr hlong)
      · rename_i hfits
        rw [ih]
        exact ⟨fun hrest => ⟨Nat.le_of_not_lt hfits, hrest⟩, And.right⟩

/-! ## All or nothing -/

section Install

variable {Adapter : Type*}

/-- When certificates are installed: there is an adapter, and there are certificates, no more of
them than slots that may be written, none too long. -/
def Installs (slotBitMask : UInt32) (adapter : Option Adapter)
    (certificates : List DerEncodedCertificate) : Prop :=
  adapter.isSome ∧ 1 ≤ certificates.length ∧
    certificates.length ≤ slotBitMask.toNat.bitIndices.length ∧
    ∀ cert ∈ certificates, cert.length ≤ agpsCertificateMaxLength

/-- A message for the adapter has the mask and the certificates, as many as they are, each with
its length and its bytes up to it. -/
structure Carries (message : LocEngInstallAGpsCert Adapter) (mpAdapter : Adapter)
    (slotBitMask : UInt32) (certificates : List DerEncodedCertificate) : Prop where
  adapter : message.mpAdapter = mpAdapter
  mask : message.mSlotBitMask = slotBitMask
  number : message.mNumberOfCerts = certificates.length
  certs : (message.mpData.map fun cert => (cert.length, cert.data)) =
    certificates.map fun cert => (cert.length, cert.data.take cert.length)

theorem carries_new (mpAdapter : Adapter) (slotBitMask : UInt32)
    (certificates : List DerEncodedCertificate) :
    Carries (.new mpAdapter certificates slotBitMask) mpAdapter slotBitMask certificates where
  adapter := rfl
  mask := rfl
  number := rfl
  certs := by
    rw [LocEngInstallAGpsCert.new, List.map_map]
    rfl

variable {slotBitMask : UInt32} {certificates : List DerEncodedCertificate}

theorem install_of_installs {mpAdapter : Adapter}
    (h : Installs slotBitMask (some mpAdapter) certificates) :
    locEngAgpsInstallCertificates slotBitMask (some mpAdapter) certificates =
      some (.operationSuccess, [.new mpAdapter certificates slotBitMask]) := by
  obtain ⟨-, hsome, hslots, hlengths⟩ := h
  have hchecked := (checkLengths_spec certificates).mpr hlengths
  rw [locEngAgpsInstallCertificates, countSlots_mask, Option.map_some,
    if_neg (Nat.ne_of_gt hsome)]
  simp only [if_neg (Nat.not_lt.mpr hslots), hchecked, if_true]

theorem install_of_not_installs {adapter : Option Adapter}
    (h : ¬ Installs slotBitMask adapter certificates) :
    ∃ ret_val, locEngAgpsInstallCertificates slotBitMask adapter certificates =
        some (ret_val, []) ∧
      (ret_val = .operationSuccess ↔ certificates.length = 0) := by
  rw [locEngAgpsInstallCertificates, countSlots_mask, Option.map_some]
  split
  · rename_i hnone
    exact ⟨.operationSuccess, rfl, fun _ => hnone, fun _ => rfl⟩
  · rename_i hsome
    cases adapter with
    | none => exact ⟨.errorGeneric, rfl, nofun, fun hnone => absurd hnone hsome⟩
    | some mpAdapter =>
        dsimp only
        split
        · exact ⟨.errorTooManyCertificates, rfl, nofun, fun hnone => absurd hnone hsome⟩
        · rename_i hslots
          have hlong : checkLengths certificates ≠ .operationSuccess := by
            intro hchecked
            exact h ⟨rfl, Nat.pos_of_ne_zero hsome, Nat.le_of_not_lt hslots,
              (checkLengths_spec certificates).mp hchecked⟩
          rw [if_neg hlong]
          exact ⟨_, rfl, fun hchecked => absurd hchecked hlong,
            fun hnone => absurd hnone hsome⟩

/-- The call returns; what it sends is one message with the lengths and the bytes of all the
certificates if they are installed, and nothing if they are not. It is successful only without
certificates or when it has sent the message. -/
theorem install_all_or_nothing (slotBitMask : UInt32) (adapter : Option Adapter)
    (certificates : List DerEncodedCertificate) :
    ∃ ret_val sent,
      locEngAgpsInstallCertificates slotBitMask adapter certificates = some (ret_val, sent) ∧
      (Installs slotBitMask adapter certificates ↔ ∃ mpAdapter message,
        adapter = some mpAdapter ∧ sent = [message] ∧
          Carries message mpAdapter slotBitMask certificates) ∧
      (¬ Installs slotBitMask adapter certificates → sent = []) ∧
      (ret_val = .operationSuccess ↔ certificates.length = 0 ∨ sent ≠ []) := by
  by_cases h : Installs slotBitMask adapter certificates
  · obtain ⟨mpAdapter, rfl⟩ := Option.isSome_iff_exists.mp h.1
    refine ⟨_, _, install_of_installs h, ?_, fun hnot => absurd h hnot, ?_⟩
    · exact ⟨fun _ => ⟨mpAdapter, _, rfl, rfl, carries_new _ _ _⟩, fun _ => h⟩
    · exact ⟨fun _ => .inr (List.cons_ne_nil _ _), fun _ => rfl⟩
  · obtain ⟨ret_val, hcall, hsuccess⟩ := install_of_not_installs h
    refine ⟨ret_val, [], hcall, ?_, fun _ => rfl, ?_⟩
    · constructor
      · intro hinstalls
        exact absurd hinstalls h
      · rintro ⟨mpAdapter, message, -, hsent, -⟩
        cases hsent
    · rw [hsuccess]
      exact ⟨.inl, fun hor => hor.resolve_right fun hne => hne rfl⟩

end Install

end Msm8916.Engine
