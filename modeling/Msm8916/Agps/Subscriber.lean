import Msm8916.Agps.LinkedList

/-!
The AGPS clients of `loc_eng_agps.h` and what they are told. The four subscriber
classes are the constructors of one type and their virtual methods are matches
on it.
-/

namespace Msm8916.Agps

inductive AgpsRsrcStatus where
  | subscribe
  | unsubscribe
  | granted
  | released
  | denied
  | statusMax
deriving DecidableEq, Repr

/-- The address that identifies no IPv4 client. -/
def inaddrNone : UInt32 := 0xffffffff

/-- `SSID_BUF_SIZE`. -/
def ssidBufSize : Nat := 32 + 1

/-- `strlcpy` into a buffer of `SSID_BUF_SIZE` bytes. -/
def strlcpy (src : List UInt8) : List UInt8 :=
  (src.takeWhile (· != 0)).take (ssidBufSize - 1)

/-- Whether `strncmp` over the whole of two buffers returns 0. -/
def strncmpIsZero : List UInt8 → List UInt8 → Bool
  | a :: as, b :: bs => a == b && (a == 0 || strncmpIsZero as bs)
  | _, _ => true

/-- The subscriber classes. -/
inductive SubscriberKind where
  | bit
  | atl
  | wifi
  | ds
deriving DecidableEq, Repr

/-- A subscriber object; the adapter and state machine handles are those of the
machine that lists it. -/
inductive Subscriber where
  | bit (ID : UInt32) (mIPv6Addr : Vector UInt8 16)
  | atl (ID : UInt32) (mBackwardCompatibleMode : Bool)
  | wifi (senderId : UInt32) (mSSID mPassword : Option (List UInt8)) (mIsInactive : Bool)
  | ds (ID : UInt32) (mIsInactive : Bool)
deriving DecidableEq

namespace Subscriber

def kind : Subscriber → SubscriberKind
  | .bit .. => .bit
  | .atl .. => .atl
  | .wifi .. => .wifi
  | .ds .. => .ds

def ID : Subscriber → UInt32
  | .bit ID _ => ID
  | .atl ID _ => ID
  | .wifi senderId .. => senderId
  | .ds ID _ => ID

/-- `equals`; a `BITSubscriber` with no IPv4 address compares its IPv6 one. -/
def equals (self s : Subscriber) : Bool :=
  match self, s with
  | .bit ID mIPv6Addr, .bit sID sIPv6Addr =>
      ID == sID &&
        (inaddrNone != ID || strncmpIsZero mIPv6Addr.toList sIPv6Addr.toList)
  | _, _ => self.ID == s.ID

def waitForCloseComplete : Subscriber → Bool
  | .bit .. | .atl .. => false
  | .wifi .. | .ds .. => true

def isInactive : Subscriber → Bool
  | .bit .. | .atl .. => false
  | .wifi _ _ _ mIsInactive => mIsInactive
  | .ds _ mIsInactive => mIsInactive

/-- What `setInactive` does to the subscriber itself. -/
def deactivate : Subscriber → Subscriber
  | .wifi senderId mSSID mPassword _ => .wifi senderId mSSID mPassword true
  | .ds ID _ => .ds ID true
  | subscriber => subscriber

/-- `clone` builds a new object, which is active. -/
def clone : Subscriber → Subscriber
  | .wifi senderId mSSID mPassword _ =>
      .wifi senderId (mSSID.map strlcpy) (mPassword.map strlcpy) false
  | .ds ID _ => .ds ID false
  | subscriber => subscriber

/-- `setWifiInfo`: what it writes into the two buffers. -/
def wifiInfo : Subscriber → List UInt8 × List UInt8
  | .wifi _ mSSID mPassword _ => ((mSSID.map strlcpy).getD [], (mPassword.map strlcpy).getD [])
  | _ => ([], [])

/-! ## Equality of clients -/

/-- The part of a subscriber that `equals` compares. -/
def key : Subscriber → UInt32 × List UInt8
  | .bit ID mIPv6Addr =>
      (ID, if ID = inaddrNone then mIPv6Addr.toList.takeWhile (· != 0) else [])
  | subscriber => (subscriber.ID, [])

theorem strncmpIsZero_iff {as bs : List UInt8} (h : as.length = bs.length) :
    strncmpIsZero as bs = true ↔ as.takeWhile (· != 0) = bs.takeWhile (· != 0) := by
  induction as generalizing bs with
  | nil =>
      obtain rfl : bs = [] := List.eq_nil_of_length_eq_zero h.symm
      simp [strncmpIsZero]
  | cons a as ih =>
      cases bs with
      | nil => cases h
      | cons b bs =>
          have hrest := ih (Nat.succ.inj h)
          by_cases ha : a = 0
          · by_cases hb : b = 0
            · simp [strncmpIsZero, ha, hb]
            · simp [strncmpIsZero, ha, hb, Ne.symm hb]
          · by_cases hb : b = 0
            · simp [strncmpIsZero, ha, hb]
            · simp [strncmpIsZero, ha, hb, hrest]

/-- Between subscribers of one kind `equals` compares keys, and so is an
equivalence. -/
theorem equals_iff_key {s t : Subscriber} (hkind : s.kind = t.kind) :
    s.equals t = true ↔ s.key = t.key := by
  cases s with
  | bit ID mIPv6Addr =>
      cases t with
      | bit tID tIPv6Addr =>
          have hcmp : strncmpIsZero mIPv6Addr.toList tIPv6Addr.toList = true ↔ _ :=
            strncmpIsZero_iff (by simp)
          simp only [equals, key, Bool.and_eq_true, Bool.or_eq_true, hcmp, Prod.mk.injEq]
          rw [beq_iff_eq, bne_iff_ne]
          refine and_congr_right fun hID => ?_
          by_cases hnone : ID = inaddrNone
          · rw [if_pos hnone, if_pos (hID ▸ hnone)]
            exact or_iff_right fun hne => hne hnone.symm
          · rw [if_neg hnone, if_neg (hID ▸ hnone)]
            exact iff_of_true (.inl (Ne.symm hnone)) rfl
      | atl => cases hkind
      | wifi => cases hkind
      | ds => cases hkind
  | atl => cases t <;> simp_all [equals, key, Subscriber.ID, kind]
  | wifi => cases t <;> simp_all [equals, key, Subscriber.ID, kind]
  | ds => cases t <;> simp_all [equals, key, Subscriber.ID, kind]

@[simp]
theorem equals_self (s : Subscriber) : s.equals s = true := (equals_iff_key rfl).mpr rfl

@[simp]
theorem kind_deactivate (s : Subscriber) : s.deactivate.kind = s.kind := by cases s <;> rfl

@[simp]
theorem key_deactivate (s : Subscriber) : s.deactivate.key = s.key := by cases s <;> rfl

@[simp]
theorem kind_clone (s : Subscriber) : s.clone.kind = s.kind := by cases s <;> rfl

@[simp]
theorem key_clone (s : Subscriber) : s.clone.key = s.key := by cases s <;> rfl

@[simp]
theorem isInactive_clone (s : Subscriber) : s.clone.isInactive = false := by cases s <;> rfl

theorem isInactive_deactivate {s : Subscriber} (h : s.waitForCloseComplete = true) :
    s.deactivate.isInactive = true := by
  cases s <;> first | rfl | cases h

end Subscriber

/-! ## Notifications -/

/-- `Notification::groupID`; `specific` is the value -1 of a notification that
names its receiver. -/
inductive NotificationGroup where
  | specific
  | broadcastAll
  | broadcastActive
  | broadcastInactive
deriving DecidableEq, Repr

structure Notification where
  rcver : Option Subscriber
  groupID : NotificationGroup
  rsrcStatus : AgpsRsrcStatus
  postNotifyDelete : Bool

namespace Notification

def toGroup (groupID : NotificationGroup) (rsrcStatus : AgpsRsrcStatus)
    (postNotifyDelete : Bool) : Notification :=
  ⟨none, groupID, rsrcStatus, postNotifyDelete⟩

def toSubscriber (subscriber : Subscriber) (rsrcStatus : AgpsRsrcStatus)
    (postNotifyDelete : Bool) : Notification :=
  ⟨some subscriber, .specific, rsrcStatus, postNotifyDelete⟩

end Notification

/-- `Subscriber::forMe`. -/
def Subscriber.forMe (self : Subscriber) (notification : Notification) : Bool :=
  match notification.rcver with
  | some rcver => self.equals rcver
  | none =>
      notification.groupID = .broadcastAll ||
        (notification.groupID = .broadcastActive && !self.isInactive) ||
        (notification.groupID = .broadcastInactive && self.isInactive)

end Msm8916.Agps
