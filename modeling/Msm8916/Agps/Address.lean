import Msm8916.Agps.Listing

/-!
`BITSubscriber::equals` between clients that have no IPv4 address, and what it does to
a subscribe and an unsubscribe. The IPv6 addresses are compared with `strncmp`, which
stops where both have a zero byte.
-/

namespace Msm8916.Agps

open AgpsStateMachine

/-- A client of the daemon that has no IPv4 address. -/
def bitClient (mIPv6Addr : Vector UInt8 16) : Subscriber := .bit inaddrNone mIPv6Addr

/-- Two addresses that agree up to a zero byte in both, or everywhere. -/
def SamePrefix (first second : Vector UInt8 16) : Prop :=
  first.toList.takeWhile (· != 0) = second.toList.takeWhile (· != 0)

theorem equals_bitClient (other mIPv6Addr : Vector UInt8 16) :
    (bitClient other).equals (bitClient mIPv6Addr) = true ↔ SamePrefix other mIPv6Addr := by
  refine (@Subscriber.equals_iff_key (bitClient other) (bitClient mIPv6Addr) rfl).trans ?_
  unfold bitClient Subscriber.key SamePrefix
  dsimp only
  rw [if_pos rfl, if_pos rfl, Prod.mk.injEq]
  exact and_iff_right rfl

/-- A listed subscriber equals the client if it has no IPv4 address either and, in case
it is a `BITSubscriber`, an address of the same prefix. -/
theorem equals_bitClient_cases {t : Subscriber} {mIPv6Addr : Vector UInt8 16} :
    t.equals (bitClient mIPv6Addr) = true ↔
      t.ID = inaddrNone ∧ ∀ other, t = bitClient other → SamePrefix other mIPv6Addr := by
  cases t with
  | bit ID other =>
      rcases eq_or_ne ID inaddrNone with rfl | hne
      · refine (equals_bitClient other mIPv6Addr).trans ⟨fun h => ⟨rfl, ?_⟩, fun h => h.2 _ rfl⟩
        intro other' heq
        obtain rfl := (Subscriber.bit.inj heq).2
        exact h
      · refine iff_of_false ?_ fun h => hne h.1
        unfold bitClient Subscriber.equals
        rw [Bool.and_eq_true, beq_iff_eq]
        exact fun h => hne h.1
  | atl ID mBackwardCompatibleMode =>
      exact beq_iff_eq.trans ⟨fun h => ⟨h, by rintro _ ⟨⟩⟩, And.left⟩
  | wifi senderId mSSID mPassword mIsInactive =>
      exact beq_iff_eq.trans ⟨fun h => ⟨h, by rintro _ ⟨⟩⟩, And.left⟩
  | ds ID mIsInactive =>
      exact beq_iff_eq.trans ⟨fun h => ⟨h, by rintro _ ⟨⟩⟩, And.left⟩

/-- What the claims of the client are: it equals the listed subscriber that is itself and
no other, a subscribe lists it unless it is listed, and its unsubscribe leaves every
other one listed. -/
structure ToldApart (machine : AgpsStateMachine) (mIPv6Addr : Vector UInt8 16) (answer : Int) :
    Prop where
  equals : ∀ t ∈ machine.mSubscribers,
    t.equals (bitClient mIPv6Addr) = true ↔ t = bitClient mIPv6Addr
  subscribe : bitClient mIPv6Addr ∈ (machine.addSubscriber (bitClient mIPv6Addr)).mSubscribers
  unsubscribe : ∀ t ∈ machine.mSubscribers, t ≠ bitClient mIPv6Addr →
    t ∈ (machine.unsubscribeRsrc (bitClient mIPv6Addr) answer).1.mSubscribers

/-- Equality by address is enough for a subscribe. -/
theorem mem_addSubscriber {machine : AgpsStateMachine} {mIPv6Addr : Vector UInt8 16}
    (h : ∀ t ∈ machine.mSubscribers,
      t.equals (bitClient mIPv6Addr) = true ↔ t = bitClient mIPv6Addr) :
    bitClient mIPv6Addr ∈ (machine.addSubscriber (bitClient mIPv6Addr)).mSubscribers := by
  rw [addSubscriber_eq]
  unfold added
  dsimp only
  split
  · rename_i hany
    obtain ⟨t, ht, hequals⟩ := List.any_eq_true.mp hany
    rwa [← (h t ht).mp hequals]
  · exact List.mem_cons_self

/-- And for an unsubscribe, in every state of the machine. -/
theorem mem_unsubscribeRsrc {machine : AgpsStateMachine} {mIPv6Addr : Vector UInt8 16}
    (h : ∀ t ∈ machine.mSubscribers,
      t.equals (bitClient mIPv6Addr) = true ↔ t = bitClient mIPv6Addr) (answer : Int)
    {t : Subscriber} (ht : t ∈ machine.mSubscribers) (hne : t ≠ bitClient mIPv6Addr) :
    t ∈ (machine.unsubscribeRsrc (bitClient mIPv6Addr) answer).1.mSubscribers := by
  cases hfind : machine.mSubscribers.find? (fun u => u.equals (bitClient mIPv6Addr)) with
  | none =>
      unfold unsubscribeRsrc
      rw [findSubscriber_eq]
      simp only [forMe_toSubscriber, hfind]
      exact ht
  | some found =>
      have hequals : found.equals (bitClient mIPv6Addr) = true := by
        simpa using List.find?_some hfind
      have hfound : found = bitClient mIPv6Addr :=
        (h found (List.mem_of_find?_eq_some hfind)).mp hequals
      have hkept : t ∈ dismissed machine.mSubscribers (bitClient mIPv6Addr) := by
        unfold dismissed
        rw [if_neg (by rintro ⟨⟩)]
        refine List.mem_filter.mpr ⟨ht, ?_⟩
        have hdiffers : t.equals (bitClient mIPv6Addr) = false :=
          Bool.eq_false_iff.mpr fun hequals => hne ((h t ht).mp hequals)
        rw [hdiffers]
        rfl
      rw [unsubscribeRsrc_of_find machine hfind, hfound]
      dsimp only
      rw [(machine.dispatch_keeps _ answer).1]
      cases machine.mState with
      | released => exact ht
      | pending => exact hkept
      | acquired => exact hkept
      | releasing => exact hkept

/-- Clients are told apart exactly if every listed subscriber without an IPv4 address is
one of the daemon's, and one whose address has the same prefix has the same address. -/
theorem toldApart_iff (machine : AgpsStateMachine) (mIPv6Addr : Vector UInt8 16) (answer : Int) :
    ToldApart machine mIPv6Addr answer ↔
      ∀ t ∈ machine.mSubscribers, t.ID = inaddrNone →
        ∃ other, t = bitClient other ∧ (SamePrefix other mIPv6Addr → other = mIPv6Addr) := by
  constructor
  · intro h t ht hID
    cases t with
    | bit ID other =>
        obtain rfl : ID = inaddrNone := hID
        refine ⟨other, rfl, fun hprefix => ?_⟩
        have heq := (h.equals _ ht).mp ((equals_bitClient other mIPv6Addr).mpr hprefix)
        exact (Subscriber.bit.inj heq).2
    | atl ID mBackwardCompatibleMode =>
        have heq := (h.equals _ ht).mp (equals_bitClient_cases.mpr ⟨hID, by rintro _ ⟨⟩⟩)
        cases heq
    | wifi senderId mSSID mPassword mIsInactive =>
        have heq := (h.equals _ ht).mp (equals_bitClient_cases.mpr ⟨hID, by rintro _ ⟨⟩⟩)
        cases heq
    | ds ID mIsInactive =>
        have heq := (h.equals _ ht).mp (equals_bitClient_cases.mpr ⟨hID, by rintro _ ⟨⟩⟩)
        cases heq
  · intro h
    have hequals : ∀ t ∈ machine.mSubscribers,
        t.equals (bitClient mIPv6Addr) = true ↔ t = bitClient mIPv6Addr := by
      intro t ht
      constructor
      · intro hequals
        obtain ⟨hID, hsame⟩ := equals_bitClient_cases.mp hequals
        obtain ⟨other, rfl, hother⟩ := h t ht hID
        rw [hother (hsame other rfl)]
      · rintro rfl
        exact Subscriber.equals_self _
    exact ⟨hequals, mem_addSubscriber hequals,
      fun t ht hne => mem_unsubscribeRsrc hequals answer ht hne⟩

/-- The address 2001:db8::1 and another one of the same network: a subscribe of the
second is dropped while the first is listed. -/
theorem second_host_dropped :
    ¬ ∀ (machine : AgpsStateMachine) (mIPv6Addr : Vector UInt8 16) (answer : Int),
      ToldApart machine mIPv6Addr answer := by
  intro h
  have hsubscribe := (h
    { newAgps .any false with
      mState := .acquired
      mSubscribers :=
        [bitClient #v[0x20, 0x01, 0x0d, 0xb8, 0, 0, 0, 0, 0, 0, 0, 0, 0, 0, 0, 1]] }
    #v[0x20, 0x01, 0x0d, 0xb8, 0, 0, 0, 0, 0, 0, 0, 0, 0, 0, 0, 2] 0).subscribe
  revert hsubscribe
  decide

end Msm8916.Agps
