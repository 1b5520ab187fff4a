import Mathlib.Data.List.Nodup
import Msm8916.Keys.KeyHandler

/-!
Gestures share the message queue and the proximity sensor, and are confused when the listener
of one runs while the message of another is pending.
-/

namespace Msm8916.Keys

open Transition

namespace KeyHandler

/-- Every message that a listener removed was sent for the key event of the listener. -/
def RemovesOwn (s : KeyHandler) : Prop := ∀ entry ∈ s.trace.removed, entry.1 = entry.2

/-- No action runs twice, and a listener removes and sends only messages of its own key
event. -/
structure NotConfused (s : KeyHandler) : Prop where
  once : s.trace.handled.Nodup
  removed : s.RemovesOwn
  sent : ∀ entry ∈ s.trace.sent, entry.1 = entry.2

/-! ## What the handlers do -/

theorem hasMessages_iff (s : KeyHandler) : s.hasMessages = true ↔ s.messages ≠ [] := by
  rw [hasMessages, Bool.not_eq_true', List.isEmpty_eq_false_iff]

theorem handleKeyEvent_cases (s : KeyHandler) (event : KeyEvent) (settings : Settings) :
    (s.handleKeyEvent event settings).1 = s ∨
      s.messages = [] ∧ ∃ lock added,
        (∀ listener ∈ added, listener.gesture = s.accepted) ∧ added.length = lock ∧
        (s.handleKeyEvent event settings).1 = { s with
          mProximityWakeLock := s.mProximityWakeLock + lock
          messages := [⟨event.scanCode, s.accepted⟩]
          listeners := s.listeners ++ added
          accepted := s.accepted + 1 } := by
  unfold handleKeyEvent
  dsimp only
  split
  · exact .inl rfl
  · split
    · rename_i hnone
      have hempty : s.messages = [] := by
        rw [Bool.not_eq_true', ← Bool.not_eq_true, hasMessages_iff, not_not] at hnone
        exact hnone
      refine .inr ⟨hempty, ?_⟩
      split
      · exact ⟨1, [⟨event.scanCode, s.accepted⟩], by simp, rfl, by
          simp [processEvent, sendMessage, getMessageForKeyEvent, hempty]⟩
      · exact ⟨0, [], by simp, rfl, by simp [sendMessage, getMessageForKeyEvent, hempty]⟩
    · exact .inl rfl

/-- The listener releases its lock, removes what is pending, and sends a message in its place
when nothing is near. -/
theorem onSensorChanged_eq (s : KeyHandler) (listener : Listener) (isFar : Bool) :
    s.onSensorChanged listener isFar =
      let sends := s.hasMessages && isFar
      { s with
        mProximityWakeLock := s.mProximityWakeLock - 1
        listeners := s.listeners.erase listener
        messages := if sends then [⟨listener.scancode, listener.gesture⟩] else []
        trace := {
          handled := s.trace.handled
          removed := s.trace.removed ++ s.messages.map fun msg => (listener.gesture, msg.gesture)
          sent := s.trace.sent ++ if sends then [(listener.gesture, listener.gesture)] else [] } }
    := by
  cases hmessages : s.messages with
  | nil => simp [onSensorChanged, hasMessages, hmessages]
  | cons msg rest =>
      cases isFar <;>
        simp [onSensorChanged, hasMessages, hmessages, removeMessages, sendMessage,
          getMessageForKeyEvent]

end KeyHandler

/-! ## The invariant -/

/-- At most one message is pending. While listeners have removed only messages of their own,
no message was handled twice and the pending one has not been handled. -/
structure KeyHandler.Inv (s : KeyHandler) : Prop where
  single : s.messages.length ≤ 1
  messages : ∀ msg ∈ s.messages, msg.gesture < s.accepted
  listeners : ∀ listener ∈ s.listeners, listener.gesture < s.accepted
  handled : ∀ gesture ∈ s.trace.handled, gesture < s.accepted
  sent : ∀ entry ∈ s.trace.sent, entry.1 = entry.2
  once : s.RemovesOwn → s.trace.handled.Nodup ∧
    ∀ msg ∈ s.messages, msg.gesture ∉ s.trace.handled

/-- A listener that finds a message pending finds the message of its own key event. -/
def FindsOwn (s : KeyHandler) : Event → Prop
  | .sensor listener _ => ∀ msg ∈ s.messages, msg.gesture = listener.gesture
  | _ => True

instance (s : KeyHandler) : ∀ event, Decidable (FindsOwn s event)
  | .sensor listener _ =>
      inferInstanceAs (Decidable (∀ msg ∈ s.messages, msg.gesture = listener.gesture))
  | .key .. => isTrue trivial
  | .message .. => isTrue trivial
  | .torch .. => isTrue trivial

section Steps

open KeyHandler

variable {s : KeyHandler}

theorem KeyHandler.Inv.handleKeyEvent (h : s.Inv) (event : KeyEvent) (settings : Settings) :
    (s.handleKeyEvent event settings).1.Inv := by
  rcases s.handleKeyEvent_cases event settings with heq | ⟨-, lock, added, hadded, -, heq⟩
  · rw [heq]
    exact h
  · rw [heq]
    exact {
      single := Nat.le_refl 1
      messages := by
        intro msg hmsg
        obtain rfl := List.mem_singleton.mp hmsg
        exact Nat.lt_succ_self s.accepted
      listeners := by
        intro listener hlistener
        rcases List.mem_append.mp hlistener with hold | hnew
        · exact Nat.lt_succ_of_lt (h.listeners listener hold)
        · rw [hadded listener hnew]
          exact Nat.lt_succ_self s.accepted
      handled := fun gesture hgesture => Nat.lt_succ_of_lt (h.handled gesture hgesture)
      sent := h.sent
      once := by
        intro hown
        refine ⟨(h.once hown).1, fun msg hmsg hhandled => ?_⟩
        obtain rfl := List.mem_singleton.mp hmsg
        exact Nat.lt_irrefl s.accepted (h.handled s.accepted hhandled) }

theorem KeyHandler.Inv.lone (h : s.Inv) {msg : Message} (hmsg : msg ∈ s.messages) :
    s.messages = [msg] := by
  have hsingle := h.single
  cases hmessages : s.messages with
  | nil =>
      rw [hmessages] at hmsg
      exact nomatch hmsg
  | cons first rest =>
      rw [hmessages] at hmsg hsingle
      obtain rfl : rest = [] := List.length_eq_zero_iff.mp (Nat.le_zero.mp
        (Nat.le_of_succ_le_succ hsingle))
      rw [List.mem_singleton.mp hmsg]

theorem KeyHandler.Inv.dispatchMessage (h : s.Inv) {msg : Message} (hmsg : msg ∈ s.messages)
    (system : System) : (s.dispatchMessage msg system).Inv := by
  have hempty : s.messages.erase msg = [] := by
    rw [h.lone hmsg, List.erase_cons_head]
  exact {
    single := by
      rw [KeyHandler.dispatchMessage, hempty]
      exact Nat.zero_le 1
    messages := by
      rw [KeyHandler.dispatchMessage, hempty]
      exact nofun
    listeners := h.listeners
    handled := by
      intro gesture hgesture
      rcases List.mem_append.mp hgesture with hold | hnew
      · exact h.handled gesture hold
      · rw [List.mem_singleton.mp hnew]
        exact h.messages msg hmsg
    sent := h.sent
    once := by
      intro hown
      obtain ⟨honce, hpending⟩ := h.once hown
      constructor
      · apply List.nodup_append.mpr
        refine ⟨honce, List.nodup_singleton msg.gesture, fun gesture hgesture other hother => ?_⟩
        rw [List.mem_singleton.mp hother]
        exact ne_of_mem_of_not_mem hgesture (hpending msg hmsg)
      · rw [KeyHandler.dispatchMessage, hempty]
        exact nofun }

theorem KeyHandler.Inv.onSensorChanged (h : s.Inv) {listener : Listener}
    (hlistener : listener ∈ s.listeners) (isFar : Bool) :
    (s.onSensorChanged listener isFar).Inv := by
  rw [onSensorChanged_eq]
  exact {
    single := by
      dsimp only
      split
      · exact Nat.le_refl 1
      · exact Nat.zero_le 1
    messages := by
      intro msg hmsg
      dsimp only at hmsg
      split at hmsg
      · rw [List.mem_singleton.mp hmsg]
        exact h.listeners listener hlistener
      · exact nomatch hmsg
    listeners := fun other hother => h.listeners other (List.mem_of_mem_erase hother)
    handled := h.handled
    sent := by
      intro entry hentry
      rcases List.mem_append.mp hentry with hold | hnew
      · exact h.sent entry hold
      · split at hnew
        · rw [List.mem_singleton.mp hnew]
        · exact nomatch hnew
    once := by
      intro hown
      obtain ⟨hbefore, hfound⟩ := List.forall_mem_append.mp hown
      obtain ⟨honce, hpending⟩ := h.once hbefore
      refine ⟨honce, fun msg hmsg => ?_⟩
      dsimp only at hmsg
      split at hmsg
      · rename_i hsends
        rw [Bool.and_eq_true] at hsends
        -- what the listener replaced was its own, and had not been handled
        obtain ⟨replaced, hreplaced⟩ : ∃ replaced, replaced ∈ s.messages :=
          List.exists_mem_of_ne_nil s.messages (s.hasMessages_iff.mp hsends.1)
        have hsame : listener.gesture = replaced.gesture :=
          hfound (listener.gesture, replaced.gesture) (List.mem_map_of_mem hreplaced)
        rw [List.mem_singleton.mp hmsg]
        dsimp only
        rw [hsame]
        exact hpending replaced hreplaced
      · exact nomatch hmsg }

theorem KeyHandler.Inv.step (h : s.Inv) {event : Event} {next : KeyHandler}
    (hnext : Keys.step s event = some next) : next.Inv := by
  cases event with
  | key event settings =>
      obtain rfl := Option.some.inj hnext
      exact h.handleKeyEvent event settings
  | message msg system =>
      obtain ⟨hmsg, heq⟩ := Option.ite_none_right_eq_some.mp hnext
      obtain rfl := Option.some.inj heq
      exact h.dispatchMessage hmsg system
  | sensor listener isFar =>
      obtain ⟨hlistener, heq⟩ := Option.ite_none_right_eq_some.mp hnext
      obtain rfl := Option.some.inj heq
      exact h.onSensorChanged hlistener isFar
  | torch cameraId enabled =>
      obtain rfl := Option.some.inj hnext
      exact ⟨h.single, h.messages, h.listeners, h.handled, h.sent, h.once⟩

/-- A step keeps that listeners remove only messages of their own exactly if it is not a
listener that finds another's. -/
theorem removesOwn_iff {event : Event} {next : KeyHandler}
    (hnext : Keys.step s event = some next) :
    next.RemovesOwn ↔ s.RemovesOwn ∧ FindsOwn s event := by
  cases event with
  | key event settings =>
      obtain rfl := Option.some.inj hnext
      have htrace : (s.handleKeyEvent event settings).1.trace = s.trace := by
        rcases s.handleKeyEvent_cases event settings with heq | ⟨-, lock, added, -, -, heq⟩
        · rw [heq]
        · rw [heq]
      rw [RemovesOwn, htrace]
      exact (and_iff_left trivial).symm
  | message msg system =>
      obtain ⟨-, heq⟩ := Option.ite_none_right_eq_some.mp hnext
      obtain rfl := Option.some.inj heq
      exact (and_iff_left trivial).symm
  | sensor listener isFar =>
      obtain ⟨-, heq⟩ := Option.ite_none_right_eq_some.mp hnext
      obtain rfl := Option.some.inj heq
      rw [RemovesOwn, onSensorChanged_eq, List.forall_mem_append, List.forall_mem_map]
      exact and_congr_right' (forall₂_congr fun msg _ => eq_comm)
  | torch cameraId enabled =>
      obtain rfl := Option.some.inj hnext
      exact (and_iff_left trivial).symm

end Steps

theorem inv_new (mProximityWakeSupported mProximitySensor mVibrator : Bool) :
    (KeyHandler.new mProximityWakeSupported mProximitySensor mVibrator).Inv where
  single := Nat.zero_le 1
  messages := nofun
  listeners := nofun
  handled := nofun
  sent := nofun
  once _ := ⟨List.nodup_nil, nofun⟩

theorem KeyHandler.inv_of_reachable {mProximityWakeSupported mProximitySensor mVibrator : Bool}
    {s : KeyHandler}
    (h : Reachable step (.new mProximityWakeSupported mProximitySensor mVibrator) s) : s.Inv :=
  invariant_of_step (fun _ _ _ hinv hnext => hinv.step hnext)
    (inv_new mProximityWakeSupported mProximitySensor mVibrator) h

/-- In any interleaving, gestures are not confused exactly when every listener that finds a
message pending finds that of its own key event. -/
theorem gestures_not_confused_iff {mProximityWakeSupported mProximitySensor mVibrator : Bool}
    {events : List Event} {s : KeyHandler}
    (hrun : exec step (.new mProximityWakeSupported mProximitySensor mVibrator) events =
      some s) :
    s.NotConfused ↔
      Along step FindsOwn (.new mProximityWakeSupported mProximitySensor mVibrator) events := by
  have hinv : s.Inv := KeyHandler.inv_of_reachable ⟨events, hrun⟩
  have hown : s.NotConfused ↔ s.RemovesOwn :=
    ⟨fun h => h.removed, fun h => ⟨(hinv.once h).1, h, hinv.sent⟩⟩
  have halong := along_iff_of_step (I := fun _ => True) (fun _ _ _ _ _ => trivial)
    (fun _ _ _ _ hnext => removesOwn_iff hnext) trivial hrun
  have hstart : (KeyHandler.new mProximityWakeSupported mProximitySensor mVibrator).RemovesOwn :=
    nofun
  exact hown.trans (halong.trans (and_iff_right hstart))

/-- The gesture C waits for the sensor, which reports in time. -/
def gestureC : List Event :=
  [.key ⟨keyGestureC, .down⟩ ⟨some 1, false⟩, .sensor ⟨keyGestureC, 0⟩ true,
    .message ⟨keyGestureC, 0⟩ ⟨none, false, none, true, false⟩]

theorem gestures_not_confused_iff_gestureC :
    ∃ s, exec step (.new true true true) gestureC = some s ∧ s.NotConfused := by
  obtain ⟨s, hrun⟩ : ∃ s, exec step (.new true true true) gestureC = some s := ⟨_, rfl⟩
  exact ⟨s, hrun, (gestures_not_confused_iff hrun).mpr (by decide)⟩

/-- The sensor reports to the listener of C only after the timeout, when the gesture V is
pending: V is dropped, and C is handled again. -/
def lateSensor : List Event :=
  [.key ⟨keyGestureC, .down⟩ ⟨some 1, false⟩,
    .message ⟨keyGestureC, 0⟩ ⟨none, false, none, true, false⟩,
    .key ⟨keyGestureV, .down⟩ ⟨some 1, false⟩, .sensor ⟨keyGestureC, 0⟩ true,
    .message ⟨keyGestureC, 0⟩ ⟨none, false, none, true, false⟩]

theorem gesture_handled_twice :
    ∃ s, exec step (.new true true true) lateSensor = some s ∧
      s.trace = ⟨[0, 0], [(0, 1)], [(0, 0)]⟩ ∧ ¬ s.NotConfused :=
  ⟨_, rfl, rfl, fun h => absurd h.once (by decide)⟩

end Msm8916.Keys
