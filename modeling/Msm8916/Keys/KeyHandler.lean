import Msm8916.Lib.Transition

/-!
`KeyHandler`: gesture key events, the handler's message queue and the listeners on the
proximity sensor. A message of the queue is delivered at any time; its delay is left out.
-/

namespace Msm8916.Keys

def keyGestureV : Int32 := 263
def keyGestureZ : Int32 := 264
def keyGestureC : Int32 := 265
def keyGestureE : Int32 := 266
def keyGestureS : Int32 := 267
def keyGestureW : Int32 := 268

def gestureWakelockDuration : Int32 := 3000

def sSupportedGestures : List Int32 :=
  [keyGestureC, keyGestureE, keyGestureS, keyGestureV, keyGestureW, keyGestureZ]

/-! ## Actions -/

inductive Intent where
  | screenCameraGesture
  | appEmail
  | launch (package : String)
  | dial
  | webSearch
deriving DecidableEq

inductive Effect where
  | acquireGestureWakeLock (timeout : Int32)
  | wakeUp
  | sendBroadcast (intent : Intent)
  | startActivitySafely (intent : Intent)
  | setTorchMode (cameraId : String) (enabled : Bool)
  | vibrate (milliseconds : Int32)
deriving DecidableEq

/-- What the actions find in the system. `cameraIdList` has for each camera whether it faces
back, and `none` where it cannot be accessed. `launchIntent` is the package of the default
messaging application if it can be launched. -/
structure System where
  cameraIdList : Option (List (String × Option Bool))
  setTorchModeThrows : Bool
  launchIntent : Option String
  ringerModeSilent : Bool
  hapticFeedback : Bool

/-- The fields that the actions use. -/
structure Actions where
  mRearCameraId : Option String
  mTorchEnabled : Bool
  mVibrator : Bool
  effects : List Effect
deriving DecidableEq

namespace Actions

def emit (a : Actions) (effects : List Effect) : Actions :=
  { a with effects := a.effects ++ effects }

/-- The loop of `getRearCameraId`. -/
def findRear : List (String × Option Bool) → Option String
  | [] => none
  | (_, none) :: _ => none
  | (cameraId, some facingBack) :: rest => if facingBack then some cameraId else findRear rest

def getRearCameraId (a : Actions) (system : System) : Actions :=
  match a.mRearCameraId with
  | some _ => a
  | none => { a with mRearCameraId := system.cameraIdList.bind findRear }

def doHapticFeedback (a : Actions) (system : System) : Actions :=
  if !a.mVibrator then a
  else if !system.ringerModeSilent && system.hapticFeedback then a.emit [.vibrate 50]
  else a

/-- `EventHandler.handleMessage` by the scan code in `arg1`. -/
def handleMessage (a : Actions) (arg1 : Int32) (system : System) : Actions :=
  if arg1 = keyGestureC then
    (a.emit [.acquireGestureWakeLock gestureWakelockDuration,
      .sendBroadcast .screenCameraGesture]).doHapticFeedback system
  else if arg1 = keyGestureE then
    (a.emit [.acquireGestureWakeLock gestureWakelockDuration, .wakeUp,
      .startActivitySafely .appEmail]).doHapticFeedback system
  else if arg1 = keyGestureS then
    let a := a.emit [.acquireGestureWakeLock gestureWakelockDuration, .wakeUp]
    match system.launchIntent with
    | some package => (a.emit [.startActivitySafely (.launch package)]).doHapticFeedback system
    | none => a
  else if arg1 = keyGestureV then
    (a.emit [.acquireGestureWakeLock gestureWakelockDuration, .wakeUp,
      .startActivitySafely .dial]).doHapticFeedback system
  else if arg1 = keyGestureW then
    (a.emit [.acquireGestureWakeLock gestureWakelockDuration, .wakeUp,
      .startActivitySafely .webSearch]).doHapticFeedback system
  else if arg1 = keyGestureZ then
    let a := a.getRearCameraId system
    match a.mRearCameraId with
    | some rearCameraId =>
        let a := a.emit [.acquireGestureWakeLock gestureWakelockDuration]
        let a :=
          if system.setTorchModeThrows then a
          else { a with mTorchEnabled := !a.mTorchEnabled }.emit
            [.setTorchMode rearCameraId !a.mTorchEnabled]
        a.doHapticFeedback system
    | none => a
  else a

/-- `MyTorchCallback.onTorchModeChanged`, and `onTorchModeUnavailable` with `false`. -/
def onTorchModeChanged (a : Actions) (cameraId : String) (enabled : Bool) : Actions :=
  if some cameraId ≠ a.mRearCameraId then a else { a with mTorchEnabled := enabled }

end Actions

/-! ## Gestures -/

/-- A message `GESTURE_REQUEST`, with the accepted key event that it was sent for. -/
structure Message where
  arg1 : Int32
  gesture : Nat
deriving DecidableEq

/-- A listener that `processEvent` registers, with its key event. -/
structure Listener where
  scancode : Int32
  gesture : Nat
deriving DecidableEq

/-- What becomes of the messages, for each the key event it was sent for: the messages
handled, those that the listener of a key event removed, and those that it sent. -/
structure Trace where
  handled : List Nat
  removed : List (Nat × Nat)
  sent : List (Nat × Nat)
deriving DecidableEq

structure KeyHandler where
  mProximityWakeSupported : Bool
  mProximitySensor : Bool
  actions : Actions
  mProximityWakeLock : Nat
  messages : List Message
  listeners : List Listener
  accepted : Nat
  trace : Trace
deriving DecidableEq

inductive KeyAction where
  | down
  | up
  | multiple
deriving DecidableEq

structure KeyEvent where
  scanCode : Int32
  action : KeyAction

/-- `PROXIMITY_ON_WAKE`, and the resource that is its default. -/
structure Settings where
  proximityOnWake : Option Int32
  defaultProximity : Bool

namespace KeyHandler

/-- The constructor. -/
def new (mProximityWakeSupported mProximitySensor mVibrator : Bool) : KeyHandler where
  mProximityWakeSupported := mProximityWakeSupported
  mProximitySensor := mProximityWakeSupported && mProximitySensor
  actions := ⟨none, false, mVibrator, []⟩
  mProximityWakeLock := 0
  messages := []
  listeners := []
  accepted := 0
  trace := ⟨[], [], []⟩

def hasMessages (s : KeyHandler) : Bool := !s.messages.isEmpty

/-- `sendMessage`, and `sendMessageDelayed`. -/
def sendMessage (s : KeyHandler) (msg : Message) : KeyHandler :=
  { s with messages := s.messages ++ [msg] }

def getMessageForKeyEvent (scancode : Int32) (gesture : Nat) : Message := ⟨scancode, gesture⟩

def processEvent (s : KeyHandler) (scancode : Int32) (gesture : Nat) : KeyHandler :=
  { s with
    mProximityWakeLock := s.mProximityWakeLock + 1
    listeners := s.listeners ++ [⟨scancode, gesture⟩] }

def proximityWakeCheckEnabled (settings : Settings) : Bool :=
  settings.proximityOnWake.getD (if settings.defaultProximity then 1 else 0) = 1

/-- `handleKeyEvent`, and whether the event is consumed. -/
def handleKeyEvent (s : KeyHandler) (event : KeyEvent) (settings : Settings) :
    KeyHandler × Bool :=
  let isKeySupported := sSupportedGestures.contains event.scanCode
  if !isKeySupported || event.action ≠ .down then (s, false)
  else if !s.hasMessages then
    let msg := getMessageForKeyEvent event.scanCode s.accepted
    let next := { s with accepted := s.accepted + 1 }
    if s.mProximityWakeSupported && proximityWakeCheckEnabled settings && s.mProximitySensor then
      ((next.sendMessage msg).processEvent event.scanCode s.accepted, true)
    else (next.sendMessage msg, true)
  else (s, true)

/-- `removeMessages(GESTURE_REQUEST)` by the listener of a key event. -/
def removeMessages (s : KeyHandler) (gesture : Nat) : KeyHandler :=
  { s with
    messages := []
    trace := { s.trace with
      removed := s.trace.removed ++ s.messages.map fun msg => (gesture, msg.gesture) } }

/-- `onSensorChanged` of a listener. `isFar` says that the measurement is the sensor's maximum
range. -/
def onSensorChanged (s : KeyHandler) (listener : Listener) (isFar : Bool) : KeyHandler :=
  let s := { s with
    mProximityWakeLock := s.mProximityWakeLock - 1
    listeners := s.listeners.erase listener }
  if !s.hasMessages then s
  else
    let s := s.removeMessages listener.gesture
    if isFar then
      let msg := getMessageForKeyEvent listener.scancode listener.gesture
      { s with trace := { s.trace with sent := s.trace.sent ++ [(listener.gesture, msg.gesture)] }
        }.sendMessage msg
    else s

/-- The queue delivers a message to `EventHandler.handleMessage`. -/
def dispatchMessage (s : KeyHandler) (msg : Message) (system : System) : KeyHandler :=
  { s with
    messages := s.messages.erase msg
    actions := s.actions.handleMessage msg.arg1 system
    trace := { s.trace with handled := s.trace.handled ++ [msg.gesture] } }

end KeyHandler

/-! ## Interleavings -/

inductive Event where
  | key (event : KeyEvent) (settings : Settings)
  | message (msg : Message) (system : System)
  | sensor (listener : Listener) (isFar : Bool)
  | torch (cameraId : String) (enabled : Bool)

/-- One handler runs: a message has to be in the queue and a listener registered. -/
def step (s : KeyHandler) : Event → Option KeyHandler
  | .key event settings => some (s.handleKeyEvent event settings).1
  | .message msg system => if msg ∈ s.messages then some (s.dispatchMessage msg system) else none
  | .sensor listener isFar =>
      if listener ∈ s.listeners then some (s.onSensorChanged listener isFar) else none
  | .torch cameraId enabled =>
      some { s with actions := s.actions.onTorchModeChanged cameraId enabled }

end Msm8916.Keys
