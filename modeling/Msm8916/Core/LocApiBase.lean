import Mathlib.Data.Finset.Fold
import Msm8916.Lib.Compact
import Msm8916.Lib.Transition

/-!
The adapters of `gps/core/LocApiBase.cpp`: the array they are kept in, the loops that call
them, and how one is added and removed. Adapters are known by their addresses.
-/

namespace Msm8916.Core

open Compact Transition

variable {α σ : Type*}

/-- `MAX_ADAPTERS`. -/
def maxAdapters : Nat := 10

/-- `LOC_API_ADAPTER_EVENT_MASK_T`. -/
abbrev EventMask := UInt32

/-- A `LocOpenMsg` that is sent, and a call of `close`. -/
inductive Effect where
  | sendOpen (mask : EventMask)
  | close
deriving DecidableEq, Repr

/-- `LocApiBase`, with what it has sent and called. -/
structure LocApiBase (α : Type*) where
  mLocAdapters : List (Option α)
  mExcludedMask : EventMask
  effects : List Effect
deriving DecidableEq

/-! ## The loops over the adapters -/

/-- The loop of `TO_ALL_ADAPTERS` from index `i` on, with `remaining` indices left. -/
def toAllFrom (call : σ → α → σ) (adapters : List (Option α)) : (remaining i : Nat) → σ → σ
  | 0, _, state => state
  | remaining + 1, i, state =>
      match slot adapters i with
      | none => state
      | some adapter => toAllFrom call adapters remaining (i + 1) (call state adapter)

/-- `TO_ALL_ADAPTERS`. -/
def toAllAdapters (call : σ → α → σ) (adapters : List (Option α)) (state : σ) : σ :=
  toAllFrom call adapters maxAdapters 0 state

/-- The loop of `TO_1ST_HANDLING_ADAPTER`. A call tells whether the adapter handled it. -/
def toFirstFrom (call : σ → α → σ × Bool) (adapters : List (Option α)) :
    (remaining i : Nat) → σ → σ
  | 0, _, state => state
  | remaining + 1, i, state =>
      match slot adapters i with
      | none => state
      | some adapter =>
          let (state, handled) := call state adapter
          if handled then state else toFirstFrom call adapters remaining (i + 1) state

/-- `TO_1ST_HANDLING_ADAPTER`. -/
def toFirstHandlingAdapter (call : σ → α → σ × Bool) (adapters : List (Option α)) (state : σ) :
    σ :=
  toFirstFrom call adapters maxAdapters 0 state

namespace LocApiBase

/-- `getEvtMask`; `evtMask` is what the adapters answer. -/
def getEvtMask (api : LocApiBase α) (evtMask : α → EventMask) : EventMask :=
  toAllAdapters (fun mask adapter => mask ||| evtMask adapter) api.mLocAdapters 0 &&&
    ~~~api.mExcludedMask

def emit (api : LocApiBase α) (effect : Effect) : LocApiBase α :=
  { api with effects := api.effects ++ [effect] }

variable [DecidableEq α]

/-- The loop of `addAdapter`. -/
def addFrom (evtMask : α → EventMask) (adapter : α) :
    (remaining i : Nat) → LocApiBase α → LocApiBase α
  | 0, _, api => api
  | remaining + 1, i, api =>
      if slot api.mLocAdapters i = some adapter then api
      else if slot api.mLocAdapters i = none then
        { api with mLocAdapters := api.mLocAdapters.set i (some adapter) }.emit
          (.sendOpen (evtMask adapter))
      else addFrom evtMask adapter remaining (i + 1) api

def addAdapter (evtMask : α → EventMask) (adapter : α) (api : LocApiBase α) : LocApiBase α :=
  addFrom evtMask adapter maxAdapters 0 api

/-- `while (++i < MAX_ADAPTERS && mLocAdapters[i] != NULL);`, with the value of `i` after it. -/
def endFrom (adapters : List (Option α)) : (remaining i : Nat) → Nat
  | 0, i => i
  | remaining + 1, i =>
      if i + 1 < maxAdapters ∧ slot adapters (i + 1) ≠ none then endFrom adapters remaining (i + 1)
      else i + 1

/-- What `removeAdapter` does when it has found the adapter at `j`, with the value of its loop
index after it. -/
def removeAt (evtMask : α → EventMask) (j : Nat) (api : LocApiBase α) : LocApiBase α × Nat :=
  let adapters := api.mLocAdapters.set j none
  let i := endFrom adapters maxAdapters j - 1
  let adapters := adapters.set j (slot adapters i)
  let adapters := adapters.set i none
  let api := { api with mLocAdapters := adapters }
  if i = 0 then (api.emit .close, i) else (api.emit (.sendOpen (api.getEvtMask evtMask)), i)

/-- The loop of `removeAdapter`, which has no value if it takes more turns than `fuel`. -/
def removeFrom (evtMask : α → EventMask) (adapter : α) :
    (fuel i : Nat) → LocApiBase α → Option (LocApiBase α)
  | 0, _, _ => none
  | fuel + 1, i, api =>
      if i < maxAdapters ∧ slot api.mLocAdapters i ≠ none then
        if slot api.mLocAdapters i = some adapter then
          let (api, i) := removeAt evtMask i api
          removeFrom evtMask adapter fuel (i + 1) api
        else removeFrom evtMask adapter fuel (i + 1) api
      else some api

def removeAdapter (evtMask : α → EventMask) (adapter : α) (api : LocApiBase α) :
    Option (LocApiBase α) :=
  removeFrom evtMask adapter (maxAdapters + 1) 0 api

end LocApiBase

/-! ## Sequences of calls -/

/-- A call of `addAdapter` or `removeAdapter`, with what the adapters answer to `getEvtMask`
at the time. -/
inductive Call (α : Type*) where
  | add (adapter : α) (evtMask : α → EventMask)
  | remove (adapter : α) (evtMask : α → EventMask)

variable [DecidableEq α]

def step (api : LocApiBase α) : Call α → Option (LocApiBase α)
  | .add adapter evtMask => some (api.addAdapter evtMask adapter)
  | .remove adapter evtMask => api.removeAdapter evtMask adapter

/-- `LocApiBase` after its constructor. -/
def constructed (excludedMask : EventMask) : LocApiBase α where
  mLocAdapters := List.replicate maxAdapters none
  mExcludedMask := excludedMask
  effects := []

/-- The adapters after a call: those added and not removed. -/
def Call.live (live : Finset α) : Call α → Finset α
  | .add adapter _ => insert adapter live
  | .remove adapter _ => live.erase adapter

/-- The masks of the adapters together. -/
def masksOf (adapters : Finset α) (evtMask : α → EventMask) : EventMask :=
  adapters.fold (· ||| ·) 0 evtMask

/-- What a call sends and calls when these adapters are live. -/
def Call.effects (excludedMask : EventMask) (live : Finset α) : Call α → List Effect
  | .add adapter evtMask => if adapter ∈ live then [] else [.sendOpen (evtMask adapter)]
  | .remove adapter evtMask =>
      if adapter ∈ live then
        if live = {adapter} then [.close]
        else [.sendOpen (masksOf (live.erase adapter) evtMask &&& ~~~excludedMask)]
      else []

/-- The adapters that have been added and not removed. -/
def live (calls : List (Call α)) : Finset α := calls.foldl Call.live ∅

end Msm8916.Core
