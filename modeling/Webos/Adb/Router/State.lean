/- digest: The statics of the protocol router, its outside world and the record of a run. -/

import Mathlib.Logic.Function.Basic
import Webos.Adb.Wire
import Webos.Lib.Program
import Webos.Lib.RingQueue

namespace Webos.Adb

open Webos.Lib.Bytes Webos.Lib.Program Webos.Lib.RingQueue

inductive ServiceKind where
  | shell
  | sync
  | logcat
  deriving DecidableEq, Repr

structure Stream where
  used : Bool
  txPending : Bool
  awaitingAck : Bool
  closePending : Bool
  localId : UInt32
  remoteId : UInt32
  generation : UInt32
  ops : Option ServiceKind
  txLen : Nat
  txData : List UInt8

def Stream.zero (cfg : Config) : Stream :=
  ⟨false, false, false, false, 0, 0, 0, none, 0, List.replicate cfg.txPayloadSize 0⟩

/-- The bytes `flush_stream` hands to the transport. -/
def Stream.txBytes (st : Stream) : List UInt8 := st.txData.take st.txLen

structure Rx where
  header : List UInt8
  payload : Option (List UInt8)
  payloadChecksum : UInt32
  headerUsed : Nat
  payloadUsed : Nat
  message : Message
deriving DecidableEq

def Rx.zero : Rx :=
  ⟨List.replicate WEBOS_ADB_HEADER_SIZE 0, none, 0, 0, 0, ⟨0, 0, 0, 0, 0, 0⟩⟩

def Rx.fillHeader (rx : Rx) (chunk : List UInt8) : Rx :=
  { rx with
    header := memcpy rx.header rx.headerUsed chunk
    headerUsed := rx.headerUsed + chunk.length }

def Rx.fillPayload (rx : Rx) (chunk : List UInt8) : Rx :=
  { rx with
    payload := some (memcpy (rx.payload.getD []) rx.payloadUsed chunk)
    payloadChecksum := rx.payloadChecksum + adbChecksum chunk
    payloadUsed := rx.payloadUsed + chunk.length }

/-- What the router API offers to a service callback. -/
inductive StreamCall (cfg : Config) where
  | write (stream : Option (Slot cfg)) (generation : UInt32) (data : List UInt8)
  | close (stream : Option (Slot cfg)) (generation : UInt32)
  | generation (stream : Option (Slot cfg))
  | maxPayload (stream : Option (Slot cfg))

abbrev StreamCall.Reply {cfg : Config} : StreamCall cfg → Type
  | .write _ _ _ => Int
  | .close _ _ => Unit
  | .generation _ => UInt32
  | .maxPayload _ => Nat

/-- A service callback: it may call the router and returns a result and its new statics. -/
abbrev Callback (cfg : Config) (σ α : Type) := Prog (StreamCall cfg) StreamCall.Reply (α × σ)

/-- `struct webos_adb_service_ops` over the service statics `σ`. No `close` callback of the
repository calls the router, so it is a plain function. -/
structure ServiceOps (cfg : Config) (σ : Type) where
  openOp : σ → Slot cfg → List UInt8 → Callback cfg σ Int
  writeOp : Option (σ → Slot cfg → List UInt8 → Callback cfg σ Int)
  txReadyOp : Option (σ → Slot cfg → Callback cfg σ Unit)
  closeOp : Option (σ → Slot cfg → σ)

/-- Everything outside the router: the transport, the heap, the work queue and the services. -/
structure Env (cfg : Config) (σ π : Type) where
  transportSend : Option (π → List UInt8 → List UInt8 → Int × π)
  usbResetTx : π → π
  malloc : π → Nat → Bool × π
  workReschedule : π → Int × π
  ops : ServiceKind → ServiceOps cfg σ

/-- A platform on which every call succeeds, with services that accept everything. -/
def Env.ideal (cfg : Config) : Env cfg Unit Unit where
  transportSend := some (fun _ _ _ => (0, ()))
  usbResetTx := id
  malloc := fun _ _ => (true, ())
  workReschedule := fun _ => (0, ())
  ops := fun _ => ⟨fun _ _ _ => .done (0, ()), some (fun _ _ _ => .done (0, ())), none, none⟩

structure Dispatch where
  command : UInt32
  arg0 : UInt32
  arg1 : UInt32
  payload : List UInt8
  checksumOk : Bool
  ret : Int
  deriving DecidableEq, Repr

/-- The record of a run. Events are written where the source performs the action named;
no function of the router reads them. -/
inductive Event (cfg : Config) where
  | send (packet : Packet) (answer : Int)
  | accepted (packet : Packet)
  | overflow
  | drawn (id : UInt32)
  | allocated (s : Slot cfg) (localId remoteId : UInt32)
  | released (s : Slot cfg)
  | stored (s : Slot cfg) (data : List UInt8)
  | write (s : Slot cfg) (data : List UInt8) (ret : Int)
  | wrte (s : Slot cfg) (data : List UInt8) (answer : Int)
  | close (s : Slot cfg)
  | ready (s : Slot cfg)
  | okay (s : Slot cfg)
  | clse (s : Slot cfg)
  | writeFailed (s : Slot cfg)
  | hostClose (s : Slot cfg)
  | connect (limit : UInt32)
  | reset
  | reboot
  | alloc (size : Nat) (found : Bool)
  | dispatched (call : Dispatch)
  deriving DecidableEq

def Event.call {cfg : Config} : Event cfg → Option Dispatch
  | .dispatched call => some call
  | _ => none

def Event.framing {cfg : Config} : Event cfg → Bool
  | .alloc _ _ | .dispatched _ => true
  | _ => false

/-- The statics of `adb_protocol.c` with the services, the platform and the record. -/
structure World (cfg : Config) (σ π : Type) where
  rx : Rx
  streams : Slot cfg → Stream
  control : RingBuffer Packet
  nextLocalId : UInt32
  nextStreamGeneration : UInt32
  negotiatedPayload : Nat
  online : Bool
  dispatching : Bool
  services : σ
  platform : π
  log : List (Event cfg)

variable {cfg : Config} {σ π : Type}

def World.note (w : World cfg σ π) (e : Event cfg) : World cfg σ π :=
  { w with log := w.log ++ [e] }

def World.setStream (w : World cfg σ π) (s : Slot cfg) (st : Stream) : World cfg σ π :=
  { w with streams := Function.update w.streams s st }

def World.since (w v : World cfg σ π) : List (Event cfg) := v.log.drop w.log.length

def World.boot (cfg : Config) (services : σ) (platform : π) : World cfg σ π where
  rx := Rx.zero
  streams := fun _ => Stream.zero cfg
  control := ⟨fun _ => ⟨0, 0, 0, []⟩, 0, 0, 0⟩
  nextLocalId := 1
  nextStreamGeneration := 1
  negotiatedPayload := cfg.maxPayload
  online := false
  dispatching := false
  services := services
  platform := platform
  log := []

section Simp

variable (w : World cfg σ π) (e : Event cfg) (s : Slot cfg) (st : Stream)

@[simp] theorem note_rx : (w.note e).rx = w.rx := rfl
@[simp] theorem note_streams : (w.note e).streams = w.streams := rfl
@[simp] theorem note_dispatching : (w.note e).dispatching = w.dispatching := rfl
@[simp] theorem note_services : (w.note e).services = w.services := rfl
@[simp] theorem note_log : (w.note e).log = w.log ++ [e] := rfl
@[simp] theorem setStream_streams :
    (w.setStream s st).streams = Function.update w.streams s st := rfl
@[simp] theorem setStream_dispatching : (w.setStream s st).dispatching = w.dispatching := rfl
@[simp] theorem setStream_services : (w.setStream s st).services = w.services := rfl

end Simp

end Webos.Adb
