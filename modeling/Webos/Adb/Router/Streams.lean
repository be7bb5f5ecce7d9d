/- digest: Control queue, stream table and the service-facing write and close calls. -/

import Webos.Adb.Router.State

namespace Webos.Adb

open Webos.Lib.Bytes Webos.Lib.Program Webos.Lib.RingQueue

variable {cfg : Config} {σ π : Type} (env : Env cfg σ π)

def sendPacketRaw (command arg0 arg1 : UInt32) (payload : List UInt8) (w : World cfg σ π) :
    Int × World cfg σ π :=
  match env.transportSend with
  | none => (-ENODEV, w)
  | some send =>
    let header := encodeMessage command arg0 arg1 payload
    let (ret, platform) := send w.platform header payload
    (ret, World.note { w with platform } (.send ⟨command, arg0, arg1, payload⟩ ret))

def enqueueControl (command arg0 arg1 : UInt32) (payload : List UInt8) (w : World cfg σ π) :
    Int × World cfg σ π :=
  if payload.length > cfg.controlPayloadSize then (-EMSGSIZE, w)
  else if w.control.count = cfg.controlQueueDepth then (-ENOBUFS, w.note .overflow)
  else
    (0, { w with
      control := w.control.push cfg.controlQueueDepth ⟨command, arg0, arg1, payload⟩ })

/-- The direct and the queued way out of `send_control`, before the acceptance is recorded. -/
def routeControl (command arg0 arg1 : UInt32) (payload : List UInt8) (w : World cfg σ π) :
    Int × World cfg σ π :=
  if w.control.count ≠ 0 then enqueueControl command arg0 arg1 payload w
  else
    let (ret, w) := sendPacketRaw env command arg0 arg1 payload w
    if flowControlError ret then enqueueControl command arg0 arg1 payload w else (ret, w)

def sendControl (command arg0 arg1 : UInt32) (payload : List UInt8) (w : World cfg σ π) :
    Int × World cfg σ π :=
  let (ret, w) := routeControl env command arg0 arg1 payload w
  (ret, if ret = 0 then w.note (.accepted ⟨command, arg0, arg1, payload⟩) else w)

/-- The loop of `pump_controls`; every successful pass takes one packet off the queue. -/
def pumpLoop : Nat → World cfg σ π → Int × World cfg σ π
  | 0, w => (0, w)
  | passes + 1, w =>
    if w.control.count = 0 then (0, w)
    else
      let packet := w.control.front
      let (ret, w) := sendPacketRaw env packet.command packet.arg0 packet.arg1 packet.payload w
      if ret ≠ 0 then (ret, w)
      else pumpLoop passes { w with control := w.control.pop cfg.controlQueueDepth }

def pumpControls (w : World cfg σ π) : Int × World cfg σ π := pumpLoop env w.control.count w

def deviceBanner : List UInt8 :=
  ascii ("device::ro.product.name=webos;ro.product.model=WebOS_ESP32-S3;" ++
    "ro.product.device=webos_esp32s3;features=")

def sendConnect (w : World cfg σ π) : Int × World cfg σ π :=
  sendControl env ADB_COMMAND_CNXN ADB_VERSION (UInt32.ofNat cfg.maxPayload) deviceBanner w

def sendReady (localId remoteId : UInt32) (w : World cfg σ π) : Int × World cfg σ π :=
  sendControl env ADB_COMMAND_OKAY localId remoteId [] w

def sendClose (localId remoteId : UInt32) (w : World cfg σ π) : Int × World cfg σ π :=
  sendControl env ADB_COMMAND_CLSE localId remoteId [] w

/-- `send_ready(stream->local_id, stream->remote_id)`, recorded for the slot. -/
def sendReadyFor (s : Slot cfg) (w : World cfg σ π) : Int × World cfg σ π :=
  let (ret, w) := sendReady env (w.streams s).localId (w.streams s).remoteId w
  (ret, if ret = 0 then w.note (.okay s) else w)

/-- `send_close(stream->local_id, stream->remote_id)`, recorded for the slot. -/
def sendCloseFor (s : Slot cfg) (w : World cfg σ π) : Int × World cfg σ π :=
  let (ret, w) := sendClose env (w.streams s).localId (w.streams s).remoteId w
  (ret, if ret = 0 then w.note (.clse s) else w)

/-- The counters `next_local_id` and `next_stream_generation` skip zero. -/
def nextId (id : UInt32) : UInt32 := if id + 1 = 0 then 1 else id + 1

theorem nextId_ne_zero (id : UInt32) : nextId id ≠ 0 := by
  unfold nextId
  split_ifs with wraps
  · decide
  · exact wraps

def allocateLocalId (w : World cfg σ π) : UInt32 × World cfg σ π :=
  (w.nextLocalId, World.note { w with nextLocalId := nextId w.nextLocalId } (.drawn w.nextLocalId))

def findStream (w : World cfg σ π) (localId remoteId : UInt32) : Option (Slot cfg) :=
  (List.finRange cfg.maxStreams).find? (fun s => (w.streams s).used &&
    (w.streams s).localId == localId && (w.streams s).remoteId == remoteId)

def allocateStream (remoteId : UInt32) (ops : ServiceKind) (w : World cfg σ π) :
    Option (Slot cfg) × World cfg σ π :=
  match (List.finRange cfg.maxStreams).find? (fun s => !(w.streams s).used) with
  | none => (none, w)
  | some s =>
    let (localId, w) := allocateLocalId w
    let st := { Stream.zero cfg with
      used := true
      localId := localId
      remoteId := remoteId
      generation := w.nextStreamGeneration
      ops := some ops }
    let w := { w with nextStreamGeneration := nextId w.nextStreamGeneration }
    (some s, (w.setStream s st).note (.allocated s localId remoteId))

def releaseStream (s : Slot cfg) (w : World cfg σ π) : World cfg σ π :=
  let st := w.streams s
  if !st.used then w
  else
    let services := match st.ops.bind (fun kind => (env.ops kind).closeOp) with
      | none => w.services
      | some close => close w.services s
    (World.setStream { w with services } s (Stream.zero cfg)).note (.released s)

def closeAllStreams (w : World cfg σ π) : World cfg σ π :=
  (List.finRange cfg.maxStreams).foldl (fun w s => releaseStream env s w) w

/-- The second half of `flush_stream`: the deferred CLSE. -/
def flushClose (s : Slot cfg) (w : World cfg σ π) : Int × World cfg σ π :=
  let st := w.streams s
  if st.closePending && !st.txPending && !st.awaitingAck then
    let (ret, w) := sendCloseFor env s w
    if ret ≠ 0 then (ret, w) else (0, releaseStream env s w)
  else (0, w)

def flushStream (s : Slot cfg) (w : World cfg σ π) : Int × World cfg σ π :=
  let st := w.streams s
  if st.txPending && !st.awaitingAck then
    if w.control.count ≠ 0 then (-ENOSPC, w)
    else
      let (ret, w) := sendPacketRaw env ADB_COMMAND_WRTE st.localId st.remoteId st.txBytes w
      let w := w.note (.wrte s st.txBytes ret)
      if ret ≠ 0 then (ret, w)
      else flushClose env s (w.setStream s { st with txPending := false, awaitingAck := true })
  else flushClose env s w

def webosAdbStreamMaxPayload (w : World cfg σ π) : Nat :=
  let capacity := min w.negotiatedPayload cfg.txPayloadSize
  if cfg.usb then min capacity cfg.usbTransferSize else capacity

def World.store (w : World cfg σ π) (s : Slot cfg) (data : List UInt8) : World cfg σ π :=
  (w.setStream s { w.streams s with
    txData := memcpy (w.streams s).txData 0 data
    txLen := data.length
    txPending := true }).note (.stored s data)

/-- What `stream_write_locked` makes of the result of its immediate flush: the router owns the
copy after back-pressure and drops it after any other error. -/
def settleWrite (s : Slot cfg) (flushed : Int × World cfg σ π) : Int × World cfg σ π :=
  let (ret, w) := flushed
  if ret = -ENOSPC ∨ ret = -EBUSY then (0, w)
  else if ret ≠ 0 then
    (ret, w.setStream s { w.streams s with txPending := false, txLen := 0 })
  else (0, w)

/-- `stream_write_locked` on a slot, before its result is recorded. -/
def storeWrite (s : Slot cfg) (generation : UInt32) (data : List UInt8) (w : World cfg σ π) :
    Int × World cfg σ π :=
  let st := w.streams s
  if !st.used || (generation != 0 && st.generation != generation) then (-EINVAL, w)
  else if data.length > webosAdbStreamMaxPayload w then (-EMSGSIZE, w)
  else if st.txPending || st.awaitingAck then (-EBUSY, w)
  else if w.dispatching then (0, w.store s data)
  else settleWrite s (flushStream env s (w.store s data))

def streamWriteLocked (stream : Option (Slot cfg)) (generation : UInt32) (data : List UInt8)
    (w : World cfg σ π) : Int × World cfg σ π :=
  match stream with
  | none => (-EINVAL, w)
  | some s =>
    let (ret, w) := storeWrite env s generation data w
    (ret, w.note (.write s data ret))

def streamCloseLocked (stream : Option (Slot cfg)) (generation : UInt32) (w : World cfg σ π) :
    World cfg σ π :=
  match stream with
  | none => w
  | some s =>
    let st := w.streams s
    if st.used && (generation == 0 || st.generation == generation) then
      let w := (w.setStream s { st with closePending := true }).note (.close s)
      if w.dispatching then w else (flushStream env s w).2
    else w

def webosAdbStreamGeneration (stream : Option (Slot cfg)) (w : World cfg σ π) : UInt32 :=
  match stream with
  | none => 0
  | some s => (w.streams s).generation

def streamApi : Handler (StreamCall cfg) StreamCall.Reply (World cfg σ π)
  | .write stream generation data, w => streamWriteLocked env stream generation data w
  | .close stream generation, w => ((), streamCloseLocked env stream generation w)
  | .generation stream, w => (webosAdbStreamGeneration stream w, w)
  | .maxPayload _, w => (webosAdbStreamMaxPayload w, w)

def callback {α : Type} (program : Callback cfg σ α) (w : World cfg σ π) : α × World cfg σ π :=
  let ((result, services), w) := program.run (streamApi env) w
  (result, { w with services })

end Webos.Adb
