/- digest: Message handlers, the incremental receiver and the entry points of the router. -/

import Webos.Adb.Router.Streams

namespace Webos.Adb

open Webos.Lib.Bytes Webos.Lib.Program Webos.Lib.RingQueue

variable {cfg : Config} {σ π : Type} (env : Env cfg σ π)

def containsBytes (data token : List UInt8) : Bool :=
  decide (token.length ≤ data.length) && (List.range (data.length - token.length + 1)).any
      (fun i => (data.drop i).take token.length == token)

def webosAdbLogcatMatches (cfg : Config) (suffix : List UInt8) : Bool :=
  if suffix.length == 0 || decide (suffix.length ≥ cfg.shellCommandSize) || suffix.contains 0 ||
      suffix.contains 10 || suffix.contains 13 then false
  else if suffix == ascii "logcat" then true
  else if decide (suffix.length > (ascii "logcat ").length) &&
      suffix.take (ascii "logcat ").length == ascii "logcat " then true
  else containsBytes suffix (ascii "; exec logcat")

/-- `webos_adb_reboot_request(NULL, 0)`. -/
def webosAdbRebootRequest (w : World cfg σ π) : Int × World cfg σ π :=
  let (ret, platform) := env.workReschedule w.platform
  if ret < 0 then (ret, { w with platform }) else (0, World.note { w with platform } .reboot)

/-- The tail of `open_stream` once the service has accepted the stream. -/
def announceStream (s : Slot cfg) (w : World cfg σ π) : Int × World cfg σ π :=
  let (ret, w) := sendReadyFor env s w
  let (ret, w) := if ret = 0 then flushStream env s w else (ret, w)
  if flowControlError ret then (0, w)
  else if ret ≠ 0 then (ret, releaseStream env s w)
  else (0, w)

def openStream (destination : List UInt8) (remoteId : UInt32) (pre : List UInt8)
    (kind : ServiceKind) (w : World cfg σ π) : Int × World cfg σ π :=
  if destination.length < pre.length || destination.take pre.length != pre then (-ENOENT, w)
  else
    match allocateStream remoteId kind w with
    | (none, w) => sendClose env 0 remoteId w
    | (some s, w) =>
      let (ret, w) := callback env
        ((env.ops kind).openOp w.services s (destination.drop pre.length)) w
      if ret ≠ 0 then sendClose env 0 remoteId (releaseStream env s w)
      else announceStream env s w

/-- An attempt of `handle_open` that its `#if defined` may leave out. -/
def openIf (enabled : Bool) (destination : List UInt8) (remoteId : UInt32) (pre : List UInt8)
    (kind : ServiceKind) (w : World cfg σ π) : Int × World cfg σ π :=
  if enabled then openStream env destination remoteId pre kind w else (-ENOENT, w)

/-- The shell and sync attempts at the end of `handle_open`. -/
def openService (destination : List UInt8) (remoteId : UInt32) (w : World cfg σ π) :
    Int × World cfg σ π :=
  let (ret, w) := openIf env cfg.shell destination remoteId (ascii "shell:") .shell w
  if ret ≠ -ENOENT then (ret, w)
  else
    let (ret, w) := openIf env cfg.sync destination remoteId (ascii "sync:") .sync w
    if ret ≠ -ENOENT then (ret, w) else sendClose env 0 remoteId w

/-- The `reboot:` branch of `handle_open`. -/
def openReboot (destination : List UInt8) (remoteId : UInt32) (w : World cfg σ π) :
    Int × World cfg σ π :=
  if destination.length ≠ (ascii "reboot:").length then sendClose env 0 remoteId w
  else
    let (id, w) := allocateLocalId w
    let (ret, w) := sendReady env id remoteId w
    if ret = 0 then webosAdbRebootRequest env w else (ret, w)

def handleOpen (w : World cfg σ π) : Int × World cfg σ π :=
  let payload := w.rx.payload.getD []
  let remoteId := w.rx.message.arg0
  if !w.online || remoteId == 0 || w.rx.message.arg1 != 0 || w.rx.message.dataLength == 0 ||
      w.rx.payload.isNone || payload.getD (w.rx.message.dataLength.toNat - 1) 1 != 0 then
    (-EBADMSG, w)
  else
    let destination := payload.take (w.rx.message.dataLength.toNat - 1)
    if destination == ascii "track-jdwp" || destination == ascii "track-app" then
      let (id, w) := allocateLocalId w
      sendReady env id remoteId w
    else if cfg.reboot && destination.take (ascii "reboot:").length == ascii "reboot:" then
      openReboot env destination remoteId w
    else if cfg.logcat && decide (destination.length ≥ (ascii "shell:").length) &&
        webosAdbLogcatMatches cfg (destination.drop (ascii "shell:").length) then
      openStream env destination remoteId (ascii "shell:") .logcat w
    else openService env destination remoteId w

def handleWrite (w : World cfg σ π) : Int × World cfg σ π :=
  match findStream w w.rx.message.arg1 w.rx.message.arg0 with
  | none => sendClose env 0 w.rx.message.arg0 w
  | some s =>
    match (w.streams s).ops.bind (fun kind => (env.ops kind).writeOp) with
    | none => sendClose env 0 w.rx.message.arg0 w
    | some write =>
      let (ret, w) := callback env (write w.services s (w.rx.payload.getD [])) w
      if ret ≠ 0 then
        flushStream env s ((w.setStream s { w.streams s with
          closePending := true, txPending := false, awaitingAck := false }).note (.writeFailed s))
      else
        let (ret, w) := sendReadyFor env s w
        if ret = 0 then flushStream env s w else (ret, w)

def notifyReady (s : Slot cfg) (w : World cfg σ π) : World cfg σ π :=
  match (w.streams s).ops.bind (fun kind => (env.ops kind).txReadyOp) with
  | none => w
  | some txReady => (callback env (txReady w.services s) w).2

def World.acknowledge (w : World cfg σ π) (s : Slot cfg) : World cfg σ π :=
  w.setStream s { w.streams s with awaitingAck := false }

def handleReady (w : World cfg σ π) : Int × World cfg σ π :=
  match findStream w w.rx.message.arg1 w.rx.message.arg0 with
  | none => (0, w)
  | some s =>
    let w := w.note (.ready s)
    if !(w.streams s).awaitingAck then (0, w)
    else
      let w := notifyReady env s (w.acknowledge s)
      if (w.streams s).used then flushStream env s w else (0, w)

def handleClose (w : World cfg σ π) : Int × World cfg σ π :=
  match findStream w w.rx.message.arg1 w.rx.message.arg0 with
  | none => (0, w)
  | some s =>
    let (ret, w) := sendCloseFor env s (w.note (.hostClose s))
    (ret, releaseStream env s w)

/-- The CNXN case of `dispatch_message` up to its reply: the old session is dropped. -/
def restartSession (w : World cfg σ π) : World cfg σ π :=
  let w := closeAllStreams env { w with online := false }
  World.note { w with
    control := w.control.clear
    nextLocalId := 1
    platform := if cfg.usb then env.usbResetTx w.platform else w.platform
    negotiatedPayload := min w.rx.message.arg1.toNat cfg.maxPayload } (.connect w.rx.message.arg1)

def handleConnect (w : World cfg σ π) : Int × World cfg σ π :=
  if !cfg.allowNoAuth then (-EACCES, w)
  else
    let (ret, w) := sendConnect env (restartSession env w)
    (ret, if ret = 0 then { w with online := true } else w)

def checksumPasses (rx : Rx) : Bool :=
  rx.message.dataCheck == rx.payloadChecksum || (rx.message.command == ADB_COMMAND_CNXN &&
      decide (rx.message.arg0 ≥ ADB_VERSION_NO_CHECKSUM) && rx.message.dataCheck == 0)

def routeMessage (w : World cfg σ π) : Int × World cfg σ π :=
  if w.rx.message.command = ADB_COMMAND_CNXN then handleConnect env w
  else if w.rx.message.command = ADB_COMMAND_OPEN then handleOpen env w
  else if w.rx.message.command = ADB_COMMAND_WRTE then handleWrite env w
  else if w.rx.message.command = ADB_COMMAND_OKAY then handleReady env w
  else if w.rx.message.command = ADB_COMMAND_CLSE then handleClose env w
  else (-ENOTSUP, w)

def dispatchMessage (w : World cfg σ π) : Int × World cfg σ π :=
  let (ret, w') := if checksumPasses w.rx then routeMessage env w else (-EBADMSG, w)
  (ret, w'.note (.dispatched ⟨w.rx.message.command, w.rx.message.arg0, w.rx.message.arg1,
    w.rx.payload.getD [], checksumPasses w.rx, ret⟩))

def validateMessage (cfg : Config) (message : Message) : Int :=
  if message.magic ≠ message.command ^^^ UINT32_MAX then -EBADMSG
  else if message.dataLength.toNat > cfg.maxPayload then -EMSGSIZE
  else 0

def decodeHeader (w : World cfg σ π) : Int × World cfg σ π :=
  let message := loadMessage w.rx.header
  let w := { w with rx := { w.rx with message } }
  let ret := validateMessage cfg message
  if ret ≠ 0 ∨ message.dataLength = 0 then (ret, w)
  else
    let (found, platform) := env.malloc w.platform message.dataLength.toNat
    let w := World.note { w with platform } (.alloc message.dataLength.toNat found)
    if found then
      let block := List.replicate message.dataLength.toNat 0
      (0, { w with rx := { w.rx with payload := some block } })
    else (-ENOMEM, w)

def resetRx (w : World cfg σ π) : World cfg σ π := { w with rx := Rx.zero }

/-- `dispatch_message(); reset_rx();` with the early exit on a refusal. -/
def finishMessage (data : List UInt8) (w : World cfg σ π) :
    Option Int × List UInt8 × World cfg σ π :=
  let (ret, w) := dispatchMessage env w
  (if ret ≠ 0 then some ret else none, data, resetRx w)

/-- What follows a complete header: a refusal, a message without payload, or the payload phase. -/
def finishHeader (data : List UInt8) (w : World cfg σ π) :
    Option Int × List UInt8 × World cfg σ π :=
  let (ret, w) := decodeHeader env w
  if ret ≠ 0 then (some ret, data, resetRx w)
  else if w.rx.message.dataLength = 0 then finishMessage env data w
  else (none, data, w)

/-- The header half of one pass of the receive loop: an exit code, what is left, the state. -/
def headerPhase (data : List UInt8) (w : World cfg σ π) :
    Option Int × List UInt8 × World cfg σ π :=
  if w.rx.headerUsed < WEBOS_ADB_HEADER_SIZE then
    let count := min data.length (WEBOS_ADB_HEADER_SIZE - w.rx.headerUsed)
    let w := { w with rx := w.rx.fillHeader (data.take count) }
    if w.rx.headerUsed ≠ WEBOS_ADB_HEADER_SIZE then (none, data.drop count, w)
    else finishHeader env (data.drop count) w
  else (none, data, w)

def payloadPhase (data : List UInt8) (w : World cfg σ π) :
    Option Int × List UInt8 × World cfg σ π :=
  if w.rx.headerUsed = WEBOS_ADB_HEADER_SIZE ∧ w.rx.message.dataLength > 0 then
    let count := min data.length (w.rx.message.dataLength.toNat - w.rx.payloadUsed)
    let w := { w with rx := w.rx.fillPayload (data.take count) }
    if w.rx.payloadUsed = w.rx.message.dataLength.toNat then
      finishMessage env (data.drop count) w
    else (none, data.drop count, w)
  else (none, data, w)

def receivePass (data : List UInt8) (w : World cfg σ π) :
    Option Int × List UInt8 × World cfg σ π :=
  match headerPhase env data w with
  | (some ret, data, w) => (some ret, data, w)
  | (none, data, w) => payloadPhase env data w

/-- The receive loop. A pass that goes on has consumed a byte, so as many passes as there are
bytes are enough. -/
def receiveLoop : Nat → List UInt8 → World cfg σ π → Int × World cfg σ π
  | 0, _, w => (0, w)
  | passes + 1, data, w =>
    if data = [] then (0, w)
    else
      match receivePass env data w with
      | (some ret, _, w) => (ret, w)
      | (none, data, w) => receiveLoop passes data w

def protocolReceiveUnlocked (data : List UInt8) (w : World cfg σ π) : Int × World cfg σ π :=
  receiveLoop env data.length data w

def webosAdbProtocolReceive (data : List UInt8) (w : World cfg σ π) : Int × World cfg σ π :=
  let (ret, w) := protocolReceiveUnlocked env data { w with dispatching := true }
  (ret, { w with dispatching := false })

/-- The loop of `webos_adb_protocol_tx_ready` over the stream table. -/
def flushPending : List (Slot cfg) → World cfg σ π → World cfg σ π
  | [], w => w
  | s :: rest, w =>
    if (w.streams s).used && ((w.streams s).txPending || (w.streams s).closePending) then
      let (ret, w) := flushStream env s w
      if ret = -ENOSPC ∨ ret = -EBUSY then w else flushPending rest w
    else flushPending rest w

def webosAdbProtocolTxReady (w : World cfg σ π) : World cfg σ π :=
  let (ret, w) := if w.online then pumpControls env w else (0, w)
  if flowControlError ret then w
  else if w.online && w.control.count == 0 then
    flushPending env (List.finRange cfg.maxStreams) w
  else w

def protocolResetUnlocked (w : World cfg σ π) : World cfg σ π :=
  let w := closeAllStreams env (resetRx w)
  World.note { w with
    nextLocalId := 1
    control := w.control.clear
    negotiatedPayload := cfg.maxPayload
    online := false
    dispatching := false } .reset

/-- The entry points of the router; each runs under `protocol_lock`. -/
inductive Input (cfg : Config) where
  | streamWrite (stream : Option (Slot cfg)) (data : List UInt8)
  | streamWriteGeneration (stream : Option (Slot cfg)) (generation : UInt32) (data : List UInt8)
  | streamClose (stream : Option (Slot cfg))
  | streamCloseGeneration (stream : Option (Slot cfg)) (generation : UInt32)
  | receive (data : List UInt8)
  | txReady
  | reset

def World.input (w : World cfg σ π) : Input cfg → World cfg σ π
  | .streamWrite stream data => (streamWriteLocked env stream 0 data w).2
  | .streamWriteGeneration stream generation data =>
    (streamWriteLocked env stream generation data w).2
  | .streamClose stream => streamCloseLocked env stream 0 w
  | .streamCloseGeneration stream generation => streamCloseLocked env stream generation w
  | .receive data => (webosAdbProtocolReceive env data w).2
  | .txReady => webosAdbProtocolTxReady env w
  | .reset => protocolResetUnlocked env w

def World.inputs (w : World cfg σ π) (run : List (Input cfg)) : World cfg σ π :=
  run.foldl (World.input env) w

/-- The router after `webos_adb_protocol_init` and any sequence of entry point calls. -/
def Reachable (w : World cfg σ π) : Prop :=
  ∃ services platform run,
    w = World.inputs env (protocolResetUnlocked env (World.boot cfg services platform)) run

end Webos.Adb
