/- digest: The logcat service: one session, its ring of pending log bytes and its worker. -/

import Webos.Adb.Router.Dispatch
import Webos.Services.LogBuffer

namespace Webos.Adb.Logcat

open Webos.Lib Webos.Lib.Bytes Webos.Lib.Program Webos.Services

structure Options where
  bufferSize : Nat
  bufferSize_range : 512 ≤ bufferSize ∧ bufferSize ≤ 16384 := by decide

/-- `struct adb_logcat_context`. A ring that has not been allocated is a ring over an empty block,
and `tx_chunk` is its used part. -/
structure LogcatContext (cfg : Config) where
  stream : Option (Slot cfg)
  ring : ByteRing
  streamGeneration : UInt32
  active : Bool
  sending : Bool
  drain : Bool
  txChunk : List UInt8

/-- The statics of `adb_logcat.c`, the retained log and the heap. -/
structure Statics (cfg : Config) (μ : Type) where
  logcat : LogcatContext cfg
  buffer : LogBuffer
  heap : μ

variable {cfg : Config} {μ : Type}

def Statics.set (st : Statics cfg μ) (f : LogcatContext cfg → LogcatContext cfg) : Statics cfg μ :=
  { st with logcat := f st.logcat }

abbrev Run (cfg : Config) (μ α : Type) :=
  Routine (Statics cfg μ) (StreamCall cfg) StreamCall.Reply α

def optionRequested (suffix quoted plain longOption : List UInt8) : Bool :=
  containsBytes suffix quoted || containsBytes suffix plain || containsBytes suffix longOption

def drainRequested (suffix : List UInt8) : Bool :=
  optionRequested suffix (ascii "'-d'") (ascii " -d") (ascii "--dump") ||
    optionRequested suffix (ascii "'-t'") (ascii " -t") (ascii "--tail")

def clearRequested (suffix : List UInt8) : Bool :=
  optionRequested suffix (ascii "'-c'") (ascii " -c") (ascii "--clear")

def LogcatContext.ringPush (data : List UInt8) (c : LogcatContext cfg) : LogcatContext cfg :=
  { c with ring := c.ring.push data }

def liveLogListener (data : List UInt8) (st : Statics cfg μ) : Statics cfg μ :=
  if st.logcat.active && !st.logcat.drain then st.set (LogcatContext.ringPush data) else st

/-- The removal of a chunk of at most `room` bytes from the ring. -/
def LogcatContext.capture (room : Nat) (c : LogcatContext cfg) : LogcatContext cfg :=
  let count := min c.ring.len room
  { c with txChunk := c.ring.oldest count, ring := c.ring.pop count, sending := true }

def LogcatContext.current (generation : UInt32) (c : LogcatContext cfg) : Bool :=
  c.active && c.streamGeneration == generation

/-- `queue_next` after a failed write. -/
def abandonChunk (stream : Option (Slot cfg)) (generation : UInt32) : Run cfg μ Unit := do
  let st ← Routine.read
  if st.logcat.current generation then do
    Routine.update fun st => st.set fun c => { c with sending := false }
    Routine.ask (StreamCall.close stream generation)
  else pure ()

def sendChunk (stream : Option (Slot cfg)) (generation : UInt32) (chunk : List UInt8) :
    Run cfg μ Int := do
  let ret ← Routine.ask (StreamCall.write stream generation chunk)
  if ret ≠ 0 then do
    abandonChunk stream generation
    pure ret
  else pure ret

def queueNext : Run cfg μ Int := do
  let st ← Routine.read
  let c := st.logcat
  if !c.active || c.sending then pure 0
  else if c.ring.len = 0 then
    if c.drain then do
      Routine.ask (StreamCall.close c.stream c.streamGeneration)
      pure 0
    else pure 0
  else do
    let room ← Routine.ask (StreamCall.maxPayload c.stream)
    Routine.update fun st => st.set (LogcatContext.capture room)
    let st ← Routine.read
    if min c.ring.len room ≠ 0 then sendChunk c.stream c.streamGeneration st.logcat.txChunk
    else pure 0

section Open

variable (opts : Options) (malloc : μ → Nat → Bool × μ)

def allocateRing (st : Statics cfg μ) : Int × Statics cfg μ :=
  if st.logcat.ring.capacity = 0 then
    let (found, heap) := malloc st.heap opts.bufferSize
    if found then
      (0, { st with logcat := { st.logcat with ring := .zeroed opts.bufferSize }, heap })
    else (-ENOMEM, { st with heap })
  else (0, st)

/-- Begin a session on `stream` with `text` as its first pending bytes; copying the log has put a
terminator behind them. -/
def LogcatContext.load (text : List UInt8) (copied : Bool) (c : LogcatContext cfg) :
    LogcatContext cfg :=
  let block := if copied then memcpy c.ring.buf 0 (text ++ [0]) else c.ring.buf
  { c with ring := { c.ring with buf := block, len := text.length }, active := true }

/-- The first pending bytes of a session, and the listener of one that follows the log. -/
def fillRing (clear drain : Bool) (st : Statics cfg μ) : Int × Statics cfg μ :=
  if clear then
    (0, { st with
      logcat := st.logcat.load [] false
      buffer := logBufferClear st.buffer })
  else if drain then
    (0, st.set (LogcatContext.load (logBufferRead st.logcat.ring.capacity st.buffer) true))
  else
    let (ret, text, buffer) :=
      logBufferSnapshotAndSetListener .live st.logcat.ring.capacity st.buffer
    if ret ≠ 0 then
      (ret, { st with
        logcat := { st.logcat with stream := none, streamGeneration := 0 }
        buffer })
    else (0, { st with logcat := st.logcat.load text true, buffer })

/-- The part of `adb_logcat_open` under `logcat_lock`. -/
def startSession (stream : Slot cfg) (suffix : List UInt8) : Run cfg μ Int := do
  let st ← Routine.read
  if st.logcat.active then pure (-EBUSY)
  else do
    let ret ← Routine.step (allocateRing opts malloc)
    if ret ≠ 0 then pure ret
    else do
      let generation ← Routine.ask (StreamCall.generation (some stream))
      let clear := clearRequested suffix
      let drain := clear || drainRequested suffix
      Routine.update fun st => st.set fun c =>
        { c with
          stream := some stream
          streamGeneration := generation
          ring := c.ring.clear
          sending := false
          drain := drain }
      Routine.step (fillRing clear drain)

def openSession (stream : Slot cfg) (suffix : List UInt8) : Run cfg μ Int :=
  if !webosAdbLogcatMatches cfg suffix then pure (-EINVAL)
  else do
    let ret ← startSession opts malloc stream suffix
    if ret = 0 then queueNext else pure ret

def adbLogcatOpen (st : Statics cfg μ) (stream : Slot cfg) (suffix : List UInt8) :
    Callback cfg (Statics cfg μ) Int :=
  openSession opts malloc stream suffix st

end Open

def adbLogcatWrite (st : Statics cfg μ) (_ : Slot cfg) (data : List UInt8) :
    Callback cfg (Statics cfg μ) Int :=
  .done (if data.length = 0 then 0 else -ENOTSUP, st)

def resumeSession (stream : Slot cfg) : Run cfg μ Unit := do
  let st ← Routine.read
  if st.logcat.active && st.logcat.stream == some stream then do
    Routine.update fun st => st.set fun c => { c with sending := false }
    let _ ← queueNext
    pure ()
  else pure ()

def adbLogcatTxReady (st : Statics cfg μ) (stream : Slot cfg) :
    Callback cfg (Statics cfg μ) Unit :=
  resumeSession stream st

def adbLogcatClose (st : Statics cfg μ) (_ : Slot cfg) : Statics cfg μ :=
  { st with
    logcat := { st.logcat with
      active := false
      sending := false
      stream := none
      streamGeneration := 0
      ring := st.logcat.ring.clear }
    buffer := logBufferClearListener .live st.buffer }

def logcatOps (opts : Options) (malloc : μ → Nat → Bool × μ) : ServiceOps cfg (Statics cfg μ) where
  openOp := adbLogcatOpen opts malloc
  writeOp := some adbLogcatWrite
  txReadyOp := some adbLogcatTxReady
  closeOp := some adbLogcatClose

end Webos.Adb.Logcat
