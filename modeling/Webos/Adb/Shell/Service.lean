/- digest: The shell service: one-shot commands, interactive sessions and their buffered output. -/

import Webos.Adb.Router.State
import Webos.Adb.Shell.Policy

namespace Webos.Adb.Shell

open Webos.Lib.Bytes Webos.Lib.Program

/-- The Kconfig options of the shell service, and the prompt of the dummy backend. -/
structure Options (cfg : Config) where
  maxStreams : Nat
  outputSize : Nat
  inputSize : Nat
  prompt : List UInt8
  maxStreams_range : 1 ≤ maxStreams ∧ maxStreams ≤ 4 := by decide
  outputSize_range : 128 ≤ outputSize ∧ outputSize ≤ 4096 := by decide
  inputSize_range : cfg.shellCommandSize ≤ inputSize ∧ inputSize ≤ 16384 := by decide
  prompt_text : 0 ∉ prompt := by decide

def Options.project : Options Config.project where
  maxStreams := 1
  outputSize := 512
  inputSize := 4096
  prompt := ascii "~$ "

/-- The heap and the dummy shell behind `shell_exec.c`: the lock, which may time out, and the
backend it guards. -/
structure Backend (β : Type) where
  malloc : β → Nat → Bool × β
  lock : β → Int × β
  clearOutput : β → β
  executeCmd : β → List UInt8 → Int × β
  getOutput : β → List UInt8 × β

/-- The result of `webos_shell_execute` and its out parameters, which callers start at zero. -/
structure Executed where
  ret : Int
  output : List UInt8
  truncated : Bool

section Exec

variable {β : Type} (backend : Backend β)

def webosShellExecute (command : List UInt8) (capacity : Nat) (b : β) : Executed × β :=
  if capacity = 0 then (⟨-EINVAL, [], false⟩, b)
  else
    let (ret, b) := backend.lock b
    if ret ≠ 0 then (⟨ret, [], false⟩, b)
    else
      let (ret, b) := backend.executeCmd (backend.clearOutput b) command
      let (text, b) := backend.getOutput b
      let output := text.take (capacity - 1)
      (⟨ret, output, output.length != text.length⟩, b)

def webosShellClearOutput (b : β) : β :=
  let (ret, b) := backend.lock b
  if ret ≠ 0 then b else backend.clearOutput b

end Exec

inductive EscapeState where
  | text
  | escape
  | sequence
  deriving DecidableEq, Repr

/-- `struct adb_shell_context`. `command`, `input` and `output` are the used parts of their buffers,
so that the lengths of the source are theirs. -/
structure ShellContext (cfg : Config) where
  stream : Option (Slot cfg)
  outputOffset : Nat
  commandRc : Int
  truncated : Bool
  interactive : Bool
  txInFlight : Bool
  sawCarriageReturn : Bool
  closeRequested : Bool
  discardLine : Bool
  escapeState : EscapeState
  inputCapacity : Nat
  command : List UInt8
  input : List UInt8
  output : List UInt8

def ShellContext.zero (cfg : Config) : ShellContext cfg :=
  ⟨none, 0, 0, false, false, false, false, false, false, .text, 0, [], [], []⟩

structure Local (cfg : Config) (β : Type) where
  ctx : ShellContext cfg
  world : β

variable {cfg : Config} {β : Type}

abbrev Run (cfg : Config) (β α : Type) :=
  Routine (Local cfg β) (StreamCall cfg) StreamCall.Reply α

def Local.set (l : Local cfg β) (f : ShellContext cfg → ShellContext cfg) : Local cfg β :=
  { l with ctx := f l.ctx }

def hangUp : Run cfg β Unit := do
  let l ← Routine.read
  Routine.ask (StreamCall.close l.ctx.stream 0)

/-- The interactive half of `queue_next_chunk`: what is written leaves the buffer. -/
def queueInteractive : Run cfg β Int := do
  let l ← Routine.read
  if l.ctx.output.length = 0 then pure 0
  else do
    let room ← Routine.ask (StreamCall.maxPayload l.ctx.stream)
    let chunk := l.ctx.output.take room
    let ret ← Routine.ask (StreamCall.write l.ctx.stream 0 chunk)
    if ret = 0 then do
      Routine.update fun l => l.set fun c =>
        { c with output := c.output.drop chunk.length, txInFlight := true }
      pure ret
    else pure ret

/-- The one-shot half of `queue_next_chunk`: the offset moves, and the end closes the stream. -/
def queueOneShot : Run cfg β Int := do
  let l ← Routine.read
  let room ← Routine.ask (StreamCall.maxPayload l.ctx.stream)
  let chunk := (l.ctx.output.drop l.ctx.outputOffset).take room
  if chunk.length = 0 then do
    hangUp
    pure 0
  else do
    let ret ← Routine.ask (StreamCall.write l.ctx.stream 0 chunk)
    if ret = 0 then do
      Routine.update fun l => l.set fun c =>
        { c with outputOffset := c.outputOffset + chunk.length, txInFlight := true }
      pure ret
    else pure ret

def queueNextChunk : Run cfg β Int := do
  let l ← Routine.read
  if l.ctx.txInFlight then pure 0
  else if l.ctx.interactive then queueInteractive
  else queueOneShot

section Session

variable (opts : Options cfg) (backend : Backend β)

/-- `adb_shell_open` on a fresh context, up to its first chunk. -/
def prepareSession (suffix : List UInt8) (l : Local cfg β) : Int × Local cfg β :=
  if suffix.length = 0 then
    let (found, world) := backend.malloc l.world opts.inputSize
    if found then
      (0, { ctx := { l.ctx with
              inputCapacity := opts.inputSize
              interactive := true
              output := opts.prompt.take opts.outputSize }
            world := webosShellClearOutput backend world })
    else (-ENOMEM, ⟨ShellContext.zero cfg, world⟩)
  else
    let (out, world) := webosShellExecute backend suffix opts.outputSize l.world
    (0, { ctx := { l.ctx with
            commandRc := out.ret
            output := out.output
            truncated := out.truncated }
          world := world })

def openSession (suffix : List UInt8) : Run cfg β Int := do
  let ret ← Routine.step (prepareSession opts backend suffix)
  if ret ≠ 0 then pure ret
  else do
    let ret ← queueNextChunk
    if ret ≠ 0 then do
      Routine.update fun l => l.set fun _ => ShellContext.zero cfg
      pure ret
    else pure ret

def appendOutput (data : List UInt8) (c : ShellContext cfg) : ShellContext cfg :=
  let count := min data.length (opts.outputSize - c.output.length)
  { c with
    output := c.output ++ data.take count
    truncated := c.truncated || count != data.length }

def executeLine (addPrompt : Bool) (l : Local cfg β) : Local cfg β :=
  let promptLen := if addPrompt then opts.prompt.length else 0
  let available := opts.outputSize - l.ctx.output.length
  if l.ctx.command.length = 0 then l
  else if available ≤ promptLen + 1 then l.set fun c => { c with truncated := true }
  else
    let (out, world) :=
      webosShellExecute backend l.ctx.command (available - promptLen) l.world
    { ctx := { l.ctx with
        commandRc := out.ret
        output := l.ctx.output ++ out.output
        truncated := l.ctx.truncated || out.truncated }
      world := world }

def executeInteractiveLine (addPrompt : Bool) : Run cfg β Int := do
  Routine.update fun l => l.set (appendOutput opts (ascii "\r\n"))
  let l ← Routine.read
  if l.ctx.command = ascii "exit" then do
    Routine.update fun l => l.set fun c => { c with command := [], closeRequested := true }
    hangUp
    pure 0
  else do
    Routine.update (executeLine opts backend addPrompt)
    Routine.update fun l => l.set fun c => { c with command := [] }
    if addPrompt then do
      Routine.update fun l => l.set (appendOutput opts opts.prompt)
      pure 0
    else pure 0

def executeRest : Run cfg β Int := do
  let l ← Routine.read
  if l.ctx.command.length ≠ 0 then executeInteractiveLine opts backend false else pure 0

/-- What an input byte is to `process_interactive_input`, behind the escape and line end filters. -/
inductive Key where
  | skipped
  | discarded
  | discardedEnd
  | lineEnd
  | endOfTransmission
  | interrupt
  | erase
  | tab
  | overflow
  | printable
  deriving DecidableEq, Repr

def escapeFilter (value : UInt8) (c : ShellContext cfg) : Bool × ShellContext cfg :=
  let begin (c : ShellContext cfg) : Bool × ShellContext cfg :=
    if value = 0x1b then (true, { c with escapeState := .escape }) else (false, c)
  match c.escapeState with
  | .escape =>
    if value = '['.toUInt8 ∨ value = 'O'.toUInt8 then (true, { c with escapeState := .sequence })
    else begin { c with escapeState := .text }
  | .sequence =>
    (true, if 0x40 ≤ value ∧ value ≤ 0x7e then { c with escapeState := .text } else c)
  | .text => begin c

def lineFilter (value : UInt8) (c : ShellContext cfg) : Bool × ShellContext cfg :=
  if value = 0x0a ∧ c.sawCarriageReturn = true then (true, { c with sawCarriageReturn := false })
  else (false, { c with sawCarriageReturn := value == 0x0d })

def isLineEnd (value : UInt8) : Bool := value == 0x0d || value == 0x0a

def classify (value : UInt8) (c : ShellContext cfg) : Key :=
  if c.discardLine then if isLineEnd value then .discardedEnd else .discarded
  else if isLineEnd value then .lineEnd
  else if value = 0x04 then .endOfTransmission
  else if value = 0x03 then .interrupt
  else if value = 0x08 ∨ value = 0x7f then .erase
  else if value = 0x09 then .tab
  else if value < 0x20 ∨ value > 0x7e then .skipped
  else if c.command.length + 1 ≥ cfg.shellCommandSize then .overflow
  else .printable

/-- One byte that has passed the filters: whether the loop stops, and the result so far. -/
def handleKey (value : UInt8) : Key → Run cfg β (Bool × Int)
  | .skipped | .discarded => pure (false, 0)
  | .discardedEnd => do
    Routine.update fun l => l.set fun c =>
      appendOutput opts (ascii "\r\n" ++ opts.prompt) { c with discardLine := false }
    pure (true, 0)
  | .lineEnd => do
    let ret ← executeInteractiveLine opts backend true
    let l ← Routine.read
    pure (decide (ret ≠ 0) || l.ctx.closeRequested || decide (l.ctx.output.length ≠ 0), ret)
  | .endOfTransmission => do
    let ret ← executeRest opts backend
    Routine.update fun l => l.set fun c => { c with closeRequested := true }
    hangUp
    pure (true, ret)
  | .interrupt => do
    Routine.update fun l => l.set fun c =>
      appendOutput opts (ascii "^C\r\n" ++ opts.prompt) { c with command := [] }
    pure (true, 0)
  | .erase => do
    Routine.update fun l => l.set fun c =>
      if c.command.length ≠ 0 then
        appendOutput opts [0x08, 0x20, 0x08] { c with command := c.command.dropLast }
      else c
    pure (false, 0)
  | .tab => do
    Routine.update fun l => l.set (appendOutput opts [0x07])
    pure (false, 0)
  | .overflow => do
    Routine.update fun l => l.set fun c =>
      appendOutput opts (ascii "\r\nCommand too long") { c with command := [], discardLine := true }
    pure (true, 0)
  | .printable => do
    Routine.update fun l => l.set fun c =>
      appendOutput opts [value] { c with command := c.command ++ [value] }
    pure (false, 0)

/-- One pass of the loop of `process_interactive_input`. -/
def inputPass (value : UInt8) : Run cfg β (Bool × Int) := do
  let inEscape ← Routine.step fun l =>
    let (taken, c) := escapeFilter value l.ctx
    (taken, { l with ctx := c })
  if inEscape then pure (false, 0)
  else do
    let inPair ← Routine.step fun l =>
      let (taken, c) := lineFilter value l.ctx
      (taken, { l with ctx := c })
    if inPair then pure (false, 0)
    else do
      let l ← Routine.read
      handleKey opts backend value (classify value l.ctx)

/-- The loop of `process_interactive_input`: the result and the input that is left. -/
def inputLoop : List UInt8 → Run cfg β (Int × List UInt8)
  | [] => pure (0, [])
  | value :: rest => do
    let (stop, ret) ← inputPass opts backend value
    if stop then pure (ret, rest) else inputLoop rest

def processInteractiveInput : Run cfg β Int := do
  let l ← Routine.read
  let (ret, rest) ← inputLoop opts backend l.ctx.input
  Routine.update fun l => l.set fun c => { c with input := if c.closeRequested then [] else rest }
  pure ret

def processIf (ready : Bool) : Run cfg β Int :=
  if ready then processInteractiveInput opts backend else pure 0

def writeSession (data : List UInt8) : Run cfg β Int := do
  let l ← Routine.read
  if !l.ctx.interactive then pure (if data.length = 0 then 0 else -ENOTSUP)
  else if data.length > l.ctx.inputCapacity - l.ctx.input.length then pure (-ENOSPC)
  else do
    Routine.update fun l => l.set fun c => { c with input := c.input ++ data }
    let ret ← processIf opts backend (!l.ctx.txInFlight && l.ctx.output.length == 0)
    if ret = 0 then queueNextChunk else pure ret

/-- The resumption of a session by `adb_shell_tx_ready`, up to its first failure. -/
def resumeSession : Run cfg β Int := do
  Routine.update fun l => l.set fun c => { c with txInFlight := false }
  let l ← Routine.read
  let ret ← processIf opts backend (l.ctx.interactive && l.ctx.output.length == 0 &&
    l.ctx.input.length != 0 && !l.ctx.closeRequested)
  if ret ≠ 0 then pure ret else queueNextChunk

end Session

structure Statics (cfg : Config) (opts : Options cfg) (β : Type) where
  contexts : Fin opts.maxStreams → ShellContext cfg
  world : β

section Callbacks

variable {opts : Options cfg}

def Statics.enter (st : Statics cfg opts β) (i : Fin opts.maxStreams) : Local cfg β :=
  ⟨st.contexts i, st.world⟩

def Statics.leave (st : Statics cfg opts β) (i : Fin opts.maxStreams) (l : Local cfg β) :
    Statics cfg opts β :=
  ⟨Function.update st.contexts i l.ctx, l.world⟩

def findContext (st : Statics cfg opts β) (stream : Option (Slot cfg)) :
    Option (Fin opts.maxStreams) :=
  (List.finRange opts.maxStreams).find? fun i => (st.contexts i).stream == stream

def allocateContext (st : Statics cfg opts β) (stream : Slot cfg) :
    Option (Fin opts.maxStreams × Local cfg β) :=
  (findContext st none).map fun i =>
    (i, ⟨{ ShellContext.zero cfg with stream := some stream }, st.world⟩)

variable (backend : Backend β)

def adbShellOpen (st : Statics cfg opts β) (stream : Slot cfg) (suffix : List UInt8) :
    Callback cfg (Statics cfg opts β) Int :=
  if suffix.length ≥ cfg.shellCommandSize ∨ 0 ∈ suffix then .done (-EINVAL, st)
  else if suffix.length ≠ 0 ∧ commandAllowed suffix = false then .done (-EACCES, st)
  else
    match allocateContext st stream with
    | none => .done (-EBUSY, st)
    | some (i, l) => (openSession opts backend suffix l).bind fun out =>
        .done (out.1, st.leave i out.2)

def adbShellWrite (st : Statics cfg opts β) (stream : Slot cfg) (data : List UInt8) :
    Callback cfg (Statics cfg opts β) Int :=
  match findContext st (some stream) with
  | none => .done (-EINVAL, st)
  | some i => (writeSession opts backend data (st.enter i)).bind fun out =>
      .done (out.1, st.leave i out.2)

def adbShellTxReady (st : Statics cfg opts β) (stream : Slot cfg) :
    Callback cfg (Statics cfg opts β) Unit :=
  match findContext st (some stream) with
  | none => .done ((), st)
  | some i => (resumeSession opts backend (st.enter i)).bind fun out =>
      if out.1 ≠ 0 then
        .call (StreamCall.close (some stream) 0) fun _ => .done ((), st.leave i out.2)
      else .done ((), st.leave i out.2)

def adbShellClose (st : Statics cfg opts β) (stream : Slot cfg) : Statics cfg opts β :=
  match findContext st (some stream) with
  | none => st
  | some i =>
    let world := if (st.contexts i).interactive then webosShellClearOutput backend st.world
      else st.world
    st.leave i ⟨ShellContext.zero cfg, world⟩

def shellOps : ServiceOps cfg (Statics cfg opts β) where
  openOp := adbShellOpen backend
  writeOp := some (adbShellWrite backend)
  txReadyOp := some (adbShellTxReady backend)
  closeOp := some (adbShellClose backend)

end Callbacks

end Webos.Adb.Shell
