/- digest: The file sync service: contexts, staged uploads, status records and the record parser. -/

import Webos.Adb.Router.State
import Webos.Adb.Sync.Path
import Webos.Lib.Files

namespace Webos.Adb.Sync

open Webos.Lib.Bytes Webos.Lib.Files Webos.Lib.Program

def SYNC_ID_STAT : UInt32 := 0x54415453
def SYNC_ID_SEND : UInt32 := 0x444e4553
def SYNC_ID_DATA : UInt32 := 0x41544144
def SYNC_ID_DONE : UInt32 := 0x454e4f44
def SYNC_ID_QUIT : UInt32 := 0x54495551
def SYNC_ID_OKAY : UInt32 := 0x59414b4f
def SYNC_ID_FAIL : UInt32 := 0x4c494146
def SYNC_FAIL_CAPACITY : Nat := 96
def SYNC_HEADER_SIZE : Nat := 8

def specCapacity (cfg : Config) : Nat := cfg.syncPathMax + 16

inductive SyncState where
  | requestHeader
  | requestSpec
  | statPath
  | sendHeader
  | sendData
  | drainHeader
  | drainData
  | discardAndClose
  deriving DecidableEq, Repr

/-- `struct sync_context`. `header` and `spec` are the used parts of their buffers, so that
`header_used` and `spec_used` are their lengths; the file object is named by the context's index. -/
structure SyncContext (cfg : Config) where
  stream : Option (Slot cfg)
  state : SyncState
  header : List UInt8
  remaining : Nat
  spec : List UInt8
  path : Path
  temporary : Path
  backup : Path
  fileOpen : Bool
  temporaryLive : Bool

def SyncContext.zero (cfg : Config) : SyncContext cfg :=
  ⟨none, .requestHeader, [], 0, [], [], [], [], false, false⟩

def SyncContext.headerUsed {cfg : Config} (c : SyncContext cfg) : Nat := c.header.length

/-- What one callback works on: its context, the token counter and the file system. -/
structure Local (cfg : Config) (φ : Type) where
  ctx : SyncContext cfg
  sideNonce : UInt32
  disk : φ

variable {cfg : Config} {φ : Type}

abbrev Run (cfg : Config) (φ α : Type) :=
  Routine (Local cfg φ) (StreamCall cfg) StreamCall.Reply α

def Local.set (l : Local cfg φ) (f : SyncContext cfg → SyncContext cfg) : Local cfg φ :=
  { l with ctx := f l.ctx }

section Files

variable (fs : FileSystem Path (Slot cfg) UInt8 φ) (i : Slot cfg) (l : Local cfg φ)

def Local.stat (path : Path) : Option Entry × Local cfg φ :=
  let (entry, disk) := fs.stat path l.disk
  (entry, { l with disk })

def Local.create (path : Path) : Int × Local cfg φ :=
  let (ret, disk) := fs.create i path l.disk
  (ret, { l with disk })

def Local.write (data : List UInt8) : Int × Local cfg φ :=
  let (ret, disk) := fs.write i data l.disk
  (ret, { l with disk })

def Local.close : Int × Local cfg φ :=
  let (ret, disk) := fs.close i l.disk
  (ret, { l with disk })

def Local.rename (a b : Path) : Int × Local cfg φ :=
  let (ret, disk) := fs.rename a b l.disk
  (ret, { l with disk })

def Local.unlink (path : Path) : Int × Local cfg φ :=
  let (ret, disk) := fs.unlink path l.disk
  (ret, { l with disk })

def closePartial : Local cfg φ :=
  if l.ctx.fileOpen then (l.close fs i).2.set fun c => { c with fileOpen := false } else l

def unlinkPartial : Local cfg φ :=
  if l.ctx.temporaryLive then
    (l.unlink fs l.ctx.temporary).2.set fun c => { c with temporaryLive := false }
  else l

def cleanupPartial : Local cfg φ := unlinkPartial fs (closePartial fs i l)

end Files

/-- One attempt of `choose_side_paths` and the ones after it. -/
def chooseAttempts (fs : FileSystem Path (Slot cfg) UInt8 φ) : Nat → Local cfg φ → Int × Local cfg φ
  | 0, l => (-EEXIST, l)
  | attempts + 1, l =>
    let token := l.sideNonce + 1
    let capacity := cfg.syncPathMax + SYNC_SIDE_SUFFIX_LEN
    let temporary := partName l.ctx.path token
    let backup := oldName l.ctx.path token
    let l : Local cfg φ := { l with sideNonce := token }
    let l := l.set fun c => { c with temporary := temporary.take (capacity - 1) }
    if temporary.length ≥ capacity then (-ENAMETOOLONG, l)
    else
      let l := l.set fun c => { c with backup := backup.take (capacity - 1) }
      if backup.length ≥ capacity then (-ENAMETOOLONG, l)
      else
        let (entry, l) := l.stat fs l.ctx.temporary
        if entry.isSome then chooseAttempts fs attempts l
        else
          let (entry, l) := l.stat fs l.ctx.backup
          if entry.isSome then chooseAttempts fs attempts l else (0, l)

def chooseSidePaths (fs : FileSystem Path (Slot cfg) UInt8 φ) (l : Local cfg φ) :
    Int × Local cfg φ :=
  chooseAttempts fs 32 l

section Requests

variable (fs : FileSystem Path (Slot cfg) UInt8 φ) (i : Slot cfg)

def respond (response : List UInt8) : Run cfg φ Int := do
  let l ← Routine.read
  Routine.ask (StreamCall.write l.ctx.stream 0 response)

def hangUp : Run cfg φ Unit := do
  let l ← Routine.read
  Routine.ask (StreamCall.close l.ctx.stream 0)

def goTo (state : SyncState) : Run cfg φ Unit :=
  Routine.update fun l => l.set fun c => { c with state }

def statRecord (entry : Option Entry) : List UInt8 :=
  let mode : UInt32 := match entry with
    | some e => if e.isDir then 0o040755 else 0o100644
    | none => 0
  let size := match entry with
    | some e => UInt32.ofNat (min e.size (2 ^ 32 - 1))
    | none => 0
  putLe32 SYNC_ID_STAT ++ putLe32 mode ++ putLe32 size ++ putLe32 0

def findEntry (l : Local cfg φ) : Option Entry × Local cfg φ :=
  if 0 ∉ l.ctx.spec ∧ syncStatPathAllowed cfg l.ctx.spec = true then l.stat fs l.ctx.spec
  else (none, l)

def sendStat : Run cfg φ Int := do
  let entry ← Routine.step (findEntry fs)
  goTo .requestHeader
  respond (statRecord entry)

def statusRecord (id : UInt32) (message : List UInt8) : List UInt8 :=
  let text := message.take (SYNC_FAIL_CAPACITY - 8)
  putLe32 id ++ putLe32 (UInt32.ofNat text.length) ++ text

def sendStatus (id : UInt32) (message : List UInt8) : Run cfg φ Int :=
  respond (statusRecord id message)

def failTransfer (reason : List UInt8) (drainState : SyncState) : Run cfg φ Int := do
  Routine.update (cleanupPartial fs i)
  let ret ← sendStatus SYNC_ID_FAIL reason
  if ret ≠ 0 then pure ret
  else do
    goTo drainState
    pure 0

/-- The part of `start_send` after the path has been copied. -/
def stageSend (l : Local cfg φ) : Option (List UInt8) × Local cfg φ :=
  let (ret, l) := chooseSidePaths fs l
  if ret ≠ 0 then
    (some (if ret = -ENAMETOOLONG then ascii "path too long" else ascii "no free staging name"), l)
  else
    let (entry, l) := l.stat fs l.ctx.path
    if entry.any Entry.isDir then (some (ascii "destination is not a file"), l)
    else
      let (ret, l) := l.create fs i l.ctx.temporary
      if ret ≠ 0 then (some (ascii "cannot create partial file"), l)
      else (none, l.set fun c =>
        { c with fileOpen := true, temporaryLive := true, state := .sendHeader })

/-- `start_send` up to its result: the reason of a refusal, or an upload that has begun. -/
def prepareSend (l : Local cfg φ) : Option (List UInt8) × Local cfg φ :=
  if 0 ∈ l.ctx.spec then (some (ascii "NUL in SEND path"), l)
  else
    match splitSpec l.ctx.spec with
    | none => (some (ascii "SEND requires path,mode"), l)
    | some (path, mode) =>
      if path = [] ∨ mode = [] then (some (ascii "SEND requires path,mode"), l)
      else
        -- the comma is overwritten, which a second look at the same text would find
        let l := l.set fun c => { c with spec := path ++ 0 :: mode }
        if !modeParsed mode then (some (ascii "invalid SEND mode"), l)
        else if !modeRegular mode then (some (ascii "only regular files supported"), l)
        else if !syncPathAllowed cfg path || path.length ≥ cfg.syncPathMax then
          (some (ascii "path outside /STORAGE:"), l)
        else stageSend fs i (l.set fun c => { c with path })

def startSend : Run cfg φ Int := do
  let refused ← Routine.step (prepareSend fs i)
  match refused with
  | some reason => failTransfer fs i reason .drainHeader
  | none => pure 0

/-- The renames of `replace_destination`, around a destination that is there or not. -/
def swapIn (hadDestination : Bool) (l : Local cfg φ) : Int × Local cfg φ :=
  let (ret, l) := if hadDestination then l.rename fs l.ctx.path l.ctx.backup else (0, l)
  if ret ≠ 0 then (ret, l)
  else
    let (ret, l) := l.rename fs l.ctx.temporary l.ctx.path
    if ret ≠ 0 then
      (ret, if hadDestination then (l.rename fs l.ctx.backup l.ctx.path).2 else l)
    else
      let l := l.set fun c => { c with temporaryLive := false }
      (0, if hadDestination then (l.unlink fs l.ctx.backup).2 else l)

def replaceDestination (l : Local cfg φ) : Int × Local cfg φ :=
  let (ret, l) := l.close fs i
  let l := l.set fun c => { c with fileOpen := false }
  if ret ≠ 0 then (ret, l)
  else
    let (entry, l) := l.stat fs l.ctx.path
    swapIn fs entry.isSome l

def finishSend : Run cfg φ Int := do
  let ret ← Routine.step (replaceDestination fs i)
  if ret ≠ 0 then failTransfer fs i (ascii "cannot install completed file") .drainHeader
  else do
    let ret ← sendStatus SYNC_ID_OKAY []
    if ret = 0 then do
      goTo .requestHeader
      pure ret
    else pure ret

/-- `process_header` in SYNC_REQUEST_HEADER. -/
def processRequest (id value : UInt32) : Run cfg φ Int :=
  if id = SYNC_ID_QUIT ∧ value = 0 then do
    hangUp
    pure 0
  else if (id = SYNC_ID_SEND ∨ id = SYNC_ID_STAT) ∧ value ≠ 0 ∧
    value.toNat < specCapacity cfg then do
    Routine.update fun l => l.set fun c =>
      { c with
        remaining := value.toNat
        spec := []
        state := if id = SYNC_ID_SEND then .requestSpec else .statPath }
    pure 0
  else do
    let ret ← sendStatus SYNC_ID_FAIL (ascii "only bounded STAT and SEND are supported")
    if ret ≠ 0 then pure (- EIO)
    else do
      Routine.update fun l => l.set fun c => { c with state := .discardAndClose, remaining := 0 }
      hangUp
      pure 0

/-- A DATA record of `value` bytes begins; the state after it is `next` when it is empty. -/
def beginData (value : UInt32) (next data : SyncState) : Run cfg φ Unit :=
  Routine.update fun l => l.set fun c =>
    { c with remaining := value.toNat, state := if value = 0 then next else data }

def badRecord (cfg : Config) (id value : UInt32) : Prop :=
  id ≠ SYNC_ID_DATA ∨ value.toNat > cfg.syncDataMax

instance (id value : UInt32) : Decidable (badRecord cfg id value) :=
  inferInstanceAs (Decidable (_ ∨ _))

/-- `process_header` in SYNC_DRAIN_HEADER. -/
def processDrain (id value : UInt32) : Run cfg φ Int :=
  if id = SYNC_ID_DONE then do
    goTo .requestHeader
    pure 0
  else if badRecord cfg id value then do
    hangUp
    pure 0
  else do
    beginData value .drainHeader .drainData
    pure 0

/-- `process_header` in SYNC_SEND_HEADER. -/
def processRecord (id value : UInt32) : Run cfg φ Int :=
  if id = SYNC_ID_DONE then finishSend fs i
  else if badRecord cfg id value then do
    let ret ← failTransfer fs i (ascii "invalid or oversized DATA") .discardAndClose
    hangUp
    pure ret
  else do
    beginData value .sendHeader .sendData
    pure 0

def processIn (state : SyncState) (id value : UInt32) : Run cfg φ Int :=
  match state with
  | .requestHeader => processRequest id value
  | .drainHeader => processDrain id value
  | _ => processRecord fs i id value

def processHeader : Run cfg φ Int := do
  let l ← Routine.read
  Routine.update fun l => l.set fun c => { c with header := [] }
  processIn fs i l.ctx.state (getLe32 l.ctx.header) (getLe32 (l.ctx.header.drop 4))

def proceed (ret : Int) (rest : List UInt8) : Option Int × List UInt8 :=
  if ret ≠ 0 then (some ret, rest) else (none, rest)

def headerPass (data : List UInt8) : Run cfg φ (Option Int × List UInt8) := do
  let l ← Routine.read
  let count := min data.length (SYNC_HEADER_SIZE - l.ctx.headerUsed)
  Routine.update fun l => l.set fun c => { c with header := c.header ++ data.take count }
  if l.ctx.headerUsed + count = SYNC_HEADER_SIZE then do
    let ret ← processHeader fs i
    pure (proceed ret (data.drop count))
  else pure (none, data.drop count)

def specPass (data : List UInt8) : Run cfg φ (Option Int × List UInt8) := do
  let l ← Routine.read
  let count := min data.length l.ctx.remaining
  Routine.update fun l => l.set fun c =>
    { c with spec := c.spec ++ data.take count, remaining := c.remaining - count }
  if l.ctx.remaining - count = 0 then do
    let ret ← if l.ctx.state = .statPath then sendStat fs else startSend fs i
    pure (proceed ret (data.drop count))
  else pure (none, data.drop count)

/-- `fs_write` of a part of a DATA record of which `left` bytes are still to come. -/
def storeData (chunk : List UInt8) (left : Nat) : Run cfg φ Int := do
  let written ← Routine.step (fun l => l.write fs i chunk)
  Routine.update fun l => l.set fun c => { c with remaining := left }
  if written ≠ chunk.length then do
    let ret ← failTransfer fs i (ascii "write failed")
      (if left = 0 then .drainHeader else .drainData)
    if ret ≠ 0 then pure (- EIO) else pure 0
  else if left = 0 then do
    goTo .sendHeader
    pure 0
  else pure 0

def dataPass (data : List UInt8) : Run cfg φ (Option Int × List UInt8) := do
  let l ← Routine.read
  let count := min data.length l.ctx.remaining
  let ret ← storeData fs i (data.take count) (l.ctx.remaining - count)
  pure (proceed ret (data.drop count))

def drainPass (data : List UInt8) : Run cfg φ (Option Int × List UInt8) := do
  let l ← Routine.read
  let count := min data.length l.ctx.remaining
  let left := l.ctx.remaining - count
  Routine.update fun l => l.set fun c => { c with remaining := left }
  if left = 0 then
    if l.ctx.state = .discardAndClose then do
      hangUp
      pure (none, data.drop count)
    else do
      goTo .drainHeader
      pure (none, data.drop count)
  else pure (none, data.drop count)

def syncPass (data : List UInt8) : Run cfg φ (Option Int × List UInt8) := do
  let l ← Routine.read
  match l.ctx.state with
  | .requestHeader | .sendHeader | .drainHeader => headerPass fs i data
  | .requestSpec | .statPath => specPass fs i data
  | .sendData => dataPass fs i data
  | .drainData => drainPass data
  | .discardAndClose => if l.ctx.remaining = 0 then pure (some 0, data) else drainPass data

/-- The loop of `sync_write`. A pass that goes on has consumed a byte, except for the first one
after a call that ended with a refused response; so one pass more than there are bytes is enough. -/
def syncLoop : Nat → List UInt8 → Run cfg φ Int
  | 0, _ => pure 0
  | passes + 1, data =>
    if data = [] then pure 0
    else do
      let (exit, rest) ← syncPass fs i data
      match exit with
      | some ret => pure ret
      | none => syncLoop passes rest

end Requests

/-- The statics of `adb_sync.c` and the file system. -/
structure Statics (cfg : Config) (φ : Type) where
  contexts : Slot cfg → SyncContext cfg
  sideNonce : UInt32
  disk : φ

def Statics.enter (st : Statics cfg φ) (i : Slot cfg) : Local cfg φ :=
  ⟨st.contexts i, st.sideNonce, st.disk⟩

def Statics.leave (st : Statics cfg φ) (i : Slot cfg) (l : Local cfg φ) : Statics cfg φ :=
  ⟨Function.update st.contexts i l.ctx, l.sideNonce, l.disk⟩

def Statics.first (st : Statics cfg φ) (test : SyncContext cfg → Bool) : Option (Slot cfg) :=
  (List.finRange cfg.maxStreams).find? fun i => test (st.contexts i)

def findContext (st : Statics cfg φ) (stream : Slot cfg) : Option (Slot cfg) :=
  st.first fun c => c.stream == some stream

def syncOpen (st : Statics cfg φ) (stream : Slot cfg) (suffix : List UInt8) :
    Callback cfg (Statics cfg φ) Int :=
  if suffix.length ≠ 0 then .done (-EINVAL, st)
  else
    match st.first fun c => c.stream.isNone with
    | none => .done (-ENOSPC, st)
    | some i => .done (0, { st with
        contexts := Function.update st.contexts i
          { SyncContext.zero cfg with stream := some stream, state := .requestHeader } })

section Callbacks

variable (fs : FileSystem Path (Slot cfg) UInt8 φ)

def syncWrite (st : Statics cfg φ) (stream : Slot cfg) (data : List UInt8) :
    Callback cfg (Statics cfg φ) Int :=
  match findContext st stream with
  | none => .done (-EINVAL, st)
  | some i => (syncLoop fs i (data.length + 1) data (st.enter i)).bind fun out =>
      .done (out.1, st.leave i out.2)

def syncClose (st : Statics cfg φ) (stream : Slot cfg) : Statics cfg φ :=
  match findContext st stream with
  | none => st
  | some i =>
    st.leave i ((cleanupPartial fs i (st.enter i)).set fun _ => SyncContext.zero cfg)

def syncOps : ServiceOps cfg (Statics cfg φ) where
  openOp := syncOpen
  writeOp := some (syncWrite fs)
  txReadyOp := some fun st _ => .done ((), st)
  closeOp := some (syncClose fs)

end Callbacks

section Contexts

variable {st : Statics cfg φ} {stream i : Slot cfg}

@[simp] theorem leave_enter (l : Local cfg φ) : (st.leave i l).enter i = l := by
  simp [Statics.enter, Statics.leave]

theorem leave_other {j : Slot cfg} (other : j ≠ i) (l : Local cfg φ) :
    (st.leave i l).contexts j = st.contexts j :=
  Function.update_of_ne other _ _

theorem findContext_stream (found : findContext st stream = some i) :
    (st.contexts i).stream = some stream := by
  have test := List.find?_some found
  simpa using test

theorem findContext_leave {l : Local cfg φ} (same : l.ctx.stream = (st.contexts i).stream) :
    findContext (st.leave i l) stream = findContext st stream := by
  unfold findContext Statics.first
  congr 1
  funext j
  by_cases here : j = i
  · subst here
    show (((st.leave j l).enter j).ctx.stream == some stream) = _
    rw [leave_enter, same]
  · rw [leave_other here]

theorem run_syncWrite {ρ : Type} (fs : FileSystem Path (Slot cfg) UInt8 φ)
    (h : Handler (StreamCall cfg) StreamCall.Reply ρ) (found : findContext st stream = some i)
    (data : List UInt8) (r : ρ) :
    (syncWrite fs st stream data).run h r =
      let out := (syncLoop fs i (data.length + 1) data).exec h (st.enter i) r
      ((out.1, st.leave i out.2.1), out.2.2) := by
  unfold syncWrite
  rw [found]
  dsimp only
  rw [run_bind]
  rfl

theorem syncClose_disk (fs : FileSystem Path (Slot cfg) UInt8 φ)
    (found : findContext st stream = some i) :
    (syncClose fs st stream).disk = (cleanupPartial fs i (st.enter i)).disk := by
  unfold syncClose
  rw [found]
  rfl

end Contexts

end Webos.Adb.Sync
