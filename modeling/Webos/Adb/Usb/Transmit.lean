/- digest: The USB transmit queue: four redundant pieces of state, one packet FIFO. -/

import Webos.Adb.Wire
import Webos.Lib.RingQueue

namespace Webos.Adb.Usb

open Webos.Lib.RingQueue

structure UsbConfig where
  adb : Config
  usb : adb.usb = true := by decide
  txQueueDepth : Nat
  txQueueDepth_range : 2 ≤ txQueueDepth ∧ txQueueDepth ≤ 16 := by decide

def UsbConfig.project : UsbConfig where
  adb := Config.project
  txQueueDepth := 6

theorem UsbConfig.depth_pos (cfg : UsbConfig) : 0 < cfg.txQueueDepth := by
  have := cfg.txQueueDepth_range
  omega

inductive Endpoint where
  | bulkOut
  | bulkIn
  deriving DecidableEq, Repr

inductive TxPhase where
  | idle
  | header
  | payload
  deriving DecidableEq, Repr

structure TxPacket where
  header : List UInt8
  payload : List UInt8
  deriving DecidableEq, Repr

/-- What `lib/adb` asks of the kernel: buffers and transfers of the device stack, heap blocks and
delayed work. -/
structure Kernel (κ : Type) where
  epBufAlloc : κ → Endpoint → Nat → Bool × κ
  epEnqueue : κ → Endpoint → Int × κ
  malloc : κ → Nat → Bool × κ
  workReschedule : κ → Int × κ

inductive TxEvent where
  | accepted (packet : TxPacket)
  | enqueued (buffer : Nat) (data : List UInt8)
  | returned (buffer : Nat)
  | finished (packet : TxPacket)
  | reset (phase : TxPhase) (dropped : List TxPacket)
  deriving DecidableEq, Repr

/-- `struct adb_usb_data` with the pipes of the device stack. Buffers are numbered as they are
allocated, so that a buffer the stack still holds is never handed out again. -/
structure UsbData (κ : Type) where
  classData : Bool
  enabled : Bool
  outEngaged : Bool
  inEngaged : Bool
  resetting : Bool
  txPhase : TxPhase
  txQueue : RingBuffer TxPacket
  activeIn : Option Nat
  activeOut : Option Nat
  buffers : Nat
  inPipe : List Nat
  outPipe : List Nat
  kernel : κ
  log : List TxEvent

variable {κ : Type}

def UsbData.boot (kernel : κ) : UsbData κ where
  classData := true
  enabled := false
  outEngaged := false
  inEngaged := false
  resetting := false
  txPhase := .idle
  txQueue := ⟨fun _ => ⟨[], []⟩, 0, 0, 0⟩
  activeIn := none
  activeOut := none
  buffers := 0
  inPipe := []
  outPipe := []
  kernel := kernel
  log := []

def UsbData.note (u : UsbData κ) (e : TxEvent) : UsbData κ := { u with log := u.log ++ [e] }

section Model

variable (cfg : UsbConfig) (k : Kernel κ)

def enqueueIn (data : List UInt8) (u : UsbData κ) : Int × UsbData κ :=
  let (found, kernel) := k.epBufAlloc u.kernel .bulkIn data.length
  if !found then (-ENOMEM, { u with kernel })
  else
    let (ret, kernel) := k.epEnqueue kernel .bulkIn
    let buffer := u.buffers
    let u := { u with kernel, buffers := buffer + 1 }
    if ret ≠ 0 then (ret, { u with activeIn := none })
    else
      (0, UsbData.note { u with
        activeIn := some buffer
        inPipe := u.inPipe ++ [buffer] } (.enqueued buffer data))

def resetTxQueueUnlocked (u : UsbData κ) : UsbData κ :=
  UsbData.note { u with
    txPhase := .idle
    txQueue := u.txQueue.clear
    activeIn := none
    inEngaged := false } (.reset u.txPhase (u.txQueue.contents cfg.txQueueDepth))

def webosAdbUsbResetTx (u : UsbData κ) : UsbData κ := resetTxQueueUnlocked cfg u

def resetUsbQueues (u : UsbData κ) : UsbData κ :=
  { resetTxQueueUnlocked cfg u with activeOut := none, outEngaged := false }

def startTxPacketUnlocked (u : UsbData κ) : Int × UsbData κ :=
  if u.txQueue.count = 0 then (-ENOENT, u)
  else if u.inEngaged then (-EBUSY, u)
  else
    let packet := u.txQueue.front
    let (ret, u) := enqueueIn k packet.header { u with inEngaged := true, txPhase := .header }
    if ret ≠ 0 then (ret, { u with txPhase := .idle, inEngaged := false }) else (ret, u)

/-- The end of `webos_adb_usb_send`: a packet that could not begin is dropped with the queue. -/
def settleSend (packet : TxPacket) (started : Int × UsbData κ) : Int × UsbData κ :=
  let (ret, u) := started
  if ret ≠ 0 then (ret, resetTxQueueUnlocked cfg u) else (0, u.note (.accepted packet))

/-- The test of ENABLED and RESETTING before the lock and its repetition under it are one. -/
def webosAdbUsbSend (header payload : List UInt8) (u : UsbData κ) : Int × UsbData κ :=
  if !u.classData || !u.enabled || u.resetting then (-ENODEV, u)
  else if header.length ≠ WEBOS_ADB_HEADER_SIZE then (-EINVAL, u)
  else if payload.length > cfg.adb.usbTransferSize then (-EMSGSIZE, u)
  else if u.txQueue.count = cfg.txQueueDepth then (-ENOSPC, u)
  else
    let startNow := u.txQueue.count = 0
    let u := { u with txQueue := u.txQueue.push cfg.txQueueDepth ⟨header, payload⟩ }
    settleSend cfg ⟨header, payload⟩ (if startNow then startTxPacketUnlocked k u else (0, u))

/-- What an IN completion leaves to do once `tx_lock` is released. -/
inductive InVerdict where
  | stale
  | nothing
  | notifyProtocol
  | resetProtocol
  deriving DecidableEq, Repr

def askReset (u : UsbData κ) : InVerdict × UsbData κ :=
  (.resetProtocol, { resetTxQueueUnlocked cfg u with resetting := true })

def finishPacket (u : UsbData κ) : InVerdict × UsbData κ :=
  let u := UsbData.note { u with
    txQueue := u.txQueue.pop cfg.txQueueDepth
    txPhase := .idle
    inEngaged := false } (.finished u.txQueue.front)
  if u.txQueue.count ≠ 0 then
    let (ret, u) := startTxPacketUnlocked k u
    if ret ≠ 0 then askReset cfg u else (.notifyProtocol, u)
  else (.notifyProtocol, u)

/-- The part of `adb_usb_request` for the bulk IN endpoint that holds `tx_lock`. -/
def inRequest (buffer : Nat) (err : Int) (u : UsbData κ) : InVerdict × UsbData κ :=
  if u.activeIn ≠ some buffer then (.stale, u)
  else
    let u := UsbData.note { u with activeIn := none } (.returned buffer)
    if err ≠ 0 then askReset cfg u
    else if u.txQueue.count ≠ 0 then
      if u.txPhase = .header ∧ u.txQueue.front.payload ≠ [] then
        let (ret, u) := enqueueIn k u.txQueue.front.payload { u with txPhase := .payload }
        if ret ≠ 0 then askReset cfg u else (.nothing, u)
      else finishPacket cfg k u
    else (.nothing, u)

end Model

structure Totals where
  accepted : List TxPacket
  finished : List TxPacket
  transfers : List (List UInt8)
  enqueued : List Nat
  returned : List Nat

def Totals.zero : Totals := ⟨[], [], [], [], []⟩

def Totals.add (t : Totals) : TxEvent → Totals
  | .accepted packet => { t with accepted := t.accepted ++ [packet] }
  | .enqueued buffer data =>
    { t with transfers := t.transfers ++ [data], enqueued := t.enqueued ++ [buffer] }
  | .returned buffer => { t with returned := t.returned ++ [buffer] }
  | .finished packet => { t with finished := t.finished ++ [packet] }
  | .reset _ _ => Totals.zero

def UsbData.totals (u : UsbData κ) : Totals := u.log.foldl Totals.add Totals.zero

def TxPacket.transfers (p : TxPacket) : List (List UInt8) :=
  p.header :: if p.payload = [] then [] else [p.payload]

/-- The transfers of the packet at the head of the queue that have begun. -/
def begun : TxPhase → TxPacket → List (List UInt8)
  | .idle, _ => []
  | .header, p => [p.header]
  | .payload, p => [p.header, p.payload]

/-- The queue between lock regions, and the FIFO it stands for since the last reset. -/
structure RefinesFifo (cfg : UsbConfig) (u : UsbData κ) : Prop where
  ring : u.txQueue.Valid cfg.txQueueDepth
  engaged : u.inEngaged = true ↔ 0 < u.txQueue.count
  active : u.activeIn.isSome = true ↔ 0 < u.txQueue.count
  phase : u.txPhase ≠ .idle ↔ 0 < u.txQueue.count
  carried : u.txPhase = .payload → u.txQueue.front.payload ≠ []
  packets : u.totals.accepted = u.totals.finished ++ u.txQueue.contents cfg.txQueueDepth
  transfers : u.totals.transfers =
    u.totals.finished.flatMap TxPacket.transfers ++ begun u.txPhase u.txQueue.front
  outstanding : u.totals.enqueued = u.totals.returned ++ u.activeIn.toList

section Refinement

variable {cfg : UsbConfig} {k : Kernel κ} {u : UsbData κ} {late : List TxPacket}

@[simp] theorem note_totals (u : UsbData κ) (e : TxEvent) :
    (u.note e).totals = u.totals.add e := by
  simp [UsbData.totals, UsbData.note]

/-- The queue while the acceptance of the packets `late` is still to be recorded, and, if not
`owing`, after the buffer of its transfer came back. -/
private structure Holds (cfg : UsbConfig) (late : List TxPacket) (owing : Bool) (u : UsbData κ) :
    Prop where
  ring : u.txQueue.Valid cfg.txQueueDepth
  filled : 0 < u.txQueue.count
  engaged : u.inEngaged = true
  active : u.activeIn.isSome = owing
  phase : u.txPhase ≠ .idle
  carried : u.txPhase = .payload → u.txQueue.front.payload ≠ []
  packets : u.totals.accepted ++ late = u.totals.finished ++ u.txQueue.contents cfg.txQueueDepth
  transfers : u.totals.transfers =
    u.totals.finished.flatMap TxPacket.transfers ++ begun u.txPhase u.txQueue.front
  outstanding : u.totals.enqueued = u.totals.returned ++ u.activeIn.toList

private structure Stopped (cfg : UsbConfig) (late : List TxPacket) (u : UsbData κ) : Prop where
  ring : u.txQueue.Valid cfg.txQueueDepth
  engaged : u.inEngaged = false
  active : u.activeIn = none
  phase : u.txPhase = .idle
  packets : u.totals.accepted ++ late = u.totals.finished ++ u.txQueue.contents cfg.txQueueDepth
  transfers : u.totals.transfers = u.totals.finished.flatMap TxPacket.transfers
  outstanding : u.totals.enqueued = u.totals.returned

private theorem Holds.refines (holds : Holds cfg [] true u) : RefinesFifo cfg u :=
  { holds with
    engaged := ⟨fun _ => holds.filled, fun _ => holds.engaged⟩
    active := ⟨fun _ => holds.filled, fun _ => holds.active⟩
    phase := ⟨fun _ => holds.filled, fun _ => holds.phase⟩
    packets := by rw [← holds.packets, List.append_nil] }

private theorem RefinesFifo.holds (refines : RefinesFifo cfg u) (filled : 0 < u.txQueue.count) :
    Holds cfg [] true u :=
  { refines with
    filled := filled
    engaged := refines.engaged.mpr filled
    active := refines.active.mpr filled
    phase := refines.phase.mpr filled
    packets := by rw [List.append_nil, refines.packets] }

private theorem Stopped.refines (stopped : Stopped cfg [] u) (empty : u.txQueue.count = 0) :
    RefinesFifo cfg u := by
  refine ⟨stopped.ring, ?_, ?_, ?_, ?_, ?_, ?_, ?_⟩
  · simp [stopped.engaged, empty]
  · simp [stopped.active, empty]
  · simp [stopped.phase, empty]
  · simp [stopped.phase]
  · rw [← stopped.packets, List.append_nil]
  · rw [stopped.transfers, stopped.phase, begun, List.append_nil]
  · rw [stopped.outstanding, stopped.active, Option.toList_none, List.append_nil]

private theorem RefinesFifo.stopped (refines : RefinesFifo cfg u) (empty : u.txQueue.count = 0) :
    Stopped cfg [] u := by
  have none_left : ¬ 0 < u.txQueue.count := by omega
  have phase : u.txPhase = .idle := not_not.mp (mt refines.phase.mp none_left)
  have active : u.activeIn = none := by
    simpa using mt refines.active.mp none_left
  refine ⟨refines.ring, ?_, active, phase, ?_, ?_, ?_⟩
  · simpa using mt refines.engaged.mp none_left
  · rw [List.append_nil, refines.packets]
  · rw [refines.transfers, phase, begun, List.append_nil]
  · rw [refines.outstanding, active, Option.toList_none, List.append_nil]

theorem reset_refines (cfg : UsbConfig) (u : UsbData κ) :
    RefinesFifo cfg (resetTxQueueUnlocked cfg u) := by
  have ring : (resetTxQueueUnlocked cfg u).txQueue.Valid cfg.txQueueDepth :=
    clear_valid cfg.depth_pos
  have empty : (resetTxQueueUnlocked cfg u).totals = Totals.zero := note_totals _ _
  refine ⟨ring, ?_, ?_, ?_, ?_, ?_, ?_, ?_⟩
  iterate 4
    · simp [resetTxQueueUnlocked, UsbData.note]
  all_goals
    rw [empty]
    rfl

theorem enqueueIn_cases (data : List UInt8) (u : UsbData κ) :
    (enqueueIn k data u).1 ≠ 0 ∨ ∃ kernel, enqueueIn k data u = (0, UsbData.note { u with
        kernel
        buffers := u.buffers + 1
        activeIn := some u.buffers
        inPipe := u.inPipe ++ [u.buffers] } (.enqueued u.buffers data)) := by
  unfold enqueueIn
  dsimp only
  split_ifs with starved refused
  · exact Or.inl (show -ENOMEM ≠ 0 by decide)
  · exact Or.inl refused
  · exact Or.inr ⟨_, rfl⟩

private theorem start_holds (stopped : Stopped cfg late u) (filled : 0 < u.txQueue.count)
    (started : (startTxPacketUnlocked k u).1 = 0) :
    Holds cfg late true (startTxPacketUnlocked k u).2 ∧
      (startTxPacketUnlocked k u).2.txQueue = u.txQueue := by
  unfold startTxPacketUnlocked at started ⊢
  simp only [Nat.ne_of_gt filled, stopped.engaged, Bool.false_eq_true, ↓reduceIte] at started ⊢
  rcases enqueueIn_cases (k := k) u.txQueue.front.header
    { u with inEngaged := true, txPhase := .header } with failed | ⟨kernel, begins⟩
  · rw [if_pos failed] at started
    exact absurd started failed
  · rw [begins, if_neg (not_not.mpr rfl)]
    refine ⟨⟨stopped.ring, filled, rfl, rfl, by simp [UsbData.note], by simp [UsbData.note],
      ?_, ?_, ?_⟩, rfl⟩
    · rw [note_totals]
      exact stopped.packets
    · rw [note_totals]
      exact congrArg (· ++ [u.txQueue.front.header]) stopped.transfers
    · rw [note_totals]
      exact congrArg (· ++ [u.buffers]) stopped.outstanding

private theorem Holds.accept {packet : TxPacket} (holds : Holds cfg [packet] true u) :
    Holds cfg [] true (u.note (.accepted packet)) := by
  refine ⟨holds.ring, holds.filled, holds.engaged, holds.active, holds.phase, holds.carried,
    ?_, ?_, ?_⟩
  · rw [note_totals, List.append_nil]
    exact holds.packets
  · rw [note_totals]
    exact holds.transfers
  · rw [note_totals]
    exact holds.outstanding

private theorem Holds.push (holds : Holds cfg [] true u) (room : u.txQueue.count < cfg.txQueueDepth)
    (packet : TxPacket) :
    Holds cfg [packet] true { u with txQueue := u.txQueue.push cfg.txQueueDepth packet } := by
  have front := front_push holds.ring room holds.filled packet
  refine ⟨push_valid holds.ring room packet, Nat.succ_pos _, holds.engaged, holds.active,
    holds.phase, ?_, ?_, ?_, holds.outstanding⟩
  · rw [front]
    exact holds.carried
  · rw [contents_push holds.ring room, ← List.append_assoc]
    exact congrArg (· ++ [packet]) ((List.append_nil _).symm.trans holds.packets)
  · rw [front]
    exact holds.transfers

private theorem Stopped.push (stopped : Stopped cfg [] u)
    (room : u.txQueue.count < cfg.txQueueDepth) (packet : TxPacket) :
    Stopped cfg [packet] { u with txQueue := u.txQueue.push cfg.txQueueDepth packet } := by
  refine ⟨push_valid stopped.ring room packet, stopped.engaged, stopped.active, stopped.phase,
    ?_, stopped.transfers, stopped.outstanding⟩
  rw [contents_push stopped.ring room, ← List.append_assoc]
  exact congrArg (· ++ [packet]) ((List.append_nil _).symm.trans stopped.packets)

private theorem begin_refines {packet : TxPacket} (stopped : Stopped cfg [packet] u)
    (alone : u.txQueue.contents cfg.txQueueDepth = [packet]) :
    RefinesFifo cfg (settleSend cfg packet (startTxPacketUnlocked k u)).2 ∧
      (settleSend cfg packet (startTxPacketUnlocked k u)).2.txQueue.contents cfg.txQueueDepth =
        if (settleSend cfg packet (startTxPacketUnlocked k u)).1 = 0 then [packet] else [] := by
  have filled : 0 < u.txQueue.count := by
    have one := congrArg List.length alone
    rw [length_contents] at one
    rw [one]
    exact Nat.one_pos
  by_cases failed : (startTxPacketUnlocked k u).1 ≠ 0
  · have settled : settleSend cfg packet (startTxPacketUnlocked k u) =
        ((startTxPacketUnlocked k u).1,
          resetTxQueueUnlocked cfg (startTxPacketUnlocked k u).2) := if_pos failed
    simp only [settled, failed, ↓reduceIte]
    exact ⟨reset_refines cfg _, rfl⟩
  · obtain ⟨holds, same⟩ := start_holds stopped filled (not_not.mp failed)
    have settled : settleSend cfg packet (startTxPacketUnlocked k u) =
        (0, (startTxPacketUnlocked k u).2.note (.accepted packet)) := if_neg failed
    simp only [settled, ↓reduceIte, ← alone, ← same]
    exact ⟨holds.accept.refines, rfl⟩

theorem send_refines (header payload : List UInt8) (refines : RefinesFifo cfg u) :
    RefinesFifo cfg (webosAdbUsbSend cfg k header payload u).2 ∧
      (webosAdbUsbSend cfg k header payload u).2.txQueue.contents cfg.txQueueDepth =
        u.txQueue.contents cfg.txQueueDepth ++
          if (webosAdbUsbSend cfg k header payload u).1 = 0 then [⟨header, payload⟩] else [] := by
  have refused {ret : Int} (error : ret ≠ 0) : RefinesFifo cfg (ret, u).2 ∧
      (ret, u).2.txQueue.contents cfg.txQueueDepth = u.txQueue.contents cfg.txQueueDepth ++
        if (ret, u).1 = 0 then [⟨header, payload⟩] else [] := by
    refine ⟨refines, ?_⟩
    rw [if_neg error, List.append_nil]
  unfold webosAdbUsbSend
  by_cases off : (!u.classData || !u.enabled || u.resetting) = true
  · rw [if_pos off]
    exact refused (by decide)
  by_cases odd : header.length ≠ WEBOS_ADB_HEADER_SIZE
  · rw [if_neg off, if_pos odd]
    exact refused (by decide)
  by_cases long : payload.length > cfg.adb.usbTransferSize
  · rw [if_neg off, if_neg odd, if_pos long]
    exact refused (by decide)
  by_cases full : u.txQueue.count = cfg.txQueueDepth
  · rw [if_neg off, if_neg odd, if_neg long, if_pos full]
    exact refused (by decide)
  rw [if_neg off, if_neg odd, if_neg long, if_neg full]
  have room : u.txQueue.count < cfg.txQueueDepth :=
    Nat.lt_of_le_of_ne refines.ring.count_le full
  have grown := contents_push refines.ring room ⟨header, payload⟩
  by_cases empty : u.txQueue.count = 0
  · have none_left : u.txQueue.contents cfg.txQueueDepth = [] := contents_eq_nil_iff.mpr empty
    rw [none_left, List.nil_append] at grown ⊢
    simp only [empty, ↓reduceIte]
    exact begin_refines ((refines.stopped empty).push room ⟨header, payload⟩) grown
  · have holds := (refines.holds (Nat.pos_of_ne_zero empty)).push room ⟨header, payload⟩
    simp only [empty, ↓reduceIte, settleSend, ne_eq, not_true_eq_false]
    exact ⟨holds.accept.refines, grown⟩

private theorem askReset_refines (u : UsbData κ) : RefinesFifo cfg (askReset cfg u).2 := by
  have reset := reset_refines cfg u
  exact { reset with }

private theorem Holds.handBack {buffer : Nat} (holds : Holds cfg [] true u)
    (active : u.activeIn = some buffer) :
    Holds cfg [] false (UsbData.note { u with activeIn := none } (.returned buffer)) := by
  refine ⟨holds.ring, holds.filled, holds.engaged, rfl, holds.phase, holds.carried, ?_, ?_, ?_⟩
  · rw [note_totals]
    exact holds.packets
  · rw [note_totals]
    exact holds.transfers
  · have outstanding := holds.outstanding
    rw [active] at outstanding
    rw [note_totals]
    exact outstanding.trans (List.append_nil _).symm

private theorem Holds.returned (handed : Holds cfg [] false u) :
    u.activeIn = none ∧ u.totals.enqueued = u.totals.returned := by
  have idle : u.activeIn = none := by simpa using handed.active
  refine ⟨idle, ?_⟩
  rw [handed.outstanding, idle, Option.toList_none, List.append_nil]

private theorem continue_holds (handed : Holds cfg [] false u) (phase : u.txPhase = .header)
    (some_payload : u.txQueue.front.payload ≠ [])
    (started : (enqueueIn k u.txQueue.front.payload { u with txPhase := .payload }).1 = 0) :
    Holds cfg [] true (enqueueIn k u.txQueue.front.payload { u with txPhase := .payload }).2 := by
  rcases enqueueIn_cases (k := k) u.txQueue.front.payload { u with txPhase := .payload }
    with failed | ⟨kernel, begins⟩
  · exact absurd started failed
  · rw [begins]
    refine ⟨handed.ring, handed.filled, handed.engaged, rfl, by simp [UsbData.note],
      fun _ => some_payload, ?_, ?_, ?_⟩
    · rw [note_totals]
      exact handed.packets
    · have transfers := handed.transfers
      rw [phase] at transfers
      rw [note_totals]
      exact (congrArg (· ++ [u.txQueue.front.payload]) transfers).trans (List.append_assoc _ _ _)
    · rw [note_totals]
      exact congrArg (· ++ [u.buffers]) handed.returned.2

theorem begun_whole (carried : u.txPhase = .payload → u.txQueue.front.payload ≠ [])
    (uncut : ¬(u.txPhase = .header ∧ u.txQueue.front.payload ≠ [])) (busy : u.txPhase ≠ .idle) :
    begun u.txPhase u.txQueue.front = u.txQueue.front.transfers := by
  cases phase : u.txPhase with
  | idle => exact absurd phase busy
  | header =>
    have empty : u.txQueue.front.payload = [] := by
      by_contra some_payload
      exact uncut ⟨phase, some_payload⟩
    simp [begun, TxPacket.transfers, empty]
  | payload => simp [begun, TxPacket.transfers, carried phase]

private theorem finish_stopped (handed : Holds cfg [] false u)
    (last : ¬(u.txPhase = .header ∧ u.txQueue.front.payload ≠ [])) :
    Stopped cfg [] (UsbData.note { u with
      txQueue := u.txQueue.pop cfg.txQueueDepth
      txPhase := .idle
      inEngaged := false } (.finished u.txQueue.front)) := by
  have all := begun_whole handed.carried last handed.phase
  refine ⟨pop_valid handed.ring handed.filled, rfl, handed.returned.1, rfl, ?_, ?_, ?_⟩
  · have packets := handed.packets
    rw [contents_pop handed.ring handed.filled] at packets
    rw [note_totals]
    exact packets.trans (List.append_cons _ _ _)
  · have transfers := handed.transfers
    rw [all] at transfers
    rw [note_totals]
    show u.totals.transfers = (u.totals.finished ++ [u.txQueue.front]).flatMap TxPacket.transfers
    rw [List.flatMap_append, List.flatMap_singleton, transfers]
  · rw [note_totals]
    exact handed.returned.2

private theorem finishPacket_refines (handed : Holds cfg [] false u)
    (last : ¬(u.txPhase = .header ∧ u.txQueue.front.payload ≠ [])) :
    RefinesFifo cfg (finishPacket cfg k u).2 := by
  have stopped := finish_stopped handed last
  unfold finishPacket
  dsimp only
  split_ifs with more failed
  · exact askReset_refines _
  · exact (start_holds stopped (Nat.pos_of_ne_zero more) (not_not.mp failed)).1.refines
  · exact stopped.refines (not_not.mp more)

theorem inRequest_refines (buffer : Nat) (err : Int) (refines : RefinesFifo cfg u) :
    RefinesFifo cfg (inRequest cfg k buffer err u).2 := by
  unfold inRequest
  by_cases active : u.activeIn ≠ some buffer
  · rw [if_pos active]
    exact refines
  · have here : u.activeIn = some buffer := not_not.mp active
    have filled : 0 < u.txQueue.count := refines.active.mp (by rw [here]; rfl)
    have handed := (refines.holds filled).handBack here
    generalize UsbData.note { u with activeIn := none } (.returned buffer) = v at handed ⊢
    dsimp only
    split_ifs with error some_left waiting failed
    · exact askReset_refines v
    · exact askReset_refines _
    · exact (continue_holds handed waiting.1 waiting.2 (not_not.mp failed)).refines
    · exact finishPacket_refines handed waiting
    · exact absurd handed.filled (by omega)

theorem boot_refines (kernel : κ) : RefinesFifo cfg (UsbData.boot kernel) := by
  refine ⟨⟨cfg.depth_pos, ?_, Nat.zero_le _⟩, ?_, ?_, ?_, ?_, rfl, rfl, rfl⟩ <;>
    simp [UsbData.boot]

end Refinement

end Webos.Adb.Usb
