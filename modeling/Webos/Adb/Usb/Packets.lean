/- digest: The IN endpoint carries whole packets while no reset cuts one in two. -/

import Webos.Adb.Usb.Receive

namespace Webos.Adb.Usb

open Webos.Lib.Bytes Webos.Lib.RingQueue

variable {cfg : UsbConfig} {σ κ : Type} {k : Kernel κ}
  {ops : ServiceKind → ServiceOps cfg.adb σ} {l : Link cfg σ κ} {u v : UsbData κ}

structure TxPacket.Whole (p : TxPacket) : Prop where
  header : p.header.length = WEBOS_ADB_HEADER_SIZE
  payload : (loadMessage p.header).dataLength.toNat = p.payload.length

inductive Framed : List UInt8 → Prop where
  | nil : Framed []
  | packet (p : TxPacket) (rest : List UInt8) : p.Whole → Framed rest →
    Framed (p.header ++ p.payload ++ rest)

/-- The data of the buffers enqueued on the IN endpoint, oldest first. -/
def UsbData.sent (u : UsbData κ) : List (List UInt8) :=
  u.log.filterMap (fun e =>
    match e with
    | .enqueued _ data => some data
    | _ => none)

/-- A reset that finds the header of a packet on its way and the payload still in the queue. -/
def splits (phase : TxPhase) (dropped : List TxPacket) : Bool :=
  phase == .header && dropped.head?.any (fun p => p.payload != [])

def Unsplit (log : List TxEvent) : Prop :=
  ∀ phase dropped, .reset phase dropped ∈ log → splits phase dropped = false

theorem Unsplit.of_prefix {before after : List TxEvent} (unsplit : Unsplit after)
    (grows : before <+: after) : Unsplit before :=
  fun phase dropped member => unsplit phase dropped (grows.subset member)

/-- Whole packets were sent, then the part of the packet at the head of the queue that has begun. -/
def Sent (u : UsbData κ) (begun : List (List UInt8)) : Prop :=
  ∃ packets : List TxPacket, (∀ p ∈ packets, p.Whole) ∧
    u.sent = packets.flatMap TxPacket.transfers ++ begun

structure Carries (cfg : UsbConfig) (u : UsbData κ) : Prop where
  refines : RefinesFifo cfg u
  queued : ∀ p ∈ u.txQueue.contents cfg.txQueueDepth, p.Whole
  sent : Sent u (begun u.txPhase u.txQueue.front)

/-- The record only grows, and a transport that carries whole packets goes on doing so unless a
reset cuts one. -/
structure Ships (cfg : UsbConfig) (u v : UsbData κ) : Prop where
  grows : u.log <+: v.log
  carries : Unsplit v.log → Carries cfg u → Carries cfg v

section Ships

theorem Ships.refl (cfg : UsbConfig) (u : UsbData κ) : Ships cfg u u :=
  ⟨List.prefix_rfl, fun _ carries => carries⟩

theorem Ships.trans {w : UsbData κ} (first : Ships cfg u v) (second : Ships cfg v w) :
    Ships cfg u w :=
  ⟨first.grows.trans second.grows, fun unsplit carries =>
    second.carries unsplit (first.carries (unsplit.of_prefix second.grows) carries)⟩

/-- The part of the state that the transmit side reads and writes. -/
def UsbData.transmit (u : UsbData κ) := (u.txQueue, u.txPhase, u.inEngaged, u.activeIn, u.log)

theorem Ships.of_same (same : v.transmit = u.transmit) : Ships cfg u v := by
  cases u
  cases v
  cases same
  exact ⟨List.prefix_rfl, fun _ carries => { carries with refines := { carries.refines with } }⟩

theorem Sent.finish {p : TxPacket} (sent : Sent u p.transfers) (whole : p.Whole) : Sent u [] := by
  obtain ⟨packets, wholes, same⟩ := sent
  refine ⟨packets ++ [p], ?_, ?_⟩
  · intro q member
    rcases List.mem_append.mp member with old | new
    · exact wholes q old
    · rw [List.mem_singleton.mp new]
      exact whole
  · rw [List.flatMap_append, List.flatMap_singleton, List.append_nil, same]

theorem Sent.begin (sent : Sent u []) {w : UsbData κ} {data : List UInt8}
    (more : w.sent = u.sent ++ [data]) : Sent w [data] := by
  obtain ⟨packets, wholes, same⟩ := sent
  refine ⟨packets, wholes, ?_⟩
  rw [more, same, List.append_nil]

theorem front_mem (refines : RefinesFifo cfg u) (filled : 0 < u.txQueue.count) :
    u.txQueue.front ∈ u.txQueue.contents cfg.txQueueDepth := by
  rw [contents_pop refines.ring filled]
  exact List.mem_cons_self

theorem head_contents (refines : RefinesFifo cfg u) (filled : 0 < u.txQueue.count) :
    (u.txQueue.contents cfg.txQueueDepth).head? = some u.txQueue.front := by
  rw [contents_pop refines.ring filled]
  rfl

theorem Carries.settled (carries : Carries cfg u)
    (uncut : splits u.txPhase (u.txQueue.contents cfg.txQueueDepth) = false) : Sent u [] := by
  by_cases busy : u.txPhase = .idle
  · have sent := carries.sent
    rw [busy] at sent
    exact sent
  · have filled := carries.refines.phase.mp busy
    have whole := carries.queued _ (front_mem carries.refines filled)
    have sent := carries.sent
    rw [begun_whole carries.refines.carried _ busy] at sent
    · exact sent.finish whole
    · rintro ⟨phase, waits⟩
      rw [splits, phase, head_contents carries.refines filled] at uncut
      simp [waits] at uncut

theorem reset_ships (cfg : UsbConfig) (u : UsbData κ) :
    Ships cfg u (resetTxQueueUnlocked cfg u) := by
  refine ⟨List.prefix_append _ _, fun unsplit carries => ?_⟩
  have uncut : splits u.txPhase (u.txQueue.contents cfg.txQueueDepth) = false :=
    unsplit _ _ (by simp [resetTxQueueUnlocked, UsbData.note])
  obtain ⟨packets, wholes, same⟩ := carries.settled uncut
  refine ⟨reset_refines cfg u, ?_, packets, wholes, ?_⟩
  · intro p member
    cases member
  · have sent : (resetTxQueueUnlocked cfg u).sent = u.sent := by
      simp [UsbData.sent, resetTxQueueUnlocked, UsbData.note]
    rw [sent, same]
    rfl

theorem enqueueIn_reliable (reliable : k.Reliable) (data : List UInt8) (u : UsbData κ) :
    ∃ kernel, enqueueIn k data u = (0, UsbData.note { u with
      kernel
      buffers := u.buffers + 1
      activeIn := some u.buffers
      inPipe := u.inPipe ++ [u.buffers] } (.enqueued u.buffers data)) := by
  refine (enqueueIn_cases data u).resolve_left (not_not.mpr ?_)
  unfold enqueueIn
  dsimp only
  rw [if_neg (by simp [reliable.alloc]), if_neg (by simp [reliable.enqueue])]

@[simp] theorem note_sent (u : UsbData κ) (e : TxEvent) : (u.note e).sent = u.sent ++ (match e with
      | .enqueued _ data => [data]
      | _ => []) := by
  unfold UsbData.sent UsbData.note
  rw [List.filterMap_append]
  cases e <;> rfl

theorem start_reliable (reliable : k.Reliable) (filled : u.txQueue.count ≠ 0)
    (free : u.inEngaged = false) :
    (startTxPacketUnlocked k u).1 = 0 ∧ (startTxPacketUnlocked k u).2.txQueue = u.txQueue ∧
    (startTxPacketUnlocked k u).2.txPhase = .header ∧
    (startTxPacketUnlocked k u).2.sent = u.sent ++ [u.txQueue.front.header] := by
  obtain ⟨kernel, begins⟩ := enqueueIn_reliable reliable u.txQueue.front.header
    { u with inEngaged := true, txPhase := .header }
  unfold startTxPacketUnlocked
  rw [if_neg filled, if_neg (by simp [free])]
  dsimp only
  rw [begins]
  exact ⟨rfl, rfl, rfl, note_sent _ _⟩

theorem encode_whole (cfg : UsbConfig) (command arg0 arg1 : UInt32) {payload : List UInt8}
    (short : payload.length ≤ cfg.adb.usbTransferSize) :
    TxPacket.Whole ⟨encodeMessage command arg0 arg1 payload, payload⟩ := by
  have range := cfg.adb.usbTransferSize_range
  refine ⟨rfl, ?_⟩
  show (loadMessage (headerBytes _)).dataLength.toNat = payload.length
  rw [loadMessage_headerBytes]
  exact Nat.mod_eq_of_lt (by omega)

theorem join_carries {p : TxPacket} (reliable : k.Reliable) (carries : Carries cfg u)
    (whole : p.Whole) (room : u.txQueue.count ≠ cfg.txQueueDepth)
    (refines : RefinesFifo cfg (settleSend cfg p (if u.txQueue.count = 0 then
        startTxPacketUnlocked k { u with txQueue := u.txQueue.push cfg.txQueueDepth p }
      else (0, { u with txQueue := u.txQueue.push cfg.txQueueDepth p }))).2) :
    Carries cfg (settleSend cfg p (if u.txQueue.count = 0 then
        startTxPacketUnlocked k { u with txQueue := u.txQueue.push cfg.txQueueDepth p }
      else (0, { u with txQueue := u.txQueue.push cfg.txQueueDepth p }))).2 := by
  have space : u.txQueue.count < cfg.txQueueDepth :=
    Nat.lt_of_le_of_ne carries.refines.ring.count_le room
  have queued : ∀ q ∈ (u.txQueue.push cfg.txQueueDepth p).contents cfg.txQueueDepth, q.Whole := by
    intro q member
    rw [contents_push carries.refines.ring space] at member
    rcases List.mem_append.mp member with old | new
    · exact carries.queued q old
    · rw [List.mem_singleton.mp new]
      exact whole
  by_cases empty : u.txQueue.count = 0
  · have idle : u.txPhase = .idle :=
      not_not.mp (mt carries.refines.phase.mp (by omega))
    have free : u.inEngaged = false := by
      simpa using mt carries.refines.engaged.mp (by omega)
    have front := front_push_empty carries.refines.ring space empty p
    obtain ⟨started, queue, phase, sent⟩ := start_reliable reliable
      (u := { u with txQueue := u.txQueue.push cfg.txQueueDepth p }) (Nat.succ_ne_zero _) free
    rw [if_pos empty] at refines ⊢
    generalize startTxPacketUnlocked k
      { u with txQueue := u.txQueue.push cfg.txQueueDepth p } = out
      at refines started queue phase sent ⊢
    obtain ⟨ret, v⟩ := out
    cases started
    refine ⟨refines, ?_, ?_⟩
    · show ∀ q ∈ v.txQueue.contents cfg.txQueueDepth, q.Whole
      rw [show v.txQueue = u.txQueue.push cfg.txQueueDepth p from queue]
      exact queued
    · have before := carries.sent
      rw [idle] at before
      have more : (v.note (.accepted p)).sent = u.sent ++ [p.header] := by
        rw [note_sent, List.append_nil]
        refine sent.trans ?_
        rw [front]
        rfl
      have begins := Sent.begin before more
      show Sent (v.note (.accepted p)) (begun v.txPhase v.txQueue.front)
      rw [show v.txPhase = .header from phase, show v.txQueue = _ from queue, front]
      exact begins
  · have front := front_push carries.refines.ring space (Nat.pos_of_ne_zero empty) p
    rw [if_neg empty] at refines ⊢
    refine ⟨refines, queued, ?_⟩
    show Sent (UsbData.note { u with txQueue := u.txQueue.push cfg.txQueueDepth p } (.accepted p))
      (begun u.txPhase (u.txQueue.push cfg.txQueueDepth p).front)
    rw [front]
    obtain ⟨packets, wholes, same⟩ := carries.sent
    refine ⟨packets, wholes, ?_⟩
    rw [note_sent, List.append_nil]
    exact same

theorem enqueueIn_grows (k : Kernel κ) (data : List UInt8) (u : UsbData κ) :
    u.log <+: (enqueueIn k data u).2.log := by
  unfold enqueueIn
  dsimp only
  split_ifs
  · exact List.prefix_rfl
  · exact List.prefix_rfl
  · exact List.prefix_append _ _

theorem start_grows (k : Kernel κ) (u : UsbData κ) :
    u.log <+: (startTxPacketUnlocked k u).2.log := by
  have begins := enqueueIn_grows k u.txQueue.front.header
    { u with inEngaged := true, txPhase := .header }
  unfold startTxPacketUnlocked
  dsimp only
  split_ifs
  · exact List.prefix_rfl
  · exact List.prefix_rfl
  all_goals exact begins

theorem settle_grows (cfg : UsbConfig) (p : TxPacket) (started : Int × UsbData κ) :
    started.2.log <+: (settleSend cfg p started).2.log := by
  obtain ⟨ret, u⟩ := started
  unfold settleSend
  dsimp only
  split_ifs
  all_goals exact List.prefix_append _ _

theorem send_ships (reliable : k.Reliable) (command arg0 arg1 : UInt32) (payload : List UInt8)
    (u : UsbData κ) :
    Ships cfg u (webosAdbUsbSend cfg k (encodeMessage command arg0 arg1 payload) payload u).2 := by
  have size : ¬(encodeMessage command arg0 arg1 payload).length ≠ WEBOS_ADB_HEADER_SIZE :=
    not_not.mpr (length_encodeMessage command arg0 arg1 payload)
  have refines (carries : Carries cfg u) := (send_refines (k := k)
    (encodeMessage command arg0 arg1 payload) payload carries.refines).1
  unfold webosAdbUsbSend at refines ⊢
  by_cases off : (!u.classData || !u.enabled || u.resetting) = true
  · rw [if_pos off]
    exact .refl cfg u
  by_cases long : payload.length > cfg.adb.usbTransferSize
  · rw [if_neg off, if_neg size, if_pos long]
    exact .refl cfg u
  by_cases full : u.txQueue.count = cfg.txQueueDepth
  · rw [if_neg off, if_neg size, if_neg long, if_pos full]
    exact .refl cfg u
  simp only [if_neg off, if_neg size, if_neg long, if_neg full] at refines ⊢
  have whole := encode_whole cfg command arg0 arg1 (Nat.le_of_not_gt long)
  refine ⟨?_, fun _ carries => join_carries reliable carries whole full (refines carries)⟩
  refine List.IsPrefix.trans ?_ (settle_grows cfg _ _)
  split_ifs
  · exact start_grows k { u with
      txQueue := u.txQueue.push cfg.txQueueDepth
        ⟨encodeMessage command arg0 arg1 payload, payload⟩ }
  · exact List.prefix_rfl

theorem finish_grows (cfg : UsbConfig) (k : Kernel κ) (u : UsbData κ) :
    u.log <+: (finishPacket cfg k u).2.log := by
  have noted : u.log <+: (UsbData.note { u with
      txQueue := u.txQueue.pop cfg.txQueueDepth
      txPhase := .idle
      inEngaged := false } (.finished u.txQueue.front)).log := List.prefix_append _ _
  unfold finishPacket
  dsimp only
  split_ifs
  · exact (noted.trans (start_grows k _)).trans (List.prefix_append _ _)
  · exact noted.trans (start_grows k _)
  · exact noted

theorem inRequest_grows (cfg : UsbConfig) (k : Kernel κ) (buffer : Nat) (err : Int)
    (u : UsbData κ) : u.log <+: (inRequest cfg k buffer err u).2.log := by
  have noted : u.log <+: (UsbData.note { u with activeIn := none } (.returned buffer)).log :=
    List.prefix_append _ _
  have continued := noted.trans (enqueueIn_grows k u.txQueue.front.payload
    { UsbData.note { u with activeIn := none } (.returned buffer) with txPhase := .payload })
  unfold inRequest
  dsimp only
  split_ifs
  · exact List.prefix_rfl
  · exact noted.trans (List.prefix_append _ _)
  · exact continued.trans (List.prefix_append _ _)
  · exact continued
  · exact noted.trans (finish_grows cfg k _)
  · exact noted

theorem finish_carries (reliable : k.Reliable) (carries : Carries cfg u)
    (filled : 0 < u.txQueue.count)
    {v : UsbData κ} (queue : v.txQueue = u.txQueue) (sent : v.sent = u.sent)
    (uncut : ¬(u.txPhase = .header ∧ u.txQueue.front.payload ≠ [])) :
    (∀ p ∈ (finishPacket cfg k v).2.txQueue.contents cfg.txQueueDepth, p.Whole) ∧
      Sent (finishPacket cfg k v).2
        (begun (finishPacket cfg k v).2.txPhase (finishPacket cfg k v).2.txQueue.front) := by
  have contents := contents_pop carries.refines.ring filled
  have queued : ∀ p ∈ (u.txQueue.pop cfg.txQueueDepth).contents cfg.txQueueDepth, p.Whole := by
    intro p member
    exact carries.queued p (contents ▸ List.mem_cons_of_mem _ member)
  have whole := carries.queued _ (front_mem carries.refines filled)
  have settled : Sent u [] := by
    have before := carries.sent
    rw [begun_whole carries.refines.carried uncut (carries.refines.phase.mpr filled)] at before
    exact before.finish whole
  unfold finishPacket
  have finished : (UsbData.note { v with
      txQueue := v.txQueue.pop cfg.txQueueDepth
      txPhase := .idle
      inEngaged := false } (.finished v.txQueue.front)).sent = u.sent := by
    rw [note_sent, List.append_nil]
    exact sent
  have popped : (UsbData.note { v with
      txQueue := v.txQueue.pop cfg.txQueueDepth
      txPhase := .idle
      inEngaged := false } (.finished v.txQueue.front)).txQueue =
        u.txQueue.pop cfg.txQueueDepth := congrArg (RingBuffer.pop _) queue
  have idle : (UsbData.note { v with
      txQueue := v.txQueue.pop cfg.txQueueDepth
      txPhase := .idle
      inEngaged := false } (.finished v.txQueue.front)).txPhase = .idle := rfl
  have free : (UsbData.note { v with
      txQueue := v.txQueue.pop cfg.txQueueDepth
      txPhase := .idle
      inEngaged := false } (.finished v.txQueue.front)).inEngaged = false := rfl
  generalize UsbData.note { v with
      txQueue := v.txQueue.pop cfg.txQueueDepth
      txPhase := .idle
      inEngaged := false } (.finished v.txQueue.front) = w at finished popped idle free ⊢
  dsimp only
  by_cases more : w.txQueue.count ≠ 0
  · obtain ⟨started, kept, phase, begins⟩ := start_reliable reliable more free
    rw [if_pos more, if_neg (not_not.mpr started)]
    dsimp only
    rw [kept, phase, popped]
    refine ⟨queued, settled.begin ?_⟩
    rw [begins, finished, popped]
  · rw [if_neg more]
    dsimp only
    rw [popped, idle]
    obtain ⟨packets, wholes, same⟩ := settled
    exact ⟨queued, packets, wholes, finished.trans same⟩

theorem inRequest_ships (reliable : k.Reliable) (buffer : Nat) (err : Int) (u : UsbData κ) :
    Ships cfg u (inRequest cfg k buffer err u).2 := by
  refine ⟨inRequest_grows cfg k buffer err u, fun unsplit carries => ?_⟩
  have refines := inRequest_refines (k := k) buffer err carries.refines
  by_cases stale : u.activeIn ≠ some buffer
  · have same : inRequest cfg k buffer err u = (.stale, u) := if_pos stale
    rw [same]
    exact carries
  have filled : 0 < u.txQueue.count :=
    carries.refines.active.mp (by rw [not_not.mp stale]; rfl)
  unfold inRequest at unsplit refines ⊢
  rw [if_neg stale] at unsplit refines ⊢
  have sent : (UsbData.note { u with activeIn := none } (.returned buffer)).sent = u.sent := by
    rw [note_sent, List.append_nil]
    rfl
  have queue : (UsbData.note { u with activeIn := none } (.returned buffer)).txQueue =
    u.txQueue := rfl
  have phase : (UsbData.note { u with activeIn := none } (.returned buffer)).txPhase =
    u.txPhase := rfl
  generalize UsbData.note { u with activeIn := none } (.returned buffer) = w
    at unsplit refines sent queue phase ⊢
  dsimp only at unsplit refines ⊢
  by_cases failed : err ≠ 0
  · rw [if_pos failed] at unsplit refines ⊢
    have uncut : splits u.txPhase (u.txQueue.contents cfg.txQueueDepth) = false := by
      rw [← queue, ← phase]
      exact unsplit _ _ (by simp [askReset, resetTxQueueUnlocked, UsbData.note])
    obtain ⟨packets, wholes, same⟩ := carries.settled uncut
    refine ⟨refines, List.forall_mem_nil _, packets, wholes, ?_⟩
    refine Eq.trans ?_ same
    rw [← sent]
    exact (note_sent _ _).trans (List.append_nil _)
  rw [if_neg failed, if_pos (by rw [queue]; exact Nat.ne_of_gt filled)] at refines ⊢
  by_cases waits : w.txPhase = .header ∧ w.txQueue.front.payload ≠ []
  · obtain ⟨kernel, begins⟩ := enqueueIn_reliable reliable w.txQueue.front.payload
      { w with txPhase := .payload }
    rw [if_pos waits, begins, if_neg (not_not.mpr rfl)] at refines ⊢
    obtain ⟨packets, wholes, same⟩ := carries.sent
    refine ⟨refines, ?_, packets, wholes, ?_⟩
    · show ∀ p ∈ w.txQueue.contents cfg.txQueueDepth, p.Whole
      rw [queue]
      exact carries.queued
    · rw [phase] at waits
      rw [waits.1] at same
      refine (note_sent _ _).trans ?_
      show w.sent ++ [w.txQueue.front.payload] = _ ++ begun .payload w.txQueue.front
      rw [sent, same, queue, List.append_assoc]
      rfl
  · rw [if_neg waits] at refines ⊢
    rw [queue, phase] at waits
    obtain ⟨queued, finished⟩ := finish_carries reliable carries filled queue sent waits
    exact ⟨refines, queued, finished⟩

theorem shipsServes (reliable : k.Reliable) (ops : ServiceKind → ServiceOps cfg.adb σ) :
    Serves (linkEnv cfg k ops) (Ships cfg) where
  refl := Ships.refl cfg
  trans _ _ _ := Ships.trans
  send u send command arg0 arg1 payload transport := by
    cases transport
    exact send_ships reliable command arg0 arg1 payload u
  resetTx u := reset_ships cfg u
  malloc _ _ := .of_same rfl
  workReschedule _ := .of_same rfl

theorem submitOut_ships (cfg : UsbConfig) (k : Kernel κ) (u : UsbData κ) :
    Ships cfg u (submitOut cfg k u).2 := by
  unfold submitOut
  dsimp only
  split_ifs
  all_goals exact .of_same rfl

theorem perform_ships (reliable : k.Reliable) (ops : ServiceKind → ServiceOps cfg.adb σ)
    (l : Link cfg σ κ) (task : Task) : Ships cfg l.usb (l.perform k ops task).usb := by
  have submitted := submitOut_ships cfg k l.usb
  have router := (shipsServes reliable ops).enters
  cases task with
  | protocolReset => exact router.reset l.world
  | resetQueues => exact (reset_ships cfg l.usb).trans (.of_same rfl)
  | setEnabled => exact .of_same rfl
  | setResetting value => exact .of_same rfl
  | submitOut => exact submitted
  | submitIfEnabled =>
    unfold Link.perform
    dsimp only
    split_ifs
    · exact submitted
    · exact .refl cfg _
  | receive data =>
    unfold Link.perform
    dsimp only
    split_ifs
    · exact router.protocolReceive data l.world
    · exact .refl cfg _
  | rearm =>
    unfold Link.perform
    dsimp only
    split_ifs
    · exact submitted
    · exact .refl cfg _
  | txReady => exact router.protocolTxReady l.world

theorem step_ships (reliable : k.Reliable) (ops : ServiceKind → ServiceOps cfg.adb σ)
    (l : Link cfg σ κ) (step : LinkStep cfg σ) :
    Ships cfg l.usb (l.step k ops step).usb := by
  refine Link.step_rule (P := fun m => Ships cfg l.usb m.usb) k ops step (.refl cfg _)
    (fun _ => .refl cfg _) (fun err _ => ?_) (fun err data _ _ => ?_)
    (fun task rest _ => perform_ships reliable ops { l with todo := rest } task) (fun request => ?_)
    fun _ => .refl cfg _
  · unfold Link.inDone
    cases pipe : l.usb.inPipe with
    | nil => exact .refl cfg _
    | cons buffer rest =>
      have taken : Ships cfg l.usb { l.usb with inPipe := rest } := .of_same rfl
      exact taken.trans (inRequest_ships reliable buffer err _)
  · unfold Link.outDone
    cases pipe : l.usb.outPipe with
    | nil => exact .refl cfg _
    | cons buffer rest =>
      dsimp only
      split_ifs
      all_goals exact .of_same rfl
  · have router := (shipsServes reliable ops).sends
    cases request with
    | write stream generation data => exact router.streamWriteLocked stream generation data l.world
    | close stream generation => exact router.streamCloseLocked stream generation l.world
    | generation stream => exact .refl cfg _
    | maxPayload stream => exact .refl cfg _

theorem reach_carries (reliable : k.Reliable) {allowed : Link cfg σ κ → LinkStep cfg σ → Prop}
    (reach : Reach k ops allowed l) (unsplit : Unsplit l.usb.log) : Carries cfg l.usb := by
  induction reach with
  | boot services kernel =>
    have ships := (shipsServes reliable ops).enters.reset
      (World.boot cfg.adb services (UsbData.boot kernel))
    refine ships.carries unsplit ⟨boot_refines kernel, ?_, [], ?_, rfl⟩
    all_goals
      intro p member
      cases member
  | @step l step before _ ih =>
    have ships := step_ships reliable ops l step
    exact ships.carries unsplit (ih (unsplit.of_prefix ships.grows))

end Ships

theorem framed_transfers (packets : List TxPacket) (wholes : ∀ p ∈ packets, p.Whole) :
    Framed (packets.flatMap TxPacket.transfers).flatten := by
  induction packets with
  | nil => exact .nil
  | cons p packets ih =>
    have rest := ih (fun q member => wholes q (List.mem_cons_of_mem _ member))
    have bytes : p.transfers.flatten = p.header ++ p.payload := by
      unfold TxPacket.transfers
      split_ifs with empty
      · simp [empty]
      · simp
    rw [List.flatMap_cons, List.flatten_append, bytes]
    exact .packet p _ (wholes p List.mem_cons_self) rest

/-- The host sees whole packets as long as no reset of the transmit queue finds a header on its way
with its payload still to come: whenever nothing is queued, the bytes enqueued on the IN endpoint
are complete packets. -/
theorem in_endpoint_carries_packets (reliable : k.Reliable)
    (reach : Reach k ops (fun _ _ => True) l) (unsplit : Unsplit l.usb.log)
    (quiescent : l.usb.txQueue.count = 0) : Framed l.usb.sent.flatten := by
  have carries := reach_carries reliable reach unsplit
  have idle : l.usb.txPhase = .idle := not_not.mp (mt carries.refines.phase.mp (by omega))
  obtain ⟨packets, wholes, same⟩ := carries.sent
  rw [idle] at same
  rw [same, show begun .idle l.usb.txQueue.front = [] from rfl, List.append_nil]
  exact framed_transfers packets wholes

def handshakeSteps : List (LinkStep UsbConfig.project Unit) :=
  [.outDone 0 connectBytes, .task, .task, .inDone 0, .inDone 0, .task]

instance (log : List TxEvent) : Decidable (Unsplit log) :=
  decidable_of_iff (∀ e ∈ log, (match e with
      | .reset phase dropped => splits phase dropped
      | _ => false) = false) (by
    constructor
    · intro all phase dropped member
      exact all _ member
    · intro unsplit e member
      cases e with
      | reset phase dropped => exact unsplit phase dropped member
      | _ => rfl)

theorem in_endpoint_carries_packets_twice :
    let l := linkBoot.run Kernel.ideal plainOps (enableSteps ++ handshakeSteps ++ handshakeSteps)
    l.usb.sent.length = 4 ∧ l.usb.txQueue.count = 0 ∧ Framed l.usb.sent.flatten := by
  have reach : Reach Kernel.ideal plainOps (fun _ _ => True)
      (linkBoot.run Kernel.ideal plainOps (enableSteps ++ handshakeSteps ++ handshakeSteps)) :=
    .run _ _ _ (.boot () ()) (by decide +kernel)
  have unsplit : Unsplit (linkBoot.run Kernel.ideal plainOps
      (enableSteps ++ handshakeSteps ++ handshakeSteps)).usb.log := by
    decide +kernel
  have quiescent : (linkBoot.run Kernel.ideal plainOps
      (enableSteps ++ handshakeSteps ++ handshakeSteps)).usb.txQueue.count = 0 := by
    decide +kernel
  have framed := in_endpoint_carries_packets Kernel.ideal_reliable reach unsplit quiescent
  exact ⟨by decide +kernel, quiescent, framed⟩

theorem Framed.split {bytes : List UInt8} (framed : Framed bytes) (some : bytes ≠ []) :
    24 + (loadMessage bytes).dataLength.toNat ≤ bytes.length ∧
      Framed (bytes.drop (24 + (loadMessage bytes).dataLength.toNat)) := by
  cases framed with
  | nil => exact absurd rfl some
  | packet p rest whole framed =>
    have size : p.header.length = 24 := whole.header
    have announced : (loadMessage (p.header ++ p.payload ++ rest)).dataLength =
        (loadMessage p.header).dataLength := by
      show getLe32 ((p.header ++ p.payload ++ rest).drop 12) = getLe32 (p.header.drop 12)
      rw [List.append_assoc, List.drop_append_of_le_length (by omega)]
      exact getLe32_append (by rw [List.length_drop]; omega) _
    have length : (p.header ++ p.payload).length = 24 + p.payload.length := by
      rw [List.length_append, size]
    rw [announced, whole.payload, ← length]
    refine ⟨?_, ?_⟩
    · exact (List.prefix_append (p.header ++ p.payload) rest).length_le
    · rw [List.drop_left]
      exact framed

/-- A second handshake while the header of the first reply is on its way: the reset drops the banner
that the header announced, and the host reads the second reply as a part of the first. -/
theorem handshake_cuts_reply :
    let l := linkBoot.run Kernel.ideal plainOps (enableSteps ++
      [.outDone 0 connectBytes, .task, .task, .outDone 0 connectBytes, .task, .task,
        .inDone 0, .inDone 0, .inDone 0, .task])
    l.todo = [] ∧ l.usb.enabled = true ∧ l.usb.txQueue.count = 0 ∧ ¬ Framed l.usb.sent.flatten := by
  refine ⟨by decide +kernel, by decide +kernel, by decide +kernel, fun framed => ?_⟩
  obtain ⟨-, rest⟩ := framed.split (by decide +kernel)
  obtain ⟨long, -⟩ := rest.split (by decide +kernel)
  revert long
  decide +kernel

end Webos.Adb.Usb
