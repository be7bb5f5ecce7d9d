/- digest: The counter of the local ids comes round to the id of a stream that is still open. -/

import Webos.Adb.Router.Ids
import Webos.Adb.System

namespace Webos.Adb.System

open Webos.Lib.Bytes Webos.Lib.Program Webos.Lib.RingQueue

abbrev built : Env Config.project (Services Parts.project) Unit := env _ (Env.accepting _)

def oneStream : World Config.project (Services Parts.project) Unit :=
  start.inputs built [.receive connectPacket.bytes, .receive syncPacket.bytes]

/-- A session with nothing queued and no service called since the stream (1, 7) was opened; the
counter stands at `id`. -/
structure Holding (id : UInt32) (w : World Config.project (Services Parts.project) Unit) :
    Prop where
  rx : w.rx = Rx.zero
  online : w.online = true
  idle : w.control.count = 0
  counter : w.nextLocalId = id
  first : (w.streams firstSlot).used = true ∧ (w.streams firstSlot).localId = 1 ∧
    (w.streams firstSlot).remoteId = 7
  second : (w.streams secondSlot).used = false
  services : w.services = oneStream.services

variable {w : World Config.project (Services Parts.project) Unit}

theorem built_sendControl (idle : w.control.count = 0) (command arg0 arg1 : UInt32)
    (payload : List UInt8) : sendControl built command arg0 arg1 payload w =
      (0, (w.note (.send ⟨command, arg0, arg1, payload⟩ 0)).note
        (.accepted ⟨command, arg0, arg1, payload⟩)) := by
  simp [sendControl, routeControl, idle, sendPacketRaw, env, Env.accepting, flowControlError_zero]

/-- An OPEN that arrives whole is handed to `handle_open`. -/
theorem open_dispatched {p : WirePacket} (command : p.command = ADB_COMMAND_OPEN)
    (filled : p.payload ≠ []) (fits : p.payload.length ≤ Config.project.maxPayload)
    (sum : checksumPasses p.loaded = true) (rx : w.rx = Rx.zero) :
    ∃ call, (webosAdbProtocolReceive built p.bytes w).2 =
      (resetRx ((handleOpen built (arrive built p w)).2.note (.dispatched call))).leave := by
  have routed : routeMessage built (arrive built p w) = handleOpen built (arrive built p w) := by
    have opens : p.loaded.message.command = ADB_COMMAND_OPEN := command
    unfold routeMessage
    rw [arrive_rx, opens, if_neg (by decide), if_pos (by decide)]
  rw [receive_packet _ _ rx, servePacket_arrive _ _ fits filled rfl]
  unfold dispatchMessage
  rw [arrive_rx, sum, routed]
  exact ⟨_, rfl⟩

theorem track_holding {id : UInt32} (holding : Holding id w) :
    Holding (nextId id) (webosAdbProtocolReceive built trackPacket.bytes w).2 := by
  have online : (arrive built trackPacket w).online = true := holding.online
  have idle : (allocateLocalId (arrive built trackPacket w)).2.control.count = 0 := holding.idle
  have opened : handleOpen built (arrive built trackPacket w) =
      sendReady built (allocateLocalId (arrive built trackPacket w)).1 9
        (allocateLocalId (arrive built trackPacket w)).2 := by
    unfold handleOpen
    rw [online, arrive_rx]
    dsimp only
    rw [if_neg (by decide +kernel), if_pos (by decide +kernel)]
    rfl
  rw [sendReady, built_sendControl idle] at opened
  obtain ⟨call, done⟩ := open_dispatched (p := trackPacket) rfl (by decide) (by decide)
    (by decide +kernel) holding.rx
  rw [done, opened]
  exact ⟨rfl, holding.online, holding.idle, congrArg nextId holding.counter, holding.first,
    holding.second, holding.services⟩

theorem tracks_holding (n : Nat) {id : UInt32} (holding : Holding id w) : Holding (nextId^[n] id)
      (w.inputs built (List.replicate n (.receive trackPacket.bytes))) := by
  induction n generalizing id w with
  | zero => exact holding
  | succ n ih => exact ih (track_holding holding)

theorem announce_streams {s : Slot Config.project} (idle : w.control.count = 0)
    (unsent : (w.streams s).txPending = false) (unclosed : (w.streams s).closePending = false) :
    (announceStream built s w).1 = 0 ∧ (announceStream built s w).2.streams = w.streams := by
  unfold announceStream sendReadyFor sendReady
  rw [built_sendControl idle]
  simp [flushStream, flushClose, World.note, unsent, unclosed]

theorem allocate_second (holding : Holding 1 w) : ∃ u,
    allocateStream 7 .sync (arrive built syncPacket w) = (some secondSlot, u) ∧
    u.streams = Function.update w.streams secondSlot { Stream.zero Config.project with
      used := true, localId := 1, remoteId := 7, generation := w.nextStreamGeneration
      ops := some .sync } ∧
    u.control.count = 0 ∧ u.services = oneStream.services := by
  have first : ((arrive built syncPacket w).streams firstSlot).used = true := holding.first.1
  have second : ((arrive built syncPacket w).streams secondSlot).used = false := holding.second
  have slots : List.finRange Config.project.maxStreams = [firstSlot, secondSlot] := by decide
  have free : (List.finRange Config.project.maxStreams).find?
      (fun s => !((arrive built syncPacket w).streams s).used) = some secondSlot := by
    rw [slots]
    simp [first, second]
  unfold allocateStream
  rw [free]
  refine ⟨_, rfl, ?_, holding.idle, holding.services⟩
  rw [← holding.counter]
  rfl

theorem sync_served (services : w.services = oneStream.services) : ∃ st,
    callback built ((built.ops .sync).openOp w.services secondSlot []) w =
      (0, { w with services := st }) := by
  have free : oneStream.services.sync.first (fun c => c.stream.isNone) = some secondSlot := by
    decide +kernel
  obtain ⟨st, begun⟩ : ∃ st, Sync.syncOpen oneStream.services.sync secondSlot [] =
      .done (0, st) := by
    unfold Sync.syncOpen
    rw [if_neg (by decide), free]
    exact ⟨_, rfl⟩
  refine ⟨setSync st w.services, ?_⟩
  change callback built ((Sync.syncOpen w.services.sync secondSlot []).bind _) w = _
  rw [services, begun, ← services]
  rfl

/-- The second `sync:` of the host gets the other slot, and the service accepts it. -/
theorem sync_opened (holding : Holding 1 w) :
    ∃ u, handleOpen built (arrive built syncPacket w) = announceStream built secondSlot u ∧
      u.streams = Function.update w.streams secondSlot { Stream.zero Config.project with
        used := true, localId := 1, remoteId := 7, generation := w.nextStreamGeneration
        ops := some .sync } ∧
      (announceStream built secondSlot u).2.streams = u.streams := by
  have online : (arrive built syncPacket w).online = true := holding.online
  obtain ⟨u, allocated, streams, idle, services⟩ := allocate_second holding
  obtain ⟨st, served⟩ := sync_served services
  obtain ⟨accepted, kept⟩ := announce_streams (w := { u with services := st }) (s := secondSlot)
    idle (by rw [streams, Function.update_self]; rfl) (by rw [streams, Function.update_self]; rfl)
  have shell : openIf built Config.project.shell (ascii "sync:") 7 (ascii "shell:") .shell
      (arrive built syncPacket w) = (- ENOENT, arrive built syncPacket w) := by
    unfold openIf openStream
    rw [if_pos (by decide), if_pos (by decide)]
  have sync : openIf built Config.project.sync (ascii "sync:") 7 (ascii "sync:") .sync
      (arrive built syncPacket w) = announceStream built secondSlot { u with services := st } := by
    unfold openIf openStream
    rw [if_pos (by decide), if_neg (by decide), allocated]
    dsimp only
    rw [show (ascii "sync:").drop (ascii "sync:").length = [] from rfl, served]
    rfl
  have opened : openService built (ascii "sync:") 7 (arrive built syncPacket w) =
      announceStream built secondSlot { u with services := st } := by
    unfold openService
    rw [shell]
    dsimp only
    rw [if_neg (by decide), sync]
    generalize announceStream built secondSlot { u with services := st } = out at accepted
    obtain ⟨ret, v⟩ := out
    dsimp only at accepted ⊢
    rw [if_pos (by rw [accepted]; decide)]
  refine ⟨{ u with services := st }, ?_, streams, kept⟩
  unfold handleOpen
  rw [online, arrive_rx]
  dsimp only
  rw [if_neg (by decide +kernel), if_neg (by decide +kernel), if_neg (by decide +kernel),
    if_neg (by decide +kernel), ← opened]
  rfl

theorem sync_collides (holding : Holding 1 w) (s : Slot Config.project) :
    let st := (webosAdbProtocolReceive built syncPacket.bytes w).2.streams s
    st.used = true ∧ st.localId = 1 ∧ st.remoteId = 7 := by
  obtain ⟨u, opened, streams, kept⟩ := sync_opened holding
  obtain ⟨call, done⟩ := open_dispatched (p := syncPacket) rfl (by decide) (by decide)
    (by decide +kernel) holding.rx
  intro st
  have table : st = u.streams s := by
    change (webosAdbProtocolReceive built syncPacket.bytes w).2.streams s = _
    rw [done, opened]
    exact congrFun kept s
  rw [table, streams]
  by_cases second : s = secondSlot
  · rw [second, Function.update_self]
    exact ⟨rfl, rfl, rfl⟩
  · have two : ∀ s : Slot Config.project, s ≠ secondSlot → s = firstSlot := by decide
    rw [Function.update_of_ne second, two s second]
    exact holding.first

theorem holding_oneStream : Holding 2 oneStream where
  rx := receive_packet_rx _ _ (receive_packet_rx _ _ rfl)
  online := by decide +kernel
  idle := by decide +kernel
  counter := by decide +kernel
  first := by decide +kernel
  second := by decide +kernel
  services := rfl

theorem collide_after {n : Nat} (cycle : nextId^[n] 2 = 1) :
    let w := oneStream.inputs built
      (List.replicate n (.receive trackPacket.bytes) ++ [.receive syncPacket.bytes])
    Running Parts.project (Env.accepting _) w ∧
    ∀ s, (w.streams s).used = true ∧ (w.streams s).localId = 1 ∧ (w.streams s).remoteId = 7 := by
  have around := tracks_holding n holding_oneStream
  rw [cycle] at around
  intro w
  have split : w = (oneStream.inputs built (List.replicate n (.receive trackPacket.bytes))).inputs
      built [.receive syncPacket.bytes] := List.foldl_append ..
  exact ⟨(Running.start.inputs _).inputs _, split ▸ sync_collides around⟩

theorem nextId_cycle : nextId^[2 ^ 32 - 2] 2 = 1 := by
  apply UInt32.toNat_inj.mp
  rw [iterate_nextId_toNat (by decide)]
  rfl

/-- A `sync:` stream is open; 2^32 - 2 later OPENs of `track-jdwp` take an id each and no slot, so
the counter comes back to the id of that stream. The next `sync:` from the same remote id then gets
it a second time, and both slots match the pair (1, 7). -/
theorem stream_ids_collide :
    let w := oneStream.inputs built
      (List.replicate (2 ^ 32 - 2) (.receive trackPacket.bytes) ++ [.receive syncPacket.bytes])
    Running Parts.project (Env.accepting _) w ∧
    ∀ s, (w.streams s).used = true ∧ (w.streams s).localId = 1 ∧ (w.streams s).remoteId = 7 :=
  collide_after nextId_cycle

end Webos.Adb.System
