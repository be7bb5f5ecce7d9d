/- digest: What the primitive effects of the router respect, every entry point respects. -/

import Webos.Adb.Router.Dispatch

namespace Webos.Adb

open Webos.Lib.Bytes Webos.Lib.Program Webos.Lib.RingQueue

variable {cfg : Config} {σ π : Type} {env : Env cfg σ π} {R : World cfg σ π → World cfg σ π → Prop}

structure Stream.Same (a b : Stream) : Prop where
  used : b.used = a.used
  localId : b.localId = a.localId
  remoteId : b.remoteId = a.remoteId
  generation : b.generation = a.generation
  ops : b.ops = a.ops

theorem Stream.Same.refl (st : Stream) : st.Same st := ⟨rfl, rfl, rfl, rfl, rfl⟩

/-- Recorded while packets are sent and slots are marked; the other events mark a change of the
session, of the stream table or of the receiver. -/
def Event.quiet : Event cfg → Bool
  | .accepted p => p.command != ADB_COMMAND_CNXN
  | .send _ _ | .overflow | .stored _ _ | .write _ _ _ | .wrte _ _ _ | .close _ | .ready _
  | .okay _ | .clse _ | .writeFailed _ | .hostClose _ => true
  | _ => false

/-- The effect of sending a packet on all but the control queue, the platform and the record. -/
structure Posted (w v : World cfg σ π) : Prop where
  rx : v.rx = w.rx
  streams : v.streams = w.streams
  nextLocalId : v.nextLocalId = w.nextLocalId
  nextStreamGeneration : v.nextStreamGeneration = w.nextStreamGeneration
  negotiatedPayload : v.negotiatedPayload = w.negotiatedPayload
  online : v.online = w.online
  dispatching : v.dispatching = w.dispatching
  services : v.services = w.services

theorem Posted.refl (w : World cfg σ π) : Posted w w := ⟨rfl, rfl, rfl, rfl, rfl, rfl, rfl, rfl⟩

variable {w v : World cfg σ π}

theorem Posted.trans {u : World cfg σ π} (first : Posted w v) (second : Posted v u) : Posted w u :=
  ⟨second.rx.trans first.rx, second.streams.trans first.streams,
    second.nextLocalId.trans first.nextLocalId,
    second.nextStreamGeneration.trans first.nextStreamGeneration,
    second.negotiatedPayload.trans first.negotiatedPayload, second.online.trans first.online,
    second.dispatching.trans first.dispatching, second.services.trans first.services⟩

structure Posts (env : Env cfg σ π) (R : World cfg σ π → World cfg σ π → Prop) : Prop where
  refl : ∀ w, R w w
  trans : ∀ w v u, R w v → R v u → R w u
  note : ∀ w e, e.quiet = true → R w (w.note e)
  control : ∀ w control, R w { w with control }
  transmit : ∀ w send command arg0 arg1 payload, env.transportSend = some send → R w { w with
      platform := (send w.platform (encodeMessage command arg0 arg1 payload) payload).2 }

structure Sends (env : Env cfg σ π) (R : World cfg σ π → World cfg σ π → Prop) : Prop
    extends Posts env R where
  mark : ∀ w s st, (w.streams s).Same st → R w (w.setStream s st)
  release : ∀ w s, R w (releaseStream env s w)

namespace Posts

variable (rule : Posts env R)

include rule

variable (command : UInt32) (arg0 : UInt32)

theorem sendPacketRaw (arg1 : UInt32) (payload : List UInt8) (w : World cfg σ π) :
    R w (sendPacketRaw env command arg0 arg1 payload w).2 := by
  unfold Adb.sendPacketRaw
  cases transport : env.transportSend with
  | none => exact rule.refl w
  | some send =>
    exact rule.trans _ _ _ (rule.transmit w send _ _ _ _ transport) (rule.note _ _ rfl)

theorem enqueueControl (arg1 : UInt32) (payload : List UInt8) (w : World cfg σ π) :
    R w (enqueueControl command arg0 arg1 payload w).2 := by
  unfold Adb.enqueueControl
  split_ifs
  · exact rule.refl w
  · exact rule.note w _ rfl
  · exact rule.control w _

theorem routeControl (arg1 : UInt32) (payload : List UInt8) (w : World cfg σ π) :
    R w (routeControl env command arg0 arg1 payload w).2 := by
  have raw := rule.sendPacketRaw command arg0 arg1 payload w
  unfold Adb.routeControl
  dsimp only
  split_ifs
  · exact rule.enqueueControl command arg0 arg1 payload w
  · exact rule.trans _ _ _ raw (rule.enqueueControl command arg0 arg1 payload _)
  · exact raw

theorem connect {w : World cfg σ π} (restarted : R w (restartSession env w))
    (opens : ∀ v : World cfg σ π, R v { v.note (.accepted ⟨ADB_COMMAND_CNXN, ADB_VERSION,
      UInt32.ofNat cfg.maxPayload, deviceBanner⟩) with online := true }) :
    R w (handleConnect env w).2 := by
  have sent := rule.trans _ _ _ restarted (rule.routeControl ADB_COMMAND_CNXN ADB_VERSION
    (UInt32.ofNat cfg.maxPayload) deviceBanner (restartSession env w))
  unfold handleConnect sendConnect Adb.sendControl
  dsimp only
  split_ifs
  · exact rule.refl w
  · exact rule.trans _ _ _ sent (opens _)
  · exact sent

theorem sendControl (arg1 : UInt32) (payload : List UInt8) (w : World cfg σ π)
    (plain : command ≠ ADB_COMMAND_CNXN) : R w (sendControl env command arg0 arg1 payload w).2 := by
  have route := rule.routeControl command arg0 arg1 payload w
  unfold Adb.sendControl
  dsimp only
  split_ifs
  · refine rule.trans _ _ _ route (rule.note _ _ ?_)
    simpa [Event.quiet] using plain
  · exact route

theorem sendReady (localId remoteId : UInt32) (w : World cfg σ π) :
    R w (sendReady env localId remoteId w).2 :=
  rule.sendControl _ _ _ _ w (by decide)

theorem sendClose (localId remoteId : UInt32) (w : World cfg σ π) :
    R w (sendClose env localId remoteId w).2 :=
  rule.sendControl _ _ _ _ w (by decide)

theorem pumpLoop (passes : Nat) (w : World cfg σ π) : R w (pumpLoop env passes w).2 := by
  induction passes generalizing w with
  | zero => exact rule.refl w
  | succ passes ih =>
    have raw := rule.sendPacketRaw w.control.front.command w.control.front.arg0
      w.control.front.arg1 w.control.front.payload w
    unfold Adb.pumpLoop
    dsimp only
    split_ifs
    · exact rule.refl w
    · exact raw
    · exact rule.trans _ _ _ raw (rule.trans _ _ _ (rule.control _ _) (ih _))

theorem sendReadyFor (s : Slot cfg) (w : World cfg σ π) : R w (sendReadyFor env s w).2 := by
  have sent := rule.sendReady (w.streams s).localId (w.streams s).remoteId w
  unfold Adb.sendReadyFor
  dsimp only
  split_ifs
  · exact rule.trans _ _ _ sent (rule.note _ _ rfl)
  · exact sent

theorem sendCloseFor (s : Slot cfg) (w : World cfg σ π) : R w (sendCloseFor env s w).2 := by
  have sent := rule.sendClose (w.streams s).localId (w.streams s).remoteId w
  unfold Adb.sendCloseFor
  dsimp only
  split_ifs
  · exact rule.trans _ _ _ sent (rule.note _ _ rfl)
  · exact sent

end Posts

theorem postedPosts (env : Env cfg σ π) : Posts env Posted where
  refl := .refl
  trans _ _ _ := .trans
  note _ _ _ := ⟨rfl, rfl, rfl, rfl, rfl, rfl, rfl, rfl⟩
  control _ _ := ⟨rfl, rfl, rfl, rfl, rfl, rfl, rfl, rfl⟩
  transmit _ _ _ _ _ _ _ := ⟨rfl, rfl, rfl, rfl, rfl, rfl, rfl, rfl⟩

namespace Sends

variable (rule : Sends env R)

include rule

variable (w : World cfg σ π)

theorem closeAllStreams : R w (closeAllStreams env w) := by
  unfold Adb.closeAllStreams
  generalize List.finRange cfg.maxStreams = slots
  induction slots generalizing w with
  | nil => exact rule.refl w
  | cons s slots ih => exact rule.trans _ _ _ (rule.release w s) (ih _)

variable (s : Slot cfg)

theorem flushClose (w : World cfg σ π) : R w (flushClose env s w).2 := by
  have sent := rule.sendCloseFor s w
  unfold Adb.flushClose
  dsimp only
  split_ifs
  · exact sent
  · exact rule.trans _ _ _ sent (rule.release _ s)
  · exact rule.refl w

theorem flushStream (w : World cfg σ π) : R w (flushStream env s w).2 := by
  have raw := rule.sendPacketRaw ADB_COMMAND_WRTE (w.streams s).localId (w.streams s).remoteId
    (w.streams s).txBytes w
  have posted := (postedPosts env).sendPacketRaw ADB_COMMAND_WRTE (w.streams s).localId
    (w.streams s).remoteId (w.streams s).txBytes w
  unfold Adb.flushStream
  dsimp only
  split_ifs
  · exact rule.refl w
  · exact rule.trans _ _ _ raw (rule.note _ _ rfl)
  · refine rule.trans _ _ _ raw (rule.trans _ _ _ (rule.note _ _ rfl)
      (rule.trans _ _ _ (rule.mark _ s _ ?_) (rule.flushClose s _)))
    rw [note_streams, posted.streams]
    exact ⟨rfl, rfl, rfl, rfl, rfl⟩
  · exact rule.flushClose s w

theorem markNote (st : Stream) (e : Event cfg) (same : (w.streams s).Same st)
    (quiet : e.quiet = true) : R w ((w.setStream s st).note e) :=
  rule.trans _ _ _ (rule.mark w s st same) (rule.note _ e quiet)

theorem settleWrite (flushed : Int × World cfg σ π) : R flushed.2 (settleWrite s flushed).2 := by
  unfold Adb.settleWrite
  dsimp only
  split_ifs
  · exact rule.refl _
  · exact rule.mark _ s _ ⟨rfl, rfl, rfl, rfl, rfl⟩
  · exact rule.refl _

theorem storeWrite (generation : UInt32) (data : List UInt8) (w : World cfg σ π) :
    R w (storeWrite env s generation data w).2 := by
  have stored : R w (w.store s data) := by
    refine rule.markNote w s _ _ ?_ rfl
    exact ⟨rfl, rfl, rfl, rfl, rfl⟩
  unfold Adb.storeWrite
  dsimp only
  split_ifs
  · exact rule.refl w
  · exact rule.refl w
  · exact rule.refl w
  · exact stored
  · exact rule.trans _ _ _ stored (rule.trans _ _ _ (rule.flushStream s _) (rule.settleWrite s _))

theorem streamWriteLocked (stream : Option (Slot cfg)) (generation : UInt32)
    (data : List UInt8) (w : World cfg σ π) :
    R w (streamWriteLocked env stream generation data w).2 := by
  cases stream with
  | none => exact rule.refl w
  | some s => exact rule.trans _ _ _ (rule.storeWrite s generation data w) (rule.note _ _ rfl)

theorem streamCloseLocked (stream : Option (Slot cfg)) (generation : UInt32)
    (w : World cfg σ π) : R w (streamCloseLocked env stream generation w) := by
  cases stream with
  | none => exact rule.refl w
  | some s =>
    have closing : R w ((w.setStream s { w.streams s with closePending := true }).note
        (.close s)) := by
      refine rule.markNote w s _ _ ?_ rfl
      exact ⟨rfl, rfl, rfl, rfl, rfl⟩
    unfold Adb.streamCloseLocked
    dsimp only
    split_ifs
    · exact closing
    · exact rule.trans _ _ _ closing (rule.flushStream s _)
    · exact rule.refl w

theorem run {α : Type} (program : Callback cfg σ α) (w : World cfg σ π) :
    R w (program.run (streamApi env) w).2 := by
  apply run_related (streamApi env) R rule.refl rule.trans
  intro call v
  cases call with
  | write stream generation data => exact rule.streamWriteLocked stream generation data v
  | close stream generation => exact rule.streamCloseLocked stream generation v
  | generation stream => exact rule.refl v
  | maxPayload stream => exact rule.refl v

theorem callback {α : Type} (program : Callback cfg σ α) (w : World cfg σ π)
    (store : ∀ v services, R v { v with services }) : R w (callback env program w).2 :=
  rule.trans _ _ _ (rule.run program w) (store _ _)

theorem announceStream (w : World cfg σ π) : R w (announceStream env s w).2 := by
  have ready := rule.sendReadyFor s w
  have flushed : R w (if (Adb.sendReadyFor env s w).1 = 0
      then Adb.flushStream env s (Adb.sendReadyFor env s w).2 else Adb.sendReadyFor env s w).2 := by
    split_ifs
    · exact rule.trans _ _ _ ready (rule.flushStream s _)
    · exact ready
  unfold Adb.announceStream
  dsimp only
  split_ifs at flushed ⊢
  all_goals first
    | exact flushed
    | exact rule.trans _ _ _ flushed (rule.release _ s)

theorem handleClose : R w (handleClose env w).2 := by
  unfold Adb.handleClose
  split
  · exact rule.refl w
  · rename_i s found
    exact rule.trans _ _ _ (rule.note w _ rfl)
      (rule.trans _ _ _ (rule.sendCloseFor s _) (rule.release _ s))

theorem flushPending (slots : List (Slot cfg)) (w : World cfg σ π) :
    R w (flushPending env slots w) := by
  induction slots generalizing w with
  | nil => exact rule.refl w
  | cons s rest ih =>
    have flushed := rule.flushStream s w
    unfold Adb.flushPending
    dsimp only
    split_ifs
    · exact flushed
    · exact rule.trans _ _ _ flushed (ih _)
    · exact ih w

theorem protocolTxReady : R w (webosAdbProtocolTxReady env w) := by
  have pumped : R w (if w.online then pumpControls env w else (0, w)).2 := by
    split_ifs
    · exact rule.pumpLoop _ w
    · exact rule.refl w
  unfold webosAdbProtocolTxReady
  dsimp only
  split_ifs at pumped ⊢
  all_goals first
    | exact pumped
    | exact rule.trans _ _ _ pumped (rule.flushPending _ _)

end Sends

/-- The outcome of the service's `open`: the slot stays, or it is released at once. -/
def settleOpen (env : Env cfg σ π) (s : Slot cfg) (out : Int × World cfg σ π) : World cfg σ π :=
  if out.1 ≠ 0 then releaseStream env s out.2 else out.2

structure Handles (env : Env cfg σ π) (R : World cfg σ π → World cfg σ π → Prop) : Prop
    extends Sends env R where
  takeId : ∀ w, w.online = true → R w (allocateLocalId w).2
  reboot : ∀ w, w.online = true → R w (webosAdbRebootRequest env w).2
  opened : ∀ w v s remoteId kind suffix, w.online = true → w.dispatching = true →
    allocateStream remoteId kind w = (some s, v) →
    R w (settleOpen env s (callback env ((env.ops kind).openOp v.services s suffix) v))
  wrote : ∀ w s kind write data, w.dispatching = true → (w.streams s).used = true →
    (w.streams s).ops = some kind → (env.ops kind).writeOp = some write →
    R w (callback env (write w.services s data) w).2
  readied : ∀ w s kind txReady, w.dispatching = true → (w.streams s).used = true →
    (w.streams s).ops = some kind → (env.ops kind).txReadyOp = some txReady →
    R w (callback env (txReady w.services s) w).2

theorem find_used {localId remoteId : UInt32} {s : Slot cfg}
    (found : findStream w localId remoteId = some s) : (w.streams s).used = true := by
  have test := List.find?_some found
  simp only [Bool.and_eq_true] at test
  exact test.1.1

namespace Handles

variable (rule : Handles env R)

include rule

theorem openStream (destination : List UInt8) (remoteId : UInt32) (pre : List UInt8)
    (kind : ServiceKind) (w : World cfg σ π) (online : w.online = true)
    (dispatching : w.dispatching = true) :
    R w (openStream env destination remoteId pre kind w).2 := by
  unfold Adb.openStream
  split_ifs
  · exact rule.refl w
  · rcases eq : allocateStream remoteId kind w with ⟨_ | s, v⟩
    · have same : v = w := by
        unfold allocateStream at eq
        split at eq
        · exact (Prod.mk.inj eq).2.symm
        · cases (Prod.mk.inj eq).1
      rw [same]
      exact rule.sendClose 0 remoteId w
    · have opened := rule.opened w v s remoteId kind (destination.drop pre.length) online
        dispatching eq
      unfold settleOpen at opened
      dsimp only
      split_ifs at opened ⊢
      · exact rule.trans _ _ _ opened (rule.sendClose 0 remoteId _)
      · exact rule.trans _ _ _ opened (rule.announceStream s _)

theorem openIf (enabled : Bool) (destination : List UInt8) (remoteId : UInt32)
    (pre : List UInt8) (kind : ServiceKind) (w : World cfg σ π) (online : w.online = true)
    (dispatching : w.dispatching = true) :
    R w (openIf env enabled destination remoteId pre kind w).2 := by
  unfold Adb.openIf
  split_ifs
  · exact rule.openStream destination remoteId pre kind w online dispatching
  · exact rule.refl w

end Handles

structure Calm (w v : World cfg σ π) : Prop where
  online : v.online = w.online
  dispatching : v.dispatching = w.dispatching

theorem Calm.refl (w : World cfg σ π) : Calm w w := ⟨rfl, rfl⟩

theorem Calm.trans {u : World cfg σ π} (first : Calm w v) (second : Calm v u) : Calm w u :=
  ⟨second.online.trans first.online, second.dispatching.trans first.dispatching⟩

theorem release_calm (env : Env cfg σ π) (s : Slot cfg) (w : World cfg σ π) :
    Calm w (releaseStream env s w) := by
  unfold releaseStream
  dsimp only
  split_ifs
  · exact .refl w
  · exact ⟨rfl, rfl⟩

theorem calmSends (env : Env cfg σ π) : Sends env Calm where
  refl := Calm.refl
  trans _ _ _ := Calm.trans
  note _ _ _ := ⟨rfl, rfl⟩
  control _ _ := ⟨rfl, rfl⟩
  transmit _ _ _ _ _ _ _ := ⟨rfl, rfl⟩
  mark _ _ _ _ := ⟨rfl, rfl⟩
  release w s := release_calm env s w

theorem allocateStream_some {remoteId : UInt32} {kind : ServiceKind} {s : Slot cfg}
    (allocated : allocateStream remoteId kind w = (some s, v)) :
    (w.streams s).used = false ∧ v = World.note { w with
      streams := Function.update w.streams s { Stream.zero cfg with
        used := true
        localId := w.nextLocalId
        remoteId := remoteId
        generation := w.nextStreamGeneration
        ops := some kind }
      nextLocalId := nextId w.nextLocalId
      nextStreamGeneration := nextId w.nextStreamGeneration
      log := w.log ++ [.drawn w.nextLocalId] } (.allocated s w.nextLocalId remoteId) := by
  unfold allocateStream at allocated
  split at allocated
  · cases allocated
  · rename_i found
    cases allocated
    have free := List.find?_some found
    exact ⟨by simpa using free, rfl⟩

theorem allocate_calm (remoteId : UInt32) (kind : ServiceKind) (w : World cfg σ π) :
    Calm w (allocateStream remoteId kind w).2 := by
  unfold allocateStream
  split
  · exact .refl w
  · exact ⟨rfl, rfl⟩

theorem callback_calm (env : Env cfg σ π) {α : Type} (program : Callback cfg σ α)
    (w : World cfg σ π) : Calm w (callback env program w).2 :=
  (calmSends env).callback program w fun _ _ => ⟨rfl, rfl⟩

theorem calmHandles (env : Env cfg σ π) : Handles env Calm where
  toSends := calmSends env
  takeId _ _ := ⟨rfl, rfl⟩
  reboot w _ := by
    unfold webosAdbRebootRequest
    dsimp only
    split_ifs <;> exact ⟨rfl, rfl⟩
  opened w v s remoteId kind suffix _ _ allocated := by
    have opening := allocate_calm remoteId kind w
    rw [allocated] at opening
    have called := callback_calm env ((env.ops kind).openOp v.services s suffix) v
    unfold settleOpen
    split_ifs
    · exact opening.trans (called.trans (release_calm env s _))
    · exact opening.trans called
  wrote _ _ _ _ _ _ _ _ _ := callback_calm env _ _
  readied _ _ _ _ _ _ _ _ := callback_calm env _ _

namespace Handles

variable (rule : Handles env R)

include rule

theorem openService (destination : List UInt8) (remoteId : UInt32) (w : World cfg σ π)
    (online : w.online = true) (dispatching : w.dispatching = true) :
    R w (openService env destination remoteId w).2 := by
  have shell := rule.openIf cfg.shell destination remoteId (ascii "shell:") .shell w online
    dispatching
  have calm := (calmHandles env).openIf cfg.shell destination remoteId (ascii "shell:") .shell
    w online dispatching
  have sync := rule.openIf cfg.sync destination remoteId (ascii "sync:") .sync _
    (calm.online.trans online) (calm.dispatching.trans dispatching)
  unfold Adb.openService
  dsimp only
  split_ifs
  · exact shell
  · exact rule.trans _ _ _ shell sync
  · exact rule.trans _ _ _ shell (rule.trans _ _ _ sync (rule.sendClose 0 remoteId _))

theorem openReboot (destination : List UInt8) (remoteId : UInt32) (w : World cfg σ π)
    (online : w.online = true) : R w (openReboot env destination remoteId w).2 := by
  have taken := rule.takeId w online
  have ready := rule.sendReady (allocateLocalId w).1 remoteId (allocateLocalId w).2
  have calm := (calmSends env).sendReady (allocateLocalId w).1 remoteId (allocateLocalId w).2
  unfold Adb.openReboot
  dsimp only
  split_ifs
  · exact rule.sendClose 0 remoteId w
  · exact rule.trans _ _ _ taken (rule.trans _ _ _ ready (rule.reboot _ (calm.online.trans online)))
  · exact rule.trans _ _ _ taken ready

variable (w : World cfg σ π)

theorem handleOpen (dispatching : w.dispatching = true) : R w (handleOpen env w).2 := by
  unfold Adb.handleOpen
  dsimp only
  split_ifs with refused
  · exact rule.refl w
  all_goals
    have online : w.online = true := by
      cases flag : w.online
      · simp [flag] at refused
      · rfl
  · exact rule.trans _ _ _ (rule.takeId w online) (rule.sendReady _ _ _)
  · exact rule.openReboot _ _ w online
  · exact rule.openStream _ _ _ _ w online dispatching
  · exact rule.openService _ _ w online dispatching

theorem handleWrite (dispatching : w.dispatching = true) : R w (handleWrite env w).2 := by
  unfold Adb.handleWrite
  split
  · exact rule.sendClose _ _ w
  · rename_i s found
    split
    · exact rule.sendClose _ _ w
    · rename_i write selected
      obtain ⟨kind, ops, table⟩ := Option.bind_eq_some_iff.mp selected
      have called := rule.wrote w s kind write (w.rx.payload.getD []) dispatching
        (find_used found) ops table
      dsimp only
      split_ifs
      · refine rule.trans _ _ _ called (rule.trans _ _ _ (rule.markNote _ s _ _ ?_ rfl)
          (rule.flushStream s _))
        exact ⟨rfl, rfl, rfl, rfl, rfl⟩
      · exact rule.trans _ _ _ called (rule.trans _ _ _ (rule.sendReadyFor s _)
          (rule.flushStream s _))
      · exact rule.trans _ _ _ called (rule.sendReadyFor s _)

theorem notifyReady (s : Slot cfg) (w : World cfg σ π) (dispatching : w.dispatching = true)
    (used : (w.streams s).used = true) : R w (notifyReady env s w) := by
  unfold Adb.notifyReady
  split
  · exact rule.refl w
  · rename_i txReady selected
    obtain ⟨kind, ops, table⟩ := Option.bind_eq_some_iff.mp selected
    exact rule.readied w s kind txReady dispatching used ops table

theorem handleReady (dispatching : w.dispatching = true) : R w (handleReady env w).2 := by
  unfold Adb.handleReady
  split
  · exact rule.refl w
  · rename_i s found
    have noted := rule.note w (.ready s) rfl
    have marked : R (w.note (.ready s)) ((w.note (.ready s)).acknowledge s) := by
      refine rule.mark _ s _ ?_
      exact ⟨rfl, rfl, rfl, rfl, rfl⟩
    have used : (((w.note (.ready s)).acknowledge s).streams s).used = true := by
      simpa [World.acknowledge] using find_used found
    have notified := rule.notifyReady s ((w.note (.ready s)).acknowledge s) dispatching used
    dsimp only
    split_ifs
    · exact noted
    · exact rule.trans _ _ _ noted (rule.trans _ _ _ marked
        (rule.trans _ _ _ notified (rule.flushStream s _)))
    · exact rule.trans _ _ _ noted (rule.trans _ _ _ marked notified)

end Handles

structure Receives (env : Env cfg σ π) (R : World cfg σ π → World cfg σ π → Prop) : Prop where
  refl : ∀ w, R w w
  trans : ∀ w v u, R w v → R v u → R w u
  receiver : ∀ w rx, R w { w with rx }
  allocated : ∀ w size, R w (World.note { w with platform := (env.malloc w.platform size).2 }
    (.alloc size (env.malloc w.platform size).1))
  dispatchMessage : ∀ w, R w (dispatchMessage env w).2

namespace Receives

variable (rule : Receives env R) (data : List UInt8) (w : World cfg σ π)

include rule

theorem finishMessage : R w (finishMessage env data w).2.2 :=
  rule.trans _ _ _ (rule.dispatchMessage w) (rule.receiver _ _)

theorem decodeHeader : R w (decodeHeader env w).2 := by
  unfold Adb.decodeHeader
  dsimp only
  split_ifs
  · exact rule.receiver w _
  · exact rule.trans _ _ _ (rule.receiver w _) (rule.trans _ _ _ (rule.allocated _ _)
      (rule.receiver _ _))
  · exact rule.trans _ _ _ (rule.receiver w _) (rule.allocated _ _)

theorem finishHeader : R w (finishHeader env data w).2.2 := by
  have decoded := rule.decodeHeader w
  unfold Adb.finishHeader
  dsimp only
  split_ifs
  · exact rule.trans _ _ _ decoded (rule.receiver _ _)
  · exact rule.trans _ _ _ decoded (rule.finishMessage data _)
  · exact decoded

theorem headerPhase : R w (headerPhase env data w).2.2 := by
  unfold Adb.headerPhase
  dsimp only
  split_ifs
  · exact rule.receiver w _
  · exact rule.trans _ _ _ (rule.receiver w _) (rule.finishHeader _ _)
  · exact rule.refl w

theorem payloadPhase : R w (payloadPhase env data w).2.2 := by
  unfold Adb.payloadPhase
  dsimp only
  split_ifs
  · exact rule.trans _ _ _ (rule.receiver w _) (rule.finishMessage _ _)
  · exact rule.receiver w _
  · exact rule.refl w

theorem receivePass : R w (receivePass env data w).2.2 := by
  have header := rule.headerPhase data w
  unfold Adb.receivePass
  generalize Adb.headerPhase env data w = out at header ⊢
  obtain ⟨_ | ret, rest, v⟩ := out
  · exact rule.trans _ _ _ header (rule.payloadPhase rest v)
  · exact header

theorem receiveLoop (passes : Nat) : R w (receiveLoop env passes data w).2 := by
  induction passes generalizing data w with
  | zero => exact rule.refl w
  | succ passes ih =>
    have pass := rule.receivePass data w
    unfold Adb.receiveLoop
    split_ifs
    · exact rule.refl w
    · generalize Adb.receivePass env data w = out at pass ⊢
      obtain ⟨_ | ret, rest, v⟩ := out
      · exact rule.trans _ _ _ pass (ih rest v)
      · exact pass

end Receives

structure Enters (env : Env cfg σ π) (R : World cfg σ π → World cfg σ π → Prop) : Prop
    extends Handles env R where
  receiver : ∀ w rx, R w { w with rx }
  allocated : ∀ w size, R w (World.note { w with platform := (env.malloc w.platform size).2 }
    (.alloc size (env.malloc w.platform size).1))
  connect : ∀ w, w.dispatching = true → R w (handleConnect env w).2
  dispatched : ∀ w call, R w (w.note (.dispatched call))
  dispatching : ∀ w dispatching, R w { w with dispatching }
  reset : ∀ w, R w (protocolResetUnlocked env w)

theorem restart_dispatching (env : Env cfg σ π) (w : World cfg σ π) :
    (restartSession env w).dispatching = w.dispatching :=
  ((calmSends env).closeAllStreams { w with online := false }).dispatching

theorem connect_dispatching (env : Env cfg σ π) (w : World cfg σ π) :
    (handleConnect env w).2.dispatching = w.dispatching :=
  Posts.connect (R := fun w v => v.dispatching = w.dispatching)
    ⟨fun _ => rfl, fun _ _ _ first second => second.trans first, fun _ _ _ => rfl, fun _ _ => rfl,
      fun _ _ _ _ _ _ _ => rfl⟩ (restart_dispatching env w) fun _ => rfl

namespace Enters

variable (rule : Enters env R) {w : World cfg σ π}

include rule

theorem routeMessage (dispatching : w.dispatching = true) :
    R w (routeMessage env w).2 ∧ (routeMessage env w).2.dispatching = true := by
  unfold Adb.routeMessage
  split_ifs
  · exact ⟨rule.connect w dispatching, (connect_dispatching env w).trans dispatching⟩
  · exact ⟨rule.handleOpen w dispatching,
      ((calmHandles env).handleOpen w dispatching).dispatching.trans dispatching⟩
  · exact ⟨rule.handleWrite w dispatching,
      ((calmHandles env).handleWrite w dispatching).dispatching.trans dispatching⟩
  · exact ⟨rule.handleReady w dispatching,
      ((calmHandles env).handleReady w dispatching).dispatching.trans dispatching⟩
  · exact ⟨rule.handleClose w, ((calmSends env).handleClose w).dispatching.trans dispatching⟩
  · exact ⟨rule.refl w, dispatching⟩

theorem dispatchMessage (dispatching : w.dispatching = true) :
    R w (dispatchMessage env w).2 ∧ (dispatchMessage env w).2.dispatching = true := by
  unfold Adb.dispatchMessage
  dsimp only
  split_ifs
  · obtain ⟨routed, flag⟩ := rule.routeMessage dispatching
    exact ⟨rule.trans _ _ _ routed (rule.dispatched _ _), flag⟩
  · exact ⟨rule.dispatched _ _, dispatching⟩

theorem receives : Receives env
    (fun w v => w.dispatching = true → R w v ∧ v.dispatching = true) where
  refl w on := ⟨rule.refl w, on⟩
  trans _ _ _ first second on :=
    ⟨rule.trans _ _ _ (first on).1 (second (first on).2).1, (second (first on).2).2⟩
  receiver w rx on := ⟨rule.receiver w rx, on⟩
  allocated w size on := ⟨rule.allocated w size, on⟩
  dispatchMessage _ on := rule.dispatchMessage on

theorem protocolReceive (data : List UInt8) (w : World cfg σ π) :
    R w (webosAdbProtocolReceive env data w).2 := by
  have loop := rule.receives.receiveLoop data { w with dispatching := true } data.length rfl
  exact rule.trans _ _ _ (rule.dispatching w true)
    (rule.trans _ _ _ loop.1 (rule.dispatching _ false))

theorem input (input : Input cfg) (w : World cfg σ π) : R w (w.input env input) := by
  cases input with
  | streamWrite stream data => exact rule.streamWriteLocked stream 0 data w
  | streamWriteGeneration stream generation data =>
    exact rule.streamWriteLocked stream generation data w
  | streamClose stream => exact rule.streamCloseLocked stream 0 w
  | streamCloseGeneration stream generation => exact rule.streamCloseLocked stream generation w
  | receive data => exact rule.protocolReceive data w
  | txReady => exact rule.protocolTxReady w
  | reset => exact rule.reset w

theorem inputs (run : List (Input cfg)) (w : World cfg σ π) : R w (w.inputs env run) := by
  induction run generalizing w with
  | nil => exact rule.refl w
  | cons first rest ih => exact rule.trans _ _ _ (rule.input first w) (ih _)

end Enters

/-- A relation between platforms that every call the router makes of the platform keeps. -/
structure Serves (env : Env cfg σ π) (P : π → π → Prop) : Prop where
  refl : ∀ p, P p p
  trans : ∀ p q r, P p q → P q r → P p r
  send : ∀ p send command arg0 arg1 payload, env.transportSend = some send →
    P p (send p (encodeMessage command arg0 arg1 payload) payload).2
  resetTx : ∀ p, P p (env.usbResetTx p)
  malloc : ∀ p size, P p (env.malloc p size).2
  workReschedule : ∀ p, P p (env.workReschedule p).2

section Platform

variable {P : π → π → Prop}

theorem release_platform (env : Env cfg σ π) (s : Slot cfg) (w : World cfg σ π) :
    (releaseStream env s w).platform = w.platform := by
  unfold releaseStream
  dsimp only
  split_ifs <;> rfl

theorem closeAll_platform (env : Env cfg σ π) (w : World cfg σ π) :
    (closeAllStreams env w).platform = w.platform := by
  unfold closeAllStreams
  generalize List.finRange cfg.maxStreams = slots
  induction slots generalizing w with
  | nil => rfl
  | cons s slots ih => exact (ih _).trans (release_platform env s w)

theorem allocate_platform (remoteId : UInt32) (kind : ServiceKind) (w : World cfg σ π) :
    (allocateStream remoteId kind w).2.platform = w.platform := by
  unfold allocateStream
  split <;> rfl

theorem Serves.sends (serves : Serves env P) :
    Sends env (fun w v => P w.platform v.platform) where
  refl w := serves.refl w.platform
  trans _ _ _ := serves.trans _ _ _
  note w _ _ := serves.refl w.platform
  control w _ := serves.refl w.platform
  transmit w _ _ _ _ _ transport := serves.send w.platform _ _ _ _ _ transport
  mark w _ _ _ := serves.refl w.platform
  release w s := by
    rw [release_platform]
    exact serves.refl w.platform

theorem Serves.callback (serves : Serves env P) {α : Type} (program : Callback cfg σ α)
    (w : World cfg σ π) : P w.platform (callback env program w).2.platform :=
  serves.sends.callback program w fun w _ => serves.refl w.platform

theorem Serves.handles (serves : Serves env P) :
    Handles env (fun w v => P w.platform v.platform) where
  toSends := serves.sends
  takeId w _ := serves.refl w.platform
  reboot w _ := by
    have work := serves.workReschedule w.platform
    unfold webosAdbRebootRequest
    dsimp only
    split_ifs <;> exact work
  opened w v s remoteId kind suffix _ _ allocated := by
    have same := allocate_platform remoteId kind w
    rw [allocated] at same
    have called := serves.callback ((env.ops kind).openOp v.services s suffix) v
    rw [same] at called
    unfold settleOpen
    split_ifs
    · rw [release_platform]
      exact called
    · exact called
  wrote w _ _ _ _ _ _ _ _ := serves.callback _ w
  readied w _ _ _ _ _ _ _ := serves.callback _ w

theorem Serves.enters (serves : Serves env P) :
    Enters env (fun w v => P w.platform v.platform) where
  toHandles := serves.handles
  receiver w _ := serves.refl w.platform
  allocated w size := serves.malloc w.platform size
  connect w _ := by
    have restarted : P w.platform (restartSession env w).platform := by
      have same := closeAll_platform env { w with online := false }
      unfold restartSession
      dsimp only [World.note]
      split_ifs
      · rw [same]
        exact serves.resetTx w.platform
      · rw [same]
        exact serves.refl w.platform
    exact serves.sends.connect restarted fun v => serves.refl v.platform
  dispatched w _ := serves.refl w.platform
  dispatching w _ := serves.refl w.platform
  reset w := by
    have same : (protocolResetUnlocked env w).platform = w.platform :=
      closeAll_platform env (resetRx w)
    rw [same]
    exact serves.refl w.platform

end Platform

end Webos.Adb
