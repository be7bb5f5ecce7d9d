/- digest: Every OPEN gets one answer, except a logcat match without the shell prefix. -/

import Webos.Adb.Framing
import Webos.Adb.Router.Callbacks
import Webos.Adb.Router.Ids

namespace Webos.Adb

open Webos.Lib.Bytes Webos.Lib.Program

variable {cfg : Config} {σ π : Type} {env : Env cfg σ π}

/-- A transport that answers 0, -ENOSPC or -EBUSY, and a work queue that takes the reboot work,
which nothing ever cancels. -/
structure Obliging (env : Env cfg σ π) : Prop where
  transport : ∃ send, env.transportSend = some send ∧ ∀ platform header payload,
    (send platform header payload).1 = 0 ∨ flowControlError (send platform header payload).1 = true
  work : ∀ platform, 0 ≤ (env.workReschedule platform).1

/-- A packet that answers an OPEN from `remote`: OKAY, or the CLSE that names no local stream. -/
def Packet.answer (remote : UInt32) (p : Packet) : Option Packet :=
  if p.arg1 = remote ∧ (p.command = ADB_COMMAND_OKAY ∨ p.command = ADB_COMMAND_CLSE ∧ p.arg0 = 0)
  then some p else none

def Event.answer (remote : UInt32) : Event cfg → Option Packet
  | .accepted p => p.answer remote
  | _ => none

def answers (remote : UInt32) (log : List (Event cfg)) : List Packet :=
  log.filterMap (Event.answer remote)

def Packet.Answers (reply : Packet) : Prop :=
  reply.command = ADB_COMMAND_OKAY ∧ reply.arg0 ≠ 0 ∨ reply.command = ADB_COMMAND_CLSE

def AnsweredOnce (remote : UInt32) (log : List (Event cfg)) : Prop :=
  ∃ reply, answers remote log = [reply] ∧ reply.Answers

/-- The destination satisfies the logcat test of `handle_open`, which looks behind the first six
bytes, but these are not `shell:`. -/
def misrouted (cfg : Config) (destination : List UInt8) : Bool :=
  destination != ascii "track-jdwp" && destination != ascii "track-app" &&
    !(cfg.reboot && destination.take (ascii "reboot:").length == ascii "reboot:") &&
    (cfg.logcat && decide (destination.length ≥ (ascii "shell:").length) &&
      webosAdbLogcatMatches cfg (destination.drop (ascii "shell:").length)) &&
    destination.take (ascii "shell:").length != ascii "shell:"

section Replies

variable {remote : UInt32} {good : Int → Prop} {w v : World cfg σ π}

/-- Unless the control queue overflows, the result is good and the answers to `remote` are `ps`. -/
def Replies (remote : UInt32) (good : Int → Prop) (w : World cfg σ π) (out : Int × World cfg σ π)
    (ps : List Packet) : Prop :=
  ∃ new, out.2.log = w.log ++ new ∧ (.overflow ∉ new → good out.1 ∧ answers remote new = ps)

def Mute (remote : UInt32) (w v : World cfg σ π) : Prop :=
  ∃ new, v.log = w.log ++ new ∧ answers remote new = []

theorem Mute.of_log (same : v.log = w.log) : Mute remote w v :=
  ⟨[], by rw [same, List.append_nil], rfl⟩

theorem Mute.of_note {e : Event cfg} (noted : v.log = w.log ++ [e])
    (silent : e.answer remote = none) : Mute remote w v :=
  ⟨[e], noted, by simp [answers, silent]⟩

theorem Mute.trans {u : World cfg σ π} (first : Mute remote w v) (second : Mute remote v u) :
    Mute remote w u := by
  obtain ⟨new, grown, silent⟩ := first
  obtain ⟨later, grown', silent'⟩ := second
  refine ⟨new ++ later, by rw [grown', grown, List.append_assoc], ?_⟩
  unfold answers at silent silent' ⊢
  rw [List.filterMap_append, silent, silent']
  rfl

theorem Mute.release (env : Env cfg σ π) (s : Slot cfg) (w : World cfg σ π) :
    Mute remote w (releaseStream env s w) := by
  have log := releaseStream_log env s w
  split_ifs at log
  · exact .of_note log rfl
  · exact .of_log log

theorem Prepared.mute {own : Slot cfg → Prop} (prepared : Prepared own w v) :
    Mute remote w v := by
  obtain ⟨new, grown, noted⟩ := prepared.log
  refine ⟨new, grown, ?_⟩
  rw [answers, List.filterMap_eq_nil_iff]
  intro e member
  have quiet := noted e member
  cases e <;> first | rfl | cases quiet

variable {ps : List Packet} {out : Int × World cfg σ π}

theorem Replies.before (mute : Mute remote w v) (replies : Replies remote good v out ps) :
    Replies remote good w out ps := by
  obtain ⟨new, grown, silent⟩ := mute
  obtain ⟨later, grown', holds⟩ := replies
  refine ⟨new ++ later, by rw [grown', grown, List.append_assoc], fun calm => ?_⟩
  obtain ⟨fine, answered⟩ := holds (fun member => calm (List.mem_append_right _ member))
  refine ⟨fine, ?_⟩
  unfold answers at silent answered ⊢
  rw [List.filterMap_append, silent, answered, List.nil_append]

variable {ret : Int}

theorem Replies.after {ret' : Int} {u : World cfg σ π} {good' : Int → Prop}
    (replies : Replies remote good w (ret, v) ps) (mute : Mute remote v u)
    (turns : good ret → good' ret') : Replies remote good' w (ret', u) ps := by
  obtain ⟨new, grown, holds⟩ := replies
  obtain ⟨later, grown', silent⟩ := mute
  refine ⟨new ++ later, by rw [grown', grown, List.append_assoc], fun calm => ?_⟩
  obtain ⟨fine, answered⟩ := holds (fun member => calm (List.mem_append_left _ member))
  refine ⟨turns fine, ?_⟩
  unfold answers at silent answered ⊢
  rw [List.filterMap_append, silent, answered, List.append_nil]

variable {first : Int × World cfg σ π}

theorem Replies.seq (next : World cfg σ π → Int × World cfg σ π) {qs : List Packet}
    (one : Replies remote (· = 0) w first ps)
    (two : first.1 = 0 → Replies remote good first.2 (next first.2) qs) :
    Replies remote good w (if first.1 = 0 then next first.2 else first) (ps ++ qs) := by
  obtain ⟨new, grown, holds⟩ := one
  split_ifs with ok
  · obtain ⟨later, grown', holds'⟩ := two ok
    refine ⟨new ++ later, by rw [grown', grown, List.append_assoc], fun calm => ?_⟩
    obtain ⟨-, answered⟩ := holds (fun member => calm (List.mem_append_left _ member))
    obtain ⟨fine, answered'⟩ := holds' (fun member => calm (List.mem_append_right _ member))
    refine ⟨fine, ?_⟩
    unfold answers at answered answered' ⊢
    rw [List.filterMap_append, answered, answered']
  · exact ⟨new, grown, fun calm => absurd (holds calm).1 ok⟩

theorem Mute.replies (mute : Mute remote w v) (fine : good ret) :
    Replies remote good w (ret, v) [] := by
  obtain ⟨new, grown, silent⟩ := mute
  exact ⟨new, grown, fun _ => ⟨fine, silent⟩⟩

theorem Mute.sendPacketRaw (env : Env cfg σ π) (command arg0 arg1 : UInt32) (payload : List UInt8)
    (w : World cfg σ π) : Mute remote w (sendPacketRaw env command arg0 arg1 payload w).2 := by
  unfold Adb.sendPacketRaw
  split
  · exact .of_log rfl
  · exact .of_note rfl rfl

theorem sendPacketRaw_polite (obliging : Obliging env) (command arg0 arg1 : UInt32)
    (payload : List UInt8) (w : World cfg σ π) :
    (sendPacketRaw env command arg0 arg1 payload w).1 = 0 ∨
      flowControlError (sendPacketRaw env command arg0 arg1 payload w).1 = true := by
  obtain ⟨send, present, polite⟩ := obliging.transport
  unfold sendPacketRaw
  rw [present]
  exact polite _ _ _

theorem enqueueControl_replies (remote command arg0 arg1 : UInt32) (w : World cfg σ π) :
    Replies remote (· = 0) w (enqueueControl command arg0 arg1 [] w) [] := by
  unfold enqueueControl
  split_ifs with long
  · cases long
  · exact ⟨[.overflow], rfl, fun calm => absurd List.mem_cons_self calm⟩
  · exact (Mute.of_log rfl).replies rfl

theorem routeControl_replies (obliging : Obliging env) (remote command arg0 arg1 : UInt32)
    (w : World cfg σ π) :
    Replies remote (· = 0) w (routeControl env command arg0 arg1 [] w) [] := by
  have polite := sendPacketRaw_polite obliging command arg0 arg1 [] w
  have mute : Mute remote w _ := .sendPacketRaw env command arg0 arg1 [] w
  unfold routeControl
  dsimp only
  split_ifs with queued pressed
  · exact enqueueControl_replies remote command arg0 arg1 w
  · exact .before mute (enqueueControl_replies remote command arg0 arg1 _)
  · exact mute.replies (polite.resolve_right pressed)

theorem sendControl_replies (obliging : Obliging env) (remote command arg0 arg1 : UInt32)
    (w : World cfg σ π) :
    Replies remote (· = 0) w (sendControl env command arg0 arg1 [] w)
      (Packet.answer remote ⟨command, arg0, arg1, []⟩).toList := by
  obtain ⟨new, grown, holds⟩ := routeControl_replies obliging remote command arg0 arg1 w
  unfold sendControl
  dsimp only at grown holds ⊢
  split_ifs with ok
  · refine ⟨new ++ [.accepted ⟨command, arg0, arg1, []⟩], ?_, fun calm => ⟨ok, ?_⟩⟩
    · rw [note_log, grown, List.append_assoc]
    · obtain ⟨-, silent⟩ := holds (fun member => calm (List.mem_append_left _ member))
      unfold answers at silent ⊢
      rw [List.filterMap_append, silent]
      cases answer : Packet.answer remote ⟨command, arg0, arg1, []⟩ with
      | none => simp [Event.answer, answer]
      | some reply => simp [Event.answer, answer]
  · exact ⟨new, grown, fun calm => absurd (holds calm).1 ok⟩

theorem answer_ready (localId : UInt32) :
    Packet.answer remote ⟨ADB_COMMAND_OKAY, localId, remote, []⟩ =
      some ⟨ADB_COMMAND_OKAY, localId, remote, []⟩ :=
  if_pos ⟨rfl, .inl rfl⟩

theorem answer_refusal :
    Packet.answer remote ⟨ADB_COMMAND_CLSE, 0, remote, []⟩ =
      some ⟨ADB_COMMAND_CLSE, 0, remote, []⟩ :=
  if_pos ⟨rfl, .inr ⟨rfl, rfl⟩⟩

theorem answer_close {localId remoteId : UInt32} (named : localId ≠ 0) :
    Packet.answer remote ⟨ADB_COMMAND_CLSE, localId, remoteId, []⟩ = none := by
  refine if_neg (fun answer => ?_)
  rcases answer.2 with okay | refusal
  · exact absurd okay (show ADB_COMMAND_CLSE ≠ ADB_COMMAND_OKAY by decide)
  · exact named refusal.2

theorem sendReady_replies (obliging : Obliging env) (remote localId : UInt32) (w : World cfg σ π) :
    Replies remote (· = 0) w (sendReady env localId remote w)
      [⟨ADB_COMMAND_OKAY, localId, remote, []⟩] := by
  have sent := sendControl_replies obliging remote ADB_COMMAND_OKAY localId remote w
  rw [answer_ready] at sent
  exact sent

theorem refuse_replies (obliging : Obliging env) (w : World cfg σ π) :
    Replies remote (· = 0) w (sendClose env 0 remote w) [⟨ADB_COMMAND_CLSE, 0, remote, []⟩] := by
  have sent := sendControl_replies obliging remote ADB_COMMAND_CLSE 0 remote w
  rw [answer_refusal] at sent
  exact sent

theorem Replies.noteIf {e : Event cfg} (replies : Replies remote good w (ret, v) ps)
    (silent : e.answer remote = none) :
    Replies remote good w (ret, if ret = 0 then v.note e else v) ps := by
  split_ifs
  · exact replies.after (.of_note rfl silent) id
  · exact replies

theorem flushClose_replies (obliging : Obliging env) (remote : UInt32) (s : Slot cfg)
    (named : (w.streams s).localId ≠ 0) : Replies remote (· = 0) w (flushClose env s w) [] := by
  have sent := sendControl_replies obliging remote ADB_COMMAND_CLSE (w.streams s).localId
    (w.streams s).remoteId w
  rw [answer_close named] at sent
  unfold flushClose sendCloseFor sendClose
  generalize sendControl env ADB_COMMAND_CLSE (w.streams s).localId (w.streams s).remoteId
    [] w = out
    at sent
  have noted := sent.noteIf (e := .clse s) rfl
  dsimp only
  split_ifs at noted ⊢ with closing failed
  all_goals first
    | exact (Mute.of_log rfl).replies rfl
    | exact noted
    | exact noted.after (.release env s _) (fun _ => rfl)

theorem Replies.weaken (replies : Replies remote (· = 0) w out ps) :
    Replies remote (fun ret => ret = 0 ∨ flowControlError ret = true) w out ps := by
  obtain ⟨new, grown, holds⟩ := replies
  exact ⟨new, grown, fun calm => ⟨.inl (holds calm).1, (holds calm).2⟩⟩

theorem flushStream_replies (obliging : Obliging env) (remote : UInt32) (s : Slot cfg)
    (named : (w.streams s).localId ≠ 0) :
    Replies remote (fun ret => ret = 0 ∨ flowControlError ret = true) w
      (flushStream env s w) [] := by
  have polite := sendPacketRaw_polite obliging ADB_COMMAND_WRTE (w.streams s).localId
    (w.streams s).remoteId (w.streams s).txBytes w
  have mute : Mute remote w _ := .sendPacketRaw env ADB_COMMAND_WRTE (w.streams s).localId
    (w.streams s).remoteId (w.streams s).txBytes w
  unfold flushStream
  dsimp only
  generalize sendPacketRaw env ADB_COMMAND_WRTE (w.streams s).localId (w.streams s).remoteId
    (w.streams s).txBytes w = out at polite mute ⊢
  obtain ⟨ret, v⟩ := out
  have noted : Mute remote w (v.note (.wrte s (w.streams s).txBytes ret)) :=
    mute.trans (.of_note rfl rfl)
  split_ifs with waits queued failed
  · exact (Mute.of_log rfl).replies (.inr rfl)
  · exact noted.replies polite
  · refine .before (noted.trans (.of_log rfl)) (.weaken (flushClose_replies obliging remote s ?_))
    rw [setStream_streams, Function.update_self]
    exact named
  · exact (flushClose_replies obliging remote s named).weaken

theorem announceStream_replies (obliging : Obliging env) (s : Slot cfg)
    (named : (w.streams s).localId ≠ 0) (addressed : (w.streams s).remoteId = remote) :
    Replies remote (· = 0) w (announceStream env s w)
      [⟨ADB_COMMAND_OKAY, (w.streams s).localId, remote, []⟩] := by
  have ready := sendReady_replies obliging remote (w.streams s).localId w
  have streams := ((postedPosts env).sendReadyFor s w).streams
  have noted : Replies remote (· = 0) w (sendReadyFor env s w)
      [⟨ADB_COMMAND_OKAY, (w.streams s).localId, remote, []⟩] := by
    unfold sendReadyFor
    rw [addressed]
    exact ready.noteIf rfl
  have flushed := noted.seq (flushStream env s)
    (fun _ => flushStream_replies obliging remote s (by rw [streams]; exact named))
  unfold announceStream
  generalize sendReadyFor env s w = out at flushed
  obtain ⟨first, u⟩ := out
  dsimp only at flushed ⊢
  generalize (if first = 0 then flushStream env s u else (first, u)) = done at flushed
  obtain ⟨ret, v⟩ := done
  split_ifs with pressed failed
  · exact flushed.after (.of_log rfl) (fun _ => rfl)
  · refine flushed.after (.release env s v) (fun fine => ?_)
    exact fine.resolve_right pressed
  · exact flushed.after (.of_log rfl) (fun _ => rfl)

theorem allocate_stream (kind : ServiceKind) {w v : World cfg σ π} {s : Slot cfg}
    (allocated : allocateStream remote kind w = (some s, v)) :
    Mute remote w v ∧ (v.streams s).localId = w.nextLocalId ∧ (v.streams s).remoteId = remote ∧
      v.dispatching = w.dispatching := by
  unfold allocateStream at allocated
  split at allocated
  · cases allocated
  · cases allocated
    refine ⟨(Mute.of_note (v := (allocateLocalId w).2) rfl rfl).trans (.of_note rfl rfl),
      ?_, ?_, rfl⟩
    all_goals rw [note_streams, setStream_streams, Function.update_self]

variable {destination : List UInt8}

theorem openStream_replies (obliging : Obliging env) {pre : List UInt8} (kind : ServiceKind)
    (counter : w.nextLocalId ≠ 0) (dispatching : w.dispatching = true)
    (prefixed : destination.take pre.length = pre) : ∃ reply, reply.Answers ∧
      Replies remote (· = 0) w (openStream env destination remote pre kind w) [reply] := by
  have long : pre.length ≤ destination.length := by
    rw [← prefixed, List.length_take]
    omega
  have refusal : Packet.Answers ⟨ADB_COMMAND_CLSE, 0, remote, []⟩ := .inr rfl
  unfold openStream
  rw [if_neg (by simp [prefixed, long])]
  split
  · rename_i v full
    have same : Mute remote w v := by
      unfold allocateStream at full
      split at full
      · cases full
        exact .of_log rfl
      · cases full
    exact ⟨_, refusal, .before same (refuse_replies obliging v)⟩
  · rename_i s v allocated
    obtain ⟨taken, localId, remoteId, on⟩ := allocate_stream kind allocated
    have called := callback_anywhere env ((env.ops kind).openOp v.services s
      (destination.drop pre.length)) (on.trans dispatching)
    dsimp only
    split_ifs with refused
    · exact ⟨_, refusal, .before (taken.trans (called.mute.trans (.release env s _)))
        (refuse_replies obliging _)⟩
    · have kept := (called.filled s).same
      have named : ((callback env ((env.ops kind).openOp v.services s
          (destination.drop pre.length)) v).2.streams s).localId ≠ 0 := by
        rw [kept.localId, localId]
        exact counter
      exact ⟨_, .inl ⟨rfl, named⟩, .before (taken.trans called.mute)
        (announceStream_replies obliging s named (kept.remoteId.trans remoteId))⟩

theorem Replies.orElse (next : World cfg σ π → Int × World cfg σ π)
    (one : Replies remote (· = 0) w first ps) (grows : Keeps first.2 (next first.2).2) :
    Replies remote (· = 0) w (if first.1 ≠ -ENOENT then first else next first.2) ps := by
  obtain ⟨new, grown, holds⟩ := one
  split_ifs with taken
  · exact ⟨new, grown, holds⟩
  · obtain ⟨later, grown', -⟩ := grows.log
    refine ⟨new ++ later, by rw [grown', grown, List.append_assoc], fun calm => ?_⟩
    have zero := (holds (fun member => calm (List.mem_append_left _ member))).1
    rw [zero] at taken
    exact absurd (show (0 : Int) ≠ -ENOENT by decide) taken

theorem openIf_replies (obliging : Obliging env) (remote : UInt32) (enabled : Bool)
    (destination pre : List UInt8) (kind : ServiceKind) (counter : w.nextLocalId ≠ 0)
    (dispatching : w.dispatching = true) :
    openIf env enabled destination remote pre kind w = (-ENOENT, w) ∨ ∃ reply, reply.Answers ∧
      Replies remote (· = 0) w (openIf env enabled destination remote pre kind w) [reply] := by
  unfold openIf
  split_ifs
  · by_cases prefixed : destination.take pre.length = pre
    · exact .inr (openStream_replies obliging kind counter dispatching prefixed)
    · exact .inl (if_pos (by simp [prefixed]))
  · exact .inl rfl

theorem openService_replies (obliging : Obliging env) (remote : UInt32) (destination : List UInt8)
    (counter : w.nextLocalId ≠ 0) (online : w.online = true) (dispatching : w.dispatching = true) :
    ∃ reply, reply.Answers ∧
      Replies remote (· = 0) w (openService env destination remote w) [reply] := by
  let orClose (answer : Int × World cfg σ π) : Int × World cfg σ π :=
    if answer.1 ≠ -ENOENT then answer else sendClose env 0 remote answer.2
  unfold openService
  rcases openIf_replies obliging remote cfg.shell destination (ascii "shell:") .shell counter
    dispatching with declined | ⟨reply, answers, shell⟩
  · rw [declined]
    dsimp only
    rcases openIf_replies obliging remote cfg.sync destination (ascii "sync:") .sync counter
      dispatching with declined | ⟨reply, answers, sync⟩
    · rw [declined]
      exact ⟨_, .inr rfl, refuse_replies obliging w⟩
    · exact ⟨reply, answers, sync.orElse _ ((keepsSends env).sendClose 0 remote _)⟩
  · have calm :=
      (calmHandles env).openIf cfg.shell destination remote (ascii "shell:") .shell w online
      dispatching
    have sync := (keepsHandles env).openIf cfg.sync destination remote (ascii "sync:") .sync _
      (calm.online.trans online) (calm.dispatching.trans dispatching)
    refine ⟨reply, answers, shell.orElse (fun v =>
      orClose (openIf env cfg.sync destination remote (ascii "sync:") .sync v)) ?_⟩
    dsimp only [orClose]
    split_ifs
    · exact sync
    · exact sync.trans ((keepsSends env).sendClose 0 remote _)

theorem openReboot_replies (obliging : Obliging env) (remote : UInt32)
    (destination : List UInt8) (counter : w.nextLocalId ≠ 0) : ∃ reply, reply.Answers ∧
      Replies remote (· = 0) w (openReboot env destination remote w) [reply] := by
  have ready := sendReady_replies obliging remote w.nextLocalId (allocateLocalId w).2
  unfold openReboot
  by_cases named : destination.length ≠ (ascii "reboot:").length
  · rw [if_pos named]
    exact ⟨_, .inr rfl, refuse_replies obliging w⟩
  · rw [if_neg named]
    refine ⟨⟨ADB_COMMAND_OKAY, w.nextLocalId, remote, []⟩, .inl ⟨rfl, counter⟩,
      .before (v := (allocateLocalId w).2) (.of_note rfl rfl) ?_⟩
    have booted (v : World cfg σ π) : Replies remote (· = 0) v
      (webosAdbRebootRequest env v) [] := by
      have scheduled := obliging.work v.platform
      unfold webosAdbRebootRequest
      dsimp only
      rw [if_neg (Int.not_lt.mpr scheduled)]
      exact (Mute.of_note rfl rfl).replies rfl
    have both := ready.seq (webosAdbRebootRequest env) (fun _ => booted _)
    exact both

variable {p : WirePacket}

theorem handleOpen_destination (online : w.online = true) (loaded : w.rx = p.loaded)
    (named : p.arg0 ≠ 0) (fresh : p.arg1 = 0) (payload : p.payload = destination ++ [0]) :
    handleOpen env w =
      if destination == ascii "track-jdwp" || destination == ascii "track-app" then
        sendReady env w.nextLocalId p.arg0 (allocateLocalId w).2
      else if cfg.reboot && destination.take (ascii "reboot:").length == ascii "reboot:" then
        openReboot env destination p.arg0 w
      else if cfg.logcat && decide (destination.length ≥ (ascii "shell:").length) &&
          webosAdbLogcatMatches cfg (destination.drop (ascii "shell:").length) then
        openStream env destination p.arg0 (ascii "shell:") .logcat w
      else openService env destination p.arg0 w := by
  have length : (UInt32.ofNat p.payload.length).toNat = destination.length + 1 := by
    rw [show (UInt32.ofNat p.payload.length).toNat = p.payload.length from
      Nat.mod_eq_of_lt p.short, payload, List.length_append, List.length_singleton]
  have filled : p.payload ≠ [] := by
    rw [payload]
    simp
  have announced : UInt32.ofNat p.payload.length ≠ 0 := by
    intro zero
    rw [zero] at length
    cases length
  unfold handleOpen
  rw [loaded]
  simp only [WirePacket.loaded, WirePacket.message, filled, ↓reduceIte, Option.getD_some, length,
    Nat.add_sub_cancel]
  have terminated : p.payload.getD destination.length 1 = 0 := by
    rw [payload]
    simp
  have cut : p.payload.take destination.length = destination := by
    rw [payload, List.take_left]
  rw [terminated, cut, if_neg (by simp [online, named, fresh, announced])]
  rfl

theorem handleOpen_replies (obliging : Obliging env) (counter : w.nextLocalId ≠ 0)
    (online : w.online = true) (dispatching : w.dispatching = true) (loaded : w.rx = p.loaded)
    (named : p.arg0 ≠ 0) (fresh : p.arg1 = 0) (payload : p.payload = destination ++ [0]) :
    if misrouted cfg destination = true then handleOpen env w = (-ENOENT, w)
    else ∃ reply, reply.Answers ∧ Replies p.arg0 (· = 0) w (handleOpen env w) [reply] := by
  rw [handleOpen_destination online loaded named fresh payload]
  unfold misrouted
  by_cases tracking : (destination == ascii "track-jdwp" || destination == ascii "track-app") = true
  · rw [if_pos tracking, if_neg]
    · exact ⟨⟨ADB_COMMAND_OKAY, w.nextLocalId, p.arg0, []⟩, .inl ⟨rfl, counter⟩,
        .before (v := (allocateLocalId w).2) (.of_note rfl rfl) (sendReady_replies obliging _ _ _)⟩
    · rcases Bool.or_eq_true_iff.mp tracking with jdwp | app
      · simp [bne, jdwp]
      · simp [bne, app]
  by_cases reboot : (cfg.reboot &&
      destination.take (ascii "reboot:").length == ascii "reboot:") = true
  · rw [if_neg tracking, if_pos reboot, if_neg (by simp [reboot])]
    exact openReboot_replies obliging p.arg0 destination counter
  by_cases logcat : (cfg.logcat && decide (destination.length ≥ (ascii "shell:").length) &&
      webosAdbLogcatMatches cfg (destination.drop (ascii "shell:").length)) = true
  · rw [if_neg tracking, if_neg reboot, if_pos logcat]
    by_cases prefixed : destination.take (ascii "shell:").length = ascii "shell:"
    · rw [if_neg (by simp [prefixed])]
      exact openStream_replies obliging .logcat counter dispatching prefixed
    · simp only [Bool.or_eq_true, not_or, Bool.not_eq_true] at tracking reboot
      rw [if_pos]
      · exact if_pos (by simp [prefixed])
      · rw [reboot, logcat, bne, bne, tracking.1, tracking.2]
        simp [prefixed]
  · rw [if_neg tracking, if_neg reboot, if_neg logcat, if_neg]
    · exact openService_replies obliging p.arg0 destination counter online dispatching
    · rw [Bool.not_eq_true] at logcat
      rw [logcat]
      simp

theorem dispatchMessage_open (env : Env cfg σ π) (loaded : w.rx = p.loaded)
    (command : p.command = ADB_COMMAND_OPEN) (sum : checksumPasses p.loaded = true) : ∃ call,
      dispatchMessage env w =
        ((handleOpen env w).1, (handleOpen env w).2.note (.dispatched call)) := by
  have routed : routeMessage env w = handleOpen env w := by
    unfold routeMessage
    rw [show w.rx.message.command = ADB_COMMAND_OPEN by rw [loaded]; exact command,
      if_neg (by decide), if_pos rfl]
  unfold dispatchMessage
  rw [if_pos (by rw [loaded]; exact sum), routed]
  exact ⟨_, rfl⟩

theorem dispatch_open (obliging : Obliging env) (counter : w.nextLocalId ≠ 0)
    (online : w.online = true) (dispatching : w.dispatching = true) (loaded : w.rx = p.loaded)
    (command : p.command = ADB_COMMAND_OPEN) (named : p.arg0 ≠ 0) (fresh : p.arg1 = 0)
    (payload : p.payload = destination ++ [0]) (sum : checksumPasses p.loaded = true) :
    ∃ new, (dispatchMessage env w).2.log = w.log ++ new ∧ (.overflow ∉ new →
      ((dispatchMessage env w).1 = 0 ∧ AnsweredOnce p.arg0 new ↔
        misrouted cfg destination = false)) := by
  have branches := handleOpen_replies obliging counter online dispatching loaded named fresh payload
  obtain ⟨call, noted⟩ := dispatchMessage_open env loaded command sum
  have quiet (new : List (Event cfg)) :
      answers p.arg0 (new ++ [.dispatched call]) = answers p.arg0 new := by
    simp [answers, Event.answer]
  rw [noted]
  cases lost : misrouted cfg destination with
  | true =>
    rw [if_pos lost] at branches
    rw [branches]
    have failed : (-ENOENT : Int) ≠ 0 := by decide
    exact ⟨[.dispatched call], rfl, fun _ => ⟨fun claimed => absurd claimed.1 failed,
      fun no => nomatch no⟩⟩
  | false =>
    rw [if_neg (by simp [lost])] at branches
    obtain ⟨reply, fine, new, grown, holds⟩ := branches
    generalize handleOpen env w = out at grown holds
    obtain ⟨ret, v⟩ := out
    dsimp only at grown holds ⊢
    refine ⟨new ++ [.dispatched call], ?_, fun calm => ⟨fun _ => rfl, fun _ => ?_⟩⟩
    · rw [note_log, grown, List.append_assoc]
    · obtain ⟨zero, answered⟩ := holds (fun member => calm (List.mem_append_left _ member))
      exact ⟨zero, reply, (quiet new).trans answered, fine⟩

end Replies

section Routing

variable {w : World cfg σ π}

theorem since_of_log {v : World cfg σ π} {new : List (Event cfg)} (grown : v.log = w.log ++ new) :
    w.since v = new := by
  rw [World.since, grown, List.drop_left]

theorem servePacket_refused {p : WirePacket} (refused : p.headerRefused env w = true) :
    (servePacket env p w).1 ≠ 0 := by
  have outside : p.headerRefused env w.enter = p.headerRefused env w := rfl
  rw [← outside] at refused
  unfold WirePacket.headerRefused at refused
  unfold servePacket framePacket
  by_cases long : cfg.maxPayload < p.payload.length
  · simp only [if_pos long]
    decide
  · simp only [long, decide_false, Bool.false_or, Bool.and_eq_true, Bool.not_eq_true',
      List.isEmpty_eq_false_iff] at refused
    simp only [if_neg long, if_neg refused.1, refused.2, Bool.false_eq_true, ↓reduceIte]
    decide

theorem headerRefused_eq_false {p : WirePacket} (filled : p.payload ≠ []) :
    p.headerRefused env w = false ↔ p.payload.length ≤ cfg.maxPayload ∧
      (env.malloc w.platform p.payload.length).1 = true := by
  simp [WirePacket.headerRefused, filled]

/-- An OPEN is answered once, and is no error, exactly when its destination is not misrouted; as a
buffer of its own it must also pass the length check and find memory. -/
theorem open_answered_once (obliging : Obliging env) (visited : Visited env w)
    (online : w.online = true) {destination : List UInt8} {p : WirePacket}
    (command : p.command = ADB_COMMAND_OPEN) (named : p.arg0 ≠ 0) (fresh : p.arg1 = 0)
    (payload : p.payload = destination ++ [0]) (sum : checksumPasses p.loaded = true) :
    (∀ rest, w.dispatching = true →
      let (ret, _, v) := finishMessage env rest { w with rx := p.loaded }
      .overflow ∉ w.since v →
        (ret = none ∧ AnsweredOnce p.arg0 (w.since v) ↔ misrouted cfg destination = false)) ∧
    (w.rx = Rx.zero →
      let (ret, v) := webosAdbProtocolReceive env p.bytes w
      .overflow ∉ w.since v → (ret = 0 ∧ AnsweredOnce p.arg0 (w.since v) ↔
          p.headerRefused env w = false ∧ misrouted cfg destination = false)) := by
  have counter := (visited_identified visited).counter
  refine ⟨fun rest dispatching => ?_, fun reset => ?_⟩
  · obtain ⟨new, grown, holds⟩ := dispatch_open (w := { w with rx := p.loaded }) obliging counter
      online dispatching rfl command named fresh payload sum
    have window : w.since (resetRx (dispatchMessage env { w with rx := p.loaded }).2) = new :=
      since_of_log grown
    unfold finishMessage
    dsimp only
    rw [window]
    intro calm
    rw [← holds calm]
    simp
  · have filled : p.payload ≠ [] := by
      rw [payload]
      simp
    rw [receive_packet env p reset]
    cases header : p.headerRefused env w with
    | true => simp [servePacket_refused header]
    | false =>
      obtain ⟨fits, found⟩ := (headerRefused_eq_false filled).mp header
      obtain ⟨new, grown, holds⟩ := dispatch_open (w := arrive env p w) obliging counter online rfl
        rfl command named fresh payload sum
      have window : w.since (resetRx (dispatchMessage env (arrive env p w)).2).leave =
          [.alloc p.payload.length true] ++ new := by
        refine since_of_log (grown.trans ?_)
        rw [← List.append_assoc]
        rfl
      have same : answers p.arg0 ([.alloc p.payload.length true] ++ new) = answers p.arg0 new := rfl
      rw [servePacket_arrive env p fits filled found]
      dsimp only
      rw [window, AnsweredOnce, same]
      intro calm
      rw [← holds (fun member => calm (List.mem_append_right _ member))]
      simp [AnsweredOnce]

def connected : World Config.project Unit Unit :=
  (protocolResetUnlocked (Env.ideal _) (World.boot _ () ())).inputs (Env.ideal _)
    [.receive connectPacket.bytes]

theorem open_answered_once_shell :
    let env := Env.ideal Config.project
    let (ret, v) := webosAdbProtocolReceive env shellPacket.bytes connected
    ret = 0 ∧ AnsweredOnce 7 (connected.since v) := by
  have obliging : Obliging (Env.ideal Config.project) :=
    ⟨⟨_, rfl, fun _ _ _ => .inl rfl⟩, fun _ => Int.le_refl 0⟩
  have answered := (open_answered_once obliging (.inputs _ (.boot () ()))
    (show connected.online = true by decide +kernel) (p := shellPacket) rfl (by decide) rfl
    (show _ = ascii "shell:" ++ [0] from rfl) (by decide)).2 (receive_packet_rx _ connectPacket rfl)
  exact (answered (by decide +kernel)).mpr (by decide +kernel)

/-- `hello:logcat` satisfies the logcat test but has no `shell:` in front: the OPEN is an error and
nobody answers it. -/
theorem misrouted_open_unanswered :
    let env := Env.ideal Config.project
    let (ret, v) := webosAdbProtocolReceive env
      (openPacket 7 "hello:logcat" (by decide)).bytes connected
    Visited env connected ∧ connected.online = true ∧ Event.overflow ∉ connected.since v ∧
      ret = -ENOENT ∧ answers 7 (connected.since v) = [] :=
  ⟨.inputs _ (.boot () ()), by decide +kernel⟩

end Routing

end Webos.Adb
