/- digest: The packets of a stream take its session on as the session's own model does. -/

import Webos.Adb.Contexts
import Webos.Adb.Shell.Interactive
import Webos.Adb.Sync.Answers

namespace Webos.Adb

open Webos.Lib.Bytes Webos.Lib.Program

section Packets

variable {cfg : Config} {σ π : Type} {env : Env cfg σ π} {w : World cfg σ π} {s : Slot cfg}
  {p : WirePacket}

/-- A packet of a stream that an idle receiver routes: data, or the OKAY that is awaited. -/
structure Addressed (env : Env cfg σ π) (s : Slot cfg) (w : World cfg σ π) (p : WirePacket) :
    Prop where
  idle : w.rx = Rx.zero
  taken : p.headerRefused env w = false
  intact : checksumPasses p.loaded = true
  named : findStream w p.arg1 p.arg0 = some s
  command : p.command = ADB_COMMAND_WRTE ∨ p.command = ADB_COMMAND_OKAY ∧
    (w.streams s).awaitingAck = true ∧ (w.streams s).txPending = false

def Conversation (env : Env cfg σ π) (s : Slot cfg) : World cfg σ π → List WirePacket → Prop
  | _, [] => True
  | w, p :: later =>
    Addressed env s w p ∧ Conversation env s (w.input env (.receive p.bytes)) later

theorem Addressed.routed (addressed : Addressed env s w p) : ∃ platform log e,
    w.input env (.receive p.bytes) = (resetRx ((routeMessage env
      { w with rx := p.loaded, dispatching := true, platform, log }).2.note e)).leave := by
  have dispatched (v : World cfg σ π) : ∃ e, (dispatchPacket env p v).2 =
      resetRx ((routeMessage env { v with rx := p.loaded }).2.note e) := by
    unfold dispatchPacket dispatchMessage
    rw [if_pos addressed.intact]
    exact ⟨_, rfl⟩
  have taken := addressed.taken
  simp only [WirePacket.headerRefused, Bool.or_eq_false_iff, decide_eq_false_iff_not,
    Bool.and_eq_false_iff, Bool.not_eq_false'] at taken
  show ∃ platform log e, (webosAdbProtocolReceive env p.bytes w).2 = _
  rw [receive_packet env p addressed.idle, servePacket, framePacket, if_neg taken.1]
  by_cases empty : p.payload = []
  · obtain ⟨e, same⟩ := dispatched w.enter
    rw [if_pos empty]
    exact ⟨w.platform, w.log, e, congrArg World.leave same⟩
  · have found : (env.malloc w.enter.platform p.payload.length).1 = true :=
      taken.2.resolve_left fun none => empty (List.isEmpty_iff.mp none)
    rw [if_neg empty]
    dsimp only
    rw [if_pos found]
    obtain ⟨e, same⟩ := dispatched _
    exact ⟨_, _, e, congrArg World.leave same⟩

theorem routeMessage_write (write : w.rx.message.command = ADB_COMMAND_WRTE) :
    routeMessage env w = handleWrite env w := by
  rw [routeMessage, write]
  rfl

theorem routeMessage_ready (ready : w.rx.message.command = ADB_COMMAND_OKAY) :
    routeMessage env w = handleReady env w := by
  rw [routeMessage, ready]
  rfl

end Packets

namespace System

variable {cfg : Config} {β φ μ π : Type} {parts : Parts cfg β φ μ}
  {base : Env cfg (Services parts) π} {w : World cfg (Services parts) π} {s : Slot cfg}
  {p : WirePacket} {v : World cfg (Services parts) π}

section Shell

variable {i : Fin parts.shell.maxStreams}

def terminal (w : World cfg (Services parts) π) (s : Slot cfg) (i : Fin parts.shell.maxStreams) :
    Shell.Terminal cfg β :=
  ⟨w.services.shell.enter i, w.uplink s⟩

/-- What a packet leaves of a terminal: another one, or none when its stream is closed. -/
def TerminalRests (s : Slot cfg) (i : Fin parts.shell.maxStreams) (y : Shell.Terminal cfg β)
    (v : World cfg (Services parts) π) : Prop :=
  ((v.streams s).used = true ∧ terminal v s i = y) ∨
    (y.uplink.finished = true ∧ (v.streams s).used = false)

theorem terminal_rests {l : Shell.Local cfg β} {r : Uplink cfg} {st : Services parts}
    (rests : Rests s r (setShell (st.shell.leave i l) st) v) : TerminalRests s i ⟨l, r⟩ v := by
  rcases rests with ⟨used, uplink, services⟩ | gone
  · refine Or.inl ⟨used, ?_⟩
    unfold terminal
    rw [uplink, services]
    unfold setShell Shell.Statics.leave Shell.Statics.enter
    dsimp only
    rw [Function.update_self]
  · exact Or.inr gone

theorem handleWrite_terminal (found : findStream w w.rx.message.arg1 w.rx.message.arg0 = some s)
    (kind : (w.streams s).ops = some .shell)
    (held : Shell.findContext w.services.shell (some s) = some i)
    (dispatching : w.dispatching = true) :
    TerminalRests s i ((terminal w s i).next parts.shell parts.backend
      (.write (w.rx.payload.getD []))) (handleWrite (env parts base) w).2 := by
  have meets := write_effect .shell (rfl : (ops parts .shell).writeOp = _) w.services s
    (w.rx.payload.getD [])
  have rests := handleWrite_uplink (env parts base) found (by rw [kind]; rfl) meets dispatching
  rw [run_bind, Shell.adbShellWrite, held] at rests
  rw [run_bind] at rests
  exact terminal_rests rests

theorem handleReady_terminal (found : findStream w w.rx.message.arg1 w.rx.message.arg0 = some s)
    (kind : (w.streams s).ops = some .shell)
    (held : Shell.findContext w.services.shell (some s) = some i)
    (dispatching : w.dispatching = true) (awaiting : (w.streams s).awaitingAck = true)
    (sent : (w.streams s).txPending = false) :
    TerminalRests s i ((terminal w s i).next parts.shell parts.backend .acknowledge)
      (handleReady (env parts base) w).2 := by
  have meets := ready_effect .shell (rfl : (ops parts .shell).txReadyOp = _) w.services s
  have rests := handleReady_uplink (env parts base) found (by rw [kind]; rfl) meets dispatching
    awaiting sent
  rw [run_bind, Shell.adbShellTxReady, held] at rests
  rw [run_bind] at rests
  unfold Shell.Terminal.next Routine.exec terminal
  dsimp only
  generalize (Shell.resumeSession parts.shell parts.backend (w.services.shell.enter i)).run
    Uplink.api { w.uplink s with busy := false } = out at rests ⊢
  split_ifs at rests ⊢
  all_goals exact terminal_rests rests

def delivery (p : WirePacket) : Shell.Delivery :=
  if p.command = ADB_COMMAND_WRTE then .write p.payload else .acknowledge

theorem shell_found (running : Running parts base w) (held : shellOwner w.services i = some s) :
    Shell.findContext w.services.shell (some s) = some i := by
  cases found : Shell.findContext w.services.shell (some s) with
  | none => exact absurd held (Shell.findContext_none found i)
  | some j => rw [running.shellInStep.unique j i s (Shell.findContext_some found) held]

theorem packet_terminal (running : Running parts base w)
    (held : shellOwner w.services i = some s) (addressed : Addressed (env parts base) s w p) :
    TerminalRests s i ((terminal w s i).next parts.shell parts.backend (delivery p))
      (w.input (env parts base) (.receive p.bytes)) := by
  obtain ⟨platform, log, e, whole⟩ := addressed.routed
  have kind := (running.shellInStep.sound i s held).2
  have found := shell_found running held
  rw [whole, delivery]
  rcases addressed.command with write | ⟨ready, awaiting, sent⟩
  · rw [if_pos write, routeMessage_write write, ← p.loaded_payload]
    exact handleWrite_terminal (w := { w with rx := p.loaded, dispatching := true, platform, log })
      addressed.named kind found rfl
  · rw [if_neg (by rw [ready]; decide), routeMessage_ready ready]
    exact handleReady_terminal (w := { w with rx := p.loaded, dispatching := true, platform, log })
      addressed.named kind found rfl awaiting sent

theorem next_stream {x : Shell.Terminal cfg β} (mine : x.mine.ctx.stream = some s)
    (d : Shell.Delivery) : (x.next parts.shell parts.backend d).mine.ctx.stream = some s := by
  cases d with
  | write data => exact (Shell.writeSession_owned data _ mine).result Uplink.api x.uplink
  | acknowledge =>
    exact (Shell.resumeSession_owned _ mine).result Uplink.api { x.uplink with busy := false }

/-- Whatever the rest of the device does before, the packets of a shell stream take its session
and its transmit slot where the same deliveries take the terminal. -/
theorem shell_conversation (running : Running parts base w)
    (held : shellOwner w.services i = some s) (packets : List WirePacket)
    (talk : Conversation (env parts base) s w packets) :
    TerminalRests s i ((packets.map delivery).foldl
        (Shell.Terminal.next parts.shell parts.backend) (terminal w s i))
      (w.inputs (env parts base) (packets.map fun p => .receive p.bytes)) := by
  induction packets generalizing w with
  | nil => exact .inl ⟨(running.shellInStep.sound i s held).1, rfl⟩
  | cons p later ih =>
    obtain ⟨addressed, talk⟩ := talk
    have rests := packet_terminal running held addressed
    cases later with
    | nil => exact rests
    | cons q later =>
      -- a stream that gets another packet was not closed by this one
      rcases rests with ⟨-, same⟩ | ⟨-, gone⟩
      · have kept : (terminal (w.input (env parts base) (.receive p.bytes)) s i).mine.ctx.stream =
            some s := same ▸ next_stream held (delivery p)
        have next := ih (running.input _) kept talk
        rw [same] at next
        exact next
      · cases gone.symm.trans (find_used talk.1.named)

def commandTalk : List WirePacket :=
  [hostPacket ADB_COMMAND_OKAY [] empty_short,
    hostPacket ADB_COMMAND_WRTE (ascii "ls\r") (by decide)]

theorem shell_conversation_ls : ∃ i, shellOwner shellAndSync.services i = some firstSlot ∧
    TerminalRests firstSlot i ((commandTalk.map delivery).foldl
        (Shell.Terminal.next Parts.project.shell Parts.project.backend)
        (terminal shellAndSync firstSlot i))
      (shellAndSync.inputs (env _ (Env.accepting _))
        (commandTalk.map fun p => .receive p.bytes)) := by
  have running : Running _ _ shellAndSync := .inputs _ .start
  have live : Live .shell shellAndSync firstSlot := by
    unfold Live
    decide +kernel
  obtain ⟨i, held⟩ := running.shellInStep.complete firstSlot live
  refine ⟨i, held, shell_conversation running held commandTalk ?_⟩
  refine ⟨⟨?_, ?_, ?_, ?_, ?_⟩, ⟨?_, ?_, ?_, ?_, ?_⟩, trivial⟩
  all_goals decide +kernel

end Shell

section Sync

variable {i : Slot cfg} {x : Sync.Exchange cfg}

def Carries (w : World cfg (Services parts) π) (s i : Slot cfg) (x : Sync.Exchange cfg) : Prop :=
  w.services.sync.contexts i = x.ctx ∧ w.uplink s = x.outbox.uplink

def ExchangeRests (s i : Slot cfg) (y : Sync.Exchange cfg) (v : World cfg (Services parts) π) :
    Prop :=
  ((v.streams s).used = true ∧ Carries v s i y) ∨
    (y.outbox.uplink.finished = true ∧ (v.streams s).used = false)

private theorem run_offering {α : Type} (program : Prog (StreamCall cfg) StreamCall.Reply α)
    (r : Sync.Outbox cfg) :
    (program.run Sync.offering r).1 = (program.run Uplink.api r.uplink).1 ∧
      (program.run Sync.offering r).2.uplink = (program.run Uplink.api r.uplink).2 := by
  refine run_simulated Sync.offering Uplink.api (fun r u => r.uplink = u) ?_ program r r.uplink rfl
  rintro (⟨stream, generation, data⟩ | ⟨stream, generation⟩ | stream | stream) r u rfl
  all_goals exact ⟨rfl, rfl⟩

theorem handleWrite_exchange (found : findStream w w.rx.message.arg1 w.rx.message.arg0 = some s)
    (kind : (w.streams s).ops = some .sync)
    (held : Sync.findContext w.services.sync s = some i)
    (dispatching : w.dispatching = true) (carries : Carries w s i x) :
    ExchangeRests s i (x.next parts.fs i (.write w.services.sync.sideNonce w.services.sync.disk
      (w.rx.payload.getD []))) (handleWrite (env parts base) w).2 := by
  have meets := write_effect .sync (rfl : (ops parts .sync).writeOp = _) w.services s
    (w.rx.payload.getD [])
  have rests := handleWrite_uplink (env parts base) found (by rw [kind]; rfl) meets dispatching
  rw [run_bind, Sync.run_syncWrite parts.fs Uplink.api held] at rests
  have start : w.services.sync.enter i =
      ⟨x.ctx, w.services.sync.sideNonce, w.services.sync.disk⟩ := by
    rw [← carries.1]
    rfl
  have recorded := run_offering (Sync.syncLoop parts.fs i ((w.rx.payload.getD []).length + 1)
    (w.rx.payload.getD []) (w.services.sync.enter i)) x.outbox
  rw [carries.2] at rests
  unfold Routine.exec at rests
  dsimp only at rests
  rw [← recorded.1, ← recorded.2, start] at rests
  rcases rests with ⟨used, uplink, services⟩ | gone
  · refine Or.inl ⟨used, ?_, uplink⟩
    rw [services]
    exact Function.update_self _ _ _
  · exact Or.inr gone

theorem handleReady_exchange (found : findStream w w.rx.message.arg1 w.rx.message.arg0 = some s)
    (kind : (w.streams s).ops = some .sync) (dispatching : w.dispatching = true)
    (awaiting : (w.streams s).awaitingAck = true) (sent : (w.streams s).txPending = false)
    (carries : Carries w s i x) :
    ExchangeRests s i (x.next parts.fs i .acknowledge) (handleReady (env parts base) w).2 := by
  have meets := ready_effect .sync (rfl : (ops parts .sync).txReadyOp = _) w.services s
  have rests := handleReady_uplink (env parts base) found (by rw [kind]; rfl) meets dispatching
    awaiting sent
  rw [run_bind, carries.2] at rests
  rcases rests with ⟨used, uplink, services⟩ | gone
  · refine Or.inl ⟨used, ?_, uplink⟩
    rw [services]
    exact carries.1
  · exact Or.inr gone

def arrival (w : World cfg (Services parts) π) (p : WirePacket) : Sync.Arrival φ :=
  if p.command = ADB_COMMAND_WRTE then
    .write w.services.sync.sideNonce w.services.sync.disk p.payload
  else .acknowledge

def arrivals (env : Env cfg (Services parts) π) :
    World cfg (Services parts) π → List WirePacket → List (Sync.Arrival φ)
  | _, [] => []
  | w, p :: later => arrival w p :: arrivals env (w.input env (.receive p.bytes)) later

theorem packet_exchange (running : Running parts base w) (held : syncOwner w.services i = some s)
    (carries : Carries w s i x) (addressed : Addressed (env parts base) s w p) :
    ExchangeRests s i (x.next parts.fs i (arrival w p))
      (w.input (env parts base) (.receive p.bytes)) := by
  obtain ⟨platform, log, e, whole⟩ := addressed.routed
  have kind := (running.syncInStep.sound i s held).2
  rw [whole, arrival]
  rcases addressed.command with write | ⟨ready, awaiting, sent⟩
  · have found : Sync.findContext w.services.sync s = some i := by
      cases found : Sync.findContext w.services.sync s with
      | none =>
        have test := List.find?_eq_none.mp found i (List.mem_finRange i)
        exact absurd (beq_iff_eq.mpr held) test
      | some j => rw [running.syncInStep.unique j i s (Sync.findContext_stream found) held]
    rw [if_pos write, routeMessage_write write, ← p.loaded_payload]
    exact handleWrite_exchange (w := { w with rx := p.loaded, dispatching := true, platform, log })
      addressed.named kind found rfl carries
  · rw [if_neg (by rw [ready]; decide), routeMessage_ready ready]
    exact handleReady_exchange (w := { w with rx := p.loaded, dispatching := true, platform, log })
      addressed.named kind rfl awaiting sent carries

theorem next_context (mine : x.ctx.stream = some s) (a : Sync.Arrival φ) :
    (x.next parts.fs i a).ctx.stream = some s := by
  cases a with
  | write sideNonce disk payload =>
    exact (Sync.syncLoop_owned (payload.length + 1) payload ⟨x.ctx, sideNonce, disk⟩ mine).result
      Sync.offering x.outbox
  | acknowledge => exact mine

/-- The packets of a sync stream take its context and its transmit slot where the same arrivals take
the exchange, with the token counter and the disk as each of them finds them. -/
theorem sync_conversation (running : Running parts base w)
    (held : syncOwner w.services i = some s) (carries : Carries w s i x)
    (packets : List WirePacket) (talk : Conversation (env parts base) s w packets) :
    ExchangeRests s i (x.run parts.fs i (arrivals (env parts base) w packets))
      (w.inputs (env parts base) (packets.map fun p => .receive p.bytes)) := by
  induction packets generalizing w x with
  | nil => exact .inl ⟨(running.syncInStep.sound i s held).1, carries⟩
  | cons p later ih =>
    obtain ⟨addressed, talk⟩ := talk
    have rests := packet_exchange running held carries addressed
    cases later with
    | nil => exact rests
    | cons q later =>
      rcases rests with ⟨-, next⟩ | ⟨-, gone⟩
      · have mine : x.ctx.stream = some s := carries.1 ▸ held
        have kept : syncOwner (w.input (env parts base) (.receive p.bytes)).services i = some s :=
          (congrArg Sync.SyncContext.stream next.1).trans (next_context mine _)
        exact ih (running.input _) kept next talk
      · cases gone.symm.trans (find_used talk.1.named)

def statTalk : List WirePacket :=
  [{ hostPacket ADB_COMMAND_WRTE (Sync.recordHeader Sync.SYNC_ID_STAT 11 ++ ascii "/STORAGE:/a")
      (by decide) with arg0 := 8, arg1 := 2 },
    { hostPacket ADB_COMMAND_OKAY [] empty_short with arg0 := 8, arg1 := 2 }]

theorem sync_conversation_stat :
    let x := ⟨shellAndSync.services.sync.contexts firstSlot, shellAndSync.uplink secondSlot, [], []⟩
    ExchangeRests secondSlot firstSlot
      (Sync.Exchange.run Parts.project.fs firstSlot x
        (arrivals (env _ (Env.accepting _)) shellAndSync statTalk))
      (shellAndSync.inputs (env _ (Env.accepting _)) (statTalk.map fun p => .receive p.bytes)) := by
  refine sync_conversation (.inputs _ .start) (by decide +kernel) ⟨rfl, rfl⟩ statTalk ?_
  refine ⟨⟨?_, ?_, ?_, ?_, ?_⟩, ⟨?_, ?_, ?_, ?_, ?_⟩, trivial⟩
  all_goals decide +kernel

end Sync

end System

end Webos.Adb
