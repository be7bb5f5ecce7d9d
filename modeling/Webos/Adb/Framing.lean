/- digest: Packets cut into any buffers are framed as sent; a refusal costs its buffer's rest. -/

import Webos.Adb.Router.Receiver

namespace Webos.Adb

open Webos.Lib.Bytes Webos.Lib.Fragment

variable {cfg : Config} {σ π : Type} (env : Env cfg σ π)

/-- A packet on the wire whose header has the right magic; its checksum field is arbitrary. -/
structure WirePacket where
  command : UInt32
  arg0 : UInt32
  arg1 : UInt32
  dataCheck : UInt32
  payload : List UInt8
  short : payload.length < 2 ^ 32

def WirePacket.message (p : WirePacket) : Message :=
  ⟨p.command, p.arg0, p.arg1, UInt32.ofNat p.payload.length, p.dataCheck, p.command ^^^ UINT32_MAX⟩

def WirePacket.bytes (p : WirePacket) : List UInt8 := headerBytes p.message ++ p.payload

def WirePacket.loaded (p : WirePacket) : Rx :=
  ⟨headerBytes p.message, if p.payload = [] then none else some p.payload, adbChecksum p.payload,
    WEBOS_ADB_HEADER_SIZE, p.payload.length, p.message⟩

/-- `dispatch_message` on a complete packet, then `reset_rx`. -/
def dispatchPacket (p : WirePacket) (w : World cfg σ π) : Int × World cfg σ π :=
  let (ret, w) := dispatchMessage env { w with rx := p.loaded }
  (ret, resetRx w)

def WirePacket.headerRefused (p : WirePacket) (w : World cfg σ π) : Bool :=
  decide (cfg.maxPayload < p.payload.length) ||
    (!p.payload.isEmpty && !(env.malloc w.platform p.payload.length).1)

def framePacket (p : WirePacket) (w : World cfg σ π) : Int × World cfg σ π :=
  if cfg.maxPayload < p.payload.length then (-EMSGSIZE, w)
  else if p.payload = [] then dispatchPacket env p w
  else
    let (found, platform) := env.malloc w.platform p.payload.length
    let w := World.note { w with platform } (.alloc p.payload.length found)
    if found then dispatchPacket env p w else (-ENOMEM, w)

def servePacket (p : WirePacket) (w : World cfg σ π) : Int × World cfg σ π :=
  let (ret, w) := framePacket env p w.enter
  (ret, w.leave)

/-- Reference behaviour: the packets one after another, each at its own boundaries. -/
def serveAll (packets : List WirePacket) (w : World cfg σ π) : World cfg σ π :=
  packets.foldl (fun w p => (servePacket env p w).2) w

section Packet

variable (p : WirePacket) {w : World cfg σ π}

private theorem feed_one_pass {data : List UInt8} (some_data : data ≠ []) {v : World cfg σ π}
    {e : Option Int} (pass : receivePass env data w = (e, [], v)) :
    feed (receivePass env) data w = (e, v) := by
  cases data with
  | nil => exact absurd rfl some_data
  | cons x xs =>
    simp only [feed, List.length_cons, loop, List.cons_ne_nil, ↓reduceIte, pass]
    cases e with
    | none => cases xs <;> simp [loop]
    | some ret => rfl

theorem WirePacket.dataLength_toNat : p.message.dataLength.toNat = p.payload.length := by
  exact Nat.mod_eq_of_lt p.short

theorem WirePacket.dataLength_eq_zero : p.message.dataLength = 0 ↔ p.payload = [] := by
  rw [← UInt32.toNat_inj, p.dataLength_toNat]
  exact List.length_eq_zero_iff

private theorem validate_message :
    validateMessage cfg p.message = if cfg.maxPayload < p.payload.length then -EMSGSIZE else 0 := by
  unfold validateMessage
  rw [p.dataLength_toNat]
  simp [WirePacket.message]

private def WirePacket.headed : Rx :=
  { Rx.zero with header := headerBytes p.message, headerUsed := WEBOS_ADB_HEADER_SIZE }

private theorem fillHeader_zero (n : Nat) (fits : n ≤ 24) :
    (Rx.zero.fillHeader ((headerBytes p.message).take n)).headerUsed = n := by
  simp only [Rx.fillHeader, Rx.zero, List.length_take, length_headerBytes]
  omega

private theorem fillHeader_full : Rx.zero.fillHeader (headerBytes p.message) = p.headed := by
  have copied : memcpy Rx.zero.header 0 (headerBytes p.message) = headerBytes p.message :=
    memcpy_full _ _ rfl
  simp only [Rx.fillHeader, WirePacket.headed, length_headerBytes]
  rfl

private theorem finishHeader_refused (reset : w.rx = Rx.zero)
    (long : cfg.maxPayload < p.payload.length) :
    finishHeader env [] { w with rx := p.headed } = (some (-EMSGSIZE), [], w) := by
  have same : resetRx w = w := by rw [resetRx, ← reset]
  have decoded : decodeHeader env { w with rx := p.headed } =
      (-EMSGSIZE, { w with rx := { p.headed with message := p.message } }) := by
    unfold decodeHeader
    simp only [WirePacket.headed, loadMessage_headerBytes, validate_message, long, ↓reduceIte]
    rw [if_pos (Or.inl (by decide))]
  simp only [finishHeader, decoded]
  exact congrArg (fun v => (some (-EMSGSIZE), [], v)) same

private theorem finishHeader_empty (short : p.payload.length ≤ cfg.maxPayload)
    (empty : p.payload = []) :
    finishHeader env [] { w with rx := p.headed } =
      finishMessage env [] { w with rx := p.loaded } := by
  have zero := p.dataLength_eq_zero.mpr empty
  have decoded : decodeHeader env { w with rx := p.headed } = (0, { w with rx := p.loaded }) := by
    unfold decodeHeader
    simp only [WirePacket.headed, loadMessage_headerBytes, validate_message, Nat.not_lt.mpr short,
      ↓reduceIte, zero, or_true]
    simp only [WirePacket.loaded, empty, ↓reduceIte, adbChecksum_nil, List.length_nil]
    rfl
  simp only [finishHeader, decoded, ne_eq, not_true_eq_false, ↓reduceIte]
  exact if_pos zero

private def allocated (w : World cfg σ π) : World cfg σ π :=
  World.note { w with platform := (env.malloc w.platform p.payload.length).2 }
    (.alloc p.payload.length (env.malloc w.platform p.payload.length).1)

private def WirePacket.fresh : Rx :=
  { p.headed with
    message := p.message, payload := some (List.replicate p.payload.length 0) }

private theorem finishHeader_filled (short : p.payload.length ≤ cfg.maxPayload)
    (filled : p.payload ≠ []) : finishHeader env [] { w with rx := p.headed } =
      if (env.malloc w.platform p.payload.length).1 then
        (none, [], { allocated env p w with rx := p.fresh })
      else (some (-ENOMEM), [], resetRx (allocated env p w)) := by
  have positive : ¬p.message.dataLength = 0 := fun zero => filled (p.dataLength_eq_zero.mp zero)
  have decoded : decodeHeader env { w with rx := p.headed } =
      if (env.malloc w.platform p.payload.length).1 then
        (0, { allocated env p w with rx := p.fresh })
      else (-ENOMEM, { allocated env p w with rx := { p.headed with message := p.message } }) := by
    unfold decodeHeader
    simp only [WirePacket.headed, loadMessage_headerBytes, validate_message, Nat.not_lt.mpr short,
      ↓reduceIte, positive, ne_eq, not_true_eq_false, or_self, p.dataLength_toNat]
    rfl
  rw [finishHeader, decoded]
  split_ifs
  · exact if_neg positive
  · rfl

private theorem headerPhase_headed (reset : w.rx = Rx.zero) :
    headerPhase env (headerBytes p.message) w = finishHeader env [] { w with rx := p.headed } := by
  have start : w.rx.headerUsed = 0 := by rw [reset]; rfl
  have whole :
    min (headerBytes p.message).length (WEBOS_ADB_HEADER_SIZE - w.rx.headerUsed) = 24 := by
    rw [start]; rfl
  have taken : (headerBytes p.message).take 24 = headerBytes p.message := rfl
  have left : (headerBytes p.message).drop 24 = [] := rfl
  have filled : w.rx.fillHeader (headerBytes p.message) = p.headed := by
    rw [reset, fillHeader_full]
  unfold headerPhase
  rw [if_pos (by rw [start]; decide)]
  simp only [whole, taken, left, filled]
  exact if_neg (by simp [WirePacket.headed])

private theorem feed_header (reset : w.rx = Rx.zero) :
    feed (receivePass env) (headerBytes p.message) w =
      ((finishHeader env [] { w with rx := p.headed }).1,
        (finishHeader env [] { w with rx := p.headed }).2.2) := by
  have valid : (finishHeader env [] { w with rx := p.headed }).2.2.rx.Valid cfg := by
    rcases finishHeader_cases env [] { w with rx := p.headed } rfl rfl rfl with zero | ⟨-, next, -⟩
    · exact zero ▸ Rx.zero_valid cfg
    · exact next
  have rest := finishHeader_rest env [] { w with rx := p.headed }
  have present : headerBytes p.message ≠ [] := List.cons_ne_nil _ _
  apply feed_one_pass env present
  rw [receivePass, headerPhase_headed env p reset]
  generalize finishHeader env [] { w with rx := p.headed } = outcome at valid rest ⊢
  obtain ⟨e, left, v⟩ := outcome
  obtain rfl : left = [] := congrArg (fun out => out.2.1) rest
  cases e with
  | none => exact payloadPhase_idle env valid
  | some ret => rfl

private theorem payloadPhase_fresh {v : World cfg σ π} (filled : p.payload ≠ [])
    (rx : v.rx = p.fresh) (n : Nat) (inside : n ≤ p.payload.length) :
    receivePass env (p.payload.take n) v =
      if n = p.payload.length then finishMessage env [] { v with rx := p.loaded }
      else (none, [], { v with rx := v.rx.fillPayload (p.payload.take n) }) := by
  have full : v.rx.headerUsed = WEBOS_ADB_HEADER_SIZE := by rw [rx]; rfl
  have message : v.rx.message = p.message := by rw [rx]; rfl
  have used : v.rx.payloadUsed = 0 := by rw [rx]; rfl
  have positive : p.message.dataLength > 0 := by
    rw [gt_iff_lt, UInt32.lt_iff_toNat_lt, p.dataLength_toNat]
    exact List.length_pos_iff.mpr filled
  have taken : (p.payload.take n).length = n := by rw [List.length_take]; omega
  have count : min n (p.payload.length - 0) = n := by omega
  have same : (v.rx.fillPayload (p.payload.take n)).payloadUsed = n := by
    simp [Rx.fillPayload, used, taken]
  have declared : (v.rx.fillPayload (p.payload.take n)).message.dataLength.toNat =
      p.payload.length := by rw [← p.dataLength_toNat, ← message]; rfl
  rw [receivePass, headerPhase, if_neg (by omega)]
  simp only [payloadPhase, full, message, positive, and_self, ↓reduceIte, p.dataLength_toNat, used,
    taken, count, List.take_take, Nat.min_self, same, declared]
  rw [List.drop_eq_nil_of_le (by omega)]
  split_ifs with whole
  · subst whole
    have copied : memcpy (List.replicate p.payload.length 0) 0 p.payload = p.payload :=
      memcpy_full _ _ (by simp)
    have loaded : v.rx.fillPayload (p.payload.take p.payload.length) = p.loaded := by
      rw [rx, List.take_length]
      simp only [Rx.fillPayload, WirePacket.fresh, WirePacket.headed, WirePacket.loaded,
        Option.getD_some, filled, ↓reduceIte]
      rw [show Rx.zero.payloadUsed = 0 from rfl, copied, Nat.zero_add,
        show Rx.zero.payloadChecksum = 0 from rfl, UInt32.zero_add]
    rw [loaded]
  · rfl

def exitCode (ret : Int) : Option Int := if ret ≠ 0 then some ret else none

private theorem finishMessage_loaded : finishMessage env [] { w with rx := p.loaded } =
    (exitCode (dispatchPacket env p w).1, [], (dispatchPacket env p w).2) := rfl

theorem feed_packet (reset : w.rx = Rx.zero) :
    feed (receivePass env) p.bytes w =
      (exitCode (framePacket env p w).1, (framePacket env p w).2) := by
  have valid : w.rx.Valid cfg := reset ▸ Rx.zero_valid cfg
  rw [WirePacket.bytes, feed_append (receivePass_bytewise env) _ _ valid, feed_header env p reset,
    framePacket]
  split_ifs with long empty
  · rw [finishHeader_refused env p reset long]
    rfl
  · rw [finishHeader_empty env p (Nat.not_lt.mp long) empty, finishMessage_loaded, empty]
    cases exitCode (dispatchPacket env p w).1 <;> rfl
  · cases found : (env.malloc w.platform p.payload.length).1 with
    | false =>
      have same : resetRx (allocated env p w) = allocated env p w := by
        simp only [resetRx, allocated, World.note, ← reset]
      rw [finishHeader_filled env p (Nat.not_lt.mp long) empty, found, same]
      simp only [allocated, found]
      rfl
    | true =>
      rw [finishHeader_filled env p (Nat.not_lt.mp long) empty, if_pos found]
      have pass := payloadPhase_fresh env p (v := { allocated env p w with rx := p.fresh }) empty
        rfl p.payload.length (Nat.le_refl _)
      rw [List.take_length, if_pos rfl] at pass
      simp only
      rw [feed_one_pass env empty (pass.trans (finishMessage_loaded env p))]
      simp only [allocated, found, ↓reduceIte]
      rfl

theorem receive_packet (reset : w.rx = Rx.zero) :
    webosAdbProtocolReceive env p.bytes w = servePacket env p w := by
  have code (ret : Int) : (exitCode ret).getD 0 = ret := by
    unfold exitCode
    split_ifs with ok
    · rfl
    · exact (not_not.mp ok).symm
  have whole : feed (receivePass env) p.bytes w.enter = _ := feed_packet env p reset
  rw [receive_eq_feed, whole, code]
  rfl

def arrive (w : World cfg σ π) : World cfg σ π :=
  World.note { w.enter with
    platform := (env.malloc w.platform p.payload.length).2
    rx := p.loaded } (.alloc p.payload.length true)

@[simp] theorem arrive_rx : (arrive env p w).rx = p.loaded := rfl

theorem servePacket_arrive (fits : p.payload.length ≤ cfg.maxPayload) (filled : p.payload ≠ [])
    (found : (env.malloc w.platform p.payload.length).1 = true) :
    servePacket env p w = ((dispatchMessage env (arrive env p w)).1,
      (resetRx (dispatchMessage env (arrive env p w)).2).leave) := by
  have found' : (env.malloc w.enter.platform p.payload.length).1 = true := found
  unfold servePacket framePacket dispatchPacket
  simp only [Nat.not_lt.mpr fits, filled, ↓reduceIte, found']
  rfl

theorem framePacket_rx (reset : w.rx = Rx.zero) : (framePacket env p w).2.rx = Rx.zero := by
  unfold framePacket
  dsimp only
  split_ifs
  · exact reset
  · rfl
  · rfl
  · exact reset

theorem receive_packet_rx (reset : w.rx = Rx.zero) :
    (webosAdbProtocolReceive env p.bytes w).2.rx = Rx.zero := by
  rw [receive_packet env p reset]
  exact framePacket_rx env p reset

theorem WirePacket.loaded_payload : p.loaded.payload.getD [] = p.payload := by
  unfold loaded
  dsimp only
  split_ifs with empty
  · exact empty.symm
  · rfl

private theorem dispatchPacket_log (dispatching : w.dispatching = true) :
    ∃ new, (dispatchPacket env p w).2.log = w.log ++ new ∧
      new.filterMap Event.call = [⟨p.command, p.arg0, p.arg1, p.payload, checksumPasses p.loaded,
      (dispatchPacket env p w).1⟩] := by
  obtain ⟨v, keeps, eq⟩ := dispatchMessage_eq env { w with rx := p.loaded } dispatching
  obtain ⟨new, grown, quiet⟩ := keeps.log
  have silent : new.filterMap Event.call = [] := by
    rw [List.filterMap_eq_nil_iff]
    intro e member
    have handler := quiet e member
    cases e <;> first | rfl | cases handler
  refine ⟨new ++ [.dispatched ⟨p.command, p.arg0, p.arg1, p.payload, checksumPasses p.loaded,
    (dispatchPacket env p w).1⟩], (congrArg World.log eq).trans ?_, ?_⟩
  · rw [note_log, grown, List.append_assoc]
    simp only [p.loaded_payload]
    rfl
  · rw [List.filterMap_append, silent]
    rfl

theorem framePacket_log (fits : p.payload.length ≤ cfg.maxPayload)
    (dispatching : w.dispatching = true) :
    ∃ new, (framePacket env p w).2.log = w.log ++ new ∧
      ((framePacket env p w).1 = 0 → new.filterMap Event.call =
        [⟨p.command, p.arg0, p.arg1, p.payload, checksumPasses p.loaded, 0⟩]) ∧
      ((framePacket env p w).1 ≠ 0 → (∃ n, .alloc n false ∈ new) ∨
        ∃ call, .dispatched call ∈ new ∧ call.ret ≠ 0) := by
  have dispatched (v : World cfg σ π) (front : List (Event cfg)) (log : v.log = w.log ++ front)
      (silent : front.filterMap Event.call = []) (dispatching : v.dispatching = true) :
      ∃ new, (dispatchPacket env p v).2.log = w.log ++ new ∧
        ((dispatchPacket env p v).1 = 0 → new.filterMap Event.call =
          [⟨p.command, p.arg0, p.arg1, p.payload, checksumPasses p.loaded, 0⟩]) ∧
        ((dispatchPacket env p v).1 ≠ 0 → (∃ n, .alloc n false ∈ new) ∨
          ∃ call, .dispatched call ∈ new ∧ call.ret ≠ 0) := by
    obtain ⟨new, grown, calls⟩ := dispatchPacket_log env p (w := v) dispatching
    have all : (front ++ new).filterMap Event.call = new.filterMap Event.call := by
      rw [List.filterMap_append, silent, List.nil_append]
    refine ⟨front ++ new, by rw [grown, log, List.append_assoc], fun ok => ?_, fun refused => ?_⟩
    · rw [all, calls, ok]
    · obtain ⟨e, member, call⟩ := List.mem_filterMap.mp
        (show _ ∈ (front ++ new).filterMap Event.call by
          rw [all, calls]; exact List.mem_singleton_self _)
      cases e with
      | dispatched c =>
        cases call
        exact Or.inr ⟨_, member, refused⟩
      | _ => cases call
  unfold framePacket
  rw [if_neg (Nat.not_lt.mpr fits)]
  dsimp only
  split_ifs with empty found
  · exact dispatched w [] (List.append_nil _).symm rfl dispatching
  · exact dispatched _ [.alloc p.payload.length _] rfl rfl dispatching
  · refine ⟨[.alloc p.payload.length _], rfl, fun ok => ?_, fun _ => Or.inl ⟨p.payload.length, ?_⟩⟩
    · exact absurd ok (show -ENOMEM ≠ 0 by decide)
    · rw [Bool.not_eq_true] at found
      rw [found]
      exact List.mem_singleton_self _

end Packet

/-- A packet as `encode_message` and its payload put it on the wire. -/
def Packet.wire (m : Packet) : List UInt8 :=
  encodeMessage m.command m.arg0 m.arg1 m.payload ++ m.payload

section RoundTrip

variable {w : World cfg σ π}

private theorem wire_eq_bytes (cfg : Config) (m : Packet)
    (fits : m.payload.length ≤ cfg.maxPayload) :
    ∃ p : WirePacket, p.bytes = m.wire ∧ p.command = m.command ∧ p.arg0 = m.arg0 ∧
      p.arg1 = m.arg1 ∧ p.payload = m.payload ∧ checksumPasses p.loaded = true := by
  have range := cfg.maxPayload_range
  refine ⟨⟨m.command, m.arg0, m.arg1, adbChecksum m.payload, m.payload, by omega⟩, rfl, rfl,
    rfl, rfl,
    rfl, ?_⟩
  simp [checksumPasses, WirePacket.loaded, WirePacket.message]

/-- Well-formed messages in one piece: every one was dispatched, or a refusal is on record. -/
private theorem feed_wire (msgs : List Packet)
    (bounded : ∀ m ∈ msgs, m.payload.length ≤ cfg.maxPayload) (reset : w.rx = Rx.zero)
    (dispatching : w.dispatching = true) :
    ∃ new, (feed (receivePass env) (msgs.map Packet.wire).flatten w).2.log = w.log ++ new ∧
      (((feed (receivePass env) (msgs.map Packet.wire).flatten w).1 = none ∧
          (feed (receivePass env) (msgs.map Packet.wire).flatten w).2.rx = Rx.zero ∧
          new.filterMap Event.call =
            msgs.map (fun m => ⟨m.command, m.arg0, m.arg1, m.payload, true, 0⟩)) ∨
        (∃ n, .alloc n false ∈ new) ∨ ∃ call, .dispatched call ∈ new ∧ call.ret ≠ 0) := by
  induction msgs generalizing w with
  | nil => exact ⟨[], (List.append_nil _).symm, Or.inl ⟨rfl, reset, rfl⟩⟩
  | cons m msgs ih =>
    have fits := bounded m (List.mem_cons_self)
    obtain ⟨p, bytes, command, arg0, arg1, payload, sum⟩ := wire_eq_bytes cfg m fits
    have valid : w.rx.Valid cfg := reset ▸ Rx.zero_valid cfg
    obtain ⟨new, grown, accepted, refused⟩ := framePacket_log env p (w := w) (payload ▸ fits)
      dispatching
    have grows := grows_feed env p.bytes w dispatching
    rw [List.map_cons, List.flatten_cons, feed_append (receivePass_bytewise env) _ _ valid, ← bytes,
      feed_packet env p reset]
    rw [feed_packet env p reset] at grows
    by_cases ok : (framePacket env p w).1 = 0
    · obtain ⟨later, grown', outcome⟩ := ih (w := (framePacket env p w).2)
        (fun m member => bounded m (List.mem_cons_of_mem _ member)) (framePacket_rx env p reset)
        (grows.dispatching.trans dispatching)
      simp only [exitCode, ok, ne_eq, not_true_eq_false, ↓reduceIte]
      refine ⟨new ++ later, by rw [grown', grown, List.append_assoc], ?_⟩
      rcases outcome with ⟨running, zero, calls⟩ | ⟨n, starved⟩ | ⟨call, member, bad⟩
      · refine Or.inl ⟨running, zero, ?_⟩
        rw [List.filterMap_append, accepted ok, calls, command, arg0, arg1, payload, sum]
        rfl
      · exact Or.inr (Or.inl ⟨n, List.mem_append_right _ starved⟩)
      · exact Or.inr (Or.inr ⟨call, List.mem_append_right _ member, bad⟩)
    · simp only [exitCode, ok, ne_eq, not_false_eq_true, ↓reduceIte]
      exact ⟨new, grown, Or.inr (refused ok)⟩

/-- The framing round trip: whatever the buffers, the messages are dispatched as they were sent,
once each and in order, and the receiver ends reset. -/
theorem receive_dispatches_messages (msgs : List Packet)
    (bounded : ∀ m ∈ msgs, m.payload.length ≤ cfg.maxPayload) (buffers : List (List UInt8))
    (cut : buffers.flatten = (msgs.map Packet.wire).flatten) (reset : w.rx = Rx.zero)
    (heap : ∀ n, Event.alloc n false ∉ w.since (deliver env buffers w))
    (accepted : ∀ call, Event.dispatched call ∈ w.since (deliver env buffers w) → call.ret = 0) :
    (w.since (deliver env buffers w)).filterMap Event.call =
        msgs.map (fun m => ⟨m.command, m.arg0, m.arg1, m.payload, true, 0⟩) ∧
      (deliver env buffers w).rx = Rx.zero := by
  obtain ⟨new, grown, outcome⟩ := feed_wire env (w := w.enter) msgs bounded reset rfl
  obtain ⟨started, whole⟩ := deliver_feed env buffers (w := w) (reset ▸ Rx.zero_valid cfg)
  rw [cut] at started whole
  have recorded {e : Event cfg} (member : e ∈ new) : e ∈ w.since (deliver env buffers w) := by
    obtain ⟨rest, eq⟩ := started
    rw [World.since, ← eq, grown, List.append_assoc, show w.enter.log = w.log from rfl,
      List.drop_left' rfl]
    exact List.mem_append_left _ member
  rcases outcome with ⟨running, zero, calls⟩ | ⟨n, starved⟩ | ⟨call, member, bad⟩
  · have final := whole running
    have log : (deliver env buffers w).log = w.log ++ new := (congrArg World.log final).trans grown
    refine ⟨?_, (congrArg World.rx final).trans zero⟩
    rw [World.since, log, List.drop_left' rfl, calls]
  · exact absurd (recorded starved) (heap n)
  · exact absurd (accepted call (recorded member)) bad

/-- Two acknowledgements, the second one with a payload, in three buffers cut across the headers. -/
theorem receive_dispatches_messages_cut :
    let env := Env.ideal Config.project
    let w := World.boot Config.project () ()
    let msgs : List Packet := [⟨ADB_COMMAND_OKAY, 1, 2, []⟩, ⟨ADB_COMMAND_OKAY, 1, 2, [7, 8]⟩]
    let bytes := (msgs.map Packet.wire).flatten
    let buffers := [bytes.take 10, (bytes.drop 10).take 39, bytes.drop 49]
    (w.since (deliver env buffers w)).filterMap Event.call =
        msgs.map (fun m => ⟨m.command, m.arg0, m.arg1, m.payload, true, 0⟩) ∧
      (deliver env buffers w).rx = Rx.zero := by
  intro env w msgs bytes buffers
  have record : w.since (deliver env buffers w) =
      [.dispatched ⟨ADB_COMMAND_OKAY, 1, 2, [], true, 0⟩, .alloc 2 true,
        .dispatched ⟨ADB_COMMAND_OKAY, 1, 2, [7, 8], true, 0⟩] := by decide +kernel
  refine receive_dispatches_messages env msgs (by decide) buffers (by decide) rfl ?_ ?_
  · intro n
    rw [record]
    simp
  · intro call member
    rw [record] at member
    simp only [List.mem_cons, Event.dispatched.injEq, List.not_mem_nil, or_false, reduceCtorEq,
      false_or] at member
    rcases member with rfl | rfl <;> rfl

end RoundTrip

section Rejection

def bufferStart (buffers : List (List UInt8)) (k : Nat) : Nat := (buffers.take k).flatten.length

/-- The buffer that holds the last byte before offset `known` ends at offset `stop`. -/
def BufferEnds (buffers : List (List UInt8)) (known stop : Nat) : Prop :=
  ∀ k < buffers.length, bufferStart buffers k < known → known ≤ bufferStart buffers (k + 1) →
    bufferStart buffers (k + 1) = stop

def WirePacket.decided (p : WirePacket) (w : World cfg σ π) : Nat :=
  if p.headerRefused env w then WEBOS_ADB_HEADER_SIZE else p.bytes.length

/-- Every packet that the router refuses is the last one of the buffer in which it does so. -/
def RefusalsEndBuffers (buffers : List (List UInt8)) :
    Nat → List WirePacket → World cfg σ π → Prop
  | _, [], _ => True
  | start, p :: packets, w =>
    ((servePacket env p w).1 ≠ 0 →
      BufferEnds buffers (start + p.decided env w) (start + p.bytes.length)) ∧
    RefusalsEndBuffers buffers (start + p.bytes.length) packets (servePacket env p w).2

instance (buffers : List (List UInt8)) (known stop : Nat) :
    Decidable (BufferEnds buffers known stop) :=
  inferInstanceAs (Decidable (∀ k < buffers.length, _ → _ → _))

instance RefusalsEndBuffers.decide (buffers : List (List UInt8)) :
    ∀ (start : Nat) (packets : List WirePacket) (w : World cfg σ π),
      Decidable (RefusalsEndBuffers env buffers start packets w)
  | _, [], _ => .isTrue trivial
  | start, p :: packets, w =>
    have := RefusalsEndBuffers.decide buffers (start + p.bytes.length) packets
      (servePacket env p w).2
    inferInstanceAs (Decidable (_ ∧ _))

variable {w : World cfg σ π}

private theorem feed_nil (v : World cfg σ π) : feed (receivePass env) [] v = (none, v) := rfl

variable (p : WirePacket)

private theorem length_bytes : p.bytes.length = 24 + p.payload.length := by
  rw [WirePacket.bytes, List.length_append, length_headerBytes]

private theorem feed_header_part (reset : w.rx = Rx.zero) (n : Nat) (part : n < 24) :
    (feed (receivePass env) ((headerBytes p.message).take n) w).1 = none := by
  rcases Nat.eq_zero_or_pos n with rfl | positive
  · rfl
  · have start : w.rx.headerUsed = 0 := by rw [reset]; rfl
    have length : ((headerBytes p.message).take n).length = n := by
      rw [List.length_take, length_headerBytes]
      omega
    have count : min n (WEBOS_ADB_HEADER_SIZE - 0) = n := by
      rw [show WEBOS_ADB_HEADER_SIZE = 24 from rfl]
      omega
    have used : (w.rx.fillHeader ((headerBytes p.message).take n)).headerUsed ≠
        WEBOS_ADB_HEADER_SIZE := by
      rw [reset, fillHeader_zero p n (by omega)]
      exact Nat.ne_of_lt part
    have header : headerPhase env ((headerBytes p.message).take n) w =
        (none, [], { w with rx := w.rx.fillHeader ((headerBytes p.message).take n) }) := by
      unfold headerPhase
      rw [if_pos (by rw [start]; decide)]
      simp only [start, length, count, List.take_take, Nat.min_self, ne_eq, used, not_false_eq_true,
        ↓reduceIte]
      rw [List.drop_eq_nil_of_le (by omega)]
    have pass : receivePass env ((headerBytes p.message).take n) w =
        (none, [], { w with rx := w.rx.fillHeader ((headerBytes p.message).take n) }) := by
      rw [receivePass, header]
      exact payloadPhase_skip env [] used
    rw [feed_one_pass env (List.ne_nil_of_length_pos (by omega)) pass]

private theorem feed_undecided (reset : w.rx = Rx.zero) (n : Nat) (early : n < p.decided env w) :
    (feed (receivePass env) (p.bytes.take n) w).1 = none := by
  by_cases header : n < 24
  · rw [WirePacket.bytes, List.take_append_of_le_length (by rw [length_headerBytes]; omega)]
    exact feed_header_part env p reset n header
  · have open_header : p.headerRefused env w = false := by
      by_contra refused
      rw [Bool.not_eq_false] at refused
      rw [WirePacket.decided, if_pos refused] at early
      exact header early
    rw [WirePacket.decided, open_header, if_neg (by decide), length_bytes] at early
    simp only [WirePacket.headerRefused, Bool.or_eq_false_iff, decide_eq_false_iff_not,
      Bool.and_eq_false_iff, Bool.not_eq_false'] at open_header
    have filled : p.payload ≠ [] := List.ne_nil_of_length_pos (by omega)
    have found : (env.malloc w.platform p.payload.length).1 = true := by
      rcases open_header.2 with empty | found
      · exact absurd (List.isEmpty_iff.mp empty) filled
      · exact found
    have valid : w.rx.Valid cfg := reset ▸ Rx.zero_valid cfg
    have split : p.bytes.take n = headerBytes p.message ++ p.payload.take (n - 24) := by
      rw [WirePacket.bytes, List.take_append, List.take_of_length_le
        (by rw [length_headerBytes]; omega),
        length_headerBytes]
    rw [split, feed_append (receivePass_bytewise env) _ _ valid, feed_header env p reset,
      finishHeader_filled env p (Nat.not_lt.mp open_header.1) filled, if_pos found]
    simp only
    rcases Nat.eq_zero_or_pos (n - 24) with none | positive
    · rw [none, List.take_zero, feed_nil]
    · have pass := payloadPhase_fresh env p (v := { allocated env p w with rx := p.fresh }) filled
        rfl (n - 24) (by omega)
      rw [if_neg (by omega)] at pass
      rw [feed_one_pass env (List.ne_nil_of_length_pos (by rw [List.length_take]; omega)) pass]

private theorem exists_split (buffers : List (List UInt8)) (n : Nat) (positive : 0 < n)
    (inside : n ≤ buffers.flatten.length) : ∃ before head rest after,
      buffers = before ++ (head ++ rest) :: after ∧ before.flatten.length < n ∧
        before.flatten.length + head.length = n := by
  induction buffers generalizing n with
  | nil => simp only [List.flatten_nil, List.length_nil] at inside; omega
  | cons b buffers ih =>
    by_cases fits : n ≤ b.length
    · refine ⟨[], b.take n, b.drop n, buffers, by simp, positive, ?_⟩
      simp only [List.flatten_nil, List.length_nil, List.length_take]
      omega
    · simp only [List.flatten_cons, List.length_append] at inside
      obtain ⟨before, head, rest, after, eq, low, sum⟩ := ih (n - b.length) (by omega) (by omega)
      refine ⟨b :: before, head, rest, after, by rw [eq, List.cons_append], ?_, ?_⟩
      all_goals
        simp only [List.flatten_cons, List.length_append]
        omega

section Shift

variable (before after : List (List UInt8)) (head rest : List UInt8)

private theorem bufferStart_before (b : List UInt8) :
    bufferStart (before ++ b :: after) before.length = before.flatten.length := by
  rw [bufferStart, List.take_left' rfl]

private theorem bufferStart_after (b : List UInt8) :
    bufferStart (before ++ b :: after) (before.length + 1) = before.flatten.length + b.length := by
  rw [bufferStart, List.take_length_add_append, List.take_succ_cons, List.take_zero]
  simp

private theorem bufferStart_shift (k : Nat) :
    bufferStart (before ++ (head ++ rest) :: after) (before.length + (k + 1)) =
      before.flatten.length + head.length + bufferStart (rest :: after) (k + 1) := by
  rw [bufferStart, List.take_length_add_append]
  simp only [bufferStart, List.take_succ_cons, List.flatten_append, List.flatten_cons,
    List.length_append]
  omega

variable {before after head rest}

private theorem BufferEnds.shift {n known stop : Nat}
    (length : before.flatten.length + head.length = n)
    (ends : BufferEnds (before ++ (head ++ rest) :: after) (n + known) (n + stop)) :
    BufferEnds (rest :: after) known stop := by
  intro k inside low high
  have next := bufferStart_shift before after head rest k
  have below : bufferStart (before ++ (head ++ rest) :: after) (before.length + k) < n + known := by
    cases k with
    | zero =>
      rw [Nat.add_zero, bufferStart_before]
      omega
    | succ j =>
      rw [bufferStart_shift before after head rest j]
      omega
  have at_end := ends (before.length + k)
    (by simp only [List.length_append, List.length_cons] at inside ⊢; omega) below
  rw [Nat.add_assoc, next] at at_end
  omega

private theorem RefusalsEndBuffers.shift {n : Nat}
    (length : before.flatten.length + head.length = n) (packets : List WirePacket) :
    ∀ (start : Nat) (w : World cfg σ π),
      RefusalsEndBuffers env (before ++ (head ++ rest) :: after) (n + start) packets w →
        RefusalsEndBuffers env (rest :: after) start packets w := by
  induction packets with
  | nil => exact fun _ _ _ => trivial
  | cons p packets ih =>
    intro start w holds
    refine ⟨fun refused => BufferEnds.shift length ?_, ih _ _ ?_⟩
    · simpa only [Nat.add_assoc] using holds.1 refused
    · simpa only [Nat.add_assoc] using holds.2

end Shift

variable {buffers : List (List UInt8)}

/-- The packet is served as it is alone, and the buffers go on behind its last byte. -/
private def ServedFirst (w : World cfg σ π) (buffers : List (List UInt8)) (more : List UInt8) :
    Prop :=
  ∃ before head rest after, buffers = before ++ (head ++ rest) :: after ∧
    before.flatten.length + head.length = p.bytes.length ∧ (rest :: after).flatten = more ∧
    deliver env buffers w = deliver env (rest :: after) (servePacket env p w).2

private theorem deliver_accepted {more : List UInt8} (cut : buffers.flatten = p.bytes ++ more)
    (reset : w.rx = Rx.zero) (accepted : (servePacket env p w).1 = 0) :
    ServedFirst env p w buffers more := by
  have size := length_bytes p
  obtain ⟨before, head, rest, after, rfl, -, sum⟩ := exists_split buffers p.bytes.length (by omega)
    (by rw [cut, List.length_append]; omega)
  have pieces : (before.flatten ++ head) ++ (rest :: after).flatten = p.bytes ++ more := by
    rw [← cut]
    simp
  obtain ⟨front, tail⟩ := List.append_inj pieces (by rw [List.length_append]; exact sum)
  refine ⟨before, head, rest, after, rfl, sum, tail, ?_⟩
  have code : exitCode (framePacket env p w.enter).1 = none := if_neg (not_not.mpr accepted)
  have whole : feed (receivePass env) (before.flatten ++ head) w.enter =
      (none, (framePacket env p w.enter).2) := by
    rw [front, feed_packet env p (w := w.enter) reset, code]
  exact deliver_split env before after head rest (reset ▸ Rx.zero_valid cfg) whole

private theorem deliver_refused {more : List UInt8} (cut : buffers.flatten = p.bytes ++ more)
    (reset : w.rx = Rx.zero) (refused : (servePacket env p w).1 ≠ 0)
    (ends : BufferEnds buffers (p.decided env w) p.bytes.length) :
    ServedFirst env p w buffers more := by
  have size := length_bytes p
  have range : 0 < p.decided env w ∧ p.decided env w ≤ p.bytes.length := by
    unfold WirePacket.decided
    rw [show WEBOS_ADB_HEADER_SIZE = 24 from rfl]
    split_ifs <;> omega
  obtain ⟨before, head, rest, after, rfl, low, sum⟩ := exists_split buffers
    (p.decided env w) range.1
    (by rw [cut, List.length_append]; omega)
  have start := bufferStart_before before after (head ++ rest)
  have stop := bufferStart_after before after (head ++ rest)
  have last : before.flatten.length + (head ++ rest).length = p.bytes.length := by
    rw [← stop]
    refine ends before.length (by simp) (by omega) ?_
    rw [stop, List.length_append]
    omega
  have pieces : (before.flatten ++ (head ++ rest)) ++ after.flatten = p.bytes ++ more := by
    rw [← cut]
    simp
  obtain ⟨front, tail⟩ := List.append_inj pieces (by rw [List.length_append]; exact last)
  refine ⟨before, head ++ rest, [], after, by rw [List.append_nil], last, tail, ?_⟩
  have valid : w.enter.rx.Valid cfg := reset ▸ Rx.zero_valid cfg
  have quiet : (feed (receivePass env) before.flatten w.enter).1 = none := by
    have part : before.flatten = p.bytes.take before.flatten.length := by
      rw [← front, List.take_left' rfl]
    rw [part]
    exact feed_undecided env p (w := w.enter) reset _ low
  have code : exitCode (framePacket env p w.enter).1 = some (framePacket env p w.enter).1 :=
    if_pos refused
  have whole := feed_append (receivePass_bytewise env) before.flatten (head ++ rest) valid
  rw [front, feed_packet env p (w := w.enter) reset, code] at whole
  have inside := feed_dispatching env before.flatten w
  rcases eq : feed (receivePass env) before.flatten w.enter with ⟨_ | ret, u⟩
  · rw [eq] at whole inside
    have split := deliver_split env before after [] (head ++ rest) (w := w) valid
      (by rw [List.append_nil]; exact eq)
    rw [List.nil_append] at split
    rw [split]
    simp only [deliver, List.foldl_cons, receive_eq_feed, enter_leave inside, ← whole]
    rfl
  · rw [eq] at quiet
    cases quiet

/-- The receiver keeps packet boundaries across refusals as long as each refused packet is the
last one of the buffer that reveals it; then no partition can be told from another. -/
theorem deliver_eq_serveAll (packets : List WirePacket) (buffers : List (List UInt8))
    (cut : buffers.flatten = (packets.map WirePacket.bytes).flatten) (reset : w.rx = Rx.zero)
    (outside : w.dispatching = false) (ends : RefusalsEndBuffers env buffers 0 packets w) :
    deliver env buffers w = serveAll env packets w := by
  induction packets generalizing buffers w with
  | nil =>
    have idle := (deliver_feed env buffers (w := w) (reset ▸ Rx.zero_valid cfg)).2
    rw [cut] at idle
    calc deliver env buffers w
        = (deliver env buffers w).enter.leave :=
          (leave_enter (deliver_outside env buffers outside)).symm
      _ = w.enter.leave := congrArg World.leave (idle rfl)
      _ = w := leave_enter outside
  | cons p packets ih =>
    obtain ⟨here, later⟩ := ends
    rw [Nat.zero_add, Nat.zero_add] at here
    obtain ⟨before, head, rest, after, rfl, length, tail, step⟩ :
        ServedFirst env p w buffers (packets.map WirePacket.bytes).flatten := by
      by_cases accepted : (servePacket env p w).1 = 0
      · exact deliver_accepted env p cut reset accepted
      · exact deliver_refused env p cut reset accepted (here accepted)
    rw [step]
    refine ih (rest :: after) tail (framePacket_rx env p (w := w.enter) reset) rfl ?_
    rw [Nat.add_comm] at later
    exact RefusalsEndBuffers.shift env length packets 0 _ later

/-- An unknown command with two buffers of its own, then an acknowledgement. -/
theorem deliver_eq_serveAll_unknown :
    let env := Env.ideal Config.project
    let w := World.boot Config.project () ()
    let unknown : WirePacket := ⟨0x434e5953, 1, 0, 0, [], by decide⟩
    let okay : WirePacket := ⟨ADB_COMMAND_OKAY, 1, 2, 0, [], by decide⟩
    let buffers := [unknown.bytes.take 5, unknown.bytes.drop 5, okay.bytes]
    RefusalsEndBuffers env buffers 0 [unknown, okay] w ∧
      deliver env buffers w = serveAll env [unknown, okay] w := by
  intro env w unknown okay buffers
  have ends : RefusalsEndBuffers env buffers 0 [unknown, okay] w := by decide +kernel
  exact ⟨ends, deliver_eq_serveAll env _ buffers (by decide) rfl rfl ends⟩

/-- The same two packets in one buffer: the acknowledgement after the unknown command is lost. -/
theorem refused_packet_drops_buffer :
    let env := Env.ideal Config.project
    let w := World.boot Config.project () ()
    let unknown : WirePacket := ⟨0x434e5953, 1, 0, 0, [], by decide⟩
    let okay : WirePacket := ⟨ADB_COMMAND_OKAY, 1, 2, 0, [], by decide⟩
    (w.since (deliver env [unknown.bytes, okay.bytes] w)).filterMap Event.call =
        [⟨0x434e5953, 1, 0, [], true, -ENOTSUP⟩, ⟨ADB_COMMAND_OKAY, 1, 2, [], true, 0⟩] ∧
      (w.since (deliver env [unknown.bytes ++ okay.bytes] w)).filterMap Event.call =
        [⟨0x434e5953, 1, 0, [], true, -ENOTSUP⟩] := by
  decide +kernel

end Rejection

end Webos.Adb
