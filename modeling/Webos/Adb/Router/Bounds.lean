/- digest: The receive loop stays inside its buffers, ends, and hands on only genuine messages. -/

import Webos.Adb.Router.Receiver
import Webos.Lib.Checked

namespace Webos.Adb

open Webos.Lib.Bytes Webos.Lib.Checked Webos.Lib.Fragment

variable {cfg : Config} {σ π : Type} (env : Env cfg σ π)

section Checked

/-- `memcpy(rx.header + rx.header_used, data, count)`. -/
def copyHeader (rx : Rx) (data : List UInt8) (count : Nat) : Option Rx := do
  let header ← copy rx.header rx.headerUsed data 0 count
  return { rx with header, headerUsed := rx.headerUsed + count }

/-- `memcpy(rx.payload + rx.payload_used, data, count)`, with the running checksum. -/
def copyPayload (rx : Rx) (data : List UInt8) (count : Nat) : Option Rx := do
  let block ← rx.payload
  let block ← copy block rx.payloadUsed data 0 count
  return { rx with
    payload := some block
    payloadChecksum := rx.payloadChecksum + adbChecksum (data.take count)
    payloadUsed := rx.payloadUsed + count }

/-- What a handler may see: the magic is right, and so is the checksum of the payload unless the
message is a CNXN of a host that sends none. -/
def Rx.Genuine (rx : Rx) : Prop :=
  rx.message.magic = rx.message.command ^^^ UINT32_MAX ∧
    (rx.message.dataCheck = adbChecksum (rx.payload.getD []) ∨
      rx.message.command = ADB_COMMAND_CNXN ∧ rx.message.arg0 ≥ ADB_VERSION_NO_CHECKSUM ∧
        rx.message.dataCheck = 0)

instance (rx : Rx) : Decidable rx.Genuine := inferInstanceAs (Decidable (_ ∧ (_ ∨ _ ∧ _ ∧ _)))

/-- `dispatch_message`, of which the handlers want a genuine message. -/
def dispatchGenuine (w : World cfg σ π) : Option (Int × World cfg σ π) := do
  require (checksumPasses w.rx = true → w.rx.Genuine)
  return dispatchMessage env w

def finishMessageChecked (data : List UInt8) (w : World cfg σ π) :
    Option (Option Int × List UInt8 × World cfg σ π) := do
  let (ret, w) ← dispatchGenuine env w
  return (if ret ≠ 0 then some ret else none, data, resetRx w)

def finishHeaderChecked (data : List UInt8) (w : World cfg σ π) :
    Option (Option Int × List UInt8 × World cfg σ π) := do
  require (WEBOS_ADB_HEADER_SIZE ≤ w.rx.header.length)
  let (ret, w) := decodeHeader env w
  if ret ≠ 0 then some (some ret, data, resetRx w)
  else if w.rx.message.dataLength = 0 then finishMessageChecked env data w
  else some (none, data, w)

def headerPhaseChecked (data : List UInt8) (w : World cfg σ π) :
    Option (Option Int × List UInt8 × World cfg σ π) :=
  if w.rx.headerUsed < WEBOS_ADB_HEADER_SIZE then do
    let left ← sub WEBOS_ADB_HEADER_SIZE w.rx.headerUsed
    let count := min data.length left
    let rx ← copyHeader w.rx data count
    if rx.headerUsed ≠ WEBOS_ADB_HEADER_SIZE then some (none, data.drop count, { w with rx })
    else finishHeaderChecked env (data.drop count) { w with rx }
  else some (none, data, w)

def payloadPhaseChecked (data : List UInt8) (w : World cfg σ π) :
    Option (Option Int × List UInt8 × World cfg σ π) :=
  if w.rx.headerUsed = WEBOS_ADB_HEADER_SIZE ∧ w.rx.message.dataLength > 0 then do
    let left ← sub w.rx.message.dataLength.toNat w.rx.payloadUsed
    let count := min data.length left
    let rx ← copyPayload w.rx data count
    if rx.payloadUsed = rx.message.dataLength.toNat then
      finishMessageChecked env (data.drop count) { w with rx }
    else some (none, data.drop count, { w with rx })
  else some (none, data, w)

def receivePassChecked (data : List UInt8) (w : World cfg σ π) :
    Option (Option Int × List UInt8 × World cfg σ π) :=
  (headerPhaseChecked env data w).bind fun out =>
    match out with
    | (some ret, data, w) => some (some ret, data, w)
    | (none, data, w) => payloadPhaseChecked env data w

def receiveLoopChecked : Nat → List UInt8 → World cfg σ π → Option (Int × World cfg σ π)
  | 0, data, w => (require (data = [])).map fun _ => (0, w)
  | passes + 1, data, w =>
    if data = [] then some (0, w)
    else
      (receivePassChecked env data w).bind fun out =>
        (require (out.2.1.length < data.length)).bind fun _ =>
          match out with
          | (some ret, _, w) => some (ret, w)
          | (none, data, w) => receiveLoopChecked passes data w

def protocolReceiveChecked (data : List UInt8) (w : World cfg σ π) : Option (Int × World cfg σ π) :=
  (receiveLoopChecked env data.length data { w with dispatching := true }).map fun out =>
    (out.1, { out.2 with dispatching := false })

end Checked

section Phases

variable {w : World cfg σ π} (data : List UInt8) {rx : Rx}

private theorem copyHeader_eq {count : Nat} (target : rx.headerUsed + count ≤ rx.header.length)
    (source : count ≤ data.length) :
    copyHeader rx data count = some (rx.fillHeader (data.take count)) := by
  have length : (data.take count).length = count := by
    rw [List.length_take]
    omega
  unfold copyHeader Rx.fillHeader
  rw [copy_inside target (by omega), length]
  rfl

private theorem copyPayload_eq {count : Nat} {block : List UInt8}
    (present : rx.payload = some block) (target : rx.payloadUsed + count ≤ block.length)
    (source : count ≤ data.length) :
    copyPayload rx data count = some (rx.fillPayload (data.take count)) := by
  have length : (data.take count).length = count := by
    rw [List.length_take]
    omega
  unfold copyPayload Rx.fillPayload
  simp only [present, Option.bind_eq_bind, Option.bind_some, copy_inside target
    (show 0 + count ≤ data.length by omega), Option.getD_some, length, List.drop_zero]
  rfl

private theorem validateMessage_accepts {m : Message} (accepted : validateMessage cfg m = 0) :
    m.magic = m.command ^^^ UINT32_MAX ∧ m.dataLength.toNat ≤ cfg.maxPayload := by
  unfold validateMessage at accepted
  split_ifs at accepted with wrong long
  · exact absurd accepted (by decide)
  · exact absurd accepted (by decide)
  · exact ⟨not_not.mp wrong, Nat.le_of_not_lt long⟩

private theorem genuine_of (accepted : validateMessage cfg rx.message = 0)
    (sum : rx.payloadChecksum = adbChecksum (rx.payload.getD []))
    (passes : checksumPasses rx = true) : rx.Genuine := by
  refine ⟨(validateMessage_accepts accepted).1, ?_⟩
  unfold checksumPasses at passes
  simp only [Bool.or_eq_true, beq_iff_eq, Bool.and_eq_true, decide_eq_true_eq] at passes
  rw [← sum]
  rcases passes with same | ⟨⟨connect, version⟩, none⟩
  · exact Or.inl same
  · exact Or.inr ⟨connect, version, none⟩

private theorem finishMessageChecked_eq (genuine : checksumPasses w.rx = true → w.rx.Genuine) :
    finishMessageChecked env data w = some (finishMessage env data w) := by
  unfold finishMessageChecked dispatchGenuine
  rw [require_of genuine]
  rfl

private theorem finishHeaderChecked_eq (size : w.rx.header.length = WEBOS_ADB_HEADER_SIZE)
    (absent : w.rx.payload = none) (sum : w.rx.payloadChecksum = 0) :
    finishHeaderChecked env data w = some (finishHeader env data w) := by
  unfold finishHeaderChecked finishHeader
  rw [require_of (Nat.le_of_eq size.symm)]
  simp only [Option.bind_eq_bind, Option.bind_some]
  split_ifs with refused empty
  · rfl
  · refine finishMessageChecked_eq env data fun passes => ?_
    have kept : (decodeHeader env w).2.rx = { w.rx with message := loadMessage w.rx.header } ∧
        validateMessage cfg (loadMessage w.rx.header) = 0 := by
      revert refused empty
      unfold decodeHeader
      dsimp only
      split_ifs with stop found
      · intro refused _
        exact ⟨rfl, not_not.mp refused⟩
      · intro _ empty
        exact absurd (Or.inr empty) stop
      · intro refused
        exact absurd (show -ENOMEM ≠ 0 by decide) refused
    obtain ⟨rx, accepted⟩ := kept
    rw [rx] at passes ⊢
    refine genuine_of accepted ?_ passes
    rw [absent, Option.getD_none, adbChecksum_nil]
    exact sum
  · rfl

private theorem fillHeader_inside (size : rx.header.length = WEBOS_ADB_HEADER_SIZE)
    (room : rx.headerUsed < WEBOS_ADB_HEADER_SIZE) :
    (rx.fillHeader (data.take (min data.length
        (WEBOS_ADB_HEADER_SIZE - rx.headerUsed)))).header.length = WEBOS_ADB_HEADER_SIZE ∧
      (rx.fillHeader (data.take (min data.length
        (WEBOS_ADB_HEADER_SIZE - rx.headerUsed)))).headerUsed ≤ WEBOS_ADB_HEADER_SIZE := by
  obtain ⟨chunk, taken⟩ : ∃ chunk,
      data.take (min data.length (WEBOS_ADB_HEADER_SIZE - rx.headerUsed)) = chunk := ⟨_, rfl⟩
  have short : rx.headerUsed + chunk.length ≤ WEBOS_ADB_HEADER_SIZE := by
    rw [← taken, List.length_take]
    omega
  rw [taken]
  refine ⟨?_, short⟩
  exact (length_memcpy _ _ _ (by omega)).trans size

private theorem headerPhaseChecked_eq (valid : w.rx.Valid cfg) :
    headerPhaseChecked env data w = some (headerPhase env data w) := by
  unfold headerPhaseChecked headerPhase
  cases valid with
  | header size room absent start sum =>
    have inside : w.rx.headerUsed + min data.length (WEBOS_ADB_HEADER_SIZE - w.rx.headerUsed) ≤
        w.rx.header.length := by
      omega
    have copied := copyHeader_eq data inside (Nat.min_le_left _ _)
    simp only [Option.bind_eq_bind, sub_of_le (Nat.le_of_lt room), Option.bind_some, copied]
    split_ifs with partway
    · rfl
    · exact finishHeaderChecked_eq env _ (fillHeader_inside data size room).1 absent sum
  | payload block full accepted present size room sum =>
    rw [if_neg (by omega), if_neg (by omega)]

private theorem fillPayload_sum {block chunk : List UInt8} (present : rx.payload = some block)
    (sum : rx.payloadChecksum = adbChecksum (block.take rx.payloadUsed))
    (last : rx.payloadUsed + chunk.length = block.length) :
    (rx.fillPayload chunk).payloadChecksum =
      adbChecksum ((rx.fillPayload chunk).payload.getD []) := by
  have whole : memcpy block rx.payloadUsed chunk = block.take rx.payloadUsed ++ chunk := by
    rw [memcpy, last, List.drop_length, List.append_nil]
  unfold Rx.fillPayload
  simp [present, whole, adbChecksum_append, sum]

private theorem payloadPhaseChecked_eq (valid : w.rx.Valid cfg) :
    payloadPhaseChecked env data w = some (payloadPhase env data w) := by
  unfold payloadPhaseChecked payloadPhase
  cases valid with
  | header size room absent start sum =>
    have outside : ¬(w.rx.headerUsed = WEBOS_ADB_HEADER_SIZE ∧ w.rx.message.dataLength > 0) :=
      fun both => Nat.ne_of_lt room both.1
    rw [if_neg outside, if_neg outside]
  | payload block full accepted present size room sum =>
    have positive : w.rx.message.dataLength > 0 := by
      exact Nat.lt_of_le_of_lt (Nat.zero_le _) room
    have inside : w.rx.payloadUsed +
        min data.length (w.rx.message.dataLength.toNat - w.rx.payloadUsed) ≤ block.length := by
      omega
    have copied := copyPayload_eq data present inside (Nat.min_le_left _ _)
    rw [if_pos ⟨full, positive⟩, if_pos ⟨full, positive⟩]
    simp only [Option.bind_eq_bind, sub_of_le (Nat.le_of_lt room), Option.bind_some, copied]
    split_ifs with complete
    · refine finishMessageChecked_eq env _ fun passes => genuine_of accepted ?_ passes
      refine fillPayload_sum present sum ?_
      rw [size]
      exact complete
    · rfl

private theorem headerPhase_valid (valid : w.rx.Valid cfg) :
    (headerPhase env data w).2.2.rx.Valid cfg := by
  unfold headerPhase
  cases valid with
  | header size room absent start sum =>
    obtain ⟨length, used⟩ := fillHeader_inside data size room
    dsimp only
    split_ifs with partway
    · exact .header length (Nat.lt_of_le_of_ne used partway) absent start sum
    · rcases finishHeader_cases env (data.drop (min data.length
        (WEBOS_ADB_HEADER_SIZE - w.rx.headerUsed))) { w with rx := w.rx.fillHeader (data.take
          (min data.length (WEBOS_ADB_HEADER_SIZE - w.rx.headerUsed))) } (not_not.mp partway) start
          sum with zero | ⟨-, next, -⟩
      · rw [zero]
        exact Rx.zero_valid cfg
      · exact next
  | payload block full accepted present size room sum =>
    rw [if_neg (by omega)]
    exact .payload block full accepted present size room sum

private theorem receivePassChecked_eq (valid : w.rx.Valid cfg) :
    receivePassChecked env data w = some (receivePass env data w) := by
  have next := headerPhase_valid env data valid
  unfold receivePassChecked receivePass
  rw [headerPhaseChecked_eq env data valid, Option.bind_some]
  generalize headerPhase env data w = out at next
  obtain ⟨_ | ret, rest, v⟩ := out
  · exact payloadPhaseChecked_eq env rest next
  · rfl

private theorem receiveLoopChecked_eq (passes : Nat) (enough : data.length ≤ passes)
    (valid : w.rx.Valid cfg) :
    receiveLoopChecked env passes data w = some (receiveLoop env passes data w) := by
  induction passes generalizing data w with
  | zero =>
    have empty : data = [] := List.eq_nil_of_length_eq_zero (by omega)
    rw [receiveLoopChecked, require_of empty]
    rfl
  | succ passes ih =>
    unfold receiveLoopChecked receiveLoop
    split_ifs with empty
    · rfl
    · have shorter := (receivePass_bytewise env).pass_consumes valid empty
      have next := (receivePass_bytewise env).pass_valid data valid
      rw [receivePassChecked_eq env data valid, Option.bind_some, require_of shorter,
        Option.bind_some]
      generalize receivePass env data w = out at shorter next
      obtain ⟨_ | ret, rest, v⟩ := out
      · exact ih rest (by dsimp only at shorter; omega) next
      · rfl

theorem protocolReceiveChecked_eq (valid : w.rx.Valid cfg) :
    protocolReceiveChecked env data w = some (webosAdbProtocolReceive env data w) := by
  have looped := receiveLoopChecked_eq env data (w := w.enter) data.length (Nat.le_refl _) valid
  exact congrArg (Option.map fun out : Int × World cfg σ π => (out.1, out.2.leave)) looped

end Phases

section Runs

variable {w : World cfg σ π}

private theorem reset_rx (w : World cfg σ π) : (protocolResetUnlocked env w).rx = Rx.zero :=
  ((keepsSends env).closeAllStreams (resetRx w)).rx

private theorem input_valid (input : Input cfg) (valid : w.rx.Valid cfg) :
    (w.input env input).rx.Valid cfg := by
  cases input with
  | streamWrite stream data => exact ((keepsSends env).streamWriteLocked stream 0 data w).rx ▸ valid
  | streamWriteGeneration stream generation data =>
    exact ((keepsSends env).streamWriteLocked stream generation data w).rx ▸ valid
  | streamClose stream => exact ((keepsSends env).streamCloseLocked stream 0 w).rx ▸ valid
  | streamCloseGeneration stream generation =>
    exact ((keepsSends env).streamCloseLocked stream generation w).rx ▸ valid
  | receive data =>
    have fed := feed_valid (receivePass_bytewise env) data (w := w.enter) valid
    have received := congrArg (fun out => out.2.rx) (receive_eq_feed env data w)
    rw [World.input, received]
    exact fed
  | txReady => exact ((keepsSends env).protocolTxReady w).rx ▸ valid
  | reset => exact reset_rx env w ▸ Rx.zero_valid cfg

theorem Reachable.rx_valid (reachable : Reachable env w) : w.rx.Valid cfg := by
  obtain ⟨services, platform, run, rfl⟩ := reachable
  have start : (protocolResetUnlocked env (World.boot cfg services platform)).rx.Valid cfg :=
    reset_rx env _ ▸ Rx.zero_valid cfg
  generalize protocolResetUnlocked env (World.boot cfg services platform) = w at start ⊢
  induction run generalizing w with
  | nil => exact start
  | cons input run ih => exact ih _ (input_valid env input start)

/-- The receiver between two calls: inside a header with nothing else set, or inside the payload
of an accepted header. -/
def Rx.Rests (cfg : Config) (rx : Rx) : Prop :=
  (rx.headerUsed < WEBOS_ADB_HEADER_SIZE ∧ rx.payload = none ∧ rx.payloadUsed = 0 ∧
      rx.payloadChecksum = 0) ∨
    (rx.headerUsed = WEBOS_ADB_HEADER_SIZE ∧ rx.message.magic = rx.message.command ^^^ UINT32_MAX ∧
      0 < rx.message.dataLength.toNat ∧ rx.message.dataLength.toNat ≤ cfg.maxPayload ∧
      ∃ block, rx.payload = some block ∧ block.length = rx.message.dataLength.toNat ∧
        rx.payloadUsed < rx.message.dataLength.toNat ∧
        rx.payloadChecksum.toNat = ((block.take rx.payloadUsed).map UInt8.toNat).sum % 2 ^ 32)

theorem Rx.Valid.rests {rx : Rx} (valid : rx.Valid cfg) : rx.Rests cfg := by
  cases valid with
  | header size room absent start sum => exact Or.inl ⟨room, absent, start, sum⟩
  | payload block full accepted present size room sum =>
    obtain ⟨magic, short⟩ := validateMessage_accepts accepted
    refine Or.inr ⟨full, magic, by omega, short, block, present, size, room, ?_⟩
    rw [sum, adbChecksum_toNat]

/-- The receiver stays in bounds: between any two calls it rests as it should, and the next call,
whatever it brings, copies inside its buffers, consumes a byte with every pass of its loop and
hands on only genuine messages. -/
theorem receiver_in_bounds (reachable : Reachable env w) : w.rx.Rests cfg ∧
    ∀ data, protocolReceiveChecked env data w = some (webosAdbProtocolReceive env data w) :=
  ⟨(reachable.rx_valid env).rests,
    fun data => protocolReceiveChecked_eq env data (reachable.rx_valid env)⟩

/-- A receiver inside the payload of a WRTE packet. -/
theorem receiver_in_bounds_payload :
    let w := World.inputs (Env.ideal Config.project) (protocolResetUnlocked
      (Env.ideal Config.project) (World.boot Config.project () ()))
      [.receive (encodeMessage ADB_COMMAND_WRTE 1 2 [7, 8] ++ [7])]
    w.rx.payloadUsed = 1 ∧ w.rx.Rests Config.project ∧ ∀ data,
      protocolReceiveChecked (Env.ideal Config.project) data w =
        some (webosAdbProtocolReceive (Env.ideal Config.project) data w) := by
  intro w
  exact ⟨by decide +kernel, receiver_in_bounds _ ⟨(), (), _, rfl⟩⟩

end Runs

end Webos.Adb
