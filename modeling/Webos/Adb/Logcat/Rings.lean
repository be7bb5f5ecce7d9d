/- digest: The log buffer and the logcat ring are bounded queues that drop their oldest bytes. -/

import Webos.Adb.Logcat.Service
import Webos.Lib.CheckedRing

namespace Webos.Services

open Webos.Lib Webos.Lib.Bytes Webos.Lib.Checked

/-- `copy_log_locked` into a block, with its terminator; a null destination is an empty block. -/
def copyLogInto (dst : List UInt8) (b : LogBuffer) : Option (Nat × List UInt8) :=
  if dst.length = 0 then some (0, dst)
  else do
    let room ← sub dst.length 1
    let count := min b.log.len room
    let dst ← b.log.copyOut dst count
    let dst ← assign dst count 0
    return (count, dst)

def logBufferPutChecked (msg : List UInt8) (b : LogBuffer) :
    Option (Option (LogListener × List UInt8) × LogBuffer) :=
  if msg.length = 0 then some (none, b)
  else do
    let log ← b.log.pushChecked msg
    return (b.listener.map fun listener => (listener, b.log.kept msg), { b with log })

def logBufferReadInto (dst : List UInt8) (b : LogBuffer) : Option (Nat × List UInt8) :=
  copyLogInto dst b

variable {b : LogBuffer}

theorem logBufferPutChecked_eq (valid : b.log.Valid) (msg : List UInt8) :
    logBufferPutChecked msg b = some (logBufferPut msg b) := by
  unfold logBufferPutChecked logBufferPut
  split_ifs
  · rfl
  · rw [ByteRing.pushChecked_eq valid msg]
    rfl

theorem logBufferReadInto_eq (valid : b.log.Valid) {dst : List UInt8} (room : dst ≠ []) :
    logBufferReadInto dst b =
      some (min b.log.len (dst.length - 1), b.log.bytes.take (dst.length - 1) ++
        0 :: dst.drop (min b.log.len (dst.length - 1) + 1)) := by
  have some_room := List.length_pos_iff.mpr room
  obtain ⟨count, counted⟩ : ∃ count, min b.log.len (dst.length - 1) = count := ⟨_, rfl⟩
  have stored : count ≤ b.log.len := by omega
  have taken : b.log.bytes.take (dst.length - 1) = b.log.bytes.take count := by
    rw [List.take_eq_take_iff, ByteRing.length_bytes valid]
    omega
  have length : (b.log.bytes.take count).length = count := by
    rw [List.length_take, ByteRing.length_bytes valid]
    omega
  have inside : count ≤ dst.length := by omega
  have out := ByteRing.copyOut_eq valid stored inside
  have ended : assign (b.log.bytes.take count ++ dst.drop count) count 0 =
      some (b.log.bytes.take count ++ 0 :: dst.drop (count + 1)) := by
    rw [assign_inside, memcpy, List.take_left' length, List.drop_append, length,
      List.drop_of_length_le (by rw [length]; simp), List.drop_drop]
    · simp
    · rw [List.length_append, length, List.length_drop]
      omega
  unfold logBufferReadInto copyLogInto
  rw [if_neg (by omega)]
  simp only [Option.bind_eq_bind, sub_of_le (Nat.succ_le_of_lt some_room), Option.bind_some,
    counted, out, ended, taken]
  rfl

inductive LogStates (size : Nat) : LogBuffer → Prop where
  | boot (block : List UInt8) (length : block.length = size) : LogStates size (.boot ⟨block, 0, 0⟩)
  | put {b b' : LogBuffer} {owed : Option (LogListener × List UInt8)} (msg : List UInt8) :
    LogStates size b → logBufferPutChecked msg b = some (owed, b') → LogStates size b'
  | clear {b : LogBuffer} : LogStates size b → LogStates size (logBufferClear b)
  | listen {b : LogBuffer} (listener : Option LogListener) :
    LogStates size b → LogStates size { b with listener }

theorem LogStates.valid {size : Nat} (pos : 1 ≤ size) (states : LogStates size b) :
    b.log.Valid ∧ b.log.capacity = size := by
  induction states with
  | boot block length =>
    have same : (LogBuffer.boot ⟨block, 0, 0⟩).log.capacity = size := length
    exact ⟨⟨same ▸ pos, same ▸ pos, Nat.zero_le _⟩, same⟩
  | @put b b' owed msg _ ran ih =>
    obtain ⟨valid, capacity⟩ := ih
    rw [logBufferPutChecked_eq valid, Option.some_inj] at ran
    have same : (logBufferPut msg b).2 = b' := congrArg Prod.snd ran
    rw [← same]
    exact ⟨put_valid msg valid, (put_capacity msg valid).trans capacity⟩
  | clear _ ih => exact ⟨ByteRing.valid_clear ih.1, ih.2⟩
  | listen listener _ ih => exact ih

end Webos.Services

namespace Webos.Adb.Logcat

open Webos.Lib Webos.Lib.Bytes Webos.Lib.Checked Webos.Services

variable {cfg : Config}

/-- The copy of the `count` oldest bytes into `tx_chunk`, and their removal. -/
def takeChunk (tx : List UInt8) (count : Nat) (r : ByteRing) : Option (ByteRing × List UInt8) := do
  let tx ← r.copyOut tx count
  let r ← r.popChecked count
  return (r, tx)

/-- `queue_next` under its lock, on the whole of `tx_chunk`. -/
def captureInto (room : Nat) (tx : List UInt8) (c : LogcatContext cfg) :
    Option (LogcatContext cfg × List UInt8) := do
  let count := min c.ring.len room
  let (ring, tx) ← takeChunk tx count c.ring
  return ({ c with ring, txChunk := tx.take count, sending := true }, tx)

variable {r : ByteRing}

theorem takeChunk_eq (valid : r.Valid) {tx : List UInt8} {count : Nat} (stored : count ≤ r.len)
    (room : count ≤ tx.length) :
    takeChunk tx count r = some (r.pop count, r.bytes.take count ++ tx.drop count) := by
  unfold takeChunk
  simp only [Option.bind_eq_bind, ByteRing.copyOut_eq valid stored room,
    ByteRing.popChecked_eq valid stored, Option.bind_some]
  rfl

theorem captureInto_eq {c : LogcatContext cfg} (valid : c.ring.Valid) {tx : List UInt8} {room : Nat}
    (fits : room ≤ tx.length) : captureInto room tx c =
      some (c.capture room, c.ring.bytes.take room ++ tx.drop (min c.ring.len room)) := by
  have stored : min c.ring.len room ≤ c.ring.len := Nat.min_le_left _ _
  have taken : c.ring.bytes.take room = c.ring.bytes.take (min c.ring.len room) := by
    rw [List.take_eq_take_iff, ByteRing.length_bytes valid]
    omega
  have length : (c.ring.bytes.take (min c.ring.len room)).length = min c.ring.len room := by
    rw [List.length_take, ByteRing.length_bytes valid]
    omega
  have inside : min c.ring.len room ≤ tx.length := by omega
  unfold captureInto LogcatContext.capture
  simp only [Option.bind_eq_bind, takeChunk_eq valid stored inside, Option.bind_some,
    List.take_left' length, ByteRing.oldest_eq_take valid stored, taken]
  rfl

inductive RingStates (size : Nat) : ByteRing → Prop where
  | fresh (block : List UInt8) (length : block.length = size) : RingStates size ⟨block, 0, 0⟩
  | push {r r' : ByteRing} (data : List UInt8) :
    RingStates size r → r.pushChecked data = some r' → RingStates size r'
  | remove {r r' : ByteRing} {tx tx' : List UInt8} (count : Nat) : RingStates size r →
    count ≤ r.len → takeChunk tx count r = some (r', tx') → RingStates size r'

theorem RingStates.valid {size : Nat} (pos : 1 ≤ size) (states : RingStates size r) :
    r.Valid ∧ r.capacity = size := by
  induction states with
  | fresh block length =>
    have same : (ByteRing.mk block 0 0).capacity = size := length
    exact ⟨⟨same ▸ pos, same ▸ pos, Nat.zero_le _⟩, same⟩
  | push data _ ran ih =>
    obtain ⟨valid, capacity⟩ := ih
    rw [ByteRing.pushChecked_eq valid, Option.some_inj] at ran
    rw [← ran]
    exact ⟨ByteRing.valid_push valid data, (ByteRing.capacity_push valid data).trans capacity⟩
  | @remove r r' tx tx' count _ stored ran ih =>
    obtain ⟨valid, capacity⟩ := ih
    have popped : r' = r.pop count := by
      unfold takeChunk at ran
      simp only [Option.bind_eq_bind, ByteRing.popChecked_eq valid stored, Option.bind_some] at ran
      obtain ⟨copied, -, out⟩ := Option.bind_eq_some_iff.mp ran
      exact (Prod.ext_iff.mp (Option.some.inj out)).1.symm
    rw [popped]
    exact ⟨ByteRing.valid_pop valid, capacity⟩

structure InBounds (size : Nat) (r : ByteRing) : Prop where
  head : r.head < size
  len : r.len ≤ size
  count : r.bytes.length = r.len

theorem inBounds {size : Nat} (valid : r.Valid) (capacity : r.capacity = size) : InBounds size r :=
  ⟨capacity ▸ valid.head, capacity ▸ valid.len, ByteRing.length_bytes valid⟩

theorem maxPayload_le {σ π : Type} (w : World cfg σ π) :
    webosAdbStreamMaxPayload w ≤ cfg.txPayloadSize := by
  unfold webosAdbStreamMaxPayload
  dsimp only
  split_ifs <;> omega

/-- Both rings hold, after any calls, the newest bytes that fit; what is removed or read are their
oldest bytes in order; and no copy leaves its block, `tx_chunk` included. -/
theorem rings_drop_oldest {σ π : Type} (w : World cfg σ π) {size : Nat} (pos : 1 ≤ size) :
    (∀ b, LogStates size b → InBounds size b.log ∧
      (∀ msg, ∃ owed b', logBufferPutChecked msg b = some (owed, b') ∧
        LongestSuffix size (b.log.bytes ++ msg) b'.log.bytes) ∧
      (logBufferClear b).log.bytes = [] ∧
      ∀ dst, dst ≠ [] → logBufferReadInto dst b =
        some (min b.log.len (dst.length - 1), b.log.bytes.take (dst.length - 1) ++
          0 :: dst.drop (min b.log.len (dst.length - 1) + 1))) ∧
    (∀ r, RingStates size r → InBounds size r ∧ (∀ data, ∃ r', r.pushChecked data = some r' ∧
        LongestSuffix size (r.bytes ++ data) r'.bytes) ∧
      ∀ tx count, count ≤ r.len → count ≤ tx.length → ∃ r',
        takeChunk tx count r = some (r', r.bytes.take count ++ tx.drop count) ∧
          r'.bytes = r.bytes.drop count) ∧
    ∀ (c : LogcatContext cfg) (tx : List UInt8), RingStates size c.ring →
      tx.length = cfg.txPayloadSize → captureInto (webosAdbStreamMaxPayload w) tx c =
        some (c.capture (webosAdbStreamMaxPayload w),
          c.ring.bytes.take (webosAdbStreamMaxPayload w) ++
            tx.drop (min c.ring.len (webosAdbStreamMaxPayload w))) := by
  refine ⟨fun b states => ?_, fun r states => ?_, fun c tx states sized => ?_⟩
  · obtain ⟨valid, capacity⟩ := states.valid pos
    refine ⟨inBounds valid capacity, fun msg => ?_, ByteRing.bytes_clear _, fun dst room => ?_⟩
    · refine ⟨(logBufferPut msg b).1, (logBufferPut msg b).2, logBufferPutChecked_eq valid msg, ?_⟩
      rw [put_bytes msg valid, capacity]
      exact longestSuffix_rtake size _
    · exact logBufferReadInto_eq valid room
  · obtain ⟨valid, capacity⟩ := states.valid pos
    refine ⟨inBounds valid capacity, fun data => ?_, fun tx count stored room => ?_⟩
    · refine ⟨_, ByteRing.pushChecked_eq valid data, ?_⟩
      rw [ByteRing.bytes_push valid, capacity]
      exact longestSuffix_rtake size _
    · exact ⟨_, takeChunk_eq valid stored room, ByteRing.bytes_pop valid stored⟩
  · refine captureInto_eq (states.valid pos).1 ?_
    rw [sized]
    exact maxPayload_le w

/-- A ring of three bytes that has been filled and read past its end. -/
theorem rings_drop_oldest_three :
    RingStates 3 ⟨[5, 3, 4], 1, 3⟩ ∧
      ∃ r', (ByteRing.mk [5, 3, 4] 1 3).pushChecked [6, 7] = some r' ∧
        LongestSuffix 3 ([3, 4, 5] ++ [6, 7]) r'.bytes := by
  have first : RingStates 3 ⟨[2, 3, 4], 0, 3⟩ :=
    .push [1, 2, 3, 4] (.fresh [0, 0, 0] rfl) rfl
  have states : RingStates 3 ⟨[5, 3, 4], 1, 3⟩ := .push [5] first rfl
  refine ⟨states, ?_⟩
  exact ((rings_drop_oldest (World.boot Config.project () ()) (by decide)).2.1 _ states).2.1 [6, 7]

end Webos.Adb.Logcat
