/- digest: The retained log and its one live listener. -/

import Webos.Adb.Config
import Webos.Lib.ByteRing

namespace Webos.Services

open Webos.Adb (EBUSY EINVAL)
open Webos.Lib

/-- A listener with its context: `live_log_listener` of the logcat service, or one registered by
other code. -/
inductive LogListener where
  | live
  | foreign (id : Nat)
  deriving DecidableEq

/-- The statics of `log_buffer.c`; the capacity of the ring is CONFIG_WEBOS_LOG_BUFFER_SIZE. -/
structure LogBuffer where
  log : ByteRing
  listener : Option LogListener

def LogBuffer.boot (log : ByteRing) : LogBuffer := ⟨log, none⟩

def copyLogLocked (dstLen : Nat) (b : LogBuffer) : List UInt8 :=
  if dstLen = 0 then [] else b.log.oldest (min b.log.len (dstLen - 1))

def logBufferPut (msg : List UInt8) (b : LogBuffer) :
    Option (LogListener × List UInt8) × LogBuffer :=
  if msg.length = 0 then (none, b)
  else (b.listener.map fun listener => (listener, b.log.kept msg), { b with log := b.log.push msg })

def logBufferRead (dstLen : Nat) (b : LogBuffer) : List UInt8 := copyLogLocked dstLen b

def logBufferClear (b : LogBuffer) : LogBuffer := { b with log := b.log.clear }

def logBufferSetListener (listener : LogListener) (b : LogBuffer) : Int × LogBuffer :=
  if b.listener.isSome then (-EBUSY, b) else (0, { b with listener := some listener })

def logBufferSnapshotAndSetListener (listener : LogListener) (dstLen : Nat) (b : LogBuffer) :
    Int × List UInt8 × LogBuffer :=
  if dstLen = 0 then (-EINVAL, [], b)
  else if b.listener.isSome then (-EBUSY, [], b)
  else (0, copyLogLocked dstLen b, { b with listener := some listener })

def logBufferClearListener (listener : LogListener) (b : LogBuffer) : LogBuffer :=
  if b.listener = some listener then { b with listener := none } else b

section Buffer

variable {b : LogBuffer}

theorem rtake_of_length_le {α : Type} {l : List α} {n : Nat} (short : l.length ≤ n) :
    l.rtake n = l := by
  rw [List.rtake, Nat.sub_eq_zero_of_le short, List.drop_zero]

variable (msg : List UInt8)

theorem put_valid (valid : b.log.Valid) : (logBufferPut msg b).2.log.Valid := by
  rw [logBufferPut]
  split_ifs
  · exact valid
  · exact ByteRing.valid_push valid msg

theorem put_capacity (valid : b.log.Valid) :
    (logBufferPut msg b).2.log.capacity = b.log.capacity := by
  rw [logBufferPut]
  split_ifs
  · rfl
  · exact ByteRing.capacity_push valid msg

theorem put_bytes (valid : b.log.Valid) :
    (logBufferPut msg b).2.log.bytes = (b.log.bytes ++ msg).rtake b.log.capacity := by
  rw [logBufferPut]
  split_ifs with empty
  · rw [List.length_eq_zero_iff.mp empty, List.append_nil, rtake_of_length_le]
    rw [ByteRing.length_bytes valid]
    exact valid.len
  · exact ByteRing.bytes_push valid msg

theorem put_listener : (logBufferPut msg b).2.listener = b.listener := by
  rw [logBufferPut]
  split_ifs <;> rfl

theorem copyLogLocked_eq (dstLen : Nat) (valid : b.log.Valid) :
    copyLogLocked dstLen b = b.log.bytes.take (dstLen - 1) := by
  rw [copyLogLocked]
  split_ifs with none
  · rw [none, Nat.zero_sub, List.take_zero]
  · rw [ByteRing.oldest_eq_take valid (Nat.min_le_left _ _), List.take_eq_take_iff,
      ByteRing.length_bytes valid]
    omega

theorem copyLogLocked_whole {dstLen : Nat} (valid : b.log.Valid) (room : b.log.len ≤ dstLen - 1) :
    copyLogLocked dstLen b = b.log.bytes := by
  rw [copyLogLocked_eq dstLen valid, List.take_of_length_le]
  rw [ByteRing.length_bytes valid]
  exact room

end Buffer

end Webos.Services
