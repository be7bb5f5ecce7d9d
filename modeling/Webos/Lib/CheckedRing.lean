/- digest: The ring operations as C performs them, with every copy checked, are always defined. -/

import Webos.Lib.ByteRing
import Webos.Lib.Checked

namespace Webos.Lib

open Webos.Lib.Bytes

/-- The longest suffix of `all` that has at most `size` elements. -/
def LongestSuffix {α : Type} (size : Nat) (all kept : List α) : Prop :=
  kept <:+ all ∧ kept.length ≤ size ∧
    ∀ other, other <:+ all → other.length ≤ size → other.length ≤ kept.length

theorem longestSuffix_rtake {α : Type} (size : Nat) (all : List α) :
    LongestSuffix size all (all.rtake size) := by
  have length : (all.rtake size).length = min size all.length := by
    rw [List.rtake, List.length_drop]
    omega
  refine ⟨List.drop_suffix _ _, ?_, fun other suffix short => ?_⟩
  · omega
  · have below := suffix.length_le
    omega

namespace ByteRing

open Webos.Lib.Checked

/-- The end of `data` that can stay, as an offset into it, and the ring it goes to. -/
def fitIn (r : ByteRing) (data : List UInt8) : Option (Nat × ByteRing) :=
  if data.length ≥ r.capacity then do
    let skip ← sub data.length r.capacity
    return (skip, { r with head := 0, len := 0 })
  else some (0, r)

def freeUp (r : ByteRing) (count : Nat) : Option ByteRing :=
  if r.len + count > r.capacity then do
    let drop ← sub (r.len + count) r.capacity
    let head ← rem (r.head + drop) r.capacity
    let len ← sub r.len drop
    return { r with head, len }
  else some r

def append (r : ByteRing) (data : List UInt8) (skip count : Nat) : Option ByteRing := do
  let tail ← rem (r.head + r.len) r.capacity
  let behind ← sub r.capacity tail
  let first := min count behind
  let buf ← copy r.buf tail data skip first
  let buf ← copyRest buf 0 data (skip + first) first count
  return { r with buf, len := r.len + count }

def pushChecked (r : ByteRing) (data : List UInt8) : Option ByteRing := do
  let (skip, r') ← r.fitIn data
  let room ← r'.freeUp (data.length - skip)
  room.append data skip (data.length - skip)

def copyOut (r : ByteRing) (dst : List UInt8) (count : Nat) : Option (List UInt8) := do
  let behind ← sub r.capacity r.head
  let first := min count behind
  let dst ← copy dst 0 r.buf r.head first
  copyRest dst first r.buf 0 first count

def popChecked (r : ByteRing) (count : Nat) : Option ByteRing := do
  let head ← rem (r.head + count) r.capacity
  let len ← sub r.len count
  return { r with head, len }

variable {r : ByteRing} {data : List UInt8}

theorem fitIn_eq (r : ByteRing) (data : List UInt8) : r.fitIn data =
    some (data.length - r.capacity, if data.length ≥ r.capacity then r.clear else r) := by
  unfold fitIn
  split_ifs with long
  · rw [sub_of_le long]
    rfl
  · rw [Nat.sub_eq_zero_of_le (by omega)]

variable {count : Nat}

theorem freeUp_eq (valid : r.Valid) (fits : count ≤ r.capacity) :
    r.freeUp count = some (r.makeRoom count) := by
  unfold freeUp makeRoom
  split_ifs with full
  · rw [sub_of_le (Nat.le_of_lt full), Option.bind_eq_bind, Option.bind_some,
      rem_of_pos _ valid.pos, Option.bind_some, sub_of_le (by omega)]
    rfl
  · rfl

theorem append_eq {skip : Nat} (valid : r.Valid) (fits : r.len + count ≤ r.capacity)
    (ends : skip + count = data.length) :
    r.append data skip count = some (r.store (data.drop skip)) := by
  have inside : (r.head + r.len) % r.capacity < r.capacity := Nat.mod_lt _ valid.pos
  have length : (data.drop skip).length = count := by
    rw [List.length_drop]
    omega
  obtain ⟨first, cut⟩ : ∃ first, min count (r.capacity - (r.head + r.len) % r.capacity) = first :=
    ⟨_, rfl⟩
  have one : copy r.buf ((r.head + r.len) % r.capacity) data skip first =
      some (memcpy r.buf ((r.head + r.len) % r.capacity) ((data.drop skip).take first)) := by
    refine copy_inside ?_ (by omega)
    rw [capacity] at *
    omega
  have two (buf : List UInt8) (same : buf.length = r.capacity) :
      copyRest buf 0 data (skip + first) first count =
        some (memcpy buf 0 ((data.drop skip).drop first)) := by
    have left : ((data.drop skip).drop first).length = count - first := by
      rw [List.length_drop, length]
    rw [copyRest_inside (by omega) (by omega), ← List.drop_drop,
      List.take_of_length_le (by omega)]
  have kept : (memcpy r.buf ((r.head + r.len) % r.capacity)
      ((data.drop skip).take first)).length = r.capacity := by
    rw [length_memcpy]
    · rfl
    · rw [List.length_take, length]
      rw [capacity] at *
      omega
  unfold append store
  simp only [Option.bind_eq_bind, rem_of_pos _ valid.pos, sub_of_le (Nat.le_of_lt inside),
    Option.bind_some, length, cut, one, two _ kept]
  rfl

theorem pushChecked_eq (valid : r.Valid) (data : List UInt8) :
    r.pushChecked data = some (r.push data) := by
  have size : data.length - (data.length - r.capacity) = (r.kept data).length := by
    rw [kept_eq, List.rtake, List.length_drop]
  have stays : data.drop (data.length - r.capacity) = r.kept data := (kept_eq r data).symm
  have short := length_kept_le r data
  have valid' : (if data.length ≥ r.capacity then r.clear else r).Valid := by
    split_ifs
    · exact valid_clear valid
    · exact valid
  have same : (if data.length ≥ r.capacity then r.clear else r).capacity = r.capacity := by
    split_ifs <;> rfl
  have fits : (r.kept data).length ≤
      (if data.length ≥ r.capacity then r.clear else r).capacity := by
    rw [same]
    exact short
  have room := freeUp_eq valid' fits
  unfold pushChecked
  simp only [Option.bind_eq_bind, fitIn_eq, Option.bind_some, size, room]
  rw [append_eq (valid_makeRoom _ valid') ?_ (by omega), stays, push_eq]
  rw [capacity_makeRoom]
  exact len_makeRoom fits

theorem copyOut_eq {dst : List UInt8} (valid : r.Valid) (stored : count ≤ r.len)
    (room : count ≤ dst.length) :
    r.copyOut dst count = some (r.bytes.take count ++ dst.drop count) := by
  have head := valid.head
  have len := valid.len
  obtain ⟨first, cut⟩ : ∃ first, min count (r.capacity - r.head) = first := ⟨_, rfl⟩
  have taken : ((r.buf.drop r.head).take first).length = first := by
    rw [List.length_take, List.length_drop]
    rw [capacity] at *
    omega
  have one : copy dst 0 r.buf r.head first =
      some (memcpy dst 0 ((r.buf.drop r.head).take first)) := by
    refine copy_inside (by omega) ?_
    rw [capacity] at *
    omega
  have two : copyRest (memcpy dst 0 ((r.buf.drop r.head).take first)) first r.buf 0 first count =
      some (memcpy dst 0 ((r.buf.drop r.head).take first ++ r.buf.take (count - first))) := by
    rw [copyRest_inside, List.drop_zero]
    · have joined := memcpy_append dst 0 ((r.buf.drop r.head).take first)
        (r.buf.take (count - first)) (Nat.zero_le _)
      rw [taken, Nat.zero_add] at joined
      rw [joined]
    · rw [length_memcpy _ _ _ (by omega)]
      omega
    · rw [capacity] at *
      omega
  have oldest : (r.buf.drop r.head).take first ++ r.buf.take (count - first) =
      r.bytes.take count := by
    rw [← oldest_eq_take valid stored, ByteRing.oldest, cut]
  have length : (r.bytes.take count).length = count := by
    rw [List.length_take, length_bytes valid]
    omega
  unfold copyOut
  simp only [Option.bind_eq_bind, sub_of_le (Nat.le_of_lt head), Option.bind_some, cut, one, two,
    oldest]
  rw [memcpy, length, List.take_zero, List.nil_append, Nat.zero_add]

theorem popChecked_eq (valid : r.Valid) (stored : count ≤ r.len) :
    r.popChecked count = some (r.pop count) := by
  unfold popChecked
  simp only [Option.bind_eq_bind, rem_of_pos _ valid.pos, sub_of_le stored, Option.bind_some]
  rfl

end ByteRing

end Webos.Lib
