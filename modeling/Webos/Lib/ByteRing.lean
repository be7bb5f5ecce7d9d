/- digest: A byte ring that drops its oldest bytes when new ones do not fit. -/

import Mathlib.Data.List.DropRight
import Webos.Lib.Bytes

namespace Webos.Lib

open Webos.Lib.Bytes

structure ByteRing where
  buf : List UInt8
  head : Nat
  len : Nat

namespace ByteRing

def zeroed (size : Nat) : ByteRing := ⟨List.replicate size 0, 0, 0⟩

def capacity (r : ByteRing) : Nat := r.buf.length

/-- What of `data` can stay in the ring at all: its end, when it fills the ring by itself. -/
def kept (r : ByteRing) (data : List UInt8) : List UInt8 :=
  if data.length ≥ r.capacity then data.drop (data.length - r.capacity) else data

def makeRoom (r : ByteRing) (count : Nat) : ByteRing :=
  if r.len + count > r.capacity then
    let drop := r.len + count - r.capacity
    { r with head := (r.head + drop) % r.capacity, len := r.len - drop }
  else r

/-- Copy bytes for which there is room behind the newest one, around the end of the block. -/
def store (r : ByteRing) (data : List UInt8) : ByteRing :=
  let tail := (r.head + r.len) % r.capacity
  let first := min data.length (r.capacity - tail)
  { r with
    buf := memcpy (memcpy r.buf tail (data.take first)) 0 (data.drop first)
    len := r.len + data.length }

def push (r : ByteRing) (data : List UInt8) : ByteRing :=
  let r' := if data.length ≥ r.capacity then { r with head := 0, len := 0 } else r
  (r'.makeRoom (r.kept data).length).store (r.kept data)

/-- The oldest `count` bytes, copied around the end of the block. -/
def oldest (r : ByteRing) (count : Nat) : List UInt8 :=
  let first := min count (r.capacity - r.head)
  (r.buf.drop r.head).take first ++ r.buf.take (count - first)

def pop (r : ByteRing) (count : Nat) : ByteRing :=
  { r with head := (r.head + count) % r.capacity, len := r.len - count }

def clear (r : ByteRing) : ByteRing := { r with head := 0, len := 0 }

def bytes (r : ByteRing) : List UInt8 := r.oldest r.len

structure Valid (r : ByteRing) : Prop where
  pos : 0 < r.capacity
  head : r.head < r.capacity
  len : r.len ≤ r.capacity

variable {r : ByteRing} {data : List UInt8}

theorem valid_zeroed {size : Nat} (pos : 0 < size) : (zeroed size).Valid where
  pos := by
    rw [capacity, zeroed, List.length_replicate]
    exact pos
  head := by
    rw [capacity, zeroed, List.length_replicate]
    exact pos
  len := Nat.zero_le _

theorem bytes_zeroed (size : Nat) : (zeroed size).bytes = [] := by
  simp [bytes, zeroed, oldest]

theorem mod_of_lt_double {i n : Nat} (below : i < 2 * n) :
    i % n = if i < n then i else i - n := by
  split_ifs with inside
  · exact Nat.mod_eq_of_lt inside
  · rw [Nat.mod_eq_sub_mod (Nat.le_of_not_lt inside), Nat.mod_eq_of_lt (by omega)]

section Reading

theorem length_oldest {count : Nat} (valid : r.Valid) (inside : count ≤ r.capacity) :
    (r.oldest count).length = count := by
  have head := valid.head
  rw [capacity] at head inside
  simp only [oldest, capacity, List.length_append, List.length_take, List.length_drop]
  omega

theorem length_bytes (valid : r.Valid) : r.bytes.length = r.len := length_oldest valid valid.len

theorem getElem?_oldest {count i : Nat} (valid : r.Valid) (inside : count ≤ r.capacity)
    (below : i < count) : (r.oldest count)[i]? = r.buf[(r.head + i) % r.capacity]? := by
  have head := valid.head
  rw [oldest, mod_of_lt_double (by omega)]
  rw [capacity] at *
  split_ifs with unwrapped
  · rw [List.getElem?_append_left, List.getElem?_take_of_lt, List.getElem?_drop]
    · omega
    · rw [List.length_take, List.length_drop]
      omega
  · rw [List.getElem?_append_right, List.getElem?_take_of_lt, List.length_take, List.length_drop]
    · congr 1
      omega
    all_goals
      rw [List.length_take, List.length_drop]
      omega

theorem getElem?_bytes {i : Nat} (valid : r.Valid) (below : i < r.len) :
    r.bytes[i]? = r.buf[(r.head + i) % r.capacity]? := getElem?_oldest valid valid.len below

theorem oldest_eq_take {count : Nat} (valid : r.Valid) (inside : count ≤ r.len) :
    r.oldest count = r.bytes.take count := by
  have fits := Nat.le_trans inside valid.len
  apply List.ext_getElem?
  intro i
  by_cases below : i < count
  · rw [getElem?_oldest valid fits below, List.getElem?_take_of_lt below,
      getElem?_bytes valid (by omega)]
  · rw [List.getElem?_eq_none, List.getElem?_eq_none]
    · rw [List.length_take]
      omega
    · rw [length_oldest valid fits]
      omega

end Reading

section Removing

theorem valid_pop {count : Nat} (valid : r.Valid) : (r.pop count).Valid where
  pos := valid.pos
  head := Nat.mod_lt _ valid.pos
  len := Nat.le_trans (Nat.sub_le _ _) valid.len

theorem bytes_pop {count : Nat} (valid : r.Valid) (inside : count ≤ r.len) :
    (r.pop count).bytes = r.bytes.drop count := by
  have popped : (r.pop count).len = r.len - count := rfl
  apply List.ext_getElem?
  intro i
  rw [List.getElem?_drop]
  by_cases below : i < r.len - count
  · rw [getElem?_bytes (valid_pop valid) below, getElem?_bytes valid (by omega)]
    show r.buf[((r.head + count) % r.capacity + i) % r.capacity]? = _
    rw [Nat.mod_add_mod, Nat.add_assoc]
  · rw [List.getElem?_eq_none, List.getElem?_eq_none]
    · rw [length_bytes valid]
      omega
    · rw [length_bytes (valid_pop valid)]
      omega

theorem valid_clear (valid : r.Valid) : r.clear.Valid where
  pos := valid.pos
  head := valid.pos
  len := Nat.zero_le _

theorem bytes_clear (r : ByteRing) : r.clear.bytes = [] := by
  simp [bytes, clear, oldest]

end Removing

section Writing

theorem getElem?_store {i tail first : Nat} (valid : r.Valid) (fits : data.length ≤ r.capacity)
    (ends : (r.head + r.len) % r.capacity = tail)
    (cut : min data.length (r.capacity - tail) = first) : (r.store data).buf[i]? =
      if i < data.length - first then data[first + i]?
      else if tail ≤ i ∧ i < tail + first then data[i - tail]?
      else r.buf[i]? := by
  have inside : tail < r.capacity := ends ▸ Nat.mod_lt _ valid.pos
  have stored : (r.store data).buf =
      memcpy (memcpy r.buf tail (data.take first)) 0 (data.drop first) := by
    rw [store, ends, cut]
  have taken : (data.take first).length = first := by
    rw [List.length_take]
    omega
  rw [capacity] at *
  have covers : tail + (data.take first).length ≤ r.buf.length := by omega
  have around : 0 + (data.drop first).length ≤ (memcpy r.buf tail (data.take first)).length := by
    rw [length_memcpy _ _ _ covers, List.length_drop]
    omega
  rw [stored, getElem?_memcpy _ _ _ around, getElem?_memcpy _ _ _ covers, taken, List.length_drop,
    List.getElem?_drop, Nat.zero_add]
  simp only [Nat.zero_le, true_and, Nat.sub_zero]
  split_ifs with second covered
  · rfl
  · exact List.getElem?_take_of_lt (by omega)
  · rfl

theorem capacity_store (valid : r.Valid) (fits : data.length ≤ r.capacity) :
    (r.store data).capacity = r.capacity := by
  have inside : (r.head + r.len) % r.capacity < r.capacity := Nat.mod_lt _ valid.pos
  rw [capacity, store]
  rw [length_memcpy, length_memcpy]
  · rfl
  · rw [List.length_take]
    rw [capacity] at *
    omega
  · rw [length_memcpy, List.length_drop]
    · rw [capacity] at *
      omega
    · rw [List.length_take]
      rw [capacity] at *
      omega

theorem valid_store (valid : r.Valid) (fits : r.len + data.length ≤ r.capacity) :
    (r.store data).Valid := by
  have same := capacity_store valid (Nat.le_trans (Nat.le_add_left _ _) fits)
  refine ⟨?_, ?_, ?_⟩
  · rw [same]
    exact valid.pos
  · rw [same]
    exact valid.head
  · rw [same]
    exact fits

theorem bytes_store (valid : r.Valid) (fits : r.len + data.length ≤ r.capacity) :
    (r.store data).bytes = r.bytes ++ data := by
  have head := valid.head
  have len : (r.store data).len = r.len + data.length := rfl
  have head' : (r.store data).head = r.head := rfl
  have same := capacity_store valid (Nat.le_trans (Nat.le_add_left _ _) fits)
  have valid' := valid_store valid fits
  apply List.ext_getElem?
  intro i
  by_cases below : i < r.len + data.length
  · rw [getElem?_bytes valid' below, same, head',
      getElem?_store valid (Nat.le_trans (Nat.le_add_left _ _) fits) rfl rfl,
      mod_of_lt_double (i := r.head + i) (by omega),
      mod_of_lt_double (i := r.head + r.len) (by omega)]
    by_cases old : i < r.len
    · rw [List.getElem?_append_left (by rw [length_bytes valid]; exact old),
        getElem?_bytes valid old, mod_of_lt_double (by omega)]
      split_ifs <;> first | omega | rfl
    · rw [List.getElem?_append_right (by rw [length_bytes valid]; omega), length_bytes valid]
      split_ifs <;> first | omega | (congr 1; omega)
  · rw [List.getElem?_eq_none, List.getElem?_eq_none]
    · rw [List.length_append, length_bytes valid]
      omega
    · rw [length_bytes valid', len]
      omega

theorem makeRoom_eq (count : Nat) :
    r.makeRoom count = if r.len + count > r.capacity then r.pop (r.len + count - r.capacity)
      else r := rfl

theorem capacity_makeRoom (count : Nat) : (r.makeRoom count).capacity = r.capacity := by
  rw [makeRoom_eq]
  split_ifs <;> rfl

theorem valid_makeRoom (count : Nat) (valid : r.Valid) : (r.makeRoom count).Valid := by
  rw [makeRoom_eq]
  split_ifs
  · exact valid_pop valid
  · exact valid

theorem len_makeRoom {count : Nat} (fits : count ≤ r.capacity) :
    (r.makeRoom count).len + count ≤ r.capacity := by
  rw [makeRoom_eq]
  split_ifs with full
  · show r.len - (r.len + count - r.capacity) + count ≤ r.capacity
    omega
  · omega

theorem bytes_makeRoom {count : Nat} (valid : r.Valid) (fits : count ≤ r.capacity) :
    (r.makeRoom count).bytes = r.bytes.drop (r.len + count - r.capacity) := by
  rw [makeRoom_eq]
  split_ifs with full
  · exact bytes_pop valid (by omega)
  · rw [Nat.sub_eq_zero_of_le (by omega), List.drop_zero]

theorem kept_eq (r : ByteRing) (data : List UInt8) : r.kept data = data.rtake r.capacity := by
  rw [kept, List.rtake]
  split_ifs with long
  · rfl
  · rw [Nat.sub_eq_zero_of_le (by omega), List.drop_zero]

theorem length_kept_le (r : ByteRing) (data : List UInt8) : (r.kept data).length ≤ r.capacity := by
  rw [kept_eq, List.rtake, List.length_drop]
  omega

theorem push_eq (r : ByteRing) (data : List UInt8) : r.push data =
    ((if data.length ≥ r.capacity then r.clear else r).makeRoom (r.kept data).length).store
      (r.kept data) := rfl

theorem push_steps (valid : r.Valid) (data : List UInt8) :
    ∃ room : ByteRing, r.push data = room.store (r.kept data) ∧ room.Valid ∧
      room.capacity = r.capacity ∧ room.len + (r.kept data).length ≤ r.capacity ∧
      room.bytes ++ r.kept data = (r.bytes ++ data).rtake r.capacity := by
  have short := length_kept_le r data
  refine ⟨_, push_eq r data, ?_⟩
  rw [capacity_makeRoom]
  split_ifs with long
  · refine ⟨valid_makeRoom _ (valid_clear valid), rfl, len_makeRoom short, ?_⟩
    rw [bytes_makeRoom (valid_clear valid) short, bytes_clear, List.drop_nil, List.nil_append,
      kept_eq, List.rtake, List.rtake, List.length_append,
      Nat.add_sub_assoc long, List.drop_append, List.drop_eq_nil_of_le (Nat.le_add_right _ _),
      List.nil_append, Nat.add_sub_cancel_left]
  · refine ⟨valid_makeRoom _ valid, rfl, len_makeRoom short, ?_⟩
    have whole : r.kept data = data := if_neg long
    rw [bytes_makeRoom valid short, whole, List.rtake, List.length_append, length_bytes valid,
      List.drop_append_of_le_length]
    rw [length_bytes valid]
    omega

theorem valid_push (valid : r.Valid) (data : List UInt8) : (r.push data).Valid := by
  obtain ⟨room, pushed, room_valid, same, fits, -⟩ := push_steps valid data
  rw [pushed]
  exact valid_store room_valid (same ▸ fits)

theorem capacity_push (valid : r.Valid) (data : List UInt8) :
    (r.push data).capacity = r.capacity := by
  obtain ⟨room, pushed, room_valid, same, fits, -⟩ := push_steps valid data
  rw [pushed, capacity_store room_valid (same ▸ length_kept_le r data), same]

theorem bytes_push (valid : r.Valid) (data : List UInt8) :
    (r.push data).bytes = (r.bytes ++ data).rtake r.capacity := by
  obtain ⟨room, pushed, room_valid, same, fits, bytes⟩ := push_steps valid data
  rw [pushed, bytes_store room_valid (same ▸ fits), bytes]

end Writing

end ByteRing

end Webos.Lib
