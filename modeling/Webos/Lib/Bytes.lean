/- digest: Copies into fixed buffers compose, and little-endian words read back what was stored. -/

import Mathlib.Data.List.Basic

namespace Webos.Lib.Bytes

theorem forall_byte {P : UInt8 → Prop} (all : ∀ n : Fin 256, P (UInt8.ofFin n)) (c : UInt8) : P c :=
  all c.toFin

variable {α : Type}

/-- `memcpy(dst + offset, src, |src|)` on a fixed buffer. -/
def memcpy (dst : List α) (offset : Nat) (src : List α) : List α :=
  dst.take offset ++ src ++ dst.drop (offset + src.length)

variable (dst : List α) (offset : Nat)

theorem memcpy_nil : memcpy dst offset [] = dst := by
  simp [memcpy]

theorem take_memcpy (src : List α) (inside : offset ≤ dst.length) :
    (memcpy dst offset src).take (offset + src.length) = dst.take offset ++ src := by
  have front : (dst.take offset ++ src).length = offset + src.length := by
    simp only [List.length_append, List.length_take, Nat.min_eq_left inside]
  rw [memcpy, ← front, List.take_left']
  rfl

theorem drop_memcpy (n : Nat) (src : List α) (inside : offset ≤ dst.length) :
    (memcpy dst offset src).drop (offset + src.length + n) =
      dst.drop (offset + src.length + n) := by
  have front : (dst.take offset ++ src).length = offset + src.length := by
    simp only [List.length_append, List.length_take, Nat.min_eq_left inside]
  rw [memcpy, ← List.drop_drop, List.drop_left' front, List.drop_drop]

theorem memcpy_append (a b : List α) (inside : offset ≤ dst.length) :
    memcpy (memcpy dst offset a) (offset + a.length) b = memcpy dst offset (a ++ b) := by
  have tail := drop_memcpy dst offset b.length a inside
  rw [memcpy, take_memcpy dst offset a inside, tail, memcpy]
  simp only [List.append_assoc, List.length_append, Nat.add_assoc]

theorem length_memcpy (src : List α) (inside : offset + src.length ≤ dst.length) :
    (memcpy dst offset src).length = dst.length := by
  simp only [memcpy, List.length_append, List.length_take, List.length_drop]
  omega

theorem memcpy_full (src : List α) (fit : src.length = dst.length) : memcpy dst 0 src = src := by
  simp [memcpy, fit]

theorem getElem?_memcpy (dst src : List α) {offset : Nat} (i : Nat)
    (inside : offset + src.length ≤ dst.length) : (memcpy dst offset src)[i]? =
      if offset ≤ i ∧ i < offset + src.length then src[i - offset]? else dst[i]? := by
  have front : (dst.take offset).length = offset := by
    rw [List.length_take]
    omega
  rw [memcpy, List.append_assoc]
  by_cases before : i < offset
  · rw [List.getElem?_append_left (by omega), List.getElem?_take_of_lt before, if_neg (by omega)]
  · rw [List.getElem?_append_right (by omega), front]
    split_ifs with covered
    · rw [List.getElem?_append_left (by omega)]
    · rw [List.getElem?_append_right (by omega), List.getElem?_drop]
      congr 1
      omega

theorem fill_complete {have' data later text rest : List α} {count : Nat}
    (split : have' ++ (data ++ later) = text ++ rest) (inside : count ≤ data.length)
    (full : have'.length + count = text.length) :
    have' ++ data.take count = text ∧ data.drop count ++ later = rest := by
  apply List.append_inj
  · rw [List.append_assoc, ← List.append_assoc (data.take count), List.take_append_drop]
    exact split
  · rw [List.length_append, List.length_take, Nat.min_eq_left inside]
    exact full

theorem cut_common {a b c d : List α} {count : Nat} (same : a ++ b = c ++ d)
    (left : count ≤ a.length) (right : count ≤ c.length) :
    a.take count = c.take count ∧ a.drop count ++ b = c.drop count ++ d := by
  constructor
  · have front := congrArg (List.take count) same
    rwa [List.take_append_of_le_length left, List.take_append_of_le_length right] at front
  · have back := congrArg (List.drop count) same
    rwa [List.drop_append_of_le_length left, List.drop_append_of_le_length right] at back

def putLe32 (v : UInt32) : List UInt8 :=
  [UInt8.ofNat v.toNat, UInt8.ofNat (v.toNat / 256), UInt8.ofNat (v.toNat / 65536),
    UInt8.ofNat (v.toNat / 16777216)]

def getLe32 (b : List UInt8) : UInt32 :=
  UInt32.ofNat ((b.getD 0 0).toNat + 256 * (b.getD 1 0).toNat + 65536 * (b.getD 2 0).toNat +
    16777216 * (b.getD 3 0).toNat)

@[simp] theorem length_putLe32 (v : UInt32) : (putLe32 v).length = 4 := rfl

@[simp] theorem getLe32_putLe32 (v : UInt32) (rest : List UInt8) :
    getLe32 (putLe32 v ++ rest) = v := by
  have bound := v.toNat_lt
  apply UInt32.toNat.inj
  simp only [getLe32, putLe32, List.cons_append, List.getD_cons_zero, List.getD_cons_succ,
    UInt8.toNat_ofNat', UInt32.toNat_ofNat']
  omega

theorem getLe32_append {b : List UInt8} (long : 4 ≤ b.length) (rest : List UInt8) :
    getLe32 (b ++ rest) = getLe32 b := by
  have same (i : Nat) (below : i < 4) : (b ++ rest).getD i 0 = b.getD i 0 := by
    rw [List.getD_eq_getElem?_getD, List.getElem?_append_left (by omega),
      ← List.getD_eq_getElem?_getD]
  unfold getLe32
  rw [same 0 (by decide), same 1 (by decide), same 2 (by decide), same 3 (by decide)]

end Webos.Lib.Bytes
