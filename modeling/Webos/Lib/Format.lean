/- digest: Strings in fixed blocks, and formatted output that is cut to the block it goes to. -/

import Mathlib.Data.List.TakeWhile
import Mathlib.Data.Nat.Digits.Defs
import Webos.Lib.Bytes

namespace Webos.Lib.Format

open Webos.Lib.Bytes

/-- The string in a block: what stands before its first zero byte. -/
def text (block : List UInt8) : List UInt8 := block.takeWhile (· ≠ 0)

theorem zero_notMem_text (block : List UInt8) : 0 ∉ text block := by
  intro member
  have nonzero := List.mem_takeWhile_imp member
  simp at nonzero

theorem text_append {s : List UInt8} (nonzero : 0 ∉ s) (rest : List UInt8) :
    text (s ++ rest) = s ++ text rest := by
  apply List.takeWhile_append_of_pos
  intro c member
  rw [decide_eq_true_eq]
  rintro rfl
  exact nonzero member

theorem text_eq_self {s : List UInt8} (nonzero : 0 ∉ s) : text s = s := by
  have whole := text_append nonzero []
  rw [List.append_nil] at whole
  exact whole.trans (List.append_nil s)

theorem text_append_zero (s rest : List UInt8) : text (s ++ 0 :: rest) = text s := by
  unfold text
  induction s with
  | nil => rfl
  | cons c s ih =>
    rw [List.cons_append, List.takeWhile_cons, List.takeWhile_cons, ih]

theorem length_text_le (block : List UInt8) : (text block).length ≤ block.length :=
  (List.takeWhile_sublist _).length_le

/-- `snprintk` into a block that is not empty, for the text the format gives: the length of the
whole text, and the block with what fits of it. -/
def snprintk (dst content : List UInt8) : Nat × List UInt8 :=
  (content.length, memcpy dst 0 (content.take (dst.length - 1) ++ [0]))

theorem text_snprintk (dst content : List UInt8) :
    text (snprintk dst content).2 = text (content.take (dst.length - 1)) := by
  rw [snprintk, memcpy, List.take_zero, List.nil_append, List.append_assoc]
  exact text_append_zero _ _

def decimal (n : Int) : List UInt8 :=
  (if n < 0 then [45] else []) ++ (Nat.toDigits 10 n.natAbs).map fun c => UInt8.ofNat c.toNat

theorem length_decimal_le {n : Int} (above : -2 ^ 31 ≤ n) (below : n < 2 ^ 31) :
    (decimal n).length ≤ 11 := by
  have digits := Nat.toDigits_length 10 n.natAbs 10 (by decide) (by omega)
  unfold decimal
  rw [List.length_append, List.length_map]
  split_ifs
  · rw [List.length_singleton]
    omega
  · rw [List.length_nil]
    omega

theorem zero_notMem_decimal (n : Int) : 0 ∉ decimal n := by
  unfold decimal
  rw [List.mem_append]
  rintro (sign | digit)
  · split_ifs at sign
    · cases sign with
      | tail _ no => cases no
    · cases sign
  · obtain ⟨c, member, zero⟩ := List.mem_map.mp digit
    have isDigit := Nat.isDigit_of_mem_toDigits (by decide) (by decide) member
    simp only [Char.isDigit, Bool.and_eq_true, decide_eq_true_eq] at isDigit
    have lower : 48 ≤ c.toNat := isDigit.1
    have upper : c.toNat ≤ 57 := isDigit.2
    have same := congrArg UInt8.toNat zero
    rw [UInt8.toNat_ofNat', Nat.mod_eq_of_lt (by omega)] at same
    rw [same] at lower
    exact absurd lower (by decide)

/-- A static `char[n]` for strings: every write stays inside, and its last byte stays zero. -/
structure Buffer (n : Nat) where
  bytes : List UInt8
  size : bytes.length = n
  last : bytes.getLast? = some 0

theorem getLast?_memcpy {dst src : List UInt8} {offset : Nat} (last : dst.getLast? = some 0)
    (ends : offset + src.length < dst.length ∨ src.getLast? = some 0) :
    (memcpy dst offset src).getLast? = some 0 := by
  rw [memcpy, List.getLast?_append, List.getLast?_append, List.getLast?_drop]
  rcases ends with before | zero
  · rw [if_neg (by omega), last]
    rfl
  · split_ifs
    · rw [zero]
      rfl
    · rw [last]
      rfl

namespace Buffer

variable {n : Nat}

def zeroed (n : Nat) [NeZero n] : Buffer n where
  bytes := List.replicate n 0
  size := List.length_replicate
  last := by
    rw [List.getLast?_replicate, if_neg (NeZero.ne n)]

theorem pos (b : Buffer n) : 0 < n := by
  rw [← b.size]
  have last := b.last
  cases shape : b.bytes with
  | nil =>
    rw [shape] at last
    cases last
  | cons c rest => exact Nat.succ_pos _

/-- A copy that leaves the last byte alone or ends there with a zero. -/
def write (b : Buffer n) (offset : Nat) (src : List UInt8) (inside : offset + src.length ≤ n)
    (ends : offset + src.length < n ∨ src.getLast? = some 0) : Buffer n where
  bytes := memcpy b.bytes offset src
  size := by
    rw [length_memcpy _ _ _ (by rw [b.size]; exact inside), b.size]
  last := getLast?_memcpy b.last (by rw [b.size]; exact ends)

def text (b : Buffer n) : List UInt8 := Format.text b.bytes

variable (b : Buffer n)

theorem zero_notMem_text : 0 ∉ b.text := Format.zero_notMem_text b.bytes

theorem length_text_lt : b.text.length < n := by
  obtain ⟨front, shape⟩ := List.getLast?_eq_some_iff.mp b.last
  have size := b.size
  rw [shape, List.length_append, List.length_singleton] at size
  rw [text, shape, text_append_zero, ← size]
  exact Nat.lt_succ_of_le (length_text_le front)

def snprintk (b : Buffer n) (content : List UInt8) : Nat × Buffer n :=
  have short : (content.take (n - 1) ++ [0]).length ≤ n := by
    have pos := b.pos
    simp only [List.length_append, List.length_take, List.length_singleton]
    omega
  ((Format.snprintk b.bytes content).1,
    b.write 0 (content.take (n - 1) ++ [0]) (by rw [Nat.zero_add]; exact short)
      (.inr (by rw [List.getLast?_append]; rfl)))

theorem snprintk_eq (content : List UInt8) :
    ((b.snprintk content).1, (b.snprintk content).2.bytes) = Format.snprintk b.bytes content := by
  rw [Format.snprintk, b.size]
  rfl

theorem text_snprintk {content : List UInt8} (nonzero : 0 ∉ content) :
    (b.snprintk content).2.text = content.take (n - 1) := by
  have same := congrArg Prod.snd (b.snprintk_eq content)
  rw [text, show (b.snprintk content).2.bytes = _ from same, Format.text_snprintk, b.size,
    text_eq_self fun zero => nonzero (List.mem_of_mem_take zero)]

theorem snprintk_exact_iff {content : List UInt8} (nonzero : 0 ∉ content) :
    (b.snprintk content).1 = (b.snprintk content).2.text.length ↔ content.length < n := by
  have pos := b.pos
  rw [b.text_snprintk nonzero, List.length_take]
  change content.length = _ ↔ _
  omega

end Buffer

end Webos.Lib.Format
