/- digest: Copies, stores and size arithmetic that are undefined where C leaves them undefined. -/

import Webos.Lib.Bytes

namespace Webos.Lib.Checked

open Webos.Lib.Bytes

variable {α : Type}

/-- `memcpy(dst + offset, src + start, count)`, which has to stay inside both blocks. -/
def copy (dst : List α) (offset : Nat) (src : List α) (start count : Nat) : Option (List α) :=
  if offset + count ≤ dst.length ∧ start + count ≤ src.length then
    some (memcpy dst offset ((src.drop start).take count))
  else none

/-- The second half of a copy of `count` elements that was split at `first`, if it has one. -/
def copyRest (dst : List α) (offset : Nat) (src : List α) (start first count : Nat) :
    Option (List α) :=
  if first ≠ count then copy dst offset src start (count - first) else some dst

def assign (dst : List α) (i : Nat) (a : α) : Option (List α) :=
  if i < dst.length then some (memcpy dst i [a]) else none

def sub (a b : Nat) : Option Nat := if b ≤ a then some (a - b) else none

def rem (a n : Nat) : Option Nat := if n = 0 then none else some (a % n)

def require (p : Prop) [Decidable p] : Option Unit := if p then some () else none

theorem require_of {p : Prop} [Decidable p] (holds : p) : require p = some () := if_pos holds

variable {dst : List α}

theorem copy_inside {src : List α} {offset start count : Nat} (target : offset + count ≤ dst.length)
    (source : start + count ≤ src.length) :
    copy dst offset src start count = some (memcpy dst offset ((src.drop start).take count)) :=
  if_pos ⟨target, source⟩

theorem copyRest_inside {src : List α} {offset start first count : Nat}
    (target : offset + (count - first) ≤ dst.length)
    (source : start + (count - first) ≤ src.length) :
    copyRest dst offset src start first count =
      some (memcpy dst offset ((src.drop start).take (count - first))) := by
  unfold copyRest
  split_ifs with more
  · exact copy_inside target source
  · have none : count - first = 0 := by omega
    rw [none, List.take_zero, memcpy_nil]

theorem assign_inside {i : Nat} (a : α) (inside : i < dst.length) :
    assign dst i a = some (memcpy dst i [a]) := if_pos inside

theorem sub_of_le {a b : Nat} (le : b ≤ a) : sub a b = some (a - b) := if_pos le

theorem rem_of_pos {n : Nat} (a : Nat) (pos : 0 < n) : rem a n = some (a % n) :=
  if_neg (Nat.ne_of_gt pos)

end Webos.Lib.Checked
