/- digest: A wrap-around ring with head, tail and count indices refines a bounded FIFO list. -/

import Mathlib.Data.List.Basic
import Mathlib.Data.Nat.ModEq

namespace Webos.Lib.RingQueue

open Nat (ModEq)

/-- A fixed array used as a queue; only `count` cells from `head` on are meaningful. -/
structure RingBuffer (α : Type) where
  slots : Nat → α
  head : Nat
  tail : Nat
  count : Nat

variable {α : Type}

def RingBuffer.clear (r : RingBuffer α) : RingBuffer α :=
  { r with head := 0, tail := 0, count := 0 }

def RingBuffer.front (r : RingBuffer α) : α := r.slots r.head

def RingBuffer.push (depth : Nat) (r : RingBuffer α) (x : α) : RingBuffer α :=
  { r with
    slots := Function.update r.slots r.tail x
    tail := (r.tail + 1) % depth
    count := r.count + 1 }

def RingBuffer.pop (depth : Nat) (r : RingBuffer α) : RingBuffer α :=
  { r with head := (r.head + 1) % depth, count := r.count - 1 }

/-- The queue the ring stands for, oldest entry first. -/
def RingBuffer.contents (depth : Nat) (r : RingBuffer α) : List α :=
  (List.range r.count).map (fun k => r.slots ((r.head + k) % depth))

structure RingBuffer.Valid (depth : Nat) (r : RingBuffer α) : Prop where
  head_lt : r.head < depth
  tail_eq : r.tail = (r.head + r.count) % depth
  count_le : r.count ≤ depth

variable {depth : Nat} {r : RingBuffer α}

@[simp] theorem length_contents : (r.contents depth).length = r.count := by
  simp [RingBuffer.contents]

@[simp] theorem contents_clear : r.clear.contents depth = [] := rfl

@[simp] theorem count_clear : r.clear.count = 0 := rfl

@[simp] theorem count_push (x : α) : (r.push depth x).count = r.count + 1 := rfl

theorem clear_valid (positive : 0 < depth) : r.clear.Valid depth :=
  ⟨positive, by simp [RingBuffer.clear], Nat.zero_le depth⟩

theorem contents_eq_nil_iff : r.contents depth = [] ↔ r.count = 0 := by
  rw [← List.length_eq_zero_iff, length_contents]

private theorem wrapped_ne {head i n : Nat} (small : i < n)
    (room : n < depth) : (head + i) % depth ≠ (head + n) % depth := by
  intro equal
  have shift : ModEq depth i n := ModEq.add_left_cancel' head equal
  have same := ModEq.eq_of_lt_of_lt shift (small.trans room) room
  omega

theorem push_valid (valid : r.Valid depth) (room : r.count < depth) (x : α) :
    (r.push depth x).Valid depth := by
  refine ⟨valid.head_lt, ?_, room⟩
  simp only [RingBuffer.push, valid.tail_eq, Nat.mod_add_mod, Nat.add_assoc]

theorem contents_push (valid : r.Valid depth) (room : r.count < depth) (x : α) :
    (r.push depth x).contents depth = r.contents depth ++ [x] := by
  simp only [RingBuffer.contents, RingBuffer.push, List.range_succ, List.map_append, List.map_cons,
    List.map_nil, valid.tail_eq, Function.update_self]
  congr 1
  apply List.map_congr_left
  intro k member
  have older : k < r.count := List.mem_range.mp member
  exact Function.update_of_ne (wrapped_ne older room) _ _

theorem pop_valid (valid : r.Valid depth) (some : 0 < r.count) : (r.pop depth).Valid depth := by
  have positive : 0 < depth := lt_of_lt_of_le some valid.count_le
  refine ⟨Nat.mod_lt _ positive, ?_, (Nat.sub_le _ _).trans valid.count_le⟩
  simp only [RingBuffer.pop, valid.tail_eq, Nat.mod_add_mod]
  congr 1
  omega

theorem contents_pop (valid : r.Valid depth) (some : 0 < r.count) :
    r.contents depth = r.front :: (r.pop depth).contents depth := by
  obtain ⟨n, size⟩ : ∃ n, r.count = n + 1 := ⟨r.count - 1, by omega⟩
  simp only [RingBuffer.contents, RingBuffer.pop, RingBuffer.front, size, List.range_succ_eq_map,
    List.map_cons,
    List.map_map, Nat.add_zero, Nat.mod_eq_of_lt valid.head_lt, Nat.add_sub_cancel]
  congr 1
  apply List.map_congr_left
  intro k _
  simp only [Function.comp_apply, Nat.mod_add_mod]
  congr 2
  omega

theorem front_push (valid : r.Valid depth) (room : r.count < depth) (some : 0 < r.count) (x : α) :
    (r.push depth x).front = r.front := by
  have after := contents_pop (push_valid valid room x) (Nat.succ_pos r.count)
  rw [contents_push valid room x, contents_pop valid some, List.cons_append] at after
  exact (List.cons.inj after).1.symm

theorem front_push_empty (valid : r.Valid depth) (room : r.count < depth) (empty : r.count = 0)
    (x : α) : (r.push depth x).front = x := by
  have after := contents_pop (push_valid valid room x) (Nat.succ_pos r.count)
  rw [contents_push valid room x, contents_eq_nil_iff.mpr empty, List.nil_append] at after
  exact (List.cons.inj after).1.symm

end Webos.Lib.RingQueue
