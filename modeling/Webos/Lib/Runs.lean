/- digest: The longest run of elements at the front of a list, and that it is unique. -/

import Mathlib.Data.List.TakeWhile

namespace Webos.Lib.Runs

variable {α : Type} {p : α → Bool} {a a' b b' : List α}

def Stops (p : α → Bool) (l : List α) : Prop := ∀ c ∈ l.head?, p c = false

theorem Stops.nil : Stops p [] := by
  intro c no
  cases no

variable {l : List α}

theorem Stops.cons {c : α} (other : p c = false) : Stops p (c :: l) := by
  intro c' first
  cases first
  exact other

theorem Stops.head {c : α} (stops : Stops p (c :: l)) : p c = false := stops c rfl

theorem Stops.append (stops : Stops p a) (more : Stops p b) : Stops p (a ++ b) := by
  cases a with
  | nil => exact more
  | cons c a => exact Stops.cons stops.head

theorem Stops.of_append (stops : Stops p (a ++ b)) : Stops p a := by
  cases a with
  | nil => exact Stops.nil
  | cons c a => exact Stops.cons stops.head

theorem Stops.append_right (stops : Stops p a) (full : a ≠ []) : Stops p (a ++ b) := by
  cases a with
  | nil => exact absurd rfl full
  | cons c a => exact Stops.cons stops.head

theorem stops_dropWhile (l : List α) : Stops p (l.dropWhile p) := by
  induction l with
  | nil => exact Stops.nil
  | cons c l ih =>
    cases inside : p c with
    | true =>
      rw [List.dropWhile_cons_of_pos inside]
      exact ih
    | false =>
      rw [List.dropWhile_cons_of_neg (Bool.eq_false_iff.mp inside)]
      exact Stops.cons inside

theorem takeWhile_run (inside : ∀ c ∈ a, p c = true) (stops : Stops p b) :
    (a ++ b).takeWhile p = a := by
  rw [List.takeWhile_append_of_pos inside]
  cases b with
  | nil => exact List.append_nil a
  | cons c b =>
    rw [List.takeWhile_cons_of_neg (Bool.eq_false_iff.mp stops.head), List.append_nil]

theorem dropWhile_run (inside : ∀ c ∈ a, p c = true) (stops : Stops p b) :
    (a ++ b).dropWhile p = b := by
  rw [List.dropWhile_append_of_pos inside]
  cases b with
  | nil => rfl
  | cons c b => exact List.dropWhile_cons_of_neg (Bool.eq_false_iff.mp stops.head)

theorem run_of_takeWhile : ∀ c ∈ l.takeWhile p, p c = true :=
  fun _ member => List.mem_takeWhile_imp member

theorem run_inj (inside : ∀ c ∈ a, p c = true) (stops : Stops p b)
    (inside' : ∀ c ∈ a', p c = true) (stops' : Stops p b') (same : a ++ b = a' ++ b') :
    a = a' ∧ b = b' := by
  constructor
  · rw [← takeWhile_run inside stops, same, takeWhile_run inside' stops']
  · rw [← dropWhile_run inside stops, same, dropWhile_run inside' stops']

end Webos.Lib.Runs
