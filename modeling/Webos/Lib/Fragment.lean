/- digest: A loop that eats its input in passes depends on the bytes and not on how they are cut. -/

import Mathlib.Data.List.Basic

namespace Webos.Lib.Fragment

variable {B W R : Type}

/-- One pass looks at the input left and returns an exit code, the rest and the new state. -/
abbrev Pass (B W R : Type) := List B → W → Option R × List B × W

def loop (pass : Pass B W R) : Nat → List B → W → Option R × W
  | 0, _, w => (none, w)
  | n + 1, data, w =>
    if data = [] then (none, w)
    else
      match pass data w with
      | (some r, _, v) => (some r, v)
      | (none, rest, v) => loop pass n rest v

def feed (pass : Pass B W R) (data : List B) (w : W) : Option R × W := loop pass data.length data w

def feedBytes (pass : Pass B W R) : List B → W → Option R × W
  | [], w => (none, w)
  | x :: xs, w =>
    match pass [x] w with
    | (some r, _, v) => (some r, v)
    | (none, _, v) => feedBytes pass xs v

/-- A pass either stops right after its first byte or goes on as a pass on the rest would. -/
structure Bytewise (pass : Pass B W R) (Valid : W → Prop) : Prop where
  idle : ∀ w, Valid w → pass [] w = (none, [], w)
  step : ∀ x w, Valid w → ∃ v, Valid v ∧
    ((∀ xs, pass (x :: xs) w = pass xs v) ∨ ∃ e, ∀ xs, pass (x :: xs) w = (e, xs, v))

variable {pass : Pass B W R} {Valid : W → Prop} {w : W}

theorem Bytewise.pass_valid (bytewise : Bytewise pass Valid) (data : List B) (valid : Valid w) :
    Valid (pass data w).2.2 := by
  induction data generalizing w with
  | nil =>
    rw [bytewise.idle w valid]
    exact valid
  | cons x xs ih =>
    obtain ⟨v, next, more | ⟨e, stop⟩⟩ := bytewise.step x w valid
    · rw [more]
      exact ih next
    · rw [stop]
      exact next

variable {data : List B}

theorem Bytewise.pass_consumes (bytewise : Bytewise pass Valid) (valid : Valid w)
    (some_data : data ≠ []) : (pass data w).2.1.length < data.length := by
  induction data generalizing w with
  | nil => exact absurd rfl some_data
  | cons x xs ih =>
    obtain ⟨v, next, more | ⟨e, stop⟩⟩ := bytewise.step x w valid
    · rw [more, List.length_cons]
      by_cases last : xs = []
      · rw [last, bytewise.idle v next]
        exact Nat.zero_lt_one
      · exact Nat.lt_succ_of_lt (ih next last)
    · rw [stop]
      exact Nat.lt_succ_self _

private theorem loop_nil (n : Nat) (w : W) : loop pass n [] w = (none, w) := by
  cases n <;> simp [loop]

private theorem feedBytes_cons (x : B) (xs : List B) {v : W} {e : Option R} {rest : List B}
    (one : pass [x] w = (e, rest, v)) :
    feedBytes pass (x :: xs) w = if e.isSome then (e, v) else feedBytes pass xs v := by
  cases e <;> simp [feedBytes, one]

theorem loop_eq_feedBytes (bytewise : Bytewise pass Valid) {n : Nat} (enough : data.length ≤ n)
    (valid : Valid w) : loop pass n data w = feedBytes pass data w := by
  induction data generalizing n w with
  | nil => exact loop_nil n w
  | cons x xs ih =>
    obtain ⟨m, rfl⟩ : ∃ m, n = m + 1 := ⟨n - 1, by simp only [List.length_cons] at enough; omega⟩
    have short : xs.length ≤ m := by simpa using enough
    obtain ⟨v, next, more | ⟨e, stop⟩⟩ := bytewise.step x w valid
    · have one := (more []).trans (bytewise.idle v next)
      have same : loop pass (m + 1) (x :: xs) w = loop pass (m + 1) xs v := by
        cases xs with
        | nil => simp only [loop, List.cons_ne_nil, ↓reduceIte, one, loop_nil]
        | cons y ys => simp only [loop, List.cons_ne_nil, ↓reduceIte, more]
      rw [same, feedBytes_cons x xs one, ih (Nat.le_succ_of_le short) next]
      rfl
    · rw [feedBytes_cons x xs (stop [])]
      cases e with
      | none =>
        simp only [loop, List.cons_ne_nil, ↓reduceIte, stop]
        exact ih short next
      | some r => simp [loop, stop]

theorem feed_eq_feedBytes (bytewise : Bytewise pass Valid) (valid : Valid w) :
    feed pass data w = feedBytes pass data w :=
  loop_eq_feedBytes bytewise (Nat.le_refl _) valid

theorem feedBytes_valid (bytewise : Bytewise pass Valid) (data : List B) (valid : Valid w) :
    Valid (feedBytes pass data w).2 := by
  induction data generalizing w with
  | nil => exact valid
  | cons x xs ih =>
    obtain ⟨v, next, more | ⟨e, stop⟩⟩ := bytewise.step x w valid
    · rw [feedBytes_cons x xs ((more []).trans (bytewise.idle v next))]
      exact ih next
    · rw [feedBytes_cons x xs (stop [])]
      split_ifs
      · exact next
      · exact ih next

theorem feed_valid (bytewise : Bytewise pass Valid) (data : List B) (valid : Valid w) :
    Valid (feed pass data w).2 := by
  rw [feed_eq_feedBytes bytewise valid]
  exact feedBytes_valid bytewise data valid

private theorem feedBytes_append (a b : List B) (w : W) :
    feedBytes pass (a ++ b) w =
      match feedBytes pass a w with
      | (some r, v) => (some r, v)
      | (none, v) => feedBytes pass b v := by
  induction a generalizing w with
  | nil => rfl
  | cons x xs ih =>
    simp only [List.cons_append, feedBytes]
    rcases pass [x] w with ⟨_ | r, left, v⟩
    · exact ih v
    · rfl

/-- Joined input behaves as the parts one after the other; an exit in the first part drops the
second. -/
theorem feed_append (bytewise : Bytewise pass Valid) (a b : List B) (valid : Valid w) :
    feed pass (a ++ b) w =
      match feed pass a w with
      | (some r, v) => (some r, v)
      | (none, v) => feed pass b v := by
  have middle := feedBytes_valid bytewise a valid
  rw [feed_eq_feedBytes bytewise valid, feed_eq_feedBytes bytewise valid, feedBytes_append]
  rcases first : feedBytes pass a w with ⟨_ | r, v⟩
  · rw [first] at middle
    exact (feed_eq_feedBytes bytewise middle).symm
  · rfl

section Moments

/-- The moments of a loop: the input left and the state before every pass, and at the end. -/
def moments (pass : Pass B W R) : Nat → List B → W → List (List B × W)
  | 0, data, w => [(data, w)]
  | n + 1, data, w =>
    (data, w) ::
      if data = [] then []
      else
        match pass data w with
        | (some _, _, _) => []
        | (none, rest, v) => moments pass n rest v

def Advances (pass : Pass B W R) (Inv : List B → W → Prop) (Exit : R → W → Prop)
    (data : List B) (w : W) : Prop :=
  match pass data w with
  | (some r, _, v) => Exit r v
  | (none, rest, v) => rest.length < data.length ∧ Inv rest v

theorem loop_rule {Inv : List B → W → Prop} {Exit : R → W → Prop} {Ok : List B → W → Prop}
    (step : ∀ data w, data ≠ [] → Inv data w → Ok data w → Advances pass Inv Exit data w)
    {n : Nat} {data : List B} {w : W} (enough : data.length ≤ n) (start : Inv data w)
    (allowed : ∀ m ∈ moments pass n data w, Ok m.1 m.2) :
    (∀ m ∈ moments pass n data w, Inv m.1 m.2) ∧
      match loop pass n data w with
      | (some r, v) => Exit r v
      | (none, v) => Inv [] v ∧ Ok [] v := by
  induction n generalizing data w with
  | zero =>
    obtain rfl : data = [] := List.length_eq_zero_iff.mp (by omega)
    refine ⟨fun m member => ?_, start, allowed ([], w) List.mem_cons_self⟩
    rw [List.mem_singleton.mp member]
    exact start
  | succ n ih =>
    by_cases empty : data = []
    · subst empty
      refine ⟨fun m member => ?_, ?_⟩
      · simp only [moments, ↓reduceIte, List.mem_singleton] at member
        rw [member]
        exact start
      · exact ⟨start, allowed ([], w) List.mem_cons_self⟩
    · have next := step data w empty start (allowed (data, w) (by simp [moments]))
      simp only [moments, loop, empty, ↓reduceIte] at allowed ⊢
      unfold Advances at next
      rcases out : pass data w with ⟨_ | r, rest, v⟩
      · rw [out] at next allowed
        have short : rest.length ≤ n := by have := next.1; omega
        obtain ⟨every, final⟩ := ih short next.2 fun m member => allowed m (.tail _ member)
        refine ⟨fun m member => ?_, final⟩
        rcases List.mem_cons.mp member with rfl | later
        · exact start
        · exact every m later
      · rw [out] at next
        refine ⟨fun m member => ?_, next⟩
        rw [List.mem_singleton.mp member]
        exact start

theorem loop_invariant (pass : Pass B W R) (Inv : List B → W → Prop) (Exit : R → W → Prop)
    (step : ∀ data w, data ≠ [] → Inv data w → Advances pass Inv Exit data w)
    {n : Nat} {data : List B} {w : W} (enough : data.length ≤ n) (start : Inv data w) :
    match loop pass n data w with
    | (some r, v) => Exit r v
    | (none, v) => Inv [] v := by
  have rule := (loop_rule (fun data w more inv (_ : True) => step data w more inv) enough start
    fun _ _ => trivial).2
  generalize loop pass n data w = out at rule ⊢
  obtain ⟨_ | r, v⟩ := out
  · exact rule.1
  · exact rule

end Moments

end Webos.Lib.Fragment
