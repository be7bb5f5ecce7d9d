/- digest: Text as C reads it: numbers at the front, and the tokens between separators. -/

import Webos.Lib.Bytes
import Webos.Lib.Runs

namespace Webos.Lib.Tokens

open Webos.Lib.Runs

section Numbers

def isspace (c : UInt8) : Bool := c == 32 || (9 ≤ c && c ≤ 13)

def isdigit (c : UInt8) : Bool := 48 ≤ c && c ≤ 57

def digitsValue (s : List UInt8) : Nat := s.foldl (fun v c => 10 * v + (c.toNat - 48)) 0

/-- `strtol` in base ten, where a `long` ends at `longMax`: white space, a sign, and the digits that
follow; no digits are zero. -/
def strtol (longMax : Nat) (s : List UInt8) : Int :=
  match s.dropWhile isspace with
  | 45 :: s => max (-(digitsValue (s.takeWhile isdigit) : Int)) (-longMax - 1)
  | 43 :: s => min (digitsValue (s.takeWhile isdigit)) longMax
  | s => min (digitsValue (s.takeWhile isdigit)) longMax

def Numeral (s : List UInt8) : Prop := s ≠ [] ∧ ∀ c ∈ s, isdigit c = true

instance (s : List UInt8) : Decidable (Numeral s) :=
  decidable_of_iff ((!s.isEmpty && s.all isdigit) = true) (by simp [Numeral])

theorem isdigit_ne {c : UInt8} (digit : isdigit c = true) :
    isspace c = false ∧ c ≠ 45 ∧ c ≠ 43 := by
  revert c
  apply Lib.Bytes.forall_byte
  decide +kernel

theorem strtol_numeral (longMax : Nat) {s : List UInt8} (numeral : Numeral s) :
    strtol longMax s = min (digitsValue s : Int) longMax := by
  obtain ⟨some', digits⟩ := numeral
  cases s with
  | nil => exact absurd rfl some'
  | cons c s =>
    obtain ⟨space, minus, plus⟩ := isdigit_ne (digits c (by simp))
    have start : (c :: s).dropWhile isspace = c :: s :=
      List.dropWhile_cons_of_neg (by simp [space])
    have run : (c :: s).takeWhile isdigit = c :: s := by
      have whole := @takeWhile_run _ isdigit (c :: s) [] digits Stops.nil
      rwa [List.append_nil] at whole
    unfold strtol
    rw [start]
    split
    · rename_i same
      cases same
      exact absurd rfl minus
    · rename_i same
      cases same
      exact absurd rfl plus
    · rw [run]

end Numbers

section Tokens

variable (sep : UInt8 → Bool)

/-- `strtok_r` at a place in a string: the next token, and the place behind the separator that ended
it. -/
def strtok (s : List UInt8) : Option (List UInt8 × List UInt8) :=
  let s := s.dropWhile sep
  if s = [] then none
  else some (s.takeWhile (!sep ·), (s.dropWhile (!sep ·)).drop 1)

def tokens (s : List UInt8) : List (List UInt8) := (s.splitOnP sep).filter (· ≠ [])

variable {sep} {token rest s : List UInt8}

theorem tokens_separators (blank : ∀ c ∈ token, sep c = true) (rest : List UInt8) :
    tokens sep (token ++ rest) = tokens sep rest := by
  induction token with
  | nil => rfl
  | cons c token ih =>
    rw [← ih fun d member => blank d (by simp [member])]
    unfold tokens
    rw [List.cons_append, List.splitOnP_cons_eq_if_modifyHead, if_pos (blank c (by simp))]
    simp

theorem tokens_nil : tokens sep [] = [] := by
  simp [tokens]

theorem tokens_run (some' : token ≠ []) (inside : ∀ c ∈ token, sep c = false)
    (stops : Stops (!sep ·) rest) : tokens sep (token ++ rest) = token :: tokens sep rest := by
  cases rest with
  | nil =>
    rw [List.append_nil, tokens_nil]
    unfold tokens
    rw [List.splitOnP_eq_singleton inside]
    simp [some']
  | cons d rest =>
    have separator : sep d = true := by simpa using stops.head
    have one : tokens sep (d :: rest) = tokens sep rest :=
      @tokens_separators sep [d] (by simpa using separator) rest
    rw [one]
    unfold tokens
    rw [List.splitOnP_append_cons_of_forall_mem inside d separator]
    simp [some']

theorem exists_run (sep : UInt8 → Bool) (s : List UInt8) : (∀ c ∈ s, sep c = true) ∨
    ∃ lead token rest, s = lead ++ token ++ rest ∧ (∀ c ∈ lead, sep c = true) ∧ token ≠ [] ∧
      (∀ c ∈ token, sep c = false) ∧ Stops (!sep ·) rest ∧ s.dropWhile sep = token ++ rest := by
  have split : s.takeWhile sep ++ s.dropWhile sep = s := List.takeWhile_append_dropWhile
  have stops := @stops_dropWhile _ sep s
  cases behind : s.dropWhile sep with
  | nil =>
    rw [behind, List.append_nil] at split
    left
    intro c member
    rw [← split] at member
    exact run_of_takeWhile c member
  | cons d more =>
    rw [behind] at split stops
    have join : (d :: more).takeWhile (!sep ·) ++ (d :: more).dropWhile (!sep ·) = d :: more :=
      List.takeWhile_append_dropWhile
    refine Or.inr ⟨s.takeWhile sep, (d :: more).takeWhile (!sep ·), (d :: more).dropWhile (!sep ·),
      ?_, run_of_takeWhile, ?_, ?_, stops_dropWhile _, join.symm⟩
    · rw [List.append_assoc, join, split]
    · rw [List.takeWhile_cons_of_pos (by simp [stops.head])]
      exact List.cons_ne_nil _ _
    · intro c member
      simpa using run_of_takeWhile c member

theorem tokens_all (blank : ∀ c ∈ s, sep c = true) : tokens sep s = [] := by
  have whole := tokens_separators blank []
  rwa [List.append_nil, tokens_nil] at whole

theorem all_of_tokens (none : tokens sep s = []) : ∀ c ∈ s, sep c = true := by
  rcases exists_run sep s with blank | ⟨lead, token, rest, rfl, before, some', inside, stops, -⟩
  · exact blank
  · rw [List.append_assoc, tokens_separators before, tokens_run some' inside stops] at none
    cases none

theorem exists_token {ts : List (List UInt8)} (split : tokens sep s = token :: ts) :
    ∃ lead rest, s = lead ++ token ++ rest ∧ (∀ c ∈ lead, sep c = true) ∧ token ≠ [] ∧
      (∀ c ∈ token, sep c = false) ∧ Stops (!sep ·) rest ∧ tokens sep rest = ts := by
  rcases exists_run sep s with blank | ⟨lead, first, rest, rfl, before, some', inside, stops, -⟩
  · rw [tokens_all blank] at split
    cases split
  · rw [List.append_assoc, tokens_separators before, tokens_run some' inside stops] at split
    cases split
    exact ⟨lead, rest, rfl, before, some', inside, stops, rfl⟩

theorem strtok_cases (sep : UInt8 → Bool) (s : List UInt8) :
    (strtok sep s = none ∧ tokens sep s = []) ∨ ∃ token rest, strtok sep s = some (token, rest) ∧
        tokens sep s = token :: tokens sep rest := by
  rcases exists_run sep s with
    blank | ⟨lead, token, rest, shape, before, some', inside, stops, behind⟩
  · refine Or.inl ⟨?_, tokens_all blank⟩
    have gone : s.dropWhile sep = [] := List.dropWhile_eq_nil_iff.mpr blank
    simp [strtok, gone]
  · have run : ∀ c ∈ token, (!sep c) = true := fun c member => by simp [inside c member]
    refine Or.inr ⟨token, rest.drop 1, ?_, ?_⟩
    · simp only [strtok, behind, takeWhile_run run stops, dropWhile_run run stops]
      rw [if_neg (by simp [some'])]
    · rw [shape, List.append_assoc, tokens_separators before, tokens_run some' inside stops]
      congr 1
      cases rest with
      | nil => rfl
      | cons d rest =>
        have separator : sep d = true := by simpa using stops.head
        exact @tokens_separators sep [d] (by simpa using separator) rest

end Tokens

end Webos.Lib.Tokens
