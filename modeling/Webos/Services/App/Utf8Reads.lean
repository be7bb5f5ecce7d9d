/- digest: The check of UTF-8 by index, and that it reads only the bytes it was given. -/

import Webos.Services.App.Utf8

namespace Webos.Services.App

section Reads

variable (memory : Nat → UInt8)

/-- The inner loop of `valid_utf8` from an index on, with the positions that it reads. -/
def continuationReads : Nat → Nat → Nat → Option (Nat × Nat) × List Nat
  | 0, codepoint, i => (some (codepoint, i), [])
  | n + 1, codepoint, i =>
    let next := memory i
    if next &&& 0xc0 ≠ 0x80 then (none, [i])
    else
      let (result, reads) :=
        continuationReads n ((codepoint <<< 6) ||| (next &&& 0x3f).toNat) (i + 1)
      (result, i :: reads)

def charReads (length i : Nat) : Option Nat × List Nat :=
  let first := memory i
  let i' := i + 1
  if first < 0x80 then (some i', [i])
  else
    match leadByte first with
    | none => (none, [i])
    | some (codepoint, continuation) =>
      if continuation > length - i' then (none, [i])
      else
        match continuationReads memory continuation codepoint i' with
        | (none, reads) => (none, i :: reads)
        | (some (codepoint, i'), reads) =>
          if (codepoint ≥ 0xd800 ∧ codepoint ≤ 0xdfff) ∨ codepoint > 0x10ffff ∨
              (codepoint < 0x800 ∧ first ≥ 0xe0) ∨ (codepoint < 0x10000 ∧ first ≥ 0xf0) then
            (none, i :: reads)
          else (some i', i :: reads)

def scanReads (length : Nat) : Nat → Nat → Bool × List Nat
  | 0, i => (decide (length ≤ i), [])
  | rounds + 1, i =>
    if i < length then
      match charReads memory length i with
      | (none, reads) => (false, reads)
      | (some i', reads) =>
        let (result, later) := scanReads length rounds i'
        (result, reads ++ later)
    else (true, [])

/-- `valid_utf8` on `length` bytes of memory: its result, and the positions that it reads. -/
def validUtf8Reads (length : Nat) : Bool × List Nat := scanReads memory length length 0

def window (length i : Nat) : List UInt8 := (List.range' i (length - i)).map memory

end Reads

variable {memory : Nat → UInt8} {length : Nat}

theorem window_cons {i : Nat} (inside : i < length) :
    window memory length i = memory i :: window memory length (i + 1) := by
  unfold window
  rw [show length - i = length - (i + 1) + 1 by omega, List.range'_succ, List.map_cons]

theorem window_end {i : Nat} (outside : length ≤ i) : window memory length i = [] := by
  simp [window, Nat.sub_eq_zero_of_le outside]

theorem length_window (i : Nat) : (window memory length i).length = length - i := by
  simp [window]

theorem continuationReads_eq {n i : Nat} (codepoint : Nat) (inside : i + n ≤ length) :
    continuationBytes n codepoint (window memory length i) =
        (continuationReads memory n codepoint i).1.map
          (fun out => (out.1, window memory length out.2)) ∧
      (∀ out ∈ (continuationReads memory n codepoint i).1, out.2 = i + n) ∧
      ∀ j ∈ (continuationReads memory n codepoint i).2, j < length := by
  induction n generalizing codepoint i with
  | zero => simp [continuationReads, continuationBytes]
  | succ n ih =>
    rw [window_cons (by omega), continuationBytes, continuationReads]
    by_cases form : memory i &&& 0xc0 ≠ 0x80
    · simp [form]
      omega
    · obtain ⟨same, ends, reads⟩ := ih ((codepoint <<< 6) ||| (memory i &&& 0x3f).toNat)
        (show i + 1 + n ≤ length by omega)
      rw [if_neg form, if_neg form]
      refine ⟨same, ?_, ?_⟩
      · intro out member
        rw [ends out member]
        omega
      · intro j member
        rcases List.mem_cons.mp member with rfl | later
        · omega
        · exact reads j later

theorem charReads_eq {i : Nat} (inside : i < length) :
    nextChar (memory i) (window memory length (i + 1)) =
        (charReads memory length i).1.map (window memory length) ∧
      (∀ i' ∈ (charReads memory length i).1, i < i') ∧
      ∀ j ∈ (charReads memory length i).2, j < length := by
  have here : ∀ j ∈ [i], j < length := by simpa using inside
  unfold nextChar charReads
  dsimp only
  split_ifs with ascii
  · exact ⟨rfl, by simp, here⟩
  · cases lead : leadByte (memory i) with
    | none => exact ⟨rfl, by simp, here⟩
    | some head =>
      obtain ⟨codepoint, n⟩ := head
      dsimp only
      rw [length_window]
      split_ifs with short
      · exact ⟨rfl, by simp, here⟩
      · obtain ⟨same, ends, reads⟩ := @continuationReads_eq memory length n (i + 1) codepoint
          (by omega)
        rw [same]
        generalize continuationReads memory n codepoint (i + 1) = out at ends reads ⊢
        obtain ⟨result, positions⟩ := out
        have all : ∀ j ∈ i :: positions, j < length := by
          intro j member
          rcases List.mem_cons.mp member with rfl | later
          · exact inside
          · exact reads j later
        cases result with
        | none => exact ⟨rfl, by simp, all⟩
        | some out =>
          obtain ⟨codepoint', i'⟩ := out
          have further : i' = i + 1 + n := ends (codepoint', i') rfl
          dsimp only [Option.map_some]
          split_ifs
          · exact ⟨rfl, by simp, all⟩
          · refine ⟨rfl, ?_, all⟩
            rintro _ ⟨⟩
            omega

theorem scanReads_eq (rounds : Nat) {i : Nat} (enough : length - i ≤ rounds) :
    (scanReads memory length rounds i).1 = validUtf8Rounds rounds (window memory length i) ∧
      ∀ j ∈ (scanReads memory length rounds i).2, j < length := by
  induction rounds generalizing i with
  | zero =>
    rw [window_end (by omega)]
    simp [scanReads, validUtf8Rounds]
    omega
  | succ rounds ih =>
    rw [scanReads]
    split_ifs with inside
    · obtain ⟨same, further, reads⟩ := charReads_eq inside
      rw [window_cons inside, validUtf8Rounds, same]
      generalize charReads memory length i = out at further reads ⊢
      obtain ⟨result, positions⟩ := out
      cases result with
      | none => exact ⟨rfl, reads⟩
      | some i' =>
        have next : i < i' := further i' rfl
        obtain ⟨result, later⟩ := ih (show length - i' ≤ rounds by omega)
        refine ⟨result, fun j member => ?_⟩
        rcases List.mem_append.mp member with now | then'
        · exact reads j now
        · exact later j then'
    · rw [window_end (by omega)]
      simp [validUtf8Rounds]

/-- `valid_utf8` accepts exactly the encodings of sequences of Unicode scalar values, and reads no
byte behind the length it is given. -/
theorem valid_utf8_exact (memory : Nat → UInt8) (length : Nat) :
    ((validUtf8Reads memory length).1 = true ↔ ∃ chars : List Char,
      (List.range length).map memory = chars.flatMap String.utf8EncodeChar) ∧
    ∀ i ∈ (validUtf8Reads memory length).2, i < length := by
  obtain ⟨same, reads⟩ := @scanReads_eq memory length length 0 (by omega)
  have whole : window memory length 0 = (List.range length).map memory := by
    rw [window, Nat.sub_zero, List.range_eq_range']
  refine ⟨?_, reads⟩
  rw [validUtf8Reads, same, whole]
  exact validUtf8Rounds_iff length (by simp)

end Webos.Services.App
