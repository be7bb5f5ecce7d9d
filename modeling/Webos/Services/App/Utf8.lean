/- digest: The check of UTF-8 accepts the encodings of characters and nothing else. -/

import Webos.Lib.Bytes
import Webos.Services.App.Context

namespace Webos.Services.App

/-- The bytes encode characters, which are Unicode scalar values. -/
def WellFormed (bytes : List UInt8) : Prop :=
  ∃ chars : List Char, bytes = chars.flatMap String.utf8EncodeChar

section Bytes

theorem toNat_and_low (b : UInt8) :
    (b &&& 0x1f).toNat = b.toNat % 32 ∧ (b &&& 0x0f).toNat = b.toNat % 16 ∧
      (b &&& 0x07).toNat = b.toNat % 8 ∧ (b &&& 0x3f).toNat = b.toNat % 64 := by
  refine ⟨?_, ?_, ?_, ?_⟩
  · exact Nat.and_two_pow_sub_one_eq_mod b.toNat 5
  · exact Nat.and_two_pow_sub_one_eq_mod b.toNat 4
  · exact Nat.and_two_pow_sub_one_eq_mod b.toNat 3
  · exact Nat.and_two_pow_sub_one_eq_mod b.toNat 6

theorem continuation_iff (b : UInt8) : b &&& 0xc0 = 0x80 ↔ b.toNat / 64 = 2 := by
  revert b
  apply Lib.Bytes.forall_byte
  decide +kernel

theorem shift_or (codepoint : Nat) (b : UInt8) :
    (codepoint <<< 6) ||| (b &&& 0x3f).toNat = codepoint * 64 + b.toNat % 64 := by
  rw [(toNat_and_low b).2.2.2, ← Nat.shiftLeft_add_eq_or_of_lt (Nat.mod_lt _ (by decide)),
    Nat.shiftLeft_eq]

end Bytes

def Scalar (n : Nat) : Prop := n < 0xd800 ∨ (0xdfff < n ∧ n < 0x110000)

theorem scalar_toNat (c : Char) : Scalar c.val.toNat := c.valid

theorem exists_char {n : Nat} (scalar : Scalar n) : ∃ c : Char, c.val.toNat = n := by
  have small : n < 2 ^ 32 := by
    unfold Scalar at scalar
    omega
  have same : (UInt32.ofNat n).toNat = n := UInt32.toNat_ofNat_of_lt' small
  refine ⟨⟨UInt32.ofNat n, ?_⟩, same⟩
  unfold UInt32.isValidChar
  rw [same]
  exact scalar

inductive Encodes (n : Nat) : List UInt8 → Prop where
  | one {a : UInt8} (range : n < 0x80) (first : a.toNat = n) : Encodes n [a]
  | two {a b : UInt8} (range : 0x80 ≤ n ∧ n < 0x800) (first : a.toNat = 0xc0 + n / 64)
      (second : b.toNat = 0x80 + n % 64) : Encodes n [a, b]
  | three {a b c : UInt8} (range : 0x800 ≤ n ∧ n < 0x10000) (first : a.toNat = 0xe0 + n / 4096)
      (second : b.toNat = 0x80 + n / 64 % 64) (third : c.toNat = 0x80 + n % 64) :
      Encodes n [a, b, c]
  | four {a b c d : UInt8} (range : 0x10000 ≤ n ∧ n < 0x110000)
      (first : a.toNat = 0xf0 + n / 262144) (second : b.toNat = 0x80 + n / 4096 % 64)
      (third : c.toNat = 0x80 + n / 64 % 64) (fourth : d.toNat = 0x80 + n % 64) :
      Encodes n [a, b, c, d]

theorem encodes_utf8EncodeChar (c : Char) : Encodes c.val.toNat (String.utf8EncodeChar c) := by
  have scalar := scalar_toNat c
  unfold Scalar at scalar
  have small {n : Nat} (below : n < 256) : (UInt8.ofNat n).toNat = n :=
    UInt8.toNat_ofNat_of_lt' below
  unfold String.utf8EncodeChar
  dsimp only
  split_ifs
  · exact .one (by omega) (small (by omega))
  · exact .two (by omega) ((small (by omega)).trans (by omega))
      ((small (by omega)).trans (by omega))
  · exact .three (by omega) ((small (by omega)).trans (by omega))
      ((small (by omega)).trans (by omega)) ((small (by omega)).trans (by omega))
  · exact .four (by omega) ((small (by omega)).trans (by omega))
      ((small (by omega)).trans (by omega)) ((small (by omega)).trans (by omega))
      ((small (by omega)).trans (by omega))

theorem Encodes.functional {n : Nat} {first second : List UInt8} (left : Encodes n first)
    (right : Encodes n second) : first = second := by
  have same {a b : UInt8} {m : Nat} (left : a.toNat = m) (right : b.toNat = m) : a = b :=
    UInt8.toNat_inj.mp (left.trans right.symm)
  cases left with
  | one range f =>
    cases right with
    | one range' f' => rw [same f f']
    | two range' => omega
    | three range' => omega
    | four range' => omega
  | two range f s =>
    cases right with
    | one range' => omega
    | two range' f' s' => rw [same f f', same s s']
    | three range' => omega
    | four range' => omega
  | three range f s t =>
    cases right with
    | one range' => omega
    | two range' => omega
    | three range' f' s' t' => rw [same f f', same s s', same t t']
    | four range' => omega
  | four range f s t u =>
    cases right with
    | one range' => omega
    | two range' => omega
    | three range' => omega
    | four range' f' s' t' u' => rw [same f f', same s s', same t t', same u u']

section Rounds

variable {first : UInt8} {bytes rest : List UInt8}

theorem continuationBytes_eq_some {n codepoint codepoint' : Nat} :
    continuationBytes n codepoint bytes = some (codepoint', rest) ↔
      ∃ tail : List UInt8, tail.length = n ∧ bytes = tail ++ rest ∧ (∀ b ∈ tail, b.toNat / 64 = 2) ∧
        codepoint' = tail.foldl (fun codepoint b => codepoint * 64 + b.toNat % 64) codepoint := by
  induction n generalizing codepoint bytes with
  | zero =>
    constructor
    · intro same
      cases same
      exact ⟨[], rfl, rfl, List.forall_mem_nil _, rfl⟩
    · rintro ⟨tail, none', rfl, -, rfl⟩
      rw [List.length_eq_zero_iff.mp none']
      rfl
  | succ n ih =>
    cases bytes with
    | nil =>
      constructor
      · intro no
        cases no
      · rintro ⟨tail, size, split, -, -⟩
        rw [(List.append_eq_nil_iff.mp split.symm).1] at size
        cases size
    | cons next bytes =>
      rw [continuationBytes, shift_or]
      by_cases form : next &&& 0xc0 = 0x80
      · rw [if_neg (not_not.mpr form), ih]
        constructor
        · rintro ⟨tail, rfl, rfl, forms, rfl⟩
          refine ⟨next :: tail, rfl, rfl, ?_, rfl⟩
          exact List.forall_mem_cons.mpr ⟨(continuation_iff next).mp form, forms⟩
        · rintro ⟨tail, size, split, forms, value⟩
          cases tail with
          | nil => cases size
          | cons b tail =>
            cases split
            exact ⟨tail, Nat.succ.inj size, rfl, (List.forall_mem_cons.mp forms).2, value⟩
      · rw [if_pos form]
        refine iff_of_false (fun no => nomatch no) ?_
        rintro ⟨tail, size, split, forms, -⟩
        cases tail with
        | nil => cases size
        | cons b tail =>
          cases split
          exact form ((continuation_iff next).mpr (List.forall_mem_cons.mp forms).1)

theorem leadByte_eq_some {codepoint n : Nat} : leadByte first = some (codepoint, n) ↔
    (0xc2 ≤ first.toNat ∧ first.toNat ≤ 0xdf ∧ codepoint = first.toNat % 32 ∧ n = 1) ∨
      (0xe0 ≤ first.toNat ∧ first.toNat ≤ 0xef ∧ codepoint = first.toNat % 16 ∧ n = 2) ∨
      (0xf0 ≤ first.toNat ∧ first.toNat ≤ 0xf4 ∧ codepoint = first.toNat % 8 ∧ n = 3) := by
  obtain ⟨five, four, three, -⟩ := toNat_and_low first
  unfold leadByte
  simp only [UInt8.le_iff_toNat_le, UInt8.reduceToNat]
  split_ifs
  iterate 3
    · simp only [Option.some.injEq, Prod.mk.injEq]
      omega
  · simp only [false_iff]
    omega

def assemble (codepoint : Nat) (tail : List UInt8) : Nat :=
  tail.foldl (fun codepoint b => codepoint * 64 + b.toNat % 64) codepoint

theorem nextChar_cases : nextChar first bytes = some rest ↔ (first.toNat < 0x80 ∧ rest = bytes) ∨
      (0x80 ≤ first.toNat ∧ ∃ codepoint n tail, leadByte first = some (codepoint, n) ∧
        tail.length = n ∧ bytes = tail ++ rest ∧ (∀ b ∈ tail, b.toNat / 64 = 2) ∧
        Scalar (assemble codepoint tail) ∧
        (0xe0 ≤ first.toNat → 0x800 ≤ assemble codepoint tail) ∧
        (0xf0 ≤ first.toNat → 0x10000 ≤ assemble codepoint tail)) := by
  have low : first < 0x80 ↔ first.toNat < 0x80 := UInt8.lt_iff_toNat_lt
  have three : first ≥ 0xe0 ↔ 0xe0 ≤ first.toNat := UInt8.le_iff_toNat_le
  have four : first ≥ 0xf0 ↔ 0xf0 ≤ first.toNat := UInt8.le_iff_toNat_le
  unfold nextChar
  simp only [low, three, four]
  by_cases ascii : first.toNat < 0x80
  · rw [if_pos ascii]
    constructor
    · intro same
      cases same
      exact Or.inl ⟨ascii, rfl⟩
    · rintro (⟨-, rfl⟩ | ⟨no, -⟩)
      · rfl
      · exact absurd ascii (Nat.not_lt.mpr no)
  · rw [if_neg ascii]
    constructor
    · intro accepted
      refine Or.inr ⟨Nat.le_of_not_lt ascii, ?_⟩
      split at accepted
      · cases accepted
      · rename_i codepoint n lead
        split_ifs at accepted
        split at accepted
        · cases accepted
        · rename_i codepoint' rest' taken
          split_ifs at accepted with bad
          cases accepted
          obtain ⟨tail, size, split, forms, rfl⟩ := continuationBytes_eq_some.mp taken
          refine ⟨codepoint, n, tail, lead, size, split, forms, ?_, ?_, ?_⟩
          · unfold Scalar assemble
            omega
          all_goals
            unfold assemble
            omega
    · rintro (⟨no, -⟩ | ⟨-, codepoint, n, tail, lead, size, split, forms, scalar, long, longer⟩)
      · exact absurd no ascii
      · have taken : continuationBytes n codepoint bytes = some (assemble codepoint tail, rest) :=
          continuationBytes_eq_some.mpr ⟨tail, size, split, forms, rfl⟩
        have enough : ¬n > bytes.length := by
          rw [split, List.length_append, size]
          omega
        rw [lead]
        dsimp only
        rw [if_neg enough, taken]
        dsimp only
        rw [if_neg]
        unfold Scalar at scalar
        omega

theorem nextChar_eq_some : nextChar first bytes = some rest ↔
    ∃ n front, Scalar n ∧ Encodes n front ∧ first :: bytes = front ++ rest := by
  have byte (b : UInt8) : b.toNat < 256 := b.toNat_lt
  rw [nextChar_cases]
  constructor
  · rintro (⟨ascii, rfl⟩ | ⟨-, codepoint, n, tail, lead, size, rfl, forms, scalar, long, longer⟩)
    · exact ⟨first.toNat, [first], Or.inl (by omega), .one ascii rfl, rfl⟩
    · refine ⟨assemble codepoint tail, first :: tail, scalar, ?_, rfl⟩
      rcases leadByte_eq_some.mp lead with ⟨low, high, rfl, rfl⟩ | ⟨low, high, rfl, rfl⟩ |
        ⟨low, high, rfl, rfl⟩
      · obtain ⟨b, rfl⟩ := List.length_eq_one_iff.mp size
        have second := forms b (by simp)
        unfold assemble at scalar ⊢
        simp only [List.foldl_cons, List.foldl_nil] at scalar ⊢
        exact .two (by omega) (by omega) (by omega)
      · obtain ⟨b, c, rfl⟩ := List.length_eq_two.mp size
        have second := forms b (by simp)
        have third := forms c (by simp)
        unfold assemble at scalar long ⊢
        simp only [List.foldl_cons, List.foldl_nil] at scalar long ⊢
        exact .three (by omega) (by omega) (by omega) (by omega)
      · obtain ⟨b, c, d, rfl⟩ := List.length_eq_three.mp size
        have second := forms b (by simp)
        have third := forms c (by simp)
        have fourth := forms d (by simp)
        unfold Scalar assemble at scalar
        unfold assemble at longer ⊢
        simp only [List.foldl_cons, List.foldl_nil] at scalar longer ⊢
        exact .four (by omega) (by omega) (by omega) (by omega) (by omega)
  · rintro ⟨n, front, scalar, encodes, split⟩
    cases encodes with
    | one range f =>
      cases split
      exact Or.inl ⟨by omega, rfl⟩
    | @two a b range f s =>
      cases split
      have value : assemble (first.toNat % 32) [b] = n := by
        unfold assemble
        simp only [List.foldl_cons, List.foldl_nil]
        omega
      refine Or.inr ⟨by omega, first.toNat % 32, 1, [b],
        leadByte_eq_some.mpr (Or.inl ⟨by omega, by omega, rfl, rfl⟩), rfl, rfl, ?_, ?_⟩
      · simp only [List.forall_mem_cons, List.not_mem_nil, false_implies, implies_true, and_true]
        omega
      · rw [value]
        exact ⟨scalar, by omega, by omega⟩
    | @three a b c range f s t =>
      cases split
      have value : assemble (first.toNat % 16) [b, c] = n := by
        unfold assemble
        simp only [List.foldl_cons, List.foldl_nil]
        omega
      refine Or.inr ⟨by omega, first.toNat % 16, 2, [b, c],
        leadByte_eq_some.mpr (Or.inr (Or.inl ⟨by omega, by omega, rfl, rfl⟩)), rfl, rfl, ?_, ?_⟩
      · simp only [List.forall_mem_cons, List.not_mem_nil, false_implies, implies_true, and_true]
        omega
      · rw [value]
        exact ⟨scalar, by omega, by omega⟩
    | @four a b c d range f s t u =>
      cases split
      have value : assemble (first.toNat % 8) [b, c, d] = n := by
        unfold assemble
        simp only [List.foldl_cons, List.foldl_nil]
        omega
      refine Or.inr ⟨by omega, first.toNat % 8, 3, [b, c, d],
        leadByte_eq_some.mpr (Or.inr (Or.inr ⟨by omega, by omega, rfl, rfl⟩)), rfl, rfl, ?_, ?_⟩
      · simp only [List.forall_mem_cons, List.not_mem_nil, false_implies, implies_true, and_true]
        omega
      · rw [value]
        exact ⟨scalar, by omega, by omega⟩

theorem wellFormed_cons : WellFormed (first :: bytes) ↔
    ∃ rest, nextChar first bytes = some rest ∧ WellFormed rest := by
  constructor
  · rintro ⟨chars, encoded⟩
    cases chars with
    | nil => cases encoded
    | cons c chars =>
      refine ⟨chars.flatMap String.utf8EncodeChar, ?_, chars, rfl⟩
      exact nextChar_eq_some.mpr ⟨c.val.toNat, String.utf8EncodeChar c, scalar_toNat c,
        encodes_utf8EncodeChar c, encoded⟩
  · rintro ⟨rest, next, chars, rfl⟩
    obtain ⟨n, front, scalar, encodes, split⟩ := nextChar_eq_some.mp next
    obtain ⟨c, rfl⟩ := exists_char scalar
    refine ⟨c :: chars, ?_⟩
    rw [split, encodes.functional (encodes_utf8EncodeChar c)]
    rfl

theorem validUtf8Rounds_iff (rounds : Nat) (enough : bytes.length ≤ rounds) :
    validUtf8Rounds rounds bytes = true ↔ WellFormed bytes := by
  induction rounds generalizing bytes with
  | zero =>
    rw [List.length_eq_zero_iff.mp (Nat.le_zero.mp enough)]
    exact iff_of_true rfl ⟨[], rfl⟩
  | succ rounds ih =>
    cases bytes with
    | nil => exact iff_of_true rfl ⟨[], rfl⟩
    | cons first bytes =>
      rw [wellFormed_cons, validUtf8Rounds]
      cases next : nextChar first bytes with
      | none => exact iff_of_false (fun no => nomatch no) fun ⟨rest, no, _⟩ => nomatch no
      | some rest =>
        obtain ⟨n, front, -, encodes, split⟩ := nextChar_eq_some.mp next
        have shorter : rest.length ≤ rounds := by
          have sizes := congrArg List.length split
          have some' : 0 < front.length := by
            cases encodes with
            | one => exact Nat.succ_pos _
            | two => exact Nat.succ_pos _
            | three => exact Nat.succ_pos _
            | four => exact Nat.succ_pos _
          rw [List.length_cons, List.length_append] at sizes
          rw [List.length_cons] at enough
          omega
        rw [ih shorter]
        constructor
        · exact fun formed => ⟨rest, rfl, formed⟩
        · rintro ⟨rest', same, formed⟩
          cases same
          exact formed

theorem validUtf8_eq_true : validUtf8 bytes = true ↔ WellFormed bytes :=
  validUtf8Rounds_iff _ (Nat.le_refl _)

end Rounds

end Webos.Services.App
