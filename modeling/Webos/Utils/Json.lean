/- digest: The string members of a JSON text, and the escaping of text that goes into one. -/

import Mathlib.Data.List.Infix
import Webos.Adb.Config
import Webos.Lib.CString
import Webos.Lib.Format

namespace Webos.Utils

open Webos.Adb (EINVAL ENOENT ENOMEM ascii)
open Webos.Lib.Bytes
open Webos.Lib.CString
open Webos.Lib.Format

def quote : UInt8 := 34
def backslash : UInt8 := 92

/-- The pattern that `json_has_key` and `json_get_string` look for, if it fits its 32 bytes. -/
def keyPattern (key : List UInt8) : Option (List UInt8) :=
  let pattern := quote :: key ++ [quote]
  if pattern.length ≥ 32 then none else some pattern

def jsonHasKey (json key : List UInt8) : Bool :=
  match keyPattern key with
  | none => false
  | some pattern => (strstr json pattern).isSome

def jsonSpace (c : UInt8) : Bool := c == 32 || c == 9 || c == 13 || c == 10

def unescape (c : UInt8) : UInt8 :=
  if c = 110 then 10 else if c = 114 then 13 else if c = 116 then 9 else c

/-- The loop of `json_get_string` over a string's bytes, where `out` was written so far. -/
def jsonString (outLen : Nat) : List UInt8 → List UInt8 → Except Int (List UInt8)
  | [], _ => .error (-EINVAL)
  | c :: rest, out =>
    if c = quote then .ok out
    else if out.length + 1 ≥ outLen then .error (-ENOMEM)
    else if c = backslash then
      match rest with
      | [] => .error (-EINVAL)
      | e :: rest => jsonString outLen rest (out ++ [unescape e])
    else jsonString outLen rest (out ++ [c])

def jsonGetString (json key : List UInt8) (outLen : Nat) : Except Int (List UInt8) :=
  match keyPattern key with
  | none => .error (-EINVAL)
  | some pattern =>
    match strstr json pattern with
    | none => .error (-ENOENT)
    | some p =>
      match (p.drop pattern.length).dropWhile jsonSpace with
      | 58 :: p =>
        match p.dropWhile jsonSpace with
        | 34 :: p => jsonString outLen p []
        | _ => .error (-EINVAL)
      | _ => .error (-EINVAL)

def shortEscape (c : UInt8) : Option UInt8 :=
  if c = backslash ∨ c = quote then some c
  else if c = 10 then some 110
  else if c = 13 then some 114
  else if c = 9 then some 116
  else none

def hexDigit (n : Nat) : UInt8 := UInt8.ofNat (if n < 10 then 48 + n else 87 + n)

def longEscape (c : UInt8) : List UInt8 :=
  [backslash, 117, 48, 48, hexDigit (c.toNat / 16), hexDigit (c.toNat % 16)]

/-- The loop of `append_json_string` from a position on: the position it returns, and the block.
Returning early leaves the block without a terminator at that position. -/
def appendJson (n : Nat) : List UInt8 → Nat → List UInt8 → Nat × List UInt8
  | [], pos, dst => (pos, memcpy dst pos [0])
  | c :: src, pos, dst =>
    if pos + 1 < n then
      match shortEscape c with
      | some e =>
        if pos + 2 ≥ n then (pos, dst)
        else appendJson n src (pos + 2) (memcpy dst pos [backslash, e])
      | none =>
        if c < 32 then
          if pos + 6 ≥ n then (pos, dst)
          else appendJson n src (pos + 6) (memcpy dst pos (longEscape c ++ [0]))
        else appendJson n src (pos + 1) (memcpy dst pos [c])
    else (pos, memcpy dst pos [0])

def appendJsonString (dst src : List UInt8) : Nat × List UInt8 := appendJson dst.length src 0 dst

def escapeByte (c : UInt8) : List UInt8 :=
  match shortEscape c with
  | some e => [backslash, e]
  | none => if c < 32 then longEscape c else [c]

def escape (src : List UInt8) : List UInt8 := src.flatMap escapeByte

section Strings

variable {outLen : Nat}

theorem unescape_ne_zero {c : UInt8} (nonzero : c ≠ 0) : unescape c ≠ 0 := by
  unfold unescape
  split_ifs
  · decide
  · decide
  · decide
  · exact nonzero

theorem zero_notMem_jsonString {p out result : List UInt8} (input : 0 ∉ p) (before : 0 ∉ out)
    (ok : jsonString outLen p out = .ok result) : 0 ∉ result := by
  fun_induction jsonString outLen p out with
  | case1 => cases ok
  | case2 =>
    cases ok
    exact before
  | case3 => cases ok
  | case4 => cases ok
  | case5 out full e rest other ih =>
    rw [List.mem_cons, List.mem_cons, not_or, not_or] at input
    refine ih input.2.2 ?_ ok
    rw [List.mem_append, List.mem_singleton, not_or]
    exact ⟨before, fun zero => unescape_ne_zero (Ne.symm input.2.1) zero.symm⟩
  | case6 c rest out other full plain ih =>
    rw [List.mem_cons, not_or] at input
    refine ih input.2 ?_ ok
    rw [List.mem_append, List.mem_singleton, not_or]
    exact ⟨before, input.1⟩

theorem zero_notMem_jsonGetString {json key result : List UInt8} (nonzero : 0 ∉ json)
    (ok : jsonGetString json key outLen = .ok result) : 0 ∉ result := by
  unfold jsonGetString at ok
  split at ok
  · cases ok
  · rename_i pattern _
    split at ok
    · cases ok
    · rename_i p found
      have inside : 0 ∉ p := fun zero => nonzero ((strstr_some found).1.subset zero)
      split at ok
      · rename_i q colon
        split at ok
        · rename_i r opening
          refine zero_notMem_jsonString ?_ List.not_mem_nil ok
          intro zero
          have first : r ⊆ q.dropWhile jsonSpace := by
            rw [opening]
            exact List.subset_cons_self _ _
          have second : q ⊆ (p.drop pattern.length).dropWhile jsonSpace := by
            rw [colon]
            exact List.subset_cons_self _ _
          exact inside (List.drop_subset _ _ ((List.dropWhile_suffix _).subset
            (second ((List.dropWhile_suffix _).subset (first zero)))))
        · cases ok
      · cases ok

end Strings

section Escapes

variable {c : UInt8}

theorem shortEscape_ne_zero {e : UInt8} (short : shortEscape c = some e) : e ≠ 0 := by
  unfold shortEscape at short
  split_ifs at short with same
  · cases short
    rcases same with rfl | rfl
    all_goals decide
  all_goals
    cases short
    decide

variable {n : Nat}

theorem hexDigit_ne_zero (small : n < 16) : hexDigit n ≠ 0 := by
  intro zero
  have same := congrArg UInt8.toNat zero
  unfold hexDigit at same
  split_ifs at same
  all_goals
    rw [UInt8.toNat_ofNat', Nat.mod_eq_of_lt (by omega)] at same
    exact absurd same (by simp)

theorem zero_notMem_escapeByte (c : UInt8) : 0 ∉ escapeByte c := by
  unfold escapeByte
  split
  · rename_i e short
    simpa [backslash] using (shortEscape_ne_zero short).symm
  · split_ifs with control
    · have small : c.toNat < 32 := control
      have high := hexDigit_ne_zero (n := c.toNat / 16) (by omega)
      have low := hexDigit_ne_zero (n := c.toNat % 16) (by omega)
      simpa [longEscape, backslash] using ⟨high.symm, low.symm⟩
    · rw [List.mem_singleton]
      rintro rfl
      exact control (by decide)

theorem length_escapeByte_le (c : UInt8) : (escapeByte c).length ≤ 6 := by
  unfold escapeByte
  split
  · simp
  · split_ifs
    · exact Nat.le_refl _
    · simp

def longEscaped (c : UInt8) : Prop := shortEscape c = none ∧ c < 32

instance (c : UInt8) : Decidable (longEscaped c) := by
  unfold longEscaped
  infer_instance

theorem escapeByte_short {e : UInt8} (short : shortEscape c = some e) :
    escapeByte c = [backslash, e] ∧ ¬ longEscaped c := by
  simp [escapeByte, longEscaped, short]

theorem escapeByte_long (long : longEscaped c) : escapeByte c = longEscape c := by
  simp [escapeByte, long.1, long.2]

theorem escapeByte_plain (short : shortEscape c = none) (printable : ¬ c < 32) :
    escapeByte c = [c] ∧ ¬ longEscaped c := by
  simp [escapeByte, longEscaped, short, printable]

variable {pos : Nat}

theorem appendJson_stores (fits : pos + (escapeByte c).length < n) (src dst : List UInt8) :
    appendJson n (c :: src) pos dst = appendJson n src (pos + (escapeByte c).length)
      (memcpy dst pos (escapeByte c ++ if longEscaped c then [0] else [])) := by
  rw [appendJson]
  cases short : shortEscape c with
  | some e =>
    obtain ⟨shape, notLong⟩ := escapeByte_short short
    rw [shape] at fits ⊢
    simp only [List.length_cons, List.length_nil] at fits ⊢
    rw [if_pos (by omega), if_neg notLong, if_neg (by omega), List.append_nil]
  | none =>
    by_cases control : c < 32
    · have long : longEscaped c := ⟨short, control⟩
      rw [escapeByte_long long] at fits ⊢
      change pos + 6 < n at fits
      change _ = appendJson n src (pos + 6) _
      rw [if_pos (by omega), if_pos long]
      change (if c < 32 then _ else _) = _
      rw [if_pos control, if_neg (by omega)]
    · obtain ⟨shape, notLong⟩ := escapeByte_plain short control
      rw [shape] at fits ⊢
      rw [if_pos (by omega), if_neg notLong, List.append_nil]
      exact if_neg control

/-- One round that has no room for the escape ends the loop; only a full block gets its zero. -/
theorem appendJson_stops (full : n ≤ pos + (escapeByte c).length) (src dst : List UInt8) :
    appendJson n (c :: src) pos dst = (pos, if pos + 1 < n then dst else memcpy dst pos [0]) := by
  rw [appendJson]
  by_cases room : pos + 1 < n
  · rw [if_pos room, if_pos room]
    cases short : shortEscape c with
    | some e =>
      rw [(escapeByte_short short).1] at full
      exact if_pos full
    | none =>
      by_cases control : c < 32
      · have long : longEscaped c := ⟨short, control⟩
        rw [escapeByte_long long] at full
        change (if c < 32 then _ else _) = _
        rw [if_pos control]
        exact if_pos full
      · rw [(escapeByte_plain short control).1] at full
        exact absurd room (Nat.not_lt.mpr full)
  · rw [if_neg room, if_neg room]

/-- What the loop leaves in a block whose first bytes hold text and whose last byte is zero: all
of the escaped source if it fits, else at least as much as leaves no room for an escape. -/
structure Appended (n pos : Nat) (src dst result : List UInt8) : Prop where
  size : result.length = n
  last : result.getLast? = some 0
  whole : pos + (escape src).length < n → text result = dst.take pos ++ escape src
  cut : n ≤ pos + (escape src).length → n ≤ (text result).length + 6

theorem terminated {dst : List UInt8} (size : dst.length = n) (last : dst.getLast? = some 0)
    (inside : pos < n) (nonzero : 0 ∉ dst.take pos) :
    (memcpy dst pos [0]).length = n ∧ (memcpy dst pos [0]).getLast? = some 0 ∧
      text (memcpy dst pos [0]) = dst.take pos := by
  refine ⟨?_, getLast?_memcpy last (Or.inr rfl), ?_⟩
  · rw [length_memcpy _ _ _ (by rw [size]; exact inside), size]
  · rw [memcpy, List.append_assoc, List.singleton_append, text_append_zero, text_eq_self nonzero]

theorem appendJson_appended (src : List UInt8) {dst : List UInt8} (size : dst.length = n)
    (last : dst.getLast? = some 0) (inside : pos < n) (nonzero : 0 ∉ dst.take pos) :
    Appended n pos src dst (appendJson n src pos dst).2 := by
  induction src generalizing pos dst with
  | nil =>
    have ended := terminated size last inside nonzero
    rw [appendJson]
    refine ⟨ended.1, ended.2.1, ?_, ?_⟩
    · intro _
      rw [ended.2.2]
      exact (List.append_nil _).symm
    · intro full
      exact absurd full (Nat.not_le.mpr inside)
  | cons c src ih =>
    have ended := terminated size last inside nonzero
    have held : (dst.take pos).length = pos := by
      rw [List.length_take]
      omega
    have short := length_escapeByte_le c
    have split : (escape (c :: src)).length = (escapeByte c).length + (escape src).length := by
      rw [escape, List.flatMap_cons, List.length_append]
      rfl
    by_cases room : pos + (escapeByte c).length < n
    · have next := appendJson_stores room src dst
      generalize z_eq : (if longEscaped c then [(0 : UInt8)] else []) = z at next
      have zero : z = [] ∨ z = [0] := by
        rw [← z_eq]
        split_ifs
        · exact Or.inr rfl
        · exact Or.inl rfl
      have stored : (memcpy dst pos (escapeByte c ++ z)).take (pos + (escapeByte c).length) =
          dst.take pos ++ escapeByte c := by
        rw [memcpy, List.append_assoc, List.append_assoc, ← List.append_assoc]
        apply List.take_left'
        rw [List.length_append, held]
      have fits : pos + (escapeByte c ++ z).length ≤ n := by
        rcases zero with rfl | rfl
        · rw [List.append_nil]
          omega
        · rw [List.length_append, List.length_singleton]
          omega
      have size' : (memcpy dst pos (escapeByte c ++ z)).length = n := by
        rw [length_memcpy _ _ _ (by rw [size]; exact fits), size]
      have last' : (memcpy dst pos (escapeByte c ++ z)).getLast? = some 0 := by
        apply getLast?_memcpy last
        rcases zero with rfl | rfl
        · rw [List.append_nil, size]
          exact Or.inl room
        · right
          rw [List.getLast?_append]
          rfl
      have nonzero' : 0 ∉ (memcpy dst pos (escapeByte c ++ z)).take
          (pos + (escapeByte c).length) := by
        rw [stored, List.mem_append, not_or]
        exact ⟨nonzero, zero_notMem_escapeByte c⟩
      have rest := ih size' last' room nonzero'
      rw [next]
      refine ⟨rest.size, rest.last, ?_, ?_⟩
      · intro fits
        rw [rest.whole (by omega), stored, List.append_assoc]
        rfl
      · intro full
        exact rest.cut (by omega)
    · have kept : pos ≤ (text dst).length := by
        rw [← List.take_append_drop pos dst, text_append nonzero, List.length_append, held]
        exact Nat.le_add_right _ _
      rw [appendJson_stops (Nat.not_lt.mp room) src dst]
      split_ifs
      · refine ⟨size, last, ?_, ?_⟩
        · omega
        · intro _
          change n ≤ (text dst).length + 6
          omega
      · refine ⟨ended.1, ended.2.1, ?_, ?_⟩
        · omega
        · intro _
          change n ≤ (text (memcpy dst pos [0])).length + 6
          rw [ended.2.2, held]
          omega

end Escapes

end Webos.Utils

namespace Webos.Lib.Format.Buffer

open Webos.Utils

variable {n : Nat}

theorem appended (b : Buffer n) (src : List UInt8) :
    Appended n 0 src b.bytes (appendJsonString b.bytes src).2 := by
  rw [appendJsonString, b.size]
  exact appendJson_appended src b.size b.last b.pos List.not_mem_nil

def appendJsonString (b : Buffer n) (src : List UInt8) : Nat × Buffer n :=
  ((Utils.appendJsonString b.bytes src).1,
    ⟨(Utils.appendJsonString b.bytes src).2, (b.appended src).size, (b.appended src).last⟩)

theorem text_appendJsonString (b : Buffer n) {src : List UInt8} (fits : (escape src).length < n) :
    (b.appendJsonString src).2.text = escape src :=
  (b.appended src).whole (by rw [Nat.zero_add]; exact fits)

theorem length_text_appendJsonString (b : Buffer n) {src : List UInt8}
    (full : n ≤ (escape src).length) : n ≤ (b.appendJsonString src).2.text.length + 6 :=
  (b.appended src).cut (by rw [Nat.zero_add]; exact full)

end Webos.Lib.Format.Buffer
