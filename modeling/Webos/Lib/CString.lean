/- digest: C strings as byte lists without their terminator, compared in whole or in part. -/

import Mathlib.Data.List.Infix

namespace Webos.Lib.CString

/-- `strcmp` on strings without their terminators: bytes compare as unsigned, and a string comes
before its extensions. -/
def strcmp (a b : List UInt8) : Ordering := compare a b

def strncmp (a b : List UInt8) (n : Nat) : Ordering := compare (a.take n) (b.take n)

def tolower (c : UInt8) : UInt8 := if 65 ≤ c ∧ c ≤ 90 then c + 32 else c

def strncasecmp (a b : List UInt8) (n : Nat) : Ordering :=
  compare ((a.take n).map tolower) ((b.take n).map tolower)

def strstr (s needle : List UInt8) : Option (List UInt8) := s.tails.find? (needle.isPrefixOf ·)

theorem strstr_eq_none {s needle : List UInt8} : strstr s needle = none ↔ ¬needle <:+: s := by
  unfold strstr
  rw [List.find?_eq_none]
  constructor
  · rintro absent ⟨front, back, rfl⟩
    refine absent (needle ++ back) ?_ ?_
    · rw [List.mem_tails]
      exact ⟨front, by simp⟩
    · rw [List.isPrefixOf_iff_prefix]
      exact List.prefix_append _ _
  · intro absent rest suffix begins
    rw [List.mem_tails] at suffix
    rw [List.isPrefixOf_iff_prefix] at begins
    exact absent (begins.isInfix.trans suffix.isInfix)

theorem strstr_some {s needle rest : List UInt8} (found : strstr s needle = some rest) :
    rest <:+ s ∧ needle <+: rest := by
  have member := List.mem_of_find?_eq_some found
  have begins := List.find?_some found
  exact ⟨(List.mem_tails _ _).mp member, List.isPrefixOf_iff_prefix.mp begins⟩

theorem strstr_cons (c : UInt8) (s needle : List UInt8) :
    strstr (c :: s) needle =
      if needle.isPrefixOf (c :: s) then some (c :: s) else strstr s needle := by
  unfold strstr
  rw [List.tails, List.find?_cons]
  split
  · rename_i here
    rw [if_pos here]
  · rename_i here
    rw [if_neg (by simp [here])]

theorem strstr_here (needle rest : List UInt8) :
    strstr (needle ++ rest) needle = some (needle ++ rest) := by
  have here : needle.isPrefixOf (needle ++ rest) = true := by simp
  cases shape : needle ++ rest with
  | nil =>
    have none := (List.append_eq_nil_iff.mp shape).1
    subst none
    rfl
  | cons c s =>
    rw [shape] at here
    rw [strstr_cons, if_pos here]

theorem strstr_append {d : UInt8} {front : List UInt8} (absent : d ∉ front)
    (s needle : List UInt8) : strstr (front ++ s) (d :: needle) = strstr s (d :: needle) := by
  induction front with
  | nil => rfl
  | cons c front ih =>
    rw [List.mem_cons, not_or] at absent
    have other : (d :: needle).isPrefixOf (c :: (front ++ s)) = false := by
      simp [List.isPrefixOf, absent.1]
    rw [List.cons_append, strstr_cons, if_neg (by simp [other]), ih absent.2]

/-- A comparison of as many bytes as the second string has, together with whether the first string
goes on behind them, is a comparison of the whole strings. -/
theorem strcmp_eq_strncmp (a b : List UInt8) :
    strcmp a b = (strncmp a b b.length).then (if a.length ≤ b.length then .eq else .gt) := by
  unfold strcmp strncmp
  induction a generalizing b with
  | nil =>
    cases b with
    | nil => rfl
    | cons c rest => simp
  | cons c a ih =>
    cases b with
    | nil => simp
    | cons d b =>
      simp only [List.length_cons, List.take_succ_cons, List.compare_cons_cons,
        Nat.add_le_add_iff_right]
      rw [ih, Ordering.then_assoc]

end Webos.Lib.CString
