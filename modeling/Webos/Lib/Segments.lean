/- digest: Lists cut at a separator: which cut begins another, and where a segment is empty. -/

import Mathlib.Data.List.Basic
import Mathlib.Data.List.Infix

namespace Webos.Lib.Segments

variable {α : Type} [DecidableEq α] {sep : α}

theorem splitOn_sep (rest : List α) : (sep :: rest).splitOn sep = [] :: rest.splitOn sep := by
  rw [List.splitOn, List.splitOnP_cons_eq_if_modifyHead, if_pos (beq_self_eq_true sep)]
  rfl

theorem splitOn_other {c : α} (other : c ≠ sep) (rest : List α) :
    (c :: rest).splitOn sep = (rest.splitOn sep).modifyHead (c :: ·) := by
  rw [List.splitOn, List.splitOnP_cons_eq_if_modifyHead, if_neg]
  · rfl
  · rw [beq_iff_eq]
    exact other

theorem exists_splitOn (sep : α) (l : List α) : ∃ first others, l.splitOn sep = first :: others :=
  List.exists_cons_of_ne_nil (List.splitOnP_ne_nil _ l)

variable {l : List α}

theorem splitOn_of_notMem (whole : sep ∉ l) : l.splitOn sep = [l] := by
  induction l with
  | nil => rfl
  | cons c rest ih =>
    rw [List.mem_cons, not_or] at whole
    rw [splitOn_other (Ne.symm whole.1), ih whole.2]
    rfl

theorem splitOn_append_sep (whole : sep ∉ l) (rest : List α) :
    (l ++ sep :: rest).splitOn sep = l :: rest.splitOn sep := by
  induction l with
  | nil => exact splitOn_sep rest
  | cons c l ih =>
    rw [List.mem_cons, not_or] at whole
    rw [List.cons_append, splitOn_other (Ne.symm whole.1), ih whole.2]
    rfl

theorem bne_of_notMem (whole : sep ∉ l) : ∀ c ∈ l, (c != sep) = true := by
  intro c member
  rw [bne_iff_ne]
  rintro rfl
  exact whole member

theorem takeWhile_ne_of_notMem (whole : sep ∉ l) : l.takeWhile (fun c => c != sep) = l := by
  have front : (l ++ []).takeWhile _ = _ :=
    List.takeWhile_append_of_pos (bne_of_notMem whole)
  rw [List.append_nil, List.takeWhile_nil, List.append_nil] at front
  exact front

theorem takeWhile_ne_append_sep (whole : sep ∉ l) (rest : List α) :
    (l ++ sep :: rest).takeWhile (fun c => c != sep) = l := by
  rw [List.takeWhile_append_of_pos (bne_of_notMem whole), List.takeWhile_cons_of_neg,
    List.append_nil]
  rw [bne_self_eq_false]
  exact Bool.false_ne_true

theorem splitOn_eq_singleton {s : List α} : l.splitOn sep = [s] ↔ l = s ∧ sep ∉ s := by
  constructor
  · intro cut
    by_cases whole : sep ∈ l
    · obtain ⟨before, behind, rfl, first⟩ := List.eq_append_cons_of_mem whole
      rw [splitOn_append_sep first] at cut
      obtain ⟨front, others, cut'⟩ := exists_splitOn sep behind
      rw [cut'] at cut
      cases cut
    · rw [splitOn_of_notMem whole] at cut
      cases cut
      exact ⟨rfl, whole⟩
  · rintro ⟨rfl, whole⟩
    exact splitOn_of_notMem whole

variable {others : List (List α)}

theorem splitOn_eq_cons_cons {s t : List α} :
    l.splitOn sep = s :: t :: others ↔
      ∃ rest, l = s ++ sep :: rest ∧ sep ∉ s ∧ rest.splitOn sep = t :: others := by
  constructor
  · intro cut
    by_cases whole : sep ∈ l
    · obtain ⟨before, behind, rfl, first⟩ := List.eq_append_cons_of_mem whole
      rw [splitOn_append_sep first] at cut
      injection cut with same cut
      subst same
      exact ⟨behind, rfl, first, cut⟩
    · rw [splitOn_of_notMem whole] at cut
      cases cut
  · rintro ⟨rest, rfl, whole, cut⟩
    rw [splitOn_append_sep whole, cut]

theorem head_splitOn_eq_nil {first : List α} (cut : l.splitOn sep = first :: others) :
    first = [] ↔ l = [] ∨ ∃ rest, l = sep :: rest := by
  cases l with
  | nil =>
    cases cut
    exact iff_of_true rfl (Or.inl rfl)
  | cons c rest =>
    by_cases same : c = sep
    · subst same
      rw [splitOn_sep] at cut
      cases cut
      exact iff_of_true rfl (Or.inr ⟨rest, rfl⟩)
    · obtain ⟨first', others', cut'⟩ := exists_splitOn sep rest
      rw [splitOn_other same, cut'] at cut
      cases cut
      refine iff_of_false (List.cons_ne_nil _ _) ?_
      rintro (no | ⟨rest', no⟩)
      · cases no
      · exact same (List.cons.inj no).1

theorem splitOn_cons_isPrefix_cons (x y : α) (a b : List α) :
    (x :: a).splitOn sep <+: (y :: b).splitOn sep ↔ x = y ∧ a.splitOn sep <+: b.splitOn sep := by
  obtain ⟨first, others, cut⟩ := exists_splitOn sep a
  obtain ⟨first', others', cut'⟩ := exists_splitOn sep b
  by_cases left : x = sep
  · by_cases right : y = sep
    · subst left
      subst right
      rw [splitOn_sep, splitOn_sep, List.cons_prefix_cons, eq_self, eq_self]
    · subst left
      rw [splitOn_sep, splitOn_other right, cut', List.modifyHead_cons, List.cons_prefix_cons]
      exact iff_of_false (fun no => nomatch no.1) fun same => right same.1.symm
  · by_cases right : y = sep
    · subst right
      rw [splitOn_sep, splitOn_other left, cut, List.modifyHead_cons, List.cons_prefix_cons]
      exact iff_of_false (fun no => nomatch no.1) fun same => left same.1
    · rw [splitOn_other left, splitOn_other right, cut, cut', List.modifyHead_cons,
        List.modifyHead_cons, List.cons_prefix_cons, List.cons_prefix_cons, List.cons.injEq,
        and_assoc]

/-- The segments of one list begin those of another if and only if the lists are the same or the
first goes on behind a separator. -/
theorem splitOn_isPrefix_iff (a b : List α) :
    a.splitOn sep <+: b.splitOn sep ↔ a = b ∨ a ++ [sep] <+: b := by
  induction a generalizing b with
  | nil =>
    obtain ⟨first, others, cut⟩ := exists_splitOn sep b
    rw [List.splitOn_nil, cut, List.cons_prefix_cons, eq_comm, head_splitOn_eq_nil cut,
      List.nil_append]
    constructor
    · rintro ⟨rfl | ⟨rest, rfl⟩, -⟩
      · exact Or.inl rfl
      · exact Or.inr (List.cons_prefix_cons.mpr ⟨rfl, List.nil_prefix⟩)
    · rintro (same | ⟨rest, split⟩)
      · exact ⟨Or.inl same.symm, List.nil_prefix⟩
      · exact ⟨Or.inr ⟨rest, split.symm⟩, List.nil_prefix⟩
  | cons x a ih =>
    cases b with
    | nil =>
      refine iff_of_false ?_ ?_
      · obtain ⟨first, others, cut⟩ := exists_splitOn sep a
        rw [List.splitOn_nil]
        by_cases same : x = sep
        · subst same
          rw [splitOn_sep, List.cons_prefix_cons, cut, List.prefix_nil]
          exact fun no => nomatch no.2
        · rw [splitOn_other same, cut, List.modifyHead_cons, List.cons_prefix_cons]
          exact fun no => nomatch no.1
      · rintro (no | no)
        · cases no
        · rw [List.cons_append, List.prefix_nil] at no
          cases no
    | cons y b =>
      rw [splitOn_cons_isPrefix_cons, ih, List.cons_append, List.cons_prefix_cons, List.cons.injEq,
        and_or_left]

/-- The segments behind a separator are not empty if and only if no two separators stand together
and none stands at the end. -/
theorem tail_splitOn_ne_nil_iff (l : List α) :
    (∀ s ∈ (l.splitOn sep).tail, s ≠ []) ↔ ¬[sep, sep] <:+: l ∧ l.getLast? ≠ some sep := by
  induction l with
  | nil => simp
  | cons c rest ih =>
    obtain ⟨first, others, cut⟩ := exists_splitOn sep rest
    have front := head_splitOn_eq_nil cut
    rw [cut, List.tail_cons] at ih
    by_cases same : c = sep
    · subst same
      rw [splitOn_sep, List.tail_cons, cut, List.forall_mem_cons, ih, ne_eq, front,
        List.infix_cons_iff, List.cons_prefix_cons]
      cases rest with
      | nil => simp
      | cons d rest =>
        rw [List.cons_prefix_cons, List.getLast?_cons_cons]
        simp only [reduceCtorEq, List.cons.injEq, false_or, true_and, List.nil_prefix, and_true,
          not_or, exists_and_left, exists_eq', eq_comm]
        tauto
    · rw [splitOn_other same, cut, List.modifyHead_cons, List.tail_cons, ih, List.infix_cons_iff,
        List.cons_prefix_cons]
      have apart : ¬(sep = c ∧ [sep] <+: rest) := fun both => same both.1.symm
      cases rest with
      | nil => simp [same]
      | cons d rest =>
        rw [List.getLast?_cons_cons]
        simp only [apart, false_or]

end Webos.Lib.Segments
