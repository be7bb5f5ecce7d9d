/- digest: The grammar of the paths a sync request may name, and the one the path check misses. -/

import Webos.Adb.Sync.Path
import Webos.Lib.Segments

namespace Webos.Adb.Sync

open Webos.Lib.Segments

private abbrev separator : UInt8 := '/'.toUInt8

def Fair (c : UInt8) : Prop := 0x20 ≤ c ∧ c ≠ '\\'.toUInt8 ∧ c ≠ ':'.toUInt8

def Dotted (component : List UInt8) : Prop := component = ascii "." ∨ component = ascii ".."

def Component (component : List UInt8) : Prop :=
  component ≠ [] ∧ ¬Dotted component ∧ ∀ c ∈ component, Fair c

/-- The path is short enough and no name of `choose_side_paths`. -/
def Usable (cfg : Config) (path : Path) : Prop := path.length < cfg.syncPathMax ∧ ¬staging path

/-- One or more components below the root. -/
def Destination (cfg : Config) (path : Path) : Prop :=
  Usable cfg path ∧ ∃ text, path = SYNC_ROOT ++ text ∧
    ∀ component ∈ text.splitOn separator, Component component

/-- The same behind a second slash: its first component is empty. -/
def Doubled (cfg : Config) (path : Path) : Prop :=
  Usable cfg path ∧ ∃ text, path = SYNC_ROOT ++ separator :: text ∧
    ∀ component ∈ text.splitOn separator, Component component

section Loop

variable {text first : List UInt8} {others : List (List UInt8)}

/-- What the source compares the rest of the path with, at the first byte of a component. -/
def dottedAt (text : List UInt8) : Bool :=
  text == ascii "." || (ascii "./").isPrefixOf text || text == ascii ".." ||
    (ascii "../").isPrefixOf text

theorem first_eq_iff {name : List UInt8} (plain : separator ∉ name)
    (cut : text.splitOn separator = first :: others) :
    first = name ↔ text = name ∨ name ++ [separator] <+: text := by
  rw [eq_comm, @eq_comm _ text, ← splitOn_isPrefix_iff, splitOn_of_notMem plain, cut,
    List.cons_prefix_cons]
  exact ⟨fun same => ⟨same, List.nil_prefix⟩, fun same => same.1⟩

theorem dottedAt_iff (cut : text.splitOn separator = first :: others) :
    dottedAt text = true ↔ Dotted first := by
  rw [Dotted, first_eq_iff (by decide) cut, first_eq_iff (by decide) cut, dottedAt,
    Bool.or_eq_true, Bool.or_eq_true, Bool.or_eq_true, beq_iff_eq, beq_iff_eq,
    List.isPrefixOf_iff_prefix, List.isPrefixOf_iff_prefix, or_assoc]
  rfl

theorem componentsAllowed_cons (closed start : Bool) (c : UInt8) (rest : List UInt8) :
    componentsAllowed closed start (c :: rest) = true ↔ Fair c ∧
      (c = separator → ¬((closed = true ∧ rest = []) ∨ ∃ tail, rest = separator :: tail)) ∧
      (start = true → ¬dottedAt (c :: rest) = true) ∧
      componentsAllowed closed (c == separator) rest = true := by
  have slashes : (rest.head? == some separator || (closed && rest.isEmpty)) = true ↔
      (closed = true ∧ rest = []) ∨ ∃ tail, rest = separator :: tail := by
    rw [or_comm, Bool.or_eq_true, Bool.and_eq_true, List.isEmpty_iff, beq_iff_eq,
      List.head?_eq_some_iff]
  have dots : (start && (c :: rest == ascii "." || (ascii "./").isPrefixOf (c :: rest) ||
      c :: rest == ascii ".." || (ascii "../").isPrefixOf (c :: rest))) = true ↔
      start = true ∧ dottedAt (c :: rest) = true := Bool.and_eq_true_iff
  rw [componentsAllowed]
  split_ifs with unfair dotted
  · refine iff_of_false not_false ?_
    rintro ⟨⟨printable, backslash, colon⟩, apart, -⟩
    rw [Bool.or_eq_true, Bool.or_eq_true, Bool.or_eq_true, decide_eq_true_eq, beq_iff_eq,
      beq_iff_eq, Bool.and_eq_true, beq_iff_eq, slashes] at unfair
    rcases unfair with ((low | same) | same) | ⟨same, doubled⟩
    · exact absurd low (UInt8.not_lt.mpr printable)
    · exact backslash same
    · exact colon same
    · exact apart same doubled
  · refine iff_of_false not_false ?_
    rintro ⟨-, -, plain, -⟩
    exact plain (dots.mp dotted).1 (dots.mp dotted).2
  · rw [Bool.or_eq_true, Bool.or_eq_true, Bool.or_eq_true, decide_eq_true_eq, beq_iff_eq,
      beq_iff_eq, Bool.and_eq_true, beq_iff_eq, slashes, not_or, not_or, not_or] at unfair
    obtain ⟨⟨⟨printable, backslash⟩, colon⟩, apart⟩ := unfair
    constructor
    · intro allowed
      exact ⟨⟨UInt8.not_lt.mp printable, backslash, colon⟩, fun same no => apart ⟨same, no⟩,
        fun begun no => dotted (dots.mpr ⟨begun, no⟩), allowed⟩
    · rintro ⟨-, -, -, allowed⟩
      exact allowed

/-- The loop from a byte of a component on: the rest of that component is fair, and the others are
components. -/
theorem componentsAllowed_iff (start : Bool) (cut : text.splitOn separator = first :: others) :
    componentsAllowed true start text = true ↔
      (∀ c ∈ first, Fair c) ∧ (start = true → ¬Dotted first) ∧
        ∀ component ∈ others, Component component := by
  induction text generalizing start first others with
  | nil =>
    cases cut
    refine iff_of_true rfl ⟨?_, ?_, ?_⟩
    · intro c no
      cases no
    · rintro - (no | no) <;> cases no
    · intro component no
      cases no
  | cons c rest ih =>
    obtain ⟨first', others', cut'⟩ := exists_splitOn separator rest
    have empty : first' = [] ↔ (true = true ∧ rest = []) ∨ ∃ tail, rest = separator :: tail := by
      rw [eq_self, true_and]
      exact head_splitOn_eq_nil cut'
    rw [componentsAllowed_cons, dottedAt_iff cut]
    by_cases same : c = separator
    · subst same
      rw [splitOn_sep, cut'] at cut
      cases cut
      rw [beq_self_eq_true, ih true cut', ← empty, List.forall_mem_cons]
      constructor
      · rintro ⟨-, full, plain, fair, undotted, more⟩
        exact ⟨List.forall_mem_nil _, plain, ⟨full rfl, undotted rfl, fair⟩, more⟩
      · rintro ⟨-, plain, ⟨full, undotted, fair⟩, more⟩
        exact ⟨⟨by decide, by decide, by decide⟩, fun _ => full, plain, fair, fun _ => undotted,
          more⟩
    · rw [splitOn_other same, cut'] at cut
      cases cut
      rw [beq_eq_false_iff_ne.mpr same, ih false cut', List.forall_mem_cons]
      constructor
      · rintro ⟨fair, -, plain, fairs, -, more⟩
        exact ⟨⟨fair, fairs⟩, plain, more⟩
      · rintro ⟨⟨fair, fairs⟩, plain, more⟩
        exact ⟨fair, fun no => absurd no same, plain, fairs, fun no => absurd no Bool.false_ne_true,
          more⟩

theorem componentsAllowed_open {start : Bool} (allowed : componentsAllowed true start text = true) :
    componentsAllowed false start text = true := by
  induction text generalizing start with
  | nil => rfl
  | cons c rest ih =>
    rw [componentsAllowed_cons] at allowed ⊢
    obtain ⟨fair, apart, plain, more⟩ := allowed
    refine ⟨fair, fun same doubled => apart same (Or.inr ?_), plain, ih more⟩
    rcases doubled with ⟨no, -⟩ | doubled
    · cases no
    · exact doubled

end Loop

section Paths

variable {cfg : Config} {path : Path}

theorem syncPathAllowed_iff : syncPathAllowed cfg path = true ↔
    Usable cfg path ∧ ∃ text, path = SYNC_ROOT ++ text ∧ text ≠ [] ∧
      path.getLast? ≠ some separator ∧ componentsAllowed true true text = true := by
  rw [syncPathAllowed, Usable, staging, not_or]
  split_ifs with refused
  · refine iff_of_false not_false ?_
    rintro ⟨⟨short, part, old⟩, text, rfl, some_byte, last, -⟩
    simp only [Bool.or_eq_true, decide_eq_true_eq, Bool.not_eq_true', beq_iff_eq] at refused
    rcases refused with ((((shorter | long) | root) | slash) | marked) | marked
    · rw [List.length_append] at shorter
      exact some_byte (List.length_eq_zero_iff.mp (by omega))
    · omega
    · cases root
    · exact last slash
    · exact part marked
    · exact old marked
  · simp only [Bool.or_eq_true, decide_eq_true_eq, Bool.not_eq_true', beq_iff_eq, not_or,
      Bool.not_eq_false, List.isPrefixOf_iff_prefix] at refused
    obtain ⟨⟨⟨⟨⟨longer, short⟩, text, rfl⟩, last⟩, part⟩, old⟩ := refused
    have some_byte : text ≠ [] := by
      rintro rfl
      exact longer (Nat.le_refl _)
    constructor
    · intro allowed
      exact ⟨⟨Nat.lt_of_not_le short, part, old⟩, text, rfl, some_byte, last, allowed⟩
    · rintro ⟨-, text', same, -, -, allowed⟩
      rw [List.append_cancel_left same]
      exact allowed

theorem componentsAllowed_split {text : List UInt8} (some_byte : text ≠ []) :
    componentsAllowed true true text = true ↔
      (∀ component ∈ text.splitOn separator, Component component) ∨
      ∃ rest, text = separator :: rest ∧
        ∀ component ∈ rest.splitOn separator, Component component := by
  obtain ⟨first, others, cut⟩ := exists_splitOn separator text
  rw [componentsAllowed_iff true cut, cut, List.forall_mem_cons]
  by_cases empty : first = []
  · subst empty
    rcases (head_splitOn_eq_nil cut).mp rfl with no | ⟨rest, rfl⟩
    · exact absurd no some_byte
    · cases cut
      constructor
      · rintro ⟨-, -, more⟩
        exact Or.inr ⟨rest, rfl, more⟩
      · rintro (⟨⟨no, -⟩, -⟩ | ⟨rest', same, more⟩)
        · exact absurd rfl no
        · cases same
          refine ⟨List.forall_mem_nil _, ?_, more⟩
          rintro - (no | no) <;> cases no
  · constructor
    · rintro ⟨fair, plain, more⟩
      exact Or.inl ⟨⟨empty, plain rfl, fair⟩, more⟩
    · rintro (⟨⟨-, plain, fair⟩, more⟩ | ⟨rest, rfl, -⟩)
      · exact ⟨fair, fun _ => plain, more⟩
      · cases cut
        exact absurd rfl empty

theorem last_ne_separator {front text : List UInt8} (some_byte : text ≠ [])
    (allowed : componentsAllowed true true text = true) :
    (front ++ text).getLast? ≠ some separator := by
  obtain ⟨first, others, cut⟩ := exists_splitOn separator text
  obtain ⟨-, -, components⟩ := (componentsAllowed_iff true cut).mp allowed
  have full : ∀ s ∈ (text.splitOn separator).tail, s ≠ [] := by
    rw [cut, List.tail_cons]
    intro s member
    exact (components s member).1
  rw [List.getLast?_append_of_ne_nil _ some_byte]
  exact ((tail_splitOn_ne_nil_iff text).mp full).2

theorem syncPathAllowed_eq : syncPathAllowed cfg path = true ↔
    Destination cfg path ∨ Doubled cfg path := by
  rw [syncPathAllowed_iff, Destination, Doubled, ← and_or_left]
  refine and_congr_right fun _ => ⟨?_, ?_⟩
  · rintro ⟨text, rfl, some_byte, -, allowed⟩
    rcases (componentsAllowed_split some_byte).mp allowed with components | ⟨rest, rfl, components⟩
    · exact Or.inl ⟨text, rfl, components⟩
    · exact Or.inr ⟨rest, rfl, components⟩
  · rintro (⟨text, rfl, components⟩ | ⟨rest, rfl, components⟩)
    · have some_byte : text ≠ [] := by
        rintro rfl
        exact (components [] List.mem_cons_self).1 rfl
      have allowed := (componentsAllowed_split some_byte).mpr (Or.inl components)
      exact ⟨text, rfl, some_byte, last_ne_separator some_byte allowed, allowed⟩
    · have some_byte : separator :: rest ≠ [] := List.cons_ne_nil _ _
      have allowed := (componentsAllowed_split some_byte).mpr (Or.inr ⟨rest, rfl, components⟩)
      exact ⟨separator :: rest, rfl, some_byte, last_ne_separator some_byte allowed, allowed⟩

theorem not_destination_of_doubled (doubled : Doubled cfg path) : ¬Destination cfg path := by
  obtain ⟨-, text, rfl, -⟩ := doubled
  rintro ⟨-, text', same, components⟩
  rw [← List.append_cancel_left same, splitOn_sep] at components
  exact (components [] List.mem_cons_self).1 rfl

theorem syncStatPathAllowed_of_allowed (allowed : syncPathAllowed cfg path = true) :
    syncStatPathAllowed cfg path = true := by
  obtain ⟨⟨short, -⟩, text, rfl, -, -, components⟩ := syncPathAllowed_iff.mp allowed
  rw [syncStatPathAllowed, if_neg, List.drop_left]
  · exact componentsAllowed_open components
  · simp only [Bool.or_eq_true, decide_eq_true_eq, Bool.not_eq_true', not_or, Bool.not_eq_false,
      List.isPrefixOf_iff_prefix]
    refine ⟨⟨?_, Nat.not_le_of_lt short⟩, List.prefix_append _ _⟩
    rw [List.length_append]
    omega

/-- The check decides the grammar of destinations, and lets none through that a STAT refuses,
except for a path with a second slash behind its root. -/
theorem sync_path_allowed_exact : ((syncPathAllowed cfg path = true ↔ Destination cfg path) ∧
      (syncPathAllowed cfg path = true → syncStatPathAllowed cfg path = true)) ↔
    ¬Doubled cfg path := by
  rw [syncPathAllowed_eq]
  constructor
  · rintro ⟨exactly, -⟩ doubled
    exact not_destination_of_doubled doubled (exactly.mp (Or.inr doubled))
  · intro single
    refine ⟨⟨fun allowed => allowed.resolve_right single, Or.inl⟩, fun allowed => ?_⟩
    exact syncStatPathAllowed_of_allowed (syncPathAllowed_eq.mpr allowed)

/-- `/STORAGE://a` passes, with an empty component in front. -/
theorem doubled_slash_allowed :
    syncPathAllowed Config.project (ascii "/STORAGE://a") = true ∧
      ¬Destination Config.project (ascii "/STORAGE://a") := by
  refine ⟨by decide +kernel, ?_⟩
  rintro ⟨-, text, same, components⟩
  have below : SYNC_ROOT ++ ascii "/a" = SYNC_ROOT ++ text := same
  replace below := (List.append_cancel_left below).symm
  subst below
  exact (components [] (by decide)).1 rfl

end Paths

end Webos.Adb.Sync
