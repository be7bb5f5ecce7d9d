/- digest: The paths an application may use are those below its root and its grants. -/

import Mathlib.Data.List.GetD
import Webos.Lib.Segments
import Webos.Services.App.Utf8

namespace Webos.Services.App

open Webos.Adb (ascii)
open Webos.Lib.CString
open Webos.Lib.Segments

def components (path : List UInt8) : List (List UInt8) :=
  (if path.getLast? = some slash then path.dropLast else path).splitOn slash

/-- A path in the form that the ABI asks for. The controls are the bytes below the blank. -/
structure Proper (path : List UInt8) : Prop where
  absolute : path.head? = some slash
  short : path.length ≤ WEBOS_ABI_MAX_PATH_BYTES
  wellFormed : WellFormed path
  noControl : ∀ c ∈ path, 0x20 ≤ c
  noEmpty : ∀ s ∈ (components path).tail, s ≠ []
  noParent : [dot, dot] ∉ components path
  noTrailing : path.getLast? ≠ some slash

def Below (root path : List UInt8) : Prop := components root <+: components path

theorem components_eq {path : List UInt8} (noTrailing : path.getLast? ≠ some slash) :
    components path = path.splitOn slash := by
  rw [components, if_neg noTrailing]

theorem Proper.nonzero {path : List UInt8} (proper : Proper path) : ∀ c ∈ path, c ≠ 0 := by
  rintro c member rfl
  exact absurd (proper.noControl 0 member) (by decide)

section Boundary

variable {value front : List UInt8}

theorem strncmp_eq_iff : strncmp value front front.length = .eq ↔ front <+: value := by
  rw [strncmp, Std.LawfulEqOrd.compare_eq_iff_eq, List.take_length]
  constructor
  · intro same
    rw [← same]
    exact List.take_prefix _ _
  · rintro ⟨rest, rfl⟩
    exact List.take_left

theorem getD_append {rest : List UInt8} (nonzero : ∀ c ∈ front ++ rest, c ≠ 0) :
    (front ++ rest).getD front.length 0 = 0 ↔ rest = [] := by
  rw [List.getD_append_right _ _ _ _ (Nat.le_refl _), Nat.sub_self]
  cases rest with
  | nil => exact iff_of_true rfl rfl
  | cons c rest =>
    exact iff_of_false (nonzero c (by simp)) (List.cons_ne_nil _ _)

theorem getD_last (some' : front ≠ []) :
    front.getD (front.length - 1) 0 = slash ↔ front.getLast? = some slash := by
  rw [List.getLast?_eq_getElem?, List.getD_eq_getElem?_getD]
  have inside : front.length - 1 < front.length := by
    have := List.length_pos_iff.mpr some'
    omega
  rw [List.getElem?_eq_getElem inside, Option.getD_some, Option.some.injEq]

theorem prefixBoundary_iff (nonzero : ∀ c ∈ value, c ≠ 0) :
    prefixBoundary value front = true ↔ front ≠ [] ∧ (value = front ∨ front ++ [slash] <+: value ∨
        (front <+: value ∧ front.getLast? = some slash)) := by
  unfold prefixBoundary
  simp only [Bool.and_eq_true, Bool.or_eq_true, decide_eq_true_eq, beq_iff_eq, strncmp_eq_iff]
  rw [gt_iff_lt, List.length_pos_iff, and_assoc]
  refine and_congr_right fun some' => ?_
  rw [getD_last some']
  constructor
  · rintro ⟨⟨rest, rfl⟩, (zero | next) | last⟩
    · rw [(getD_append nonzero).mp zero]
      exact Or.inl (List.append_nil _)
    · right
      left
      rw [List.getD_append_right _ _ _ _ (Nat.le_refl _), Nat.sub_self] at next
      cases rest with
      | nil => cases next
      | cons c rest =>
        subst next
        exact ⟨rest, by simp⟩
    · exact Or.inr (Or.inr ⟨⟨rest, rfl⟩, last⟩)
  · rintro (rfl | ⟨rest, rfl⟩ | ⟨begins, last⟩)
    · refine ⟨List.prefix_rfl, Or.inl (Or.inl ?_)⟩
      rw [List.getD_eq_default _ _ (Nat.le_refl _)]
    · refine ⟨⟨slash :: rest, by simp⟩, Or.inl (Or.inr ?_)⟩
      rw [List.append_assoc, List.getD_append_right _ _ _ _ (Nat.le_refl _), Nat.sub_self]
      rfl
    · exact ⟨begins, Or.inr last⟩

theorem below_of_boundary (noTrailing : value.getLast? ≠ some slash)
    (boundary : value = front ∨ front ++ [slash] <+: value ∨
      (front <+: value ∧ front.getLast? = some slash)) : Below front value := by
  unfold Below
  rw [components_eq noTrailing]
  by_cases last : front.getLast? = some slash
  · obtain ⟨root, rfl⟩ := List.getLast?_eq_some_iff.mp last
    rw [components, if_pos last, List.dropLast_concat, splitOn_isPrefix_iff]
    right
    rcases boundary with rfl | ⟨rest, rfl⟩ | ⟨begins, -⟩
    · exact List.prefix_rfl
    · exact ⟨slash :: rest, by simp⟩
    · exact begins
  · rw [components_eq last, splitOn_isPrefix_iff]
    rcases boundary with rfl | begins | ⟨-, no⟩
    · exact Or.inl rfl
    · exact Or.inr begins
    · exact absurd no last

theorem boundary_of_below (noTrailing : value.getLast? ≠ some slash)
    (last : front.getLast? ≠ some slash) (below : Below front value) :
    value = front ∨ front ++ [slash] <+: value := by
  unfold Below at below
  rw [components_eq noTrailing, components_eq last, splitOn_isPrefix_iff] at below
  rcases below with same | begins
  · exact Or.inl same.symm
  · exact Or.inr begins

end Boundary

section Scan

variable {before : Option UInt8}

theorem scanPath_noControl {l : List UInt8} (accepted : scanPath before l = true) :
    ∀ c ∈ l, 0x20 ≤ c := by
  induction l generalizing before with
  | nil => exact List.forall_mem_nil _
  | cons c rest ih =>
    rw [scanPath] at accepted
    split_ifs at accepted with bad
    rw [not_or] at bad
    exact List.forall_mem_cons.mpr ⟨UInt8.not_lt.mp bad.1, ih accepted⟩

theorem first_eq_parent {c : UInt8} {rest first : List UInt8} {others : List (List UInt8)}
    (nonzero : ∀ c ∈ rest, c ≠ 0) (cut : (c :: rest).splitOn slash = first :: others) :
    first = [dot, dot] ↔ c = dot ∧ rest.getD 0 0 = dot ∧
      (rest.getD 1 0 = 0 ∨ rest.getD 1 0 = slash) := by
  by_cases same : c = slash
  · subst same
    cases cut
    exact iff_of_false (by decide) fun no => absurd no.1 (by decide)
  · obtain ⟨second, others', cut'⟩ := exists_splitOn slash rest
    rw [splitOn_other same, cut', List.modifyHead_cons] at cut
    cases cut
    rw [List.cons.injEq]
    refine and_congr_right fun _ => ?_
    cases rest with
    | nil =>
      cases cut'
      exact iff_of_false (by decide) fun no => absurd no.1 (by decide)
    | cons d rest =>
      rw [List.getD_cons_zero, List.getD_cons_succ]
      by_cases again : d = slash
      · subst again
        cases cut'
        exact iff_of_false (by decide) fun no => absurd no.1 (by decide)
      · obtain ⟨third, others'', cut''⟩ := exists_splitOn slash rest
        rw [splitOn_other again, cut'', List.modifyHead_cons] at cut'
        cases cut'
        rw [List.cons.injEq, head_splitOn_eq_nil cut'']
        refine and_congr_right fun _ => ?_
        cases rest with
        | nil => exact iff_of_true (Or.inl rfl) (Or.inl rfl)
        | cons e rest =>
          have some' : e ≠ 0 := nonzero e (by simp)
          simp [some']

theorem scanPath_iff {l : List UInt8} (plain : ∀ c ∈ l, 0x20 ≤ c) :
    scanPath before l = true ↔
      [dot, dot] ∉ (if before = none ∨ before = some slash then l.splitOn slash
        else (l.splitOn slash).tail) := by
  induction l generalizing before with
  | nil =>
    refine iff_of_true rfl ?_
    split_ifs
    all_goals decide
  | cons c rest ih =>
    obtain ⟨first, others, cut⟩ := exists_splitOn slash (c :: rest)
    obtain ⟨printable, plain⟩ := List.forall_mem_cons.mp plain
    have nonzero : ∀ c ∈ rest, c ≠ 0 := by
      rintro c member rfl
      exact absurd (plain 0 member) (by decide)
    have parent := first_eq_parent nonzero cut
    -- What is left behind the first byte: a new component after a slash, else the same one.
    have later : scanPath (some c) rest = true ↔ [dot, dot] ∉ others := by
      rw [ih plain]
      by_cases same : c = slash
      · subst same
        rw [splitOn_sep] at cut
        cases cut
        rw [if_pos (Or.inr rfl)]
      · obtain ⟨second, others', cut'⟩ := exists_splitOn slash rest
        rw [splitOn_other same, cut', List.modifyHead_cons] at cut
        cases cut
        rw [if_neg (by simpa using same), cut', List.tail_cons]
    rw [scanPath, cut, List.tail_cons]
    by_cases boundary : before = none ∨ before = some slash
    · rw [if_pos boundary, List.mem_cons, not_or, ← later]
      by_cases found : c = dot ∧ rest.getD 0 0 = dot ∧ (rest.getD 1 0 = 0 ∨ rest.getD 1 0 = slash)
      · rw [if_pos (Or.inr ⟨found.1, found.2.1, boundary, found.2.2⟩)]
        exact iff_of_false (by decide) fun no => no.1 (parent.mpr found).symm
      · rw [if_neg]
        · exact ⟨fun rest => ⟨fun same => found (parent.mp same.symm), rest⟩, And.right⟩
        · rintro (control | ⟨one, two, -, three⟩)
          · exact absurd control (UInt8.not_lt.mpr printable)
          · exact found ⟨one, two, three⟩
    · rw [if_neg boundary, ← later, if_neg]
      rintro (control | ⟨-, -, no, -⟩)
      · exact absurd control (UInt8.not_lt.mpr printable)
      · exact boundary no

theorem getD_zero_eq_slash (path : List UInt8) :
    path.getD 0 0 = slash ↔ path.head? = some slash := by
  cases path with
  | nil => decide
  | cons c rest => simp

theorem validPath_iff (path : List UInt8) : validPath (some path) = true ↔ Proper path := by
  unfold validPath
  constructor
  · intro valid
    dsimp only at valid
    split_ifs at valid with bad malformed
    rw [not_or, not_or, not_or, not_not, getD_zero_eq_slash] at bad
    obtain ⟨absolute, some', short, trailing⟩ := bad
    rw [Bool.or_eq_true, not_or, Bool.not_eq_true', Bool.not_eq_false, Option.isSome_iff_ne_none,
      not_not, strstr_eq_none, validUtf8_eq_true] at malformed
    have nonempty : path ≠ [] := fun none' => some' (by rw [none']; rfl)
    rw [getD_last nonempty] at trailing
    have plain := scanPath_noControl valid
    have noParent := (scanPath_iff plain).mp valid
    refine ⟨absolute, Nat.le_of_not_lt short, malformed.1, plain, ?_, ?_, trailing⟩
    · rw [components_eq trailing]
      exact (tail_splitOn_ne_nil_iff path).mpr ⟨malformed.2, trailing⟩
    · rw [components_eq trailing]
      exact noParent
  · intro proper
    have nonempty : path ≠ [] := by
      rintro rfl
      cases proper.absolute
    have noEmpty := proper.noEmpty
    have noParent := proper.noParent
    rw [components_eq proper.noTrailing] at noEmpty noParent
    have doubled := ((tail_splitOn_ne_nil_iff path).mp noEmpty).1
    dsimp only
    rw [if_neg, if_neg]
    · refine (scanPath_iff proper.noControl).mpr ?_
      exact noParent
    · rw [Bool.or_eq_true, not_or, Bool.not_eq_true', Bool.not_eq_false, Option.isSome_iff_ne_none,
        not_not, strstr_eq_none, validUtf8_eq_true]
      exact ⟨proper.wellFormed, doubled⟩
    · rw [not_or, not_or, not_or, not_not, getD_zero_eq_slash, getD_last nonempty]
      refine ⟨proper.absolute, ?_, Nat.not_lt.mpr proper.short, proper.noTrailing⟩
      rw [List.length_eq_zero_iff]
      exact nonempty

end Scan

section Contexts

variable {id version : List UInt8} {base : AppContext}

theorem slash_notMem_id (valid : validComponent (some id) = true) : slash ∉ id := by
  unfold validComponent at valid
  dsimp only at valid
  split_ifs at valid
  intro member
  exact absurd (List.all_eq_true.mp valid slash member) (by decide)

theorem length_storageRootOf (id : List UInt8) : (storageRootOf id).length = id.length + 20 := by
  unfold storageRootOf
  rw [List.length_append, List.length_append]
  have before : (ascii "/STORAGE:/apps/").length = 15 := by decide
  have behind : (ascii "/data").length = 5 := by decide
  omega

theorem init_ok (init : webosAppContextInit (some id) (some version) = (.ok, some base)) :
    validComponent (some id) = true ∧ base.storageRoot = storageRootOf id ∧
      base.pathGrantCount = 0 := by
  unfold webosAppContextInit at init
  dsimp only at init
  split_ifs at init with invalid large
  · cases init
  · cases init
  · rw [Bool.or_eq_true, not_or, Bool.not_eq_true', Bool.not_eq_false] at invalid
    cases init
    refine ⟨invalid.1, List.take_of_length_le ?_, rfl⟩
    omega

theorem storageRootOf_last (id : List UInt8) : (storageRootOf id).getLast? ≠ some slash := by
  rw [storageRootOf, List.getLast?_append_of_ne_nil _ (by decide)]
  decide

theorem components_storageRootOf (whole : slash ∉ id) : components (storageRootOf id) =
    [[], ascii "STORAGE:", ascii "apps", id, ascii "data"] := by
  have split : storageRootOf id = [] ++ slash :: (ascii "STORAGE:" ++ slash ::
      (ascii "apps" ++ slash :: (id ++ slash :: ascii "data"))) := by
    unfold storageRootOf
    rfl
  rw [components_eq (storageRootOf_last id), split, splitOn_append_sep (by decide),
    splitOn_append_sep (by decide), splitOn_append_sep (by decide), splitOn_append_sep whole,
    splitOn_of_notMem (by decide)]

/-- A grant of a context that counts and is not empty. -/
def Granted (context : AppContext) (grant : List UInt8) : Prop :=
  (∃ i, context.grant i = some grant) ∧ grant ≠ []

variable {path : List UInt8}

theorem allowed_iff {context : AppContext} :
    webosAppPathAllowed context (some path) = true ↔ Proper path ∧
      (prefixBoundary path context.storageRoot = true ∨
        ∃ grant, Granted context grant ∧ prefixBoundary path grant = true) := by
  unfold webosAppPathAllowed
  rw [Bool.and_eq_true, Bool.or_eq_true, validPath_iff]
  refine and_congr_right fun proper => or_congr_right ?_
  rw [List.any_eq_true]
  constructor
  · rintro ⟨i, -, found⟩
    cases counted : context.grant i with
    | none =>
      rw [counted] at found
      cases found
    | some grant =>
      rw [counted] at found
      have boundary := (prefixBoundary_iff proper.nonzero).mp found
      exact ⟨grant, ⟨⟨i, counted⟩, boundary.1⟩, found⟩
  · rintro ⟨grant, ⟨⟨i, counted⟩, -⟩, found⟩
    refine ⟨i, List.mem_finRange i, ?_⟩
    rw [counted]
    exact found

theorem below_of_prefixBoundary {front : List UInt8} (proper : Proper path)
    (found : prefixBoundary path front = true) : Below front path :=
  below_of_boundary proper.noTrailing ((prefixBoundary_iff proper.nonzero).mp found).2

theorem prefixBoundary_of_below {front : List UInt8} (proper : Proper path) (some' : front ≠ [])
    (last : front.getLast? ≠ some slash) (below : Below front path) :
    prefixBoundary path front = true := by
  refine (prefixBoundary_iff proper.nonzero).mpr ⟨some', ?_⟩
  rcases boundary_of_below proper.noTrailing last below with same | begins
  · exact Or.inl same
  · exact Or.inr (Or.inl begins)

theorem storageRootOf_ne_nil (id : List UInt8) : storageRootOf id ≠ [] := by
  intro empty
  have := length_storageRootOf id
  rw [empty, List.length_nil] at this
  omega

theorem below_storageRootOf_inj {id' : List UInt8} (whole : slash ∉ id) (whole' : slash ∉ id')
    (below : Below (storageRootOf id) path) (below' : Below (storageRootOf id') path) :
    id = id' := by
  unfold Below at below below'
  rw [components_storageRootOf whole] at below
  rw [components_storageRootOf whole'] at below'
  have same := (List.prefix_of_prefix_length_le below below' (Nat.le_refl 5)).eq_of_length rfl
  injection same with _ same
  injection same with _ same
  injection same with _ same
  injection same

theorem below_root_of_allowed (alone : base.pathGrantCount = 0)
    (allowed : webosAppPathAllowed base (some path) = true) : Below base.storageRoot path := by
  obtain ⟨proper, inRoot | ⟨grant, ⟨⟨i, counted⟩, -⟩, -⟩⟩ := allowed_iff.mp allowed
  · exact below_of_prefixBoundary proper inRoot
  · rw [AppContext.grant, alone, if_neg (Nat.not_lt_zero _)] at counted
    cases counted

/-- The allowed paths are those below the storage root or below a grant, by their components. -/
theorem path_allowed_sandboxed
    (init : webosAppContextInit (some id) (some version) = (.ok, some base))
    (grants : Fin WEBOS_APP_MAX_GRANTS → Option (List UInt8)) (count : Nat)
    (path : List UInt8) (context : AppContext)
    (granted : context = { base with pathGrants := grants, pathGrantCount := count }) :
    (webosAppPathAllowed context (some path) = true → Proper path ∧ (Below (storageRootOf id) path ∨
        ∃ grant, Granted context grant ∧ Below grant path)) ∧
    (Proper path → (Below (storageRootOf id) path ∨
        ∃ grant, Granted context grant ∧ grant.getLast? ≠ some slash ∧ Below grant path) →
      webosAppPathAllowed context (some path) = true) ∧
    ∀ id' version' base',
      webosAppContextInit (some id') (some version') = (.ok, some base') → id ≠ id' →
        webosAppPathAllowed base (some path) = true →
          webosAppPathAllowed base' (some path) = false := by
  obtain ⟨valid, root, none'⟩ := init_ok init
  have root' : context.storageRoot = storageRootOf id := by
    rw [granted]
    exact root
  refine ⟨?_, ?_, ?_⟩
  · intro allowed
    obtain ⟨proper, inRoot | ⟨grant, mine, inGrant⟩⟩ := allowed_iff.mp allowed
    · rw [root'] at inRoot
      exact ⟨proper, Or.inl (below_of_prefixBoundary proper inRoot)⟩
    · exact ⟨proper, Or.inr ⟨grant, mine, below_of_prefixBoundary proper inGrant⟩⟩
  · intro proper below
    refine allowed_iff.mpr ⟨proper, ?_⟩
    rcases below with inRoot | ⟨grant, mine, last, inGrant⟩
    · left
      rw [root']
      exact prefixBoundary_of_below proper (storageRootOf_ne_nil id) (storageRootOf_last id) inRoot
    · exact Or.inr ⟨grant, mine, prefixBoundary_of_below proper mine.2 last inGrant⟩
  · intro id' version' base' init' distinct allowed
    obtain ⟨valid', root'', none''⟩ := init_ok init'
    rw [Bool.eq_false_iff]
    intro allowed'
    have below := below_root_of_allowed none' allowed
    have below' := below_root_of_allowed none'' allowed'
    rw [root] at below
    rw [root''] at below'
    exact distinct (below_storageRootOf_inj (slash_notMem_id valid) (slash_notMem_id valid')
      below below')

/-- An application with a grant, next to another one. -/
theorem path_allowed_sandboxed_room_light :
    ∃ base context other : AppContext,
      webosAppContextInit (some (ascii "room-light")) (some (ascii "1.0.0")) = (.ok, some base) ∧
      webosAppContextInit (some (ascii "room")) (some (ascii "2.0")) = (.ok, some other) ∧
      Proper (ascii "/dev/led/status/x") ∧
      webosAppPathAllowed context (some (ascii "/dev/led/status/x")) = true ∧
      webosAppPathAllowed other (some (ascii "/STORAGE:/apps/room-light/data/a")) = false := by
  let base : AppContext := ⟨ascii "room-light", ascii "1.0.0", storageRootOf (ascii "room-light"),
    fun _ => none, 0, WEBOS_ABI_MAX_IO_BYTES⟩
  let other : AppContext := ⟨ascii "room", ascii "2.0", storageRootOf (ascii "room"),
    fun _ => none, 0, WEBOS_ABI_MAX_IO_BYTES⟩
  have init : webosAppContextInit (some (ascii "room-light")) (some (ascii "1.0.0")) =
      (.ok, some base) := rfl
  have init' : webosAppContextInit (some (ascii "room")) (some (ascii "2.0")) =
      (.ok, some other) := rfl
  have proper : Proper (ascii "/dev/led/status/x") := (validPath_iff _).mp (by decide)
  have granted := path_allowed_sandboxed init (fun _ => some (ascii "/dev/led/status")) 1
    (ascii "/dev/led/status/x") _ rfl
  have apart := path_allowed_sandboxed init (fun _ => none) 0
    (ascii "/STORAGE:/apps/room-light/data/a") _ rfl
  refine ⟨base, _, other, init, init', proper, granted.2.1 proper (Or.inr ?_), ?_⟩
  · refine ⟨ascii "/dev/led/status", ⟨⟨⟨0, by decide⟩, rfl⟩, by decide⟩, by decide, ?_⟩
    unfold Below
    decide
  · exact apart.2.2 _ _ _ init' (by decide) (by decide)

end Contexts

end Webos.Services.App
