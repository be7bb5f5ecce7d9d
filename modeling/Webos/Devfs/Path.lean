/- digest: The paths devfs accepts are exactly the texts of component lists. -/

import Mathlib.Data.List.Basic
import Webos.Adb.Config

namespace Webos.Devfs

open Webos.Adb (ascii)

def ENOTDIR : Int := 20
def EISDIR : Int := 21

abbrev Name := List UInt8

def slash : UInt8 := '/'.toUInt8

def DEVFS_MOUNT_POINT : List UInt8 := ascii "/dev"

def normalizePath (path : List UInt8) : List UInt8 :=
  if path = DEVFS_MOUNT_POINT ∨ path = DEVFS_MOUNT_POINT ++ [slash] then [slash]
  else if (DEVFS_MOUNT_POINT ++ [slash]).isPrefixOf path then path.drop DEVFS_MOUNT_POINT.length
  else path

/-- The rounds of a walk over a path: the component up to the slash that `strchr` finds, or up to
the end of the path, and whether there was a slash. -/
def components : List UInt8 → List (Name × Bool)
  | [] => []
  | c :: rest =>
    if c = slash then ([], true) :: components rest
    else
      match components rest with
      | [] => [([c], false)]
      | (name, more) :: later => (c :: name, more) :: later

def componentAllowed (name : Name) : Bool :=
  !(name.length == 0 || name == ascii "." || name == ascii "..")

/-- The relative path, or nothing where the source returns -EINVAL. `maxPathLen` is
CONFIG_WEBOS_DEVFS_MAX_PATH_LEN. -/
def validatePath (maxPathLen : Nat) (path : Option (List UInt8)) (allowTrailingSlash : Bool) :
    Option (List UInt8) :=
  match path with
  | none => none
  | some path =>
    let rel := normalizePath path
    if rel.length = 0 ∨ rel.length ≥ maxPathLen ∨ rel.head? ≠ some slash then none
    else if !allowTrailingSlash && decide (rel.length > 1) && rel.getLast? == some slash then none
    else if (components rel.tail).all (fun round => componentAllowed round.1) then some rel
    else none

def render (p : List Name) (trailing : Bool) : List UInt8 :=
  p.flatMap (slash :: ·) ++ if trailing then [slash] else []

structure ValidName (name : Name) : Prop where
  allowed : componentAllowed name = true
  plain : slash ∉ name

/-- A path names the component list `p`, with or without a slash behind it. The root is `/`. -/
structure Denotes (maxPathLen : Nat) (path : Option (List UInt8)) (p : List Name)
    (trailing : Bool) : Prop where
  text : path.map normalizePath = some (render p trailing)
  valid : ∀ name ∈ p, ValidName name
  short : (render p trailing).length < maxPathLen
  root : p = [] → trailing = true

def rounds : List Name → Bool → List (Name × Bool)
  | [], _ => []
  | [name], trailing => [(name, trailing)]
  | name :: next :: rest, trailing => (name, true) :: rounds (next :: rest) trailing

section Rounds

theorem rounds_cons (name : Name) (p : List Name) (trailing : Bool) :
    rounds (name :: p) trailing = (name, trailing || !p.isEmpty) :: rounds p trailing := by
  cases p with
  | nil => simp [rounds]
  | cons next rest => simp [rounds]

variable {name : Name}

theorem components_plain (some' : name ≠ []) (plain : slash ∉ name) :
    components name = [(name, false)] := by
  induction name with
  | nil => exact absurd rfl some'
  | cons c rest ih =>
    have first := List.ne_of_not_mem_cons plain
    have later := List.not_mem_of_not_mem_cons plain
    rw [components, if_neg (Ne.symm first)]
    cases rest with
    | nil => rfl
    | cons d rest => rw [ih (List.cons_ne_nil d rest) later]

theorem components_slash (plain : slash ∉ name) (rest : List UInt8) :
    components (name ++ slash :: rest) = (name, true) :: components rest := by
  induction name with
  | nil => rw [List.nil_append, components, if_pos rfl]
  | cons c name ih =>
    have first := List.ne_of_not_mem_cons plain
    have later := List.not_mem_of_not_mem_cons plain
    rw [List.cons_append, components, if_neg (Ne.symm first), ih later]

theorem render_cons (name : Name) (p : List Name) (trailing : Bool) :
    render (name :: p) trailing = slash :: (name ++ render p trailing) := by
  simp [render]

theorem componentAllowed_ne_nil (allowed : componentAllowed name = true) : name ≠ [] := by
  rintro rfl
  exact absurd allowed (by decide)

theorem components_render {p : List Name} (valid : ∀ name ∈ p, ValidName name) (trailing : Bool) :
    components (render p trailing).tail = rounds p trailing := by
  induction p with
  | nil => cases trailing <;> rfl
  | cons name p ih =>
    obtain ⟨allowed, plain⟩ := valid name List.mem_cons_self
    have later := ih fun other member => valid other (List.mem_cons_of_mem name member)
    rw [render_cons, List.tail_cons]
    cases p with
    | nil =>
      cases trailing with
      | false =>
        rw [show render [] false = [] from rfl, List.append_nil]
        exact components_plain (componentAllowed_ne_nil allowed) plain
      | true => exact components_slash plain []
    | cons next rest =>
      rw [render_cons, components_slash plain, rounds, ← later, render_cons]
      rfl

theorem render_components (text : List UInt8) : ∃ p trailing,
    components text = rounds p trailing ∧ slash :: text = render p (trailing || p.isEmpty) ∧
      (∀ name ∈ p, slash ∉ name) ∧ (p = [] → trailing = false) := by
  induction text with
  | nil => exact ⟨[], false, rfl, rfl, by simp, fun _ => rfl⟩
  | cons c rest ih =>
    obtain ⟨p, trailing, walk, whole, plain, empty⟩ := ih
    by_cases here : c = slash
    · subst here
      rw [components, if_pos rfl, walk]
      cases p with
      | nil =>
        obtain rfl := empty rfl
        refine ⟨[[]], true, rfl, ?_, by simp, by simp⟩
        rw [whole]
        rfl
      | cons name p =>
        refine ⟨[] :: name :: p, trailing, rfl, ?_, ?_, by simp⟩
        · rw [render_cons, List.nil_append, whole]
          rfl
        · intro other member
          rcases List.mem_cons.mp member with rfl | member
          · exact List.not_mem_nil
          · exact plain other member
    · rw [components, if_neg here, walk]
      cases p with
      | nil =>
        obtain rfl := empty rfl
        cases whole
        refine ⟨[[c]], false, rfl, rfl, ?_, by simp⟩
        intro name member
        rw [List.mem_singleton.mp member]
        exact fun found => here (List.mem_singleton.mp found).symm
      | cons name p =>
        have text : rest = name ++ render p (trailing || (name :: p).isEmpty) := by
          rw [render_cons] at whole
          exact List.tail_eq_of_cons_eq whole
        refine ⟨(c :: name) :: p, trailing, ?_, ?_, ?_, by simp⟩
        · cases p <;> rfl
        · rw [render_cons, text]
          rfl
        · intro other member
          rcases List.mem_cons.mp member with rfl | member
          · intro found
            rcases List.mem_cons.mp found with same | found
            · exact here same.symm
            · exact plain name List.mem_cons_self found
          · exact plain other (List.mem_cons_of_mem name member)

theorem rounds_names (p : List Name) (trailing : Bool) :
    (rounds p trailing).map Prod.fst = p := by
  induction p with
  | nil => rfl
  | cons name p ih =>
    cases p with
    | nil => rfl
    | cons next rest => rw [rounds, List.map_cons, ih]

end Rounds

section Denotes

variable {maxPathLen : Nat} {path : Option (List UInt8)} {p : List Name}

theorem render_ne_nil {trailing : Bool} (root : p = [] → trailing = true) :
    ∃ tail, render p trailing = slash :: tail := by
  cases p with
  | nil =>
    rw [root rfl]
    exact ⟨[], rfl⟩
  | cons name p => exact ⟨_, render_cons name p trailing⟩

theorem render_getLast (p : List Name) (valid : ∀ name ∈ p, ValidName name) (trailing : Bool)
    (some' : p ≠ []) : (render p trailing).getLast? = some slash ↔ trailing = true := by
  cases trailing with
  | true => simp [render]
  | false =>
    obtain ⟨front, last, rfl⟩ := (List.eq_nil_or_concat' p).resolve_left some'
    obtain ⟨allowed, plain⟩ := valid last (by simp)
    have long := componentAllowed_ne_nil allowed
    have text : render (front ++ [last]) false =
        (front.flatMap (slash :: ·) ++ [slash]) ++ last := by
      simp [render]
    rw [text, List.getLast?_append_of_ne_nil _ long]
    constructor
    · intro final
      exact absurd (List.mem_of_getLast? final) plain
    · intro absurd'
      cases absurd'

theorem validatePath_eq_some {allow : Bool} {rel : List UInt8} :
    validatePath maxPathLen path allow = some rel ↔
      ∃ p trailing, Denotes maxPathLen path p trailing ∧ rel = render p trailing ∧
        (trailing = true → allow = true ∨ p = []) := by
  constructor
  · intro accepted
    cases path with
    | none => cases accepted
    | some text =>
      unfold validatePath at accepted
      dsimp only at accepted
      split_ifs at accepted with refused trailed allowed
      cases accepted
      obtain ⟨some', short, first⟩ : normalizePath text ≠ [] ∧
          (normalizePath text).length < maxPathLen ∧ (normalizePath text).head? = some slash := by
        simp only [not_or, ne_eq, not_not, ge_iff_le, Nat.not_le] at refused
        exact ⟨fun none' => refused.1 (by rw [none']; rfl), refused.2.1, refused.2.2⟩
      obtain ⟨tail, split⟩ : ∃ tail, normalizePath text = slash :: tail := by
        cases whole : normalizePath text with
        | nil => exact absurd whole some'
        | cons c tail =>
          rw [whole] at first
          cases first
          exact ⟨tail, rfl⟩
      obtain ⟨p, trailing, walk, whole, plain, empty⟩ := render_components tail
      rw [split, List.tail_cons, walk] at allowed
      have valid : ∀ name ∈ p, ValidName name := by
        intro name member
        rw [← rounds_names p trailing, List.mem_map] at member
        obtain ⟨round, member, rfl⟩ := member
        refine ⟨List.all_eq_true.mp allowed round member, plain _ ?_⟩
        rw [← rounds_names p trailing]
        exact List.mem_map_of_mem member
      have text' : normalizePath text = render p (trailing || p.isEmpty) := split.trans whole
      refine ⟨p, trailing || p.isEmpty, ⟨?_, valid, ?_, ?_⟩, text', ?_⟩
      · rw [Option.map_some, text']
      · rw [← text']
        exact short
      · rintro rfl
        simp
      · intro ends
        by_cases root : p = []
        · exact Or.inr root
        · have final := (render_getLast p valid _ root).mpr ends
          rw [← text'] at final
          simp only [Bool.and_eq_true, decide_eq_true_eq, beq_iff_eq, not_and] at trailed
          left
          by_contra forbidden
          refine trailed ⟨by simpa using forbidden, ?_⟩ final
          obtain ⟨name, rest, rfl⟩ := List.exists_cons_of_ne_nil root
          have long := componentAllowed_ne_nil (valid name List.mem_cons_self).allowed
          have size := List.length_pos_iff.mpr long
          rw [text', render_cons, List.length_cons, List.length_append]
          omega
  · rintro ⟨p, trailing, denotes, rfl, ends⟩
    cases path with
    | none => cases denotes.text
    | some text =>
      have whole : normalizePath text = render p trailing := Option.some.inj denotes.text
      obtain ⟨tail, split⟩ := render_ne_nil denotes.root
      unfold validatePath
      dsimp only
      rw [whole, if_neg, if_neg, if_pos]
      · rw [components_render denotes.valid, List.all_eq_true]
        intro round member
        have named : round.1 ∈ p := by
          rw [← rounds_names p trailing]
          exact List.mem_map_of_mem member
        exact (denotes.valid _ named).allowed
      · simp only [Bool.and_eq_true, decide_eq_true_eq, beq_iff_eq, not_and, Bool.not_eq_true',
          and_imp]
        intro forbidden long final
        by_cases root : p = []
        · subst root
          rw [denotes.root rfl] at long
          exact absurd long (by decide)
        · rcases ends ((render_getLast p denotes.valid trailing root).mp final) with allowed | empty
          · rw [forbidden] at allowed
            cases allowed
          · exact root empty
      · have short := denotes.short
        rw [split] at short ⊢
        simp only [List.length_cons, List.head?_cons, ne_eq, not_true_eq_false, or_false] at short ⊢
        omega

theorem Denotes.root_iff {trailing : Bool} (denotes : Denotes maxPathLen path p trailing) :
    render p trailing = [slash] ↔ p = [] := by
  constructor
  · intro whole
    cases p with
    | nil => rfl
    | cons name p =>
      have long := componentAllowed_ne_nil (denotes.valid name List.mem_cons_self).allowed
      rw [render_cons, List.cons.injEq, List.append_eq_nil_iff] at whole
      exact absurd whole.2.1 long
  · rintro rfl
    rw [denotes.root rfl]
    rfl

theorem Denotes.functional {q : List Name} {a b : Bool} (first : Denotes maxPathLen path p a)
    (second : Denotes maxPathLen path q b) : p = q ∧ a = b := by
  have same : render p a = render q b := Option.some.inj (first.text.symm.trans second.text)
  have walk : rounds p a = rounds q b := by
    rw [← components_render first.valid, ← components_render second.valid, same]
  have names : p = q := by
    rw [← rounds_names p a, ← rounds_names q b, walk]
  subst names
  refine ⟨rfl, ?_⟩
  by_cases root : p = []
  · rw [first.root root, second.root root]
  · rw [Bool.eq_iff_iff, ← render_getLast p first.valid a root,
      ← render_getLast p first.valid b root, same]

end Denotes

end Webos.Devfs
