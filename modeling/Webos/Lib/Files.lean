/- digest: File systems whose operations take effect or fail, and the disks they act on. -/

import Mathlib.Logic.Function.Basic
import Mathlib.Data.List.Basic
import Mathlib.Data.Set.Function
import Mathlib.Data.Set.Insert

namespace Webos.Lib.Files

variable {P F B φ : Type}

inductive Node (B : Type) where
  | file (contents : List B)
  | dir
  deriving DecidableEq, Repr

structure Entry where
  isDir : Bool
  size : Nat
  deriving DecidableEq, Repr

def Node.entry : Node B → Entry
  | .file contents => ⟨false, contents.length⟩
  | .dir => ⟨true, 0⟩

/-- The calls of a file system with state `φ`. An entry is found exactly when `stat` returns 0;
`create` opens for writing and truncates; every other result is the code returned. -/
structure FileSystem (P F B φ : Type) where
  stat : P → φ → Option Entry × φ
  create : F → P → φ → Int × φ
  write : F → List B → φ → Int × φ
  close : F → φ → Int × φ
  rename : P → P → φ → Int × φ
  unlink : P → φ → Int × φ

/-- The contents of a file system: names, open handles with their offsets, and how many
operations have failed so far. -/
structure Disk (P F B : Type) where
  node : P → Option (Node B)
  handle : F → Option (P × Nat)
  failures : Nat

section Effects

variable [DecidableEq P] [DecidableEq F] (d : Disk P F B)

def Disk.fail : Disk P F B := { d with failures := d.failures + 1 }

def Disk.put (p : P) (n : Option (Node B)) : Disk P F B :=
  { d with node := Function.update d.node p n }

def Disk.attach (f : F) (at' : Option (P × Nat)) : Disk P F B :=
  { d with handle := Function.update d.handle f at' }

def Disk.create (f : F) (p : P) : Disk P F B := (d.put p (some (.file []))).attach f (some (p, 0))

def Disk.store (f : F) (p : P) (contents : List B) : Disk P F B :=
  (d.put p (some (.file contents))).attach f (some (p, contents.length))

def Disk.rename (a b : P) : Disk P F B := (d.put b (d.node a)).put a none

variable {d}

omit [DecidableEq F] in
theorem put_self (p : P) (n : Option (Node B)) : (d.put p n).node p = n :=
  Function.update_self _ _ _

omit [DecidableEq F] in
theorem put_other {p q : P} (other : q ≠ p) (n : Option (Node B)) :
    (d.put p n).node q = d.node q :=
  Function.update_of_ne other _ _

omit [DecidableEq P] in
theorem attach_self (f : F) (at' : Option (P × Nat)) : (d.attach f at').handle f = at' :=
  Function.update_self _ _ _

omit [DecidableEq P] in
theorem attach_other {f g : F} (other : g ≠ f) (at' : Option (P × Nat)) :
    (d.attach f at').handle g = d.handle g :=
  Function.update_of_ne other _ _

omit [DecidableEq F] in
theorem rename_target {a b : P} (apart : b ≠ a) : (d.rename a b).node b = d.node a :=
  (put_other apart none).trans (put_self b _)

omit [DecidableEq F] in
theorem rename_other {a b p : P} (source : p ≠ a) (target : p ≠ b) :
    (d.rename a b).node p = d.node p :=
  (put_other source none).trans (put_other target _)

end Effects

section Atomic

variable [DecidableEq P] [DecidableEq F]

/-- What the operations on the names of `N` promise about the disk `view x` of a state: they take
effect and return 0 (a write returns the length), or they fail, return something else and have no
effect, except that a failed write may have stored a part of the data. A rename replaces its
target. -/
structure AtomicOn (N : Set P) (fs : FileSystem P F B φ) (view : φ → Disk P F B) : Prop where
  stat : ∀ p ∈ N, ∀ x,
    (view (fs.stat p x).2 = view x ∧ (fs.stat p x).1 = ((view x).node p).map Node.entry) ∨
    (view (fs.stat p x).2 = (view x).fail ∧ (fs.stat p x).1 = none)
  create : ∀ f, ∀ p ∈ N, ∀ x,
    (view (fs.create f p x).2 = (view x).create f p ∧ (fs.create f p x).1 = 0) ∨
    (view (fs.create f p x).2 = (view x).fail ∧ (fs.create f p x).1 ≠ 0)
  write : ∀ f data x p contents, (view x).handle f = some (p, contents.length) →
    (view x).node p = some (.file contents) →
    (view (fs.write f data x).2 = (view x).store f p (contents ++ data) ∧
      (fs.write f data x).1 = data.length) ∨
    ((∃ part, part <+: data ∧
      view (fs.write f data x).2 = ((view x).store f p (contents ++ part)).fail) ∧
      (fs.write f data x).1 ≠ data.length)
  close : ∀ f x, (view (fs.close f x).2 = (view x).attach f none ∧ (fs.close f x).1 = 0) ∨
    (view (fs.close f x).2 = (view x).fail ∧ (fs.close f x).1 ≠ 0)
  rename : ∀ a, ∀ b ∈ N, ∀ x contents, (view x).node a = some (.file contents) →
    (view (fs.rename a b x).2 = (view x).rename a b ∧ (fs.rename a b x).1 = 0) ∨
    (view (fs.rename a b x).2 = (view x).fail ∧ (fs.rename a b x).1 ≠ 0)
  unlink : ∀ p x contents, (view x).node p = some (.file contents) →
    (view (fs.unlink p x).2 = (view x).put p none ∧ (fs.unlink p x).1 = 0) ∨
    (view (fs.unlink p x).2 = (view x).fail ∧ (fs.unlink p x).1 ≠ 0)

abbrev Atomic (fs : FileSystem P F B φ) (view : φ → Disk P F B) : Prop := AtomicOn Set.univ fs view

def memory : FileSystem P F B (Disk P F B) where
  stat := fun p d => ((d.node p).map Node.entry, d)
  create := fun f p d =>
    match d.node p with
    | some .dir => (-1, d.fail)
    | _ => (0, d.create f p)
  write := fun f data d =>
    match d.handle f with
    | none => (-1, d.fail)
    | some (p, offset) =>
      match d.node p with
      | some (.file contents) => (data.length, d.store f p (contents.take offset ++ data))
      | _ => (-1, d.fail)
  close := fun f d => (0, d.attach f none)
  rename := fun a b d =>
    match d.node a with
    | some (.file _) => (0, d.rename a b)
    | _ => (-1, d.fail)
  unlink := fun p d =>
    match d.node p with
    | some (.file _) => (0, d.put p none)
    | _ => (-1, d.fail)

theorem memory_atomic : Atomic (memory : FileSystem P F B (Disk P F B)) id where
  stat p _ d := Or.inl ⟨rfl, rfl⟩
  create f p _ d := by
    cases here : d.node p with
    | none => exact Or.inl (by simp [memory, here])
    | some n =>
      cases n with
      | file contents => exact Or.inl (by simp [memory, here])
      | dir => exact Or.inr (by simp [memory, here])
  write f data d p contents opened here := by
    refine Or.inl ?_
    simp only [id_eq] at opened here
    simp [memory, opened, here]
  close f d := Or.inl ⟨rfl, rfl⟩
  rename a b _ d contents here := by
    refine Or.inl ?_
    simp only [id_eq] at here
    simp [memory, here]
  unlink p d contents here := by
    refine Or.inl ?_
    simp only [id_eq] at here
    simp [memory, here]

end Atomic

section Keys

/-- The file system as callers see it whose names `key` takes to those of the volume. -/
def FileSystem.comap {K : Type} (key : P → K) (fs : FileSystem K F B φ) : FileSystem P F B φ where
  stat p := fs.stat (key p)
  create f p := fs.create f (key p)
  write := fs.write
  close := fs.close
  rename a b := fs.rename (key a) (key b)
  unlink p := fs.unlink (key p)

open Classical in
/-- What a caller that only knows the names of `N` sees of a volume. -/
noncomputable def Disk.pull {K : Type} (key : P → K) (N : Set P) (d : Disk K F B) : Disk P F B where
  node p := if p ∈ N then d.node (key p) else none
  handle f := (d.handle f).bind fun at' =>
    if known : ∃ p ∈ N, key p = at'.1 then some (known.choose, at'.2) else none
  failures := d.failures

variable {K : Type} [DecidableEq P] [DecidableEq K] [DecidableEq F] {key : P → K} {N : Set P}
variable {d : Disk K F B}

omit [DecidableEq P] [DecidableEq K] [DecidableEq F] in
theorem pull_node {p : P} (known : p ∈ N) : (d.pull key N).node p = d.node (key p) := if_pos known

omit [DecidableEq P] [DecidableEq K] [DecidableEq F] in
theorem pull_node_some {p : P} {n : Node B} (here : (d.pull key N).node p = some n) :
    p ∈ N ∧ d.node (key p) = some n := by
  by_cases known : p ∈ N
  · exact ⟨known, (pull_node known).symm.trans here⟩
  · rw [show (d.pull key N).node p = none from if_neg known] at here
    cases here

omit [DecidableEq F] in
theorem pull_put (apart : Set.InjOn key N) {p : P} (known : p ∈ N) (n : Option (Node B)) :
    (d.put (key p) n).pull key N = (d.pull key N).put p n := by
  unfold Disk.put Disk.pull
  congr 1
  funext q
  dsimp only
  by_cases here : q = p
  · subst here
    rw [Function.update_self, Function.update_self, if_pos known]
  · rw [Function.update_of_ne here]
    by_cases inside : q ∈ N
    · rw [if_pos inside, if_pos inside,
        Function.update_of_ne fun same => here (apart inside known same)]
    · rw [if_neg inside, if_neg inside]

omit [DecidableEq P] [DecidableEq K] in
theorem pull_attach (apart : Set.InjOn key N) {p : P} (known : p ∈ N) (f : F) (n : Nat) :
    (d.attach f (some (key p, n))).pull key N = (d.pull key N).attach f (some (p, n)) := by
  have chosen : ∃ q ∈ N, key q = key p := ⟨p, known, rfl⟩
  unfold Disk.attach Disk.pull
  congr 1
  funext g
  dsimp only
  by_cases here : g = f
  · subst here
    rw [Function.update_self, Function.update_self, Option.bind_some, dif_pos chosen,
      apart chosen.choose_spec.1 known chosen.choose_spec.2]
  · rw [Function.update_of_ne here, Function.update_of_ne here]

omit [DecidableEq P] [DecidableEq K] in
theorem pull_detach (f : F) : (d.attach f none).pull key N = (d.pull key N).attach f none := by
  unfold Disk.attach Disk.pull
  congr 1
  funext g
  dsimp only
  by_cases here : g = f
  · subst here
    rw [Function.update_self, Function.update_self, Option.bind_none]
  · rw [Function.update_of_ne here, Function.update_of_ne here]

omit [DecidableEq P] [DecidableEq K] [DecidableEq F] in
theorem pull_handle {f : F} {p : P} {n : Nat} (here : (d.pull key N).handle f = some (p, n)) :
    d.handle f = some (key p, n) := by
  obtain ⟨at', opened, found⟩ := Option.bind_eq_some_iff.mp here
  split_ifs at found with known
  cases found
  rw [opened, known.choose_spec.2]

theorem pull_store (apart : Set.InjOn key N) {p : P} (known : p ∈ N) (f : F) (contents : List B) :
    (d.store f (key p) contents).pull key N = (d.pull key N).store f p contents := by
  unfold Disk.store
  rw [pull_attach apart known, pull_put apart known]

/-- Where the names in use are apart for the volume, its promises hold of the names. -/
theorem AtomicOn.pull {fs : FileSystem K F B φ} {view : φ → Disk K F B} (atomic : Atomic fs view)
    (apart : Set.InjOn key N) : AtomicOn N (fs.comap key) fun x => (view x).pull key N where
  stat p known x := by
    rcases atomic.stat (key p) trivial x with ⟨same, truth⟩ | ⟨failed, nothing⟩
    · exact Or.inl ⟨congrArg (Disk.pull key N) same, truth.trans (by rw [pull_node known])⟩
    · exact Or.inr ⟨congrArg (Disk.pull key N) failed, nothing⟩
  create f p known x := by
    rcases atomic.create f (key p) trivial x with ⟨created, zero⟩ | ⟨failed, bad⟩
    · refine Or.inl ⟨(congrArg (Disk.pull key N) created).trans ?_, zero⟩
      unfold Disk.create
      rw [pull_attach apart known, pull_put apart known]
    · exact Or.inr ⟨congrArg (Disk.pull key N) failed, bad⟩
  write f data x p contents opened here := by
    obtain ⟨known, there⟩ := pull_node_some here
    rcases atomic.write f data x (key p) contents (pull_handle opened) there with
      ⟨stored, whole⟩ | ⟨⟨part, piece, stored⟩, short⟩
    · exact Or.inl ⟨(congrArg (Disk.pull key N) stored).trans (pull_store apart known _ _), whole⟩
    · exact Or.inr ⟨⟨part, piece, (congrArg (Disk.pull key N) stored).trans
        (congrArg Disk.fail (pull_store apart known _ _))⟩, short⟩
  close f x := by
    rcases atomic.close f x with ⟨closed, zero⟩ | ⟨failed, bad⟩
    · exact Or.inl ⟨(congrArg (Disk.pull key N) closed).trans (pull_detach f), zero⟩
    · exact Or.inr ⟨congrArg (Disk.pull key N) failed, bad⟩
  rename a b known x contents here := by
    obtain ⟨source, there⟩ := pull_node_some here
    rcases atomic.rename (key a) (key b) trivial x contents there with ⟨moved, zero⟩ | ⟨failed, bad⟩
    · refine Or.inl ⟨(congrArg (Disk.pull key N) moved).trans ?_, zero⟩
      unfold Disk.rename
      rw [pull_put apart source, pull_put apart known, pull_node source]
    · exact Or.inr ⟨congrArg (Disk.pull key N) failed, bad⟩
  unlink p x contents here := by
    obtain ⟨known, there⟩ := pull_node_some here
    rcases atomic.unlink (key p) x contents there with ⟨gone, zero⟩ | ⟨failed, bad⟩
    · exact Or.inl ⟨(congrArg (Disk.pull key N) gone).trans (pull_put apart known none), zero⟩
    · exact Or.inr ⟨congrArg (Disk.pull key N) failed, bad⟩

end Keys

section Names

/-- What the operations promise about the names in use: a look tells the truth, opening and
writing may fail, and the other calls take effect when they return 0. -/
structure Truthful (fs : FileSystem P F B φ) (names : φ → Set P) : Prop where
  stat : ∀ p x, ((fs.stat p x).1.isSome = true ↔ p ∈ names x) ∧ names (fs.stat p x).2 = names x
  create : ∀ f p x, ((fs.create f p x).1 = 0 → names (fs.create f p x).2 = insert p (names x)) ∧
    ((fs.create f p x).1 ≠ 0 → names (fs.create f p x).2 = names x)
  write : ∀ f data x, names (fs.write f data x).2 = names x
  close : ∀ f x, (fs.close f x).1 = 0 → names (fs.close f x).2 = names x
  rename : ∀ a b x, a ≠ b → (fs.rename a b x).1 = 0 →
    a ∈ names x ∧ names (fs.rename a b x).2 = insert b (names x \ {a})
  unlink : ∀ p x, (fs.unlink p x).1 = 0 → names (fs.unlink p x).2 = names x \ {p}

/-- What a run has asked of a volume: the names it opened, renamed or removed, its looks at marked
names, and the closes, renames and removals that did not succeed. -/
structure Tape (P : Type) where
  used : List P
  looks : Nat
  failed : Nat

def Tape.blank : Tape P := ⟨[], 0, 0⟩

def Tape.note (t : Tape P) (names : List P) (ret : Int) : Tape P :=
  ⟨names ++ t.used, t.looks, t.failed + if ret = 0 then 0 else 1⟩

/-- A volume with a record of what was asked of it, under the names of a caller. -/
def taped {K : Type} (key : P → K) (mark : P → Bool) (fs : FileSystem K F B φ) :
    FileSystem P F B (φ × Tape P) where
  stat p x :=
    let (entry, y) := fs.stat (key p) x.1
    (entry, y, { x.2 with looks := x.2.looks + if mark p then 1 else 0 })
  create f p x :=
    let (ret, y) := fs.create f (key p) x.1
    (ret, y, x.2.note [p] 0)
  write f data x :=
    let (ret, y) := fs.write f data x.1
    (ret, y, x.2)
  close f x :=
    let (ret, y) := fs.close f x.1
    (ret, y, x.2.note [] ret)
  rename a b x :=
    let (ret, y) := fs.rename (key a) (key b) x.1
    (ret, y, x.2.note [a, b] ret)
  unlink p x :=
    let (ret, y) := fs.unlink (key p) x.1
    (ret, y, x.2.note [p] ret)

/-- The names in use and the number of looks at marked names. -/
structure Ledger (P : Type) where
  files : Set P
  looks : Nat

/-- What the operations promise as long as all is fine, which it then was before: what `Truthful`
says, and that closing, renaming and removing succeed. -/
structure Guarded (fs : FileSystem P F B φ) (mark : P → Bool) (fine : φ → Prop)
    (view : φ → Ledger P) : Prop where
  stat : ∀ p x, fine (fs.stat p x).2 → fine x ∧ (view (fs.stat p x).2).files = (view x).files ∧
    (view (fs.stat p x).2).looks = (view x).looks + (if mark p then 1 else 0) ∧
    ((fs.stat p x).1.isSome = false → p ∉ (view x).files)
  create : ∀ f p x, fine (fs.create f p x).2 → fine x ∧ (view (fs.create f p x).2).looks =
    (view x).looks ∧ (view (fs.create f p x).2).files =
      if (fs.create f p x).1 = 0 then insert p (view x).files else (view x).files
  write : ∀ f data x, fine (fs.write f data x).2 → fine x ∧ view (fs.write f data x).2 = view x
  close : ∀ f x, fine (fs.close f x).2 →
    fine x ∧ (fs.close f x).1 = 0 ∧ view (fs.close f x).2 = view x
  rename : ∀ a b x, fine (fs.rename a b x).2 → fine x ∧ (fs.rename a b x).1 = 0 ∧ 
    (view (fs.rename a b x).2).looks = (view x).looks ∧ (a ≠ b → a ∈ (view x).files ∧
      (view (fs.rename a b x).2).files = insert b ((view x).files \ {a}))
  unlink : ∀ p x, fine (fs.unlink p x).2 → fine x ∧
    (view (fs.unlink p x).2).looks = (view x).looks ∧
    (view (fs.unlink p x).2).files = (view x).files \ {p}

section Tapes

variable {K : Type} {key : P → K} {N : Set P} {limit : Nat} {names : φ → Set K}

/-- Nothing has failed, only names of `N` were used, and the looks are few. -/
structure Tape.Fine (N : Set P) (limit : Nat) (t : Tape P) : Prop where
  failed : t.failed = 0
  used : ∀ p ∈ t.used, p ∈ N
  looks : t.looks < limit

theorem Tape.fine_note {t : Tape P} {more : List P} {ret : Int}
    (fine : (t.note more ret).Fine N limit) : t.Fine N limit ∧ ret = 0 ∧ ∀ p ∈ more, p ∈ N := by
  have zero : (t.failed + if ret = 0 then 0 else 1) = 0 := fine.failed
  split_ifs at zero with succeeded
  exact ⟨⟨zero, fun p member => fine.used p (List.mem_append_right _ member), fine.looks⟩,
    succeeded, fun p member => fine.used p (List.mem_append_left _ member)⟩

def ledger (key : P → K) (names : φ → Set K) (N : Set P) (x : φ × Tape P) : Ledger P :=
  ⟨{ p | p ∈ N ∧ key p ∈ names x.1 }, x.2.looks⟩

theorem pulled_insert (apart : Set.InjOn key N) {p : P} (known : p ∈ N) (s : Set K) :
    { q | q ∈ N ∧ key q ∈ insert (key p) s } = insert p { q | q ∈ N ∧ key q ∈ s } := by
  ext q
  simp only [Set.mem_ofPred_eq, Set.mem_insert_iff]
  constructor
  · rintro ⟨inside, same | there⟩
    · exact Or.inl (apart inside known same)
    · exact Or.inr ⟨inside, there⟩
  · rintro (rfl | ⟨inside, there⟩)
    · exact ⟨known, Or.inl rfl⟩
    · exact ⟨inside, Or.inr there⟩

theorem pulled_diff (apart : Set.InjOn key N) {p : P} (known : p ∈ N) (s : Set K) :
    { q | q ∈ N ∧ key q ∈ s \ {key p} } = { q | q ∈ N ∧ key q ∈ s } \ {p} := by
  ext q
  simp only [Set.mem_ofPred_eq, Set.mem_sdiff, Set.mem_singleton_iff]
  constructor
  · rintro ⟨inside, there, other⟩
    exact ⟨⟨inside, there⟩, fun same => other (congrArg key same)⟩
  · rintro ⟨⟨inside, there⟩, other⟩
    exact ⟨inside, there, fun same => other (apart inside known same)⟩

theorem Truthful.guarded {fs : FileSystem K F B φ} (truthful : Truthful fs names)
    (mark : P → Bool) (apart : Set.InjOn key N) :
    Guarded (taped key mark fs) mark (fun x => x.2.Fine N limit) (ledger key names N) where
  stat p x fine := by
    obtain ⟨told, same⟩ := truthful.stat (key p) x.1
    refine ⟨⟨fine.failed, fine.used, Nat.lt_of_le_of_lt (Nat.le_add_right _ _) fine.looks⟩, ?_,
      rfl, fun nothing inside => ?_⟩
    · show { q | q ∈ N ∧ key q ∈ names (fs.stat (key p) x.1).2 } = _
      rw [same]
      rfl
    · have found : (fs.stat (key p) x.1).1.isSome = true := told.mpr inside.2
      cases found.symm.trans nothing
  create f p x fine := by
    obtain ⟨before, -, known⟩ := Tape.fine_note fine
    obtain ⟨made, unmade⟩ := truthful.create f (key p) x.1
    refine ⟨before, rfl, ?_⟩
    show { q | q ∈ N ∧ key q ∈ names (fs.create f (key p) x.1).2 } = _
    split_ifs with zero
    · rw [made zero, pulled_insert apart (known p List.mem_cons_self)]
      rfl
    · rw [unmade zero]
      rfl
  write f data x fine := by
    refine ⟨fine, ?_⟩
    show Ledger.mk { q | q ∈ N ∧ key q ∈ names (fs.write f data x.1).2 } _ = _
    rw [truthful.write]
    rfl
  close f x fine := by
    obtain ⟨before, zero, -⟩ := Tape.fine_note fine
    refine ⟨before, zero, ?_⟩
    show Ledger.mk { q | q ∈ N ∧ key q ∈ names (fs.close f x.1).2 } _ = _
    rw [truthful.close f x.1 zero]
    rfl
  rename a b x fine := by
    obtain ⟨before, zero, known⟩ := Tape.fine_note fine
    have source := known a List.mem_cons_self
    have target := known b (List.mem_cons_of_mem _ List.mem_cons_self)
    refine ⟨before, zero, rfl, fun other => ?_⟩
    obtain ⟨there, after⟩ := truthful.rename (key a) (key b) x.1
      (fun same => other (apart source target same)) zero
    refine ⟨⟨source, there⟩, ?_⟩
    show { q | q ∈ N ∧ key q ∈ names (fs.rename (key a) (key b) x.1).2 } = _
    rw [after, pulled_insert apart target, pulled_diff apart source]
    rfl
  unlink p x fine := by
    obtain ⟨before, zero, known⟩ := Tape.fine_note fine
    refine ⟨before, rfl, ?_⟩
    show { q | q ∈ N ∧ key q ∈ names (fs.unlink (key p) x.1).2 } = _
    rw [truthful.unlink (key p) x.1 zero, pulled_diff apart (known p List.mem_cons_self)]
    rfl

end Tapes

def Disk.names (d : Disk P F B) : Set P := { p | (d.node p).isSome = true }

variable [DecidableEq P] [DecidableEq F] {d : Disk P F B}

omit [DecidableEq F] in
theorem names_put_some (p : P) (n : Node B) : (d.put p (some n)).names = insert p d.names := by
  ext q
  by_cases here : q = p
  · subst here
    simp [Disk.names, put_self]
  · simp [Disk.names, put_other here, here]

omit [DecidableEq F] in
theorem names_put_none (p : P) : (d.put p none).names = d.names \ {p} := by
  ext q
  by_cases here : q = p
  · subst here
    simp [Disk.names, put_self]
  · simp [Disk.names, put_other here, here]

theorem memory_truthful : Truthful (memory : FileSystem P F B (Disk P F B)) Disk.names where
  stat p d := by
    refine ⟨?_, rfl⟩
    show ((d.node p).map Node.entry).isSome = true ↔ _
    rw [Option.isSome_map]
    exact Iff.rfl
  create f p d := by
    simp only [memory]
    split
    · exact ⟨(fun no => nomatch no), fun _ => rfl⟩
    · exact ⟨fun _ => names_put_some p _, fun no => absurd rfl no⟩
  write f data d := by
    simp only [memory]
    split
    · rfl
    · split
      · rename_i p offset _ _ contents here
        have there : p ∈ d.names := by
          show (d.node p).isSome = true
          rw [here]
          rfl
        exact (names_put_some p _).trans (Set.insert_eq_of_mem there)
      · rfl
  close f d _ := rfl
  rename a b d apart := by
    simp only [memory]
    split
    · rename_i contents here
      intro _
      have there : a ∈ d.names := by
        show (d.node a).isSome = true
        rw [here]
        rfl
      refine ⟨there, ?_⟩
      rw [Disk.rename, names_put_none, here, names_put_some]
      ext q
      simp only [Set.mem_sdiff, Set.mem_insert_iff, Set.mem_singleton_iff]
      constructor
      · rintro ⟨rfl | old, other⟩
        · exact Or.inl rfl
        · exact Or.inr ⟨old, other⟩
      · rintro (rfl | ⟨old, other⟩)
        · exact ⟨Or.inl rfl, apart.symm⟩
        · exact ⟨Or.inr old, other⟩
    · intro no
      cases no
  unlink p d := by
    simp only [memory]
    split
    · exact fun _ => names_put_none p
    · intro no
      cases no

end Names

end Webos.Lib.Files
