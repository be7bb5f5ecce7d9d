/- digest: Devfs as a prefix-free map of paths with handles, and how the nodes represent it. -/

import Webos.Devfs.Handles
import Webos.Lib.PathMap

namespace Webos.Devfs

open Webos.Adb (EBUSY EEXIST EINVAL ENOENT ENOMEM)
open Webos.Lib
open Webos.Lib.LinkedTree

noncomputable def parse (maxPathLen : Nat) (path : Option (List UInt8)) :
    Option (List Name × Bool) :=
  open Classical in
  if valid : ∃ d : List Name × Bool, Denotes maxPathLen path d.1 d.2 then some valid.choose
  else none

variable {path : Option (List UInt8)}

theorem parse_eq_some {maxPathLen : Nat} {p : List Name} {trailing : Bool} :
    parse maxPathLen path = some (p, trailing) ↔ Denotes maxPathLen path p trailing := by
  unfold parse
  constructor
  · intro parsed
    split_ifs at parsed with valid
    have chosen := valid.choose_spec
    rw [Option.some.inj parsed] at chosen
    exact chosen
  · intro denotes
    have valid : ∃ d : List Name × Bool, Denotes maxPathLen path d.1 d.2 :=
      ⟨(p, trailing), denotes⟩
    rw [dif_pos valid]
    obtain ⟨names, ends⟩ := denotes.functional valid.choose_spec
    rw [Option.some.injEq, Prod.ext_iff]
    exact ⟨names.symm, ends.symm⟩

theorem parse_eq_none {maxPathLen : Nat} :
    parse maxPathLen path = none ↔ ∀ p trailing, ¬Denotes maxPathLen path p trailing := by
  constructor
  · intro invalid p trailing denotes
    rw [parse_eq_some.mpr denotes] at invalid
    cases invalid
  · intro invalid
    cases parsed : parse maxPathLen path with
    | none => rfl
    | some d => exact absurd (parse_eq_some.mp parsed) (invalid d.1 d.2)

/-- The registered files, and what the open handles refer to. -/
structure Names where
  file : List Name → Option (FileOps × Addr)
  handle : Addr → Option (NodeType × List Name)

namespace Names

def empty : Names := ⟨fun _ => none, fun _ => none⟩

variable (m : Names)

/-- The directories held are those with an open handle. -/
def map : PathMap Name (FileOps × Addr) := ⟨m.file, fun d => ∃ a, m.handle a = some (.dir, d)⟩

def Busy (p : List Name) : Prop := ∃ a, m.handle a = some (.file, p)

def Has (op : FileOps → Option Addr) (p : List Name) : Prop :=
  ∃ v, m.file p = some v ∧ op v.1 ≠ none

open Classical in
noncomputable def lookup (maxPathLen : Nat) (path : Option (List UInt8)) :
    Option (NodeType × List Name) :=
  match parse maxPathLen path with
  | none => none
  | some (p, trailing) =>
    if m.map.IsDir p then some (.dir, p)
    else if trailing = false ∧ m.file p ≠ none then some (.file, p)
    else none

open Classical in
noncomputable def register (p : List Name) (v : FileOps × Addr) (answers : Nat → Option Addr) :
    Int × Names :=
  if m.file p ≠ none then (-EEXIST, m)
  else if m.map.IsDir p then (-EISDIR, m)
  else if ∃ q, m.file q ≠ none ∧ q <+: p then (-ENOTDIR, m)
  else if ∃ i < m.map.missing p, answers i = none then (-ENOMEM, m)
  else (0, { m with file := Function.update m.file p (some v) })

noncomputable def registerFile (maxPathLen : Nat) (path : Option (List UInt8))
    (ops : Option FileOps) (userData : Addr) (answers : Nat → Option Addr) : Int × Names :=
  match ops, parse maxPathLen path with
  | some ops, some (p, false) => m.register p (ops, userData) answers
  | _, _ => (-EINVAL, m)

open Classical in
noncomputable def unregister (maxPathLen : Nat) (path : Option (List UInt8)) : Int × Names :=
  match m.lookup maxPathLen path with
  | none => (-ENOENT, m)
  | some (.dir, _) => (-EISDIR, m)
  | some (.file, p) =>
    if m.Busy p then (-EBUSY, m) else (0, { m with file := Function.update m.file p none })

def attach (a : Addr) (g : Option (NodeType × List Name)) : Names :=
  { m with handle := Function.update m.handle a g }

theorem attach_attach (a : Addr) (g g' : Option (NodeType × List Name)) :
    (m.attach a g).attach a g' = m.attach a g' := by
  simp [attach]

variable {m} in
theorem attach_same {a : Addr} {g : Option (NodeType × List Name)} (known : m.handle a = g) :
    m.attach a g = m := by
  rw [attach, ← known, Function.update_eq_self]

theorem handle_attach_self (a : Addr) (g : Option (NodeType × List Name)) :
    (m.attach a g).handle a = g :=
  Function.update_self _ _ _

theorem handle_attach_other {a b : Addr} (apart : b ≠ a) (g : Option (NodeType × List Name)) :
    (m.attach a g).handle b = m.handle b :=
  Function.update_of_ne apart _ _

open Classical in
noncomputable def openFile (maxPathLen : Nat) (path : Option (List UInt8)) (answer : Option Addr)
    (callback : Int) : Int × Names :=
  match answer, m.lookup maxPathLen path with
  | none, _ => (-ENOMEM, m)
  | some _, none => (-ENOENT, m)
  | some _, some (.dir, _) => (-EISDIR, m)
  | some a, some (.file, p) =>
    if m.Has FileOps.openFn p ∧ callback ≠ 0 then (callback, m)
    else (0, m.attach a (some (.file, p)))

open Classical in
noncomputable def close (a : Addr) (callback : Int) : Int × Names :=
  match m.handle a with
  | some (.file, p) => (if m.Has FileOps.closeFn p then callback else 0, m.attach a none)
  | _ => (0, m)

noncomputable def opendir (maxPathLen : Nat) (path : Option (List UInt8))
    (answer : Option Addr) : Int × Names :=
  match answer, m.lookup maxPathLen path with
  | none, _ => (-ENOMEM, m)
  | some _, none => (-ENOENT, m)
  | some _, some (.file, _) => (-ENOTDIR, m)
  | some a, some (.dir, p) => (0, m.attach a (some (.dir, p)))

noncomputable def step (maxPathLen : Nat) : Call → Int × Names
  | .register path ops userData answers => m.registerFile maxPathLen path ops userData answers
  | .unregister path => m.unregister maxPathLen path
  | .openFile path answer callback => m.openFile maxPathLen path answer callback
  | .close a callback => m.close a callback
  | .opendir path answer => m.opendir maxPathLen path answer
  | .readdir _ => (0, m)
  | .closedir a => (0, m.attach a none)

end Names

/-- The nodes and handles stand for the map: the files are bound to what is registered, and each
handle is open on the node at its path. -/
structure Represents (s : State) (m : Names) : Prop where
  file : s.file = m.file
  handle : ∀ h ∈ s.handles, ∃ p i, s.entry p = some (h.node, i) ∧
    m.handle h.addr = some (h.kind.type, p)
  back : ∀ a g, m.handle a = some g → ∃ h ∈ s.handles, h.addr = a

namespace Represents

open State

variable {s s' : State} {m : Names} (good : s.Good) (rep : Represents s m)

include good rep

variable {p : List Name}

omit rep in
theorem type_eq {h : Handle} (member : h ∈ s.handles) {i : Info}
    (here : s.entry p = some (h.node, i)) : i.type = h.kind.type := by
  obtain ⟨q, j, there, type⟩ := good.held.node h member
  obtain ⟨-, rfl⟩ := entry_eq_some.mp here
  obtain ⟨-, rfl⟩ := entry_eq_some.mp there
  exact type

theorem of_used {a : Addr} {i : Info} (here : s.entry p = some (a, i)) (used : i.openCount ≠ 0) :
    ∃ c, m.handle c = some (i.type, p) := by
  have count := good.held.count p a i here
  have positive : 0 < s.users a := by
    rw [← count]
    exact Nat.pos_of_ne_zero fun zero => used (UInt16.toNat_inj.mp zero)
  obtain ⟨h, member, same⟩ := List.countP_pos_iff.mp positive
  have same := of_decide_eq_true same
  subst same
  obtain ⟨q, j, there, known⟩ := rep.handle h member
  have one := good.sound.linked.node_injective (entry_eq_some.mp here).1 (entry_eq_some.mp there).1
  subst one
  exact ⟨h.addr, by rw [known, type_eq good member here]⟩

/-- The directories of the tree are those of the map: every one of them leads to a file or to a
handle, because nothing else would have kept it. -/
theorem isDir_of_entry {a : Addr} {i : Info} (here : s.entry p = some (a, i))
    (type : i.type = .dir) :
    m.map.IsDir p := by
  -- The induction is on how far the path is from being as long as there are nodes.
  induction room : s.live.card - p.length generalizing p a i with
  | zero =>
    have short := good.sound.linked.length_lt_card (entry_eq_some.mp here).1
    have few : s.links.live.card = s.live.card := rfl
    omega
  | succ n ih =>
    obtain ⟨found, rfl⟩ := entry_eq_some.mp here
    have alive := good.sound.linked.node_live found
    by_cases top : a = root
    · subst top
      exact Or.inl (good.sound.linked.node_eq_root found)
    · rcases good.full a alive top top type with some' | used
      · obtain ⟨c, member⟩ := List.exists_mem_of_ne_nil _ some'
        have below : s.links.node (p ++ [s.links.name c]) = some c :=
          good.sound.linked.node_snoc_iff.mpr ⟨a, found, member, rfl⟩
        have front : p <+: p ++ [s.links.name c] := List.prefix_append p _
        cases kind : (s.node c).type with
        | dir =>
          refine (ih (entry_of_node below) kind ?_).above front
          rw [List.length_append, List.length_singleton]
          omega
        | file =>
          refine Or.inr (Or.inl ⟨p ++ [s.links.name c], ?_, front, by simp⟩)
          change m.file _ ≠ none
          rw [← rep.file, file_eq_some.mpr ⟨c, _, entry_of_node below, kind, rfl⟩]
          exact Option.some_ne_none _
      · obtain ⟨c, known⟩ := rep.of_used good here used
        rw [type] at known
        exact Or.inr (Or.inr ⟨p, ⟨c, known⟩, List.prefix_refl p⟩)

theorem entry_of_isDir (dir : m.map.IsDir p) :
    ∃ a, s.links.node p = some a ∧ (s.node a).type = .dir := by
  rcases dir with rfl | ⟨q, bound, ⟨r, rfl⟩, proper⟩ | ⟨d, ⟨c, known⟩, ⟨r, rfl⟩⟩
  · exact ⟨root, rfl, good.sound.rootDir⟩
  · obtain ⟨v, bound⟩ := Option.ne_none_iff_exists'.mp bound
    change m.file _ = _ at bound
    rw [← rep.file] at bound
    obtain ⟨b, i, there, -⟩ := file_eq_some.mp bound
    obtain ⟨found, -⟩ := entry_eq_some.mp there
    obtain ⟨a, here, -⟩ := Links.node_of_append found
    cases r with
    | nil => exact absurd (List.append_nil p).symm proper
    | cons k r => exact ⟨a, here, good.sound.dir_above found here⟩
  · obtain ⟨h, member, rfl⟩ := rep.back c _ known
    obtain ⟨q, i, there, known'⟩ := rep.handle h member
    rw [known] at known'
    obtain ⟨kind, rfl⟩ := Prod.mk.inj (Option.some.inj known')
    have type := type_eq good member there
    obtain ⟨found, rfl⟩ := entry_eq_some.mp there
    obtain ⟨a, here, -⟩ := Links.node_of_append found
    cases r with
    | nil =>
      rw [List.append_nil] at found
      exact ⟨h.node, found, type.trans kind.symm⟩
    | cons k r => exact ⟨a, here, good.sound.dir_above found here⟩

theorem isDir_iff : m.map.IsDir p ↔ ∃ a, s.links.node p = some a ∧ (s.node a).type = .dir := by
  constructor
  · exact rep.entry_of_isDir good
  · rintro ⟨a, here, type⟩
    exact rep.isDir_of_entry good (entry_of_node here) type

omit good in
theorem file_iff : m.file p ≠ none ↔ ∃ a, s.links.node p = some a ∧ (s.node a).type = .file := by
  rw [← rep.file, Option.ne_none_iff_exists']
  constructor
  · rintro ⟨v, bound⟩
    obtain ⟨a, i, here, type, -⟩ := file_eq_some.mp bound
    obtain ⟨found, rfl⟩ := entry_eq_some.mp here
    exact ⟨a, found, type⟩
  · rintro ⟨a, found, type⟩
    exact ⟨_, file_eq_some.mpr ⟨a, _, entry_of_node found, type, rfl⟩⟩

theorem prefixFree : m.map.PrefixFree := by
  refine ⟨?_, ?_⟩
  · have inside : {p | m.map.file p ≠ none} ⊆ {p | ∃ a ∈ s.live, s.links.node p = some a} := by
      intro p bound
      obtain ⟨a, here, -⟩ := rep.file_iff.mp bound
      exact ⟨a, good.sound.linked.node_live here, here⟩
    refine Set.Finite.subset ?_ inside
    choose path there using fun a : s.live => good.sound.linked.reached a a.2
    refine (Set.finite_range path).subset ?_
    rintro p ⟨a, alive, here⟩
    exact ⟨⟨a, alive⟩, good.sound.linked.node_injective (there ⟨a, alive⟩) here⟩
  · intro p bound dir
    obtain ⟨a, here, file⟩ := rep.file_iff.mp bound
    obtain ⟨b, there, dir⟩ := (rep.isDir_iff good).mp dir
    cases here.symm.trans there
    rw [file] at dir
    cases dir

variable {path : Option (List UInt8)}

theorem lookup_iff {maxPathLen : Nat} {type : NodeType} :
    m.lookup maxPathLen path = some (type, p) ↔
      ∃ a, s.findNode maxPathLen path = some a ∧ s.links.node p = some a ∧
        (s.node a).type = type := by
  unfold Names.lookup
  cases parsed : parse maxPathLen path with
  | none =>
    constructor
    · intro no
      cases no
    · rintro ⟨a, found, -⟩
      obtain ⟨q, trailing, denotes, -⟩ := good.sound.findNode_eq_some.mp found
      exact absurd denotes (parse_eq_none.mp parsed q trailing)
  | some d =>
    obtain ⟨q, trailing⟩ := d
    have denotes := parse_eq_some.mp parsed
    have named {a : Addr} : s.findNode maxPathLen path = some a ↔
        s.links.node q = some a ∧ (trailing = true → (s.node a).type = .dir) := by
      rw [good.sound.findNode_eq_some]
      constructor
      · rintro ⟨r, ends, other, there⟩
        obtain ⟨rfl, rfl⟩ := denotes.functional other
        exact there
      · exact fun there => ⟨q, trailing, denotes, there⟩
    dsimp only
    split_ifs with dir file
    · obtain ⟨a, here, kind⟩ := (rep.isDir_iff good).mp dir
      constructor
      · intro same
        cases same
        exact ⟨a, named.mpr ⟨here, fun _ => kind⟩, here, kind⟩
      · rintro ⟨b, found, there, rfl⟩
        have one := (named.mp found).1
        obtain rfl := good.sound.linked.node_injective one there
        cases here.symm.trans one
        rw [kind]
    · obtain ⟨rfl, bound⟩ := file
      obtain ⟨a, here, kind⟩ := rep.file_iff.mp bound
      constructor
      · intro same
        cases same
        exact ⟨a, named.mpr ⟨here, fun no => nomatch no⟩, here, kind⟩
      · rintro ⟨b, found, there, rfl⟩
        have one := (named.mp found).1
        obtain rfl := good.sound.linked.node_injective one there
        cases here.symm.trans one
        rw [kind]
    · constructor
      · intro no
        cases no
      · rintro ⟨b, found, -, -⟩
        obtain ⟨one, ends⟩ := named.mp found
        cases kind : (s.node b).type with
        | dir => exact absurd ((rep.isDir_iff good).mpr ⟨b, one, kind⟩) dir
        | file =>
          refine absurd ⟨?_, rep.file_iff.mpr ⟨b, one, kind⟩⟩ file
          cases trailing with
          | false => rfl
          | true =>
            rw [ends rfl] at kind
            cases kind

theorem lookup_none {maxPathLen : Nat} (absent : s.findNode maxPathLen path = none) :
    m.lookup maxPathLen path = none := by
  cases found : m.lookup maxPathLen path with
  | none => rfl
  | some d =>
    obtain ⟨a, there, -⟩ := (rep.lookup_iff good).mp found
    rw [absent] at there
    cases there

/-- Where the way to a path is free, the tree lacks as many nodes as the map lacks directories. -/
theorem missing_eq
    (clear : ∀ q r b, p = q ++ r → s.links.node q = some b → (s.node b).type = .dir) :
    s.missing p = m.map.missing p := by
  apply List.countP_congr
  intro q member
  obtain ⟨r, rfl⟩ := (List.mem_inits q _).mp member
  simp only [Option.isNone_iff_eq_none, decide_eq_true_eq]
  rw [rep.isDir_iff good]
  constructor
  · rintro absent ⟨a, here, -⟩
    rw [absent] at here
    cases here
  · intro no
    cases found : s.links.node q with
    | none => rfl
    | some a => exact absurd ⟨a, found, clear q r a rfl found⟩ no

end Represents

end Webos.Devfs
