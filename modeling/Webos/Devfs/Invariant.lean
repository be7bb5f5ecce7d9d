/- digest: The nodes of devfs stay one tree whose directories lead to files or are held open. -/

import Webos.Devfs.Files
import Webos.Lib.LinkedTree

namespace Webos.Devfs

open Webos.Lib.CString
open Webos.Lib.LinkedTree

namespace State

variable (s : State)

def links : Links Addr Name where
  root := root
  live := s.live
  children := fun a => (s.node a).children
  parent := fun a => (s.node a).parent
  name := fun a => (s.node a).name

variable {s}

theorem scanChildren_eq (name : Name) (l : List Addr) :
    s.scanChildren name l = search s.links.name name l := by
  induction l with
  | nil => rfl
  | cons child rest ih =>
    have whole := strcmp_eq_strncmp (s.node child).name name
    rw [scanChildren, search, ih,
      show compare (s.links.name child) name = strcmp (s.node child).name name from rfl, whole]
    cases strncmp (s.node child).name name name.length with
    | lt => rfl
    | gt => rfl
    | eq => by_cases short : (s.node child).name.length ≤ name.length <;> simp [short]

theorem findChild_eq (a : Addr) (name : Name) : s.findChild a name = s.links.child a name :=
  scanChildren_eq name _

theorem insertBefore_eq (node : Addr) (l : List Addr) :
    s.insertBefore node l = place s.links.name node l := by
  induction l with
  | nil => rfl
  | cons child rest ih =>
    rw [insertBefore, ih, place, place, List.orderedInsert_cons]
    rfl

theorem node_modify_self (a : Addr) (f : Node → Node) : (s.modify a f).node a = f (s.node a) :=
  Function.update_self _ _ _

variable {a : Addr}

theorem node_modify_other {b : Addr} (apart : b ≠ a) (f : Node → Node) :
    (s.modify a f).node b = s.node b :=
  Function.update_of_ne apart _ _

theorem links_modify {f : Node → Node} (children : (f (s.node a)).children = (s.node a).children)
    (parent : (f (s.node a)).parent = (s.node a).parent)
    (name : (f (s.node a)).name = (s.node a).name) : (s.modify a f).links = s.links := by
  ext x
  · rfl
  · rfl
  all_goals
    by_cases here : x = a
    · subst here
      simp only [links, node_modify_self, children, parent, name]
    · simp only [links, node_modify_other here]

variable {c : Addr}

theorem node_insertChild (apart : a ≠ c) (type : NodeType) (name : Name) (x : Addr) :
    ((s.allocNode c type name).insertChild a c).node x =
      if x = a then { s.node a with
        children := place (Function.update s.links.name c name) c (s.node a).children }
      else if x = c then { Node.fresh type name with parent := some a }
      else s.node x := by
  have alloc : (s.allocNode c type name).node = Function.update s.node c (.fresh type name) := rfl
  have named :
      ((s.allocNode c type name).modify c fun n => { n with parent := some a }).links.name =
      Function.update s.links.name c name := by
    funext y
    by_cases new : y = c
    · subst new
      simp only [links, modify, alloc, Function.update_self]
      rfl
    · simp only [links, modify, alloc, Function.update_of_ne new]
  unfold insertChild
  by_cases here : x = a
  · subst here
    rw [if_pos rfl, node_modify_self, node_modify_other apart, alloc,
      Function.update_of_ne apart, insertBefore_eq, named]
  · rw [if_neg here, node_modify_other here]
    by_cases new : x = c
    · subst new
      rw [if_pos rfl, node_modify_self, alloc, Function.update_self]
    · rw [if_neg new, node_modify_other new, alloc, Function.update_of_ne new]

theorem links_insertChild (apart : a ≠ c) (type : NodeType) (name : Name) :
    ((s.allocNode c type name).insertChild a c).links = s.links.graft a c name := by
  have nodes := node_insertChild (s := s) apart type name
  ext1
  · rfl
  · rfl
  all_goals
    funext x
    simp only [links, Links.graft, nodes]
    by_cases here : x = a
    · subst here
      simp [apart]
    · by_cases new : x = c
      · subst new
        simp [here, Node.fresh]
      · simp [here, new]

theorem unlinkChild_eq (child : (s.node c).parent = some a) :
    s.unlinkChild c = (s.modify a fun n => { n with children := n.children.erase c }).modify c
        fun n => { n with parent := none } := by
  unfold unlinkChild
  rw [child]

theorem node_kFree (a : Addr) : (s.kFree a).node = s.node := rfl

theorem node_unlinkChild (apart : a ≠ c) (child : (s.node c).parent = some a) (x : Addr) :
    ((s.unlinkChild c).kFree c).node x =
      if x = a then { s.node a with children := (s.node a).children.erase c }
      else if x = c then { s.node c with parent := none }
      else s.node x := by
  rw [unlinkChild_eq child, node_kFree]
  by_cases here : x = a
  · subst here
    rw [if_pos rfl, node_modify_other apart, node_modify_self]
  · rw [if_neg here]
    by_cases old : x = c
    · subst old
      rw [if_pos rfl, node_modify_self, node_modify_other here]
    · rw [if_neg old, node_modify_other old, node_modify_other here]

theorem links_unlinkChild (apart : a ≠ c) (child : (s.node c).parent = some a) :
    ((s.unlinkChild c).kFree c).links = s.links.cut a c := by
  have nodes := node_unlinkChild (s := s) apart child
  ext1
  · rfl
  · rw [unlinkChild_eq child]
    rfl
  all_goals
    funext x
    simp only [links, Links.cut, nodes]
    by_cases here : x = a
    · subst here
      simp [apart]
    · by_cases old : x = c
      · subst old
        simp [here]
      · simp [here, old]

end State

@[ext] structure Info where
  type : NodeType
  ops : FileOps
  userData : Addr
  openCount : UInt16

def Info.fresh (type : NodeType) : Info := ⟨type, .zero, 0, 0⟩

namespace State

variable (s : State)

def info (a : Addr) : Info :=
  ⟨(s.node a).type, (s.node a).ops, (s.node a).userData, (s.node a).openCount⟩

def entry (p : List Name) : Option (Addr × Info) := (s.links.node p).map fun a => (a, s.info a)

structure Sound : Prop where
  linked : s.links.Linked
  rootDir : (s.node root).type = .dir
  leaf : ∀ a ∈ s.live, (s.node a).type = .file → (s.node a).children = []

/-- Every directory but the root, and perhaps `x`, has children or is held open. -/
def FullBut (x : Addr) : Prop :=
  ∀ a ∈ s.live, a ≠ root → a ≠ x → (s.node a).type = .dir →
    (s.node a).children ≠ [] ∨ (s.node a).openCount ≠ 0

def Full : Prop := s.FullBut root

variable {s} {p : List Name} {a : Addr}

theorem entry_eq_some {i : Info} :
    s.entry p = some (a, i) ↔ s.links.node p = some a ∧ s.info a = i := by
  unfold entry
  rw [Option.map_eq_some_iff]
  constructor
  · rintro ⟨b, found, same⟩
    cases same
    exact ⟨found, rfl⟩
  · rintro ⟨found, rfl⟩
    exact ⟨a, found, rfl⟩

theorem entry_of_node (found : s.links.node p = some a) : s.entry p = some (a, s.info a) :=
  entry_eq_some.mpr ⟨found, rfl⟩

namespace Sound

variable (sound : s.Sound)

include sound

theorem dir_of_child {a c : Addr} (alive : a ∈ s.live) (member : c ∈ (s.node a).children) :
    (s.node a).type = .dir := by
  cases type : (s.node a).type with
  | dir => rfl
  | file =>
    rw [sound.leaf a alive type] at member
    cases member

section Unlink

variable {p : List Name} {k : Name} {a c : Addr} (here : s.links.node p = some a)
  (found : s.links.node (p ++ [k]) = some c)

include here found

theorem parent_eq : (s.node c).parent = some a :=
  (sound.linked.parent_of_snoc found).trans here

theorem parent_ne : a ≠ c := by
  rintro rfl
  have same := sound.linked.node_injective here found
  simp at same

theorem entry_unlink (empty : (s.node c).children = []) (q : List Name) :
    ((s.unlinkChild c).kFree c).entry q = if q = p ++ [k] then none else s.entry q := by
  have child := sound.parent_eq here found
  have apart := sound.parent_ne here found
  have infos : ((s.unlinkChild c).kFree c).info = s.info := by
    funext x
    unfold info
    rw [node_unlinkChild apart child]
    split_ifs with above below
    · subst above
      rfl
    · subst below
      rfl
    · rfl
  unfold entry
  rw [links_unlinkChild apart child, Links.node_cut sound.linked here found empty, infos]
  split_ifs
  · rfl
  · rfl

theorem unlink (empty : (s.node c).children = []) : ((s.unlinkChild c).kFree c).Sound := by
  have child := sound.parent_eq here found
  have apart := sound.parent_ne here found
  have nodes := node_unlinkChild apart child
  have linked := Links.linked_cut sound.linked here found empty
  rw [← links_unlinkChild apart child] at linked
  have smaller : ((s.unlinkChild c).kFree c).live = s.live.erase c := by
    rw [unlinkChild_eq child]
    rfl
  refine ⟨linked, ?_, ?_⟩
  · rw [nodes]
    split_ifs with above below
    · subst above
      exact sound.rootDir
    · subst below
      exact sound.rootDir
    · exact sound.rootDir
  · intro x alive
    rw [smaller] at alive
    obtain ⟨other, alive⟩ := Finset.mem_erase.mp alive
    rw [nodes]
    split_ifs with above
    · subst above
      intro type
      rw [sound.leaf x alive type]
      rfl
    · exact sound.leaf x alive

end Unlink

section Insert

variable {p : List Name} {k : Name} {a c : Addr} (here : s.links.node p = some a)
  (fresh : c ∉ s.live) (vacant : s.links.child a k = none)

include here fresh vacant

theorem entry_insert (type : NodeType) (q : List Name) :
    ((s.allocNode c type k).insertChild a c).entry q =
      if q = p ++ [k] then some (c, .fresh type) else s.entry q := by
  have alive := sound.linked.node_live here
  have apart : a ≠ c := by
    rintro rfl
    exact fresh alive
  have nodes := node_insertChild (s := s) apart type k
  unfold entry
  rw [links_insertChild apart, Links.node_graft sound.linked fresh here vacant]
  split_ifs with new
  · rw [Option.map_some, info, nodes, if_neg (Ne.symm apart), if_pos rfl]
    rfl
  · cases found : s.links.node q with
    | none => rfl
    | some x =>
      have other : x ≠ c := by
        rintro rfl
        exact fresh (sound.linked.node_live found)
      rw [Option.map_some, Option.map_some, info, nodes]
      split_ifs with above
      · subst above
        rfl
      · rfl

theorem insert (dir : (s.node a).type = .dir) (type : NodeType) :
    ((s.allocNode c type k).insertChild a c).Sound := by
  have alive := sound.linked.node_live here
  have apart : a ≠ c := by
    rintro rfl
    exact fresh alive
  have nodes := node_insertChild (s := s) apart type k
  have linked := Links.linked_graft sound.linked fresh here vacant
  rw [← links_insertChild apart type] at linked
  refine ⟨linked, ?_, ?_⟩
  · have old : root ≠ c := by
      intro same
      exact fresh (same ▸ sound.linked.rooted)
    rw [nodes]
    split_ifs with above
    · exact dir
    · exact sound.rootDir
  · intro x alive
    rw [nodes]
    split_ifs with above new
    · intro file
      rw [show (s.node a).type = .file from file] at dir
      cases dir
    · intro _
      rfl
    · exact sound.leaf x ((Finset.mem_insert.mp alive).resolve_left new)

end Insert

end Sound

structure Pruned (s s' : State) : Prop where
  sound : s'.Sound
  full : s'.Full
  less : ∀ p e, s'.entry p = some e → s.entry p = some e
  kept : ∀ p a i, s.entry p = some (a, i) → i.type = .file ∨ i.openCount ≠ 0 →
    s'.entry p = some (a, i)
  handles : s'.handles = s.handles

theorem Pruned.round {s s' : State} {k : Name} {c : Addr} (sound : s.Sound)
    (found : s.links.node (p ++ [k]) = some c) (type : (s.node c).type = .dir)
    (empty : (s.node c).children = []) (unused : (s.node c).openCount = 0)
    (rest : Pruned ((s.unlinkChild c).kFree c) s') : Pruned s s' := by
  obtain ⟨a, here, -⟩ := sound.linked.node_snoc_iff.mp found
  have entries := sound.entry_unlink here found empty
  refine ⟨rest.sound, rest.full, ?_, ?_, ?_⟩
  · intro q e there
    have before := rest.less q e there
    rw [entries] at before
    split_ifs at before
    exact before
  · intro q b i there needed
    apply rest.kept q b i _ needed
    rw [entries, if_neg, there]
    rintro rfl
    obtain ⟨same, rfl⟩ := entry_eq_some.mp there
    cases found.symm.trans same
    rcases needed with file | used
    · rw [show (s.info c).type = .dir from type] at file
      cases file
    · exact used unused
  · rw [rest.handles, unlinkChild_eq (sound.parent_eq here found)]
    rfl

theorem fullBut_unlink {k : Name} {c : Addr} (sound : s.Sound) (full : s.FullBut c)
    (here : s.links.node p = some a) (found : s.links.node (p ++ [k]) = some c) :
    ((s.unlinkChild c).kFree c).FullBut a := by
  have child := sound.parent_eq here found
  have apart := sound.parent_ne here found
  intro x alive top other
  rw [unlinkChild_eq child] at alive
  obtain ⟨old, alive⟩ := Finset.mem_erase.mp alive
  rw [node_unlinkChild apart child, if_neg other, if_neg old]
  exact full x alive top old

theorem pruneRounds_pruned (sound : s.Sound) (full : s.FullBut a) (here : s.links.node p = some a)
    (rounds : Nat) (enough : p.length ≤ rounds) : Pruned s (pruneRounds rounds s a) := by
  induction p using List.reverseRecOn generalizing s a rounds with
  | nil =>
    cases here
    have stay : pruneRounds rounds s root = s := by
      cases rounds with
      | zero => rfl
      | succ rounds =>
        rw [pruneRounds, if_neg]
        exact fun again => again.1 rfl
    rw [show s.links.root = root from rfl, stay]
    exact ⟨sound, full, fun _ _ there => there, fun _ _ _ there _ => there, rfl⟩
  | append_singleton p k ih =>
    obtain ⟨rounds, rfl⟩ : ∃ fewer, rounds = fewer + 1 := by
      rw [List.length_append, List.length_singleton] at enough
      exact ⟨rounds - 1, by omega⟩
    rw [List.length_append, List.length_singleton] at enough
    rw [pruneRounds]
    split_ifs with again
    · obtain ⟨top, type, empty, unused⟩ := again
      obtain ⟨b, above, -⟩ := sound.linked.node_snoc_iff.mp here
      have child := sound.parent_eq above here
      refine Pruned.round sound here type empty unused ?_
      rw [child]
      apply ih (sound.unlink above here empty) (fullBut_unlink sound full above here) _ rounds
      · omega
      · have entries := sound.entry_unlink above here empty p
        rw [if_neg (by simp), entry_of_node above] at entries
        exact (entry_eq_some.mp entries).1
    · refine ⟨sound, ?_, fun _ _ there => there, fun _ _ _ there _ => there, rfl⟩
      intro x alive top _ type
      by_cases same : x = a
      · subst same
        by_contra bare
        rw [not_or, not_not, not_not] at bare
        exact again ⟨top, type, bare.1, bare.2⟩
      · exact full x alive top same type

theorem pruneEmptyDirs_pruned (sound : s.Sound) (full : s.FullBut a)
    (here : s.links.node p = some a) : Pruned s (s.pruneEmptyDirs a) :=
  pruneRounds_pruned sound full here _ (sound.linked.length_lt_card here).le

end State

end Webos.Devfs
