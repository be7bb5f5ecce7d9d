/- digest: A directory that is listed while others register and unregister. -/

import Webos.Devfs.Interleaving

namespace Webos.Devfs

open Webos.Adb (ascii)
open Webos.Lib.CString Webos.Lib.LinkedTree
open State

variable {s t : State} {maxPathLen nameLen : Nat} {path : Option (List UInt8)}

section Names

def Fitting (maxPathLen : Nat) (name : Name) : Prop := name ≠ [] ∧ name.length ≤ maxPathLen - 1

def Named (maxPathLen : Nat) (s : State) : Prop :=
  ∀ a ∈ s.live, a ≠ root → Fitting maxPathLen (s.node a).name

theorem named_boot : Named maxPathLen .boot := by
  intro a alive below
  exact absurd (Finset.mem_singleton.mp alive) below

theorem Named.less (named : Named maxPathLen s) (live : t.live ⊆ s.live)
    (names : ∀ a ∈ t.live, (t.node a).name = (s.node a).name) : Named maxPathLen t := by
  intro a alive below
  rw [names a alive]
  exact named a (live alive) below

theorem Named.of_links (named : Named maxPathLen s) (same : t.links = s.links) :
    Named maxPathLen t := by
  refine named.less ?_ fun a _ => congrFun (congrArg Links.name same) a
  have live : t.live = s.live := congrArg Links.live same
  rw [live]

theorem name_modify {a : Addr} {f : Node → Node} (name : ∀ n, (f n).name = n.name) (x : Addr) :
    ((s.modify a f).node x).name = (s.node x).name := by
  by_cases same : x = a
  · subst same
    rw [node_modify_self]
    exact name _
  · rw [node_modify_other same]

theorem name_unlinkChild (c x : Addr) : ((s.unlinkChild c).node x).name = (s.node x).name := by
  rw [unlinkChild]
  split
  · rfl
  · rw [name_modify, name_modify]
    all_goals exact fun _ => rfl

theorem live_unlinkChild (c : Addr) : (s.unlinkChild c).live = s.live := by
  rw [unlinkChild]
  split <;> rfl

theorem Named.unlink (named : Named maxPathLen s) (c : Addr) :
    Named maxPathLen ((s.unlinkChild c).kFree c) := by
  refine named.less ?_ fun a _ => name_unlinkChild c a
  rw [kFree, live_unlinkChild]
  exact Finset.erase_subset c s.live

theorem Named.pruneRounds (named : Named maxPathLen s) (rounds : Nat) (a : Addr) :
    Named maxPathLen (s.pruneRounds rounds a) := by
  induction rounds generalizing s a with
  | zero => exact named
  | succ rounds ih =>
    rw [State.pruneRounds]
    split_ifs
    · split
      · exact named.unlink a
      · exact ih (named.unlink a) _
    · exact named

theorem name_insertChild (parent c x : Addr) :
    ((s.insertChild parent c).node x).name = (s.node x).name := by
  rw [insertChild, name_modify, name_modify]
  all_goals exact fun _ => rfl

theorem Named.insert (named : Named maxPathLen s) (parent c : Addr) (type : NodeType) {name : Name}
    (fitting : Fitting maxPathLen name) :
    Named maxPathLen ((s.allocNode c type name).insertChild parent c) := by
  intro a alive below
  rw [name_insertChild]
  have inside : a ∈ Insert.insert c s.live := alive
  rcases Finset.mem_insert.mp inside with rfl | old
  · show Fitting maxPathLen (Function.update s.node a _ a).name
    rw [Function.update_self]
    exact fitting
  · show Fitting maxPathLen (Function.update s.node c _ a).name
    by_cases same : a = c
    · rw [same, Function.update_self]
      exact fitting
    · rw [Function.update_of_ne same]
      exact named a old below

theorem Named.registerRounds (named : Named maxPathLen s) {rounds : List (Name × Bool)}
    (fitting : ∀ round ∈ rounds, Fitting maxPathLen round.1) (answers : Nat → Option Addr)
    (parent : Addr) : Named maxPathLen (s.registerRounds answers parent rounds).2.2 := by
  induction rounds generalizing s answers parent with
  | nil => exact named
  | cons round rounds ih =>
    rw [List.forall_mem_cons] at fitting
    rw [State.registerRounds]
    split
    · split_ifs <;> first | exact named | exact ih named fitting.2 _ _
    · split
      · exact named
      · exact ih (named.insert _ _ _ fitting.1) fitting.2 _ _

theorem length_components (text : List UInt8) :
    ∀ round ∈ components text, round.1.length ≤ text.length := by
  induction text with
  | nil =>
    intro round no
    cases no
  | cons c text ih =>
    rw [components]
    split_ifs
    · rw [List.forall_mem_cons]
      refine ⟨Nat.zero_le _, fun round member => ?_⟩
      exact Nat.le_trans (ih round member) (Nat.le_succ _)
    · split
      · rw [List.forall_mem_singleton]
        exact Nat.succ_le_succ (Nat.zero_le _)
      · rename_i name more later rest
        rw [rest, List.forall_mem_cons] at ih
        rw [List.forall_mem_cons]
        refine ⟨Nat.succ_le_succ ih.1, fun round member => ?_⟩
        exact Nat.le_trans (ih.2 round member) (Nat.le_succ _)

theorem fitting_components {trailing : Bool} {rel : List UInt8}
    (valid : validatePath maxPathLen path trailing = some rel) :
    ∀ round ∈ components rel.tail, Fitting maxPathLen round.1 := by
  cases path with
  | none => cases valid
  | some path =>
    rw [validatePath] at valid
    split_ifs at valid with size _ allowed
    cases valid
    intro round member
    have name := List.all_eq_true.mp allowed round member
    have length := length_components _ round member
    rw [List.length_tail] at length
    refine ⟨?_, by omega⟩
    rintro empty
    rw [empty] at name
    cases name

theorem Named.register (named : Named maxPathLen s) (ops : Option FileOps) (userData : Addr)
    (answers : Nat → Option Addr) :
    Named maxPathLen (s.devfsRegisterFile maxPathLen path ops userData answers).2 := by
  unfold devfsRegisterFile
  split
  · exact named
  · split
    · exact named
    · rename_i rel valid
      split_ifs
      · exact named
      · have grown := named.registerRounds (fitting_components valid) answers root
        generalize s.registerRounds answers root (components rel.tail) = out at grown
        dsimp only
        split_ifs
        · exact grown.of_links (links_modify rfl rfl rfl)
        · exact grown.pruneRounds _ _

theorem Named.unregister (named : Named maxPathLen s) :
    Named maxPathLen (s.devfsUnregisterFile maxPathLen path).2 := by
  rw [devfsUnregisterFile]
  split
  · exact named
  · split_ifs
    · exact named
    · exact named
    · split
      · exact named.unlink _
      · exact (named.unlink _).pruneRounds _ _

theorem Named.drop (named : Named maxPathLen s) (h : Handle) :
    Named maxPathLen (s.dropHandle h) := named.of_links links_dropHandle

theorem Named.acquire (named : Named maxPathLen s) (mismatch : Int) (kind : HandleKind)
    (answer : Option Addr) :
    Named maxPathLen (s.acquire maxPathLen path mismatch kind answer).2 := by
  unfold State.acquire
  split
  · exact named
  · split
    · exact named
    · split_ifs
      · exact named
      · rename_i node _ _
        exact named.of_links (links_modify (s := s) (a := node)
          (f := fun n => { n with openCount := n.openCount + 1 }) rfl rfl rfl)

theorem Named.next (named : Named maxPathLen s) {action : Action} (possible : action.Possible s)
    (step : action.next maxPathLen nameLen s = some t) : Named maxPathLen t := by
  refine next_rule possible step named ?_ ?_ ?_ ?_ ?_ ?_
  · intro path ops userData answers _
    exact named.register ops userData answers
  · intro path
    exact named.unregister
  · intro path mismatch kind answer _ _
    exact named.acquire _ _ answer
  · intro h kind _
    exact named
  · intro h _ _
    exact named.drop h
  · intro h _
    exact (named.drop _).pruneRounds _ _

theorem Reached.named (reached : Reached maxPathLen nameLen s) : Named maxPathLen s := by
  induction reached with
  | boot => exact named_boot
  | step before possible next bounded ih => exact ih.next possible next

end Names

section Listings

/-- An entry that `devfs_readdir` returned, and the state it was returned in. -/
structure Entry where
  moment : State
  name : Name
  type : NodeType

def HasChild (dir : Addr) (name : Name) (s : State) : Prop :=
  ∃ c ∈ (s.node dir).children, (s.node c).name = name

/-- A directory handle at address `d` is listed from `start` on while others register and
unregister: the states so far, the entries returned and the state now. -/
inductive Listing (maxPathLen nameLen : Nat) (start : State) (d : Addr) :
    List State → List Entry → State → Prop where
  | opened : Listing maxPathLen nameLen start d [start] [] start
  | register {seen : List State} {entries : List Entry} {s : State}
      (path : Option (List UInt8)) (ops : Option FileOps) (userData : Addr)
      (answers : Nat → Option Addr) (before : Listing maxPathLen nameLen start d seen entries s)
      (possible : s.Answers answers) :
      Listing maxPathLen nameLen start d
        ((s.devfsRegisterFile maxPathLen path ops userData answers).2 :: seen) entries
        (s.devfsRegisterFile maxPathLen path ops userData answers).2
  | unregister {seen : List State} {entries : List Entry} {s : State}
      (path : Option (List UInt8)) (before : Listing maxPathLen nameLen start d seen entries s) :
      Listing maxPathLen nameLen start d ((s.devfsUnregisterFile maxPathLen path).2 :: seen) entries
        (s.devfsUnregisterFile maxPathLen path).2
  | entry {seen : List State} {entries : List Entry} {s t : State} {h : Handle} {name : Name}
      {type : NodeType} (before : Listing maxPathLen nameLen start d seen entries s)
      (found : s.handleAt d = some h)
      (returned : s.devfsReaddir maxPathLen nameLen h = (some (name, type), t)) :
      Listing maxPathLen nameLen start d (t :: seen) (entries ++ [⟨s, name, type⟩]) t

def Passed (lastName : Name) (started : Bool) (name : Name) : Prop :=
  started = true ∧ strcmp name lastName ≠ .gt

structure Listed (maxPathLen : Nat) (start : State) (d dir : Addr) (seen : List State)
    (entries : List Entry) (s : State) : Prop where
  begun : start.Sound
  good : s.Good
  place : ∀ p, start.links.node p = some dir → s.links.node p = some dir
  named : Named maxPathLen s
  now : s ∈ seen
  ordered : (entries.map Entry.name).Pairwise fun a b => strcmp a b = .lt
  true_ : ∀ e ∈ entries, e.name ≠ [] ∧
    (∀ path, start.findNode maxPathLen path = some dir →
      e.moment.findNode maxPathLen path = some dir) ∧
    ∃ c ∈ (e.moment.node dir).children,
      (e.moment.node c).name = e.name ∧ (e.moment.node c).type = e.type
  position : ∃ lastName started, ⟨d, dir, .dir lastName started⟩ ∈ s.handles ∧
    (∀ e ∈ entries, Passed lastName started e.name) ∧
    ∀ name, (∀ t ∈ seen, HasChild dir name t) → Passed lastName started name →
      name ∈ entries.map Entry.name

variable {start : State} {d dir : Addr} {seen : List State} {entries : List Entry}

theorem Listed.other {files : List Name → Option (FileOps × Addr)}
    (listed : Listed maxPathLen start d dir seen entries s) (after : After s t files)
    (named : Named maxPathLen t) : Listed maxPathLen start d dir (t :: seen) entries t := by
  obtain ⟨lastName, started, handle, passed, complete⟩ := listed.position
  have persists := after.persists listed.good.sound listed.good.held
  refine ⟨listed.begun, after.good, fun p here => ?_, named, List.mem_cons_self, listed.ordered,
    listed.true_, lastName, started, ?_, passed, fun name present => ?_⟩
  · exact (persists _ (after.handles ▸ handle)).2.2 p (listed.place p here)
  · rw [after.handles]
    exact handle
  · exact complete name fun t' member => present t' (List.mem_cons_of_mem _ member)

theorem strcmp_lt_of_passed {a last c : Name} (le : strcmp a last ≠ .gt)
    (gt : strcmp c last = .gt) : strcmp a c = .lt := by
  rw [strcmp] at *
  exact Std.TransCmp.lt_of_isLE_of_lt (Ordering.isLE_iff_ne_gt.mpr le) (Std.OrientedCmp.lt_of_gt gt)

variable {h : Handle}

theorem State.Held.unique {g : Handle} (held : s.Held) (left : g ∈ s.handles)
    (right : h ∈ s.handles) (same : g.addr = h.addr) : g = h :=
  List.inj_on_of_nodup_map held.distinct left right same

theorem State.Held.handleAt (held : s.Held) (member : h ∈ s.handles) :
    s.handleAt h.addr = some h := by
  cases found : s.handleAt h.addr with
  | none => exact absurd (List.find?_eq_none.mp found h member) (by simp)
  | some g =>
    obtain ⟨there, same⟩ := handleAt_mem found
    rw [held.unique there member same]

theorem nodup_of_ordered {names : List Name}
    (ordered : names.Pairwise fun a b => strcmp a b = .lt) : names.Nodup := by
  refine ordered.imp ?_
  rintro a _ lt rfl
  rw [strcmp, Std.compare_self] at lt
  cases lt

theorem Named.child (named : Named maxPathLen s) (sound : s.Sound) {a c : Addr} (alive : a ∈ s.live)
    (member : c ∈ (s.node a).children) : Fitting maxPathLen (s.node c).name := by
  obtain ⟨alive', parent⟩ := sound.linked.child a alive c member
  refine named c alive' ?_
  rintro rfl
  have top : (s.node root).parent = none := sound.linked.top
  rw [show (s.node root).parent = some a from parent] at top
  cases top

theorem Listed.findNode {path : Option (List UInt8)}
    (listed : Listed maxPathLen start d dir seen entries s)
    (found : start.findNode maxPathLen path = some dir) :
    s.findNode maxPathLen path = some dir := by
  obtain ⟨lastName, started, handle, -⟩ := listed.position
  obtain ⟨q, i, there, type⟩ := listed.good.held.node _ handle
  obtain ⟨here, rfl⟩ := entry_eq_some.mp there
  obtain ⟨p, trailing, denotes, before, -⟩ := listed.begun.findNode_eq_some.mp found
  exact listed.good.sound.findNode_eq_some.mpr
    ⟨p, trailing, denotes, listed.place p before, fun _ => type⟩

theorem Listed.entry {name : Name} {type : NodeType}
    (listed : Listed maxPathLen start d dir seen entries s)
    (fits : ∀ c ∈ (s.node dir).children, (s.node c).name.length ≤ nameLen)
    (found : s.handleAt d = some h)
    (returned : s.devfsReaddir maxPathLen nameLen h = (some (name, type), t)) :
    Listed maxPathLen start d dir (t :: seen) (entries ++ [⟨s, name, type⟩]) t := by
  obtain ⟨lastName, started, handle, passed, complete⟩ := listed.position
  obtain ⟨found, addr⟩ := handleAt_mem found
  obtain rfl := listed.good.held.unique handle found addr.symm
  obtain ⟨p, i, there, -⟩ := listed.good.held.node _ handle
  have alive : dir ∈ s.live := listed.good.sound.linked.node_live (entry_eq_some.mp there).1
  have sorted := listed.good.sound.linked.sorted dir alive
  rw [devfsReaddir] at returned
  dsimp only at returned
  cases next : s.nextChild lastName started (s.node dir).children with
  | none =>
    rw [next] at returned
    cases returned
  | some c =>
    rw [next] at returned
    have member : c ∈ (s.node dir).children := List.mem_of_find?_eq_some next
    have fitting := listed.named.child listed.good.sound alive member
    dsimp only at returned
    rw [List.take_of_length_le (fits c member), List.take_of_length_le fitting.2] at returned
    cases returned
    -- Every name passed so far lies before the one that is returned now.
    have before : ∀ name, Passed lastName started name → strcmp name (s.node c).name = .lt := by
      rintro name ⟨rfl, le⟩
      have behind := List.find?_some next
      rw [Bool.true_and, Bool.not_eq_true', bne_eq_false_iff_eq] at behind
      exact strcmp_lt_of_passed le behind
    have type : (HandleKind.dir (s.node c).name true).type =
      (HandleKind.dir lastName started).type := rfl
    have good := (upheld_setKind (h := ⟨d, dir, .dir lastName started⟩) listed.good type).1
    refine ⟨listed.begun, good, listed.place, listed.named.of_links rfl, List.mem_cons_self, ?_, ?_,
      (s.node c).name, true, ?_, ?_, ?_⟩
    · rw [List.map_append, List.map_singleton, List.pairwise_append]
      refine ⟨listed.ordered, List.pairwise_singleton _ _, ?_⟩
      intro a old b new
      obtain ⟨e, there, rfl⟩ := List.mem_map.mp old
      rw [List.mem_singleton.mp new]
      exact before e.name (passed e there)
    · intro e there
      rcases List.mem_append.mp there with old | new
      · exact listed.true_ e old
      · rw [List.mem_singleton.mp new]
        exact ⟨fitting.1, fun path => listed.findNode, c, member, rfl, rfl⟩
    · refine List.mem_map.mpr ⟨_, handle, ?_⟩
      rw [if_pos rfl]
    · intro e there
      rcases List.mem_append.mp there with old | new
      · refine ⟨rfl, ?_⟩
        rw [before e.name (passed e old)]
        exact Ordering.noConfusion
      · rw [List.mem_singleton.mp new]
        refine ⟨rfl, ?_⟩
        rw [strcmp, Std.compare_self]
        exact Ordering.noConfusion
    · rintro name present ⟨-, le⟩
      rw [List.map_append, List.mem_append]
      by_cases old : Passed lastName started name
      · left
        exact complete name (fun t' seen' => present t' (List.mem_cons_of_mem _ seen')) old
      · right
        obtain ⟨a, child, rfl⟩ := present s (List.mem_cons_of_mem _ listed.now)
        have passes : (!(started && strcmp (s.node a).name lastName != .gt)) = true := by
          rw [Bool.not_eq_true', Bool.and_eq_false_iff, bne_eq_false_iff_eq]
          by_contra no
          rw [not_or, Bool.not_eq_false] at no
          exact old no
        rcases sorted.find?_least next child passes with rfl | lt
        · exact List.mem_singleton_self _
        · exact absurd (Std.OrientedCmp.gt_of_lt lt) le

theorem Listed.complete {name : Name} (listed : Listed maxPathLen start d dir seen entries s)
    (found : s.handleAt d = some h) (ended : (s.devfsReaddir maxPathLen nameLen h).1 = none)
    (present : ∀ t ∈ seen, HasChild dir name t) : name ∈ entries.map Entry.name := by
  obtain ⟨lastName, started, handle, -, complete⟩ := listed.position
  obtain ⟨found, addr⟩ := handleAt_mem found
  obtain rfl := listed.good.held.unique handle found addr.symm
  refine complete name present ?_
  rw [devfsReaddir] at ended
  dsimp only at ended
  cases next : s.nextChild lastName started (s.node dir).children with
  | some c =>
    rw [next] at ended
    cases ended
  | none =>
    obtain ⟨a, child, rfl⟩ := present s listed.now
    have passed := List.find?_eq_none.mp next a child
    rw [Bool.not_eq_true', Bool.not_eq_false, Bool.and_eq_true, bne_iff_ne] at passed
    exact passed

theorem Listing.listed (reached : Reached maxPathLen nameLen start)
    (opened : ⟨d, dir, .dir [] false⟩ ∈ start.handles)
    (run : Listing maxPathLen nameLen start d seen entries s)
    (fits : ∀ t ∈ seen, ∀ c ∈ (t.node dir).children, (t.node c).name.length ≤ nameLen) :
    Listed maxPathLen start d dir seen entries s := by
  induction run with
  | opened =>
    refine ⟨reached.good.sound, reached.good, fun _ => id, reached.named, List.mem_singleton_self _,
      List.Pairwise.nil,
      (fun e no => nomatch no), [], false, opened, (fun e no => nomatch no), ?_⟩
    rintro name - ⟨no, -⟩
    cases no
  | register path ops userData answers before possible ih =>
    have listed := ih fun t member => fits t (List.mem_cons_of_mem _ member)
    obtain ⟨files, after⟩ := register_after listed.good possible path ops userData
    exact listed.other after (listed.named.register ops userData answers)
  | unregister path before ih =>
    have listed := ih fun t member => fits t (List.mem_cons_of_mem _ member)
    obtain ⟨files, after⟩ := (listed.good.unregister maxPathLen path).after listed.good
    exact listed.other after listed.named.unregister
  | entry before found returned ih =>
    have listed := ih fun t member => fits t (List.mem_cons_of_mem _ member)
    exact listed.entry (fits _ (List.mem_cons_of_mem _ listed.now)) found returned

/-- A listing is strictly ordered and names children of their moments with their types, and when it
ends it has each child that was there all the time once. -/
theorem readdir_stable (maxPathLen nameLen : Nat) (start s : State) (d dir : Addr)
    (seen : List State) (entries : List Entry) (reached : Reached maxPathLen nameLen start)
    (opened : ⟨d, dir, .dir [] false⟩ ∈ start.handles)
    (run : Listing maxPathLen nameLen start d seen entries s)
    (fits : ∀ t ∈ seen, ∀ c ∈ (t.node dir).children, (t.node c).name.length ≤ nameLen) :
    (entries.map Entry.name).Pairwise (fun a b => strcmp a b = .lt) ∧
    (∀ e ∈ entries, e.name ≠ [] ∧
      (∀ path, start.findNode maxPathLen path = some dir →
        e.moment.findNode maxPathLen path = some dir) ∧
      ∃ c ∈ (e.moment.node dir).children,
        (e.moment.node c).name = e.name ∧ (e.moment.node c).type = e.type) ∧
    ∃ h, s.handleAt d = some h ∧ h.node = dir ∧ ((s.devfsReaddir maxPathLen nameLen h).1 = none →
        ∀ name, (∀ t ∈ seen, HasChild dir name t) → (entries.map Entry.name).count name = 1) := by
  have listed := run.listed reached opened fits
  obtain ⟨lastName, started, handle, -, -⟩ := listed.position
  refine ⟨listed.ordered, listed.true_, ⟨d, dir, .dir lastName started⟩,
    listed.good.held.handleAt handle, rfl, fun ended name present => ?_⟩
  have member := listed.complete (listed.good.held.handleAt handle) ended present
  exact List.count_eq_one_of_mem (nodup_of_ordered listed.ordered) member

def afterLeaf : State :=
  (withLeaf.devfsRegisterFile 64 (some (ascii "/c")) (some .zero) 0 fun i => some (i + 2)).2

def openedRoot : State := (afterLeaf.devfsOpendir 64 (some (ascii "/")) (some 3)).2

theorem openedRoot_reached : Reached 64 32 openedRoot := by
  have few {s : State} (short : s.handles.length < 2) : s.Bounded := fun a =>
    Nat.lt_of_le_of_lt List.countP_le_length (Nat.lt_trans short (by decide))
  have leaf : Reached 64 32 withLeaf :=
    have possible : (Action.register leafPath (some .zero) 0 fun i =>
      some (i + 1)).Possible .boot :=
      registerLeaf_possible
    .step .boot possible rfl (few (by decide))
  have second : (Action.register (some (ascii "/c")) (some .zero) 0 fun i =>
      some (i + 2)).Possible withLeaf := by
    refine ⟨?_, ?_⟩
    · rintro i a answer
      cases answer
      have live : withLeaf.live = {1, root} := rfl
      refine ⟨?_, fun h member => by cases member⟩
      rw [live]
      simp [root]
    · rintro i j a first second
      cases first
      cases second
      rfl
  have opens : (Action.opendir (some (ascii "/")) (some 3)).Possible afterLeaf := by
    rintro a answer
    cases answer
    exact ⟨by decide, fun h member => by cases member⟩
  exact (leaf.step second rfl (few (by decide))).step opens rfl (few (by decide))

def rootAt (lastName : Name) (started : Bool) : Handle := ⟨3, root, .dir lastName started⟩

def pastA : State := (openedRoot.devfsReaddir 64 32 (rootAt [] false)).2

def withB : State :=
  (pastA.devfsRegisterFile 64 (some (ascii "/b")) (some .zero) 0 fun i => some (i + 4)).2

def pastB : State := (withB.devfsReaddir 64 32 (rootAt (ascii "a") true)).2

def withoutA : State := (pastB.devfsUnregisterFile 64 leafPath).2

def pastC : State := (withoutA.devfsReaddir 64 32 (rootAt (ascii "b") true)).2

theorem rootListing : Listing 64 32 openedRoot 3 [pastC, withoutA, pastB, withB, pastA, openedRoot]
    [⟨openedRoot, ascii "a", .file⟩, ⟨withB, ascii "b", .file⟩, ⟨withoutA, ascii "c", .file⟩]
    pastC := by
  have possible : pastA.Answers fun i => some (i + 4) := by
    refine ⟨?_, ?_⟩
    · rintro i a answer
      cases answer
      have live : pastA.live = {2, 1, root} := rfl
      have handles : pastA.handles = [rootAt (ascii "a") true] := rfl
      refine ⟨?_, ?_⟩
      · rw [live]
        simp [root]
      · rw [handles]
        simp [rootAt]
    · rintro i j a first second
      cases first
      cases second
      rfl
  have first : openedRoot.devfsReaddir 64 32 (rootAt [] false) = (some (ascii "a", .file), pastA) :=
    rfl
  have second : withB.devfsReaddir 64 32 (rootAt (ascii "a") true) =
      (some (ascii "b", .file), pastB) := rfl
  have third : withoutA.devfsReaddir 64 32 (rootAt (ascii "b") true) =
      (some (ascii "c", .file), pastC) := rfl
  have heldA : openedRoot.handleAt 3 = some (rootAt [] false) := rfl
  have heldB : withB.handleAt 3 = some (rootAt (ascii "a") true) := rfl
  have heldC : withoutA.handleAt 3 = some (rootAt (ascii "b") true) := rfl
  have listed := Listing.register (some (ascii "/b")) (some .zero) 0 _
    (Listing.entry .opened heldA first) possible
  exact ((listed.entry heldB second).unregister leafPath).entry heldC third

/-- `/b` comes and `/a` goes while the root is listed; `/c` is there all the time and is listed
once. -/
theorem readdir_stable_changes :
    [ascii "a", ascii "b", ascii "c"].Pairwise (fun a b => strcmp a b = .lt) ∧
      ∃ h, pastC.handleAt 3 = some h ∧ (pastC.devfsReaddir 64 32 h).1 = none ∧
        [ascii "a", ascii "b", ascii "c"].count (ascii "c") = 1 := by
  have fits : ∀ t ∈ [pastC, withoutA, pastB, withB, pastA, openedRoot],
      ∀ c ∈ (t.node root).children, (t.node c).name.length ≤ 32 := by
    decide
  have stays : ∀ t ∈ [pastC, withoutA, pastB, withB, pastA, openedRoot],
      ∃ c ∈ (t.node root).children, (t.node c).name = ascii "c" := by
    decide
  obtain ⟨ordered, -, h, held, -, complete⟩ := readdir_stable 64 32 openedRoot pastC 3 root _ _
    openedRoot_reached (by decide) rootListing fits
  have last : pastC.handleAt 3 = some (rootAt (ascii "c") true) := rfl
  obtain rfl := Option.some.inj (held.symm.trans last)
  have ended : (pastC.devfsReaddir 64 32 (rootAt (ascii "c") true)).1 = none := rfl
  exact ⟨ordered, _, last, ended, complete ended (ascii "c") stays⟩

def withDir : State :=
  (State.boot.devfsRegisterFile 64 (some (ascii "/d/a")) (some .zero) 0 fun i => some (i + 1)).2

/-- `/d` was opened `n` times and never closed. -/
def crowdedDir (n : Nat) : State :=
  withDir.recount 1 (UInt16.ofNat n) (crowdHandles (.dir [] false) 3 n)

theorem crowdedDir_open (n : Nat) :
    (Call.opendir (some (ascii "/d")) (some (n + 3))).exec 64 32 (crowdedDir n) =
      some (0, crowdedDir (n + 1)) := by
  have found : (crowdedDir n).findNode 64 (some (ascii "/d")) = some 1 := rfl
  have type : ((crowdedDir n).node 1).type = .dir := rfl
  have count : ((crowdedDir n).node 1).openCount + 1 = UInt16.ofNat (n + 1) :=
    (UInt16.ofNat_add n 1).symm
  rw [Call.exec, devfsOpendir, acquire_eq found, if_neg fun other => other type, count, crowdedDir,
    recount_recount]
  rfl

theorem crowdedDir_runs (n : Nat) :
    ∃ trace, Runs 64 32 (fun s call => call.Possible s) .boot trace (crowdedDir n) := by
  have start : (Call.register (some (ascii "/d/a")) (some .zero) 0 fun i => some (i + 1)).exec 64 32
      .boot = some (0, crowdedDir 0) := by
    rw [crowdedDir, crowdHandles, show UInt16.ofNat 0 = 0 from rfl, recount_zero rfl rfl]
    rfl
  have fresh : (Call.register (some (ascii "/d/a")) (some .zero) 0 fun i => some (i + 1)).Possible
      .boot := registerLeaf_possible
  refine repeated_runs fresh start ?_ crowdedDir_open n
  rintro n a answer
  cases answer
  have live : (crowdedDir n).live = {2, 1, root} := rfl
  refine ⟨?_, fun h member => Nat.ne_of_lt (mem_crowdHandles member).2.2⟩
  rw [live]
  simp [root]

/-- The last file of `/d` goes while it is opened 2^16 times, and its node with it. -/
def freedDir : State := ((crowdedDir (2 ^ 16)).devfsUnregisterFile 64 (some (ascii "/d/a"))).2

def freedNodes (i : Nat) : Option Addr := if i < 2 then some (i + 1) else none

theorem freedNodes_possible : freedDir.Answers freedNodes := by
  have live : freedDir.live = {root} := rfl
  refine ⟨?_, ?_⟩
  · intro i a answer
    unfold freedNodes at answer
    split_ifs at answer with below
    cases answer
    refine ⟨?_, fun h member same => ?_⟩
    · rw [live]
      simp [root]
    · have above : 3 ≤ h.addr := (mem_crowdHandles (n := 2 ^ 16) member).2.1
      rw [same] at above
      exact absurd above (Nat.not_le_of_lt (Nat.succ_lt_succ below))
  · intro i j a first second
    unfold freedNodes at first second
    split_ifs at first second
    cases first
    cases second
    rfl

/-- With 2^16 handles of `/d` its count is 0 again: it is freed with its last file, and a handle
lists whatever directory gets its memory next. -/
theorem crowded_listing_strays : ∃ trace start d dir seen entries s,
    Runs 64 32 (fun s call => call.Possible s) .boot trace start ∧
      start.findNode 64 (some (ascii "/d")) = some dir ∧
      ⟨d, dir, .dir [] false⟩ ∈ start.handles ∧ Listing 64 32 start d seen entries s ∧
      ∃ e ∈ entries, e.moment.findNode 64 (some (ascii "/d")) = none := by
  obtain ⟨trace, run⟩ := crowdedDir_runs (2 ^ 16)
  let other := (freedDir.devfsRegisterFile 64 (some (ascii "/e/b")) (some .zero) 0 freedNodes).2
  have head : (crowdedDir (2 ^ 16)).handles = ⟨2 ^ 16 + 2, 1, .dir [] false⟩ ::
      crowdHandles (.dir [] false) 3 (2 ^ 16 - 1) := rfl
  have found : other.handleAt (2 ^ 16 + 2) = some ⟨2 ^ 16 + 2, 1, .dir [] false⟩ := by
    have same : other.handles = (crowdedDir (2 ^ 16)).handles := rfl
    rw [handleAt, same, head]
    exact List.find?_cons_of_pos (decide_eq_true rfl)
  have returned : other.devfsReaddir 64 32 ⟨2 ^ 16 + 2, 1, .dir [] false⟩ =
      (some (ascii "b", .file), _) := rfl
  have listing := Listing.entry (.register (some (ascii "/e/b")) (some .zero) 0 freedNodes
    (.unregister (some (ascii "/d/a")) .opened) freedNodes_possible) found returned
  refine ⟨trace, _, _, 1, _, _, _, run, rfl, ?_, listing, _, List.mem_singleton_self _, rfl⟩
  rw [head]
  exact List.mem_cons_self

end Listings

end Webos.Devfs
