/- digest: No handle of devfs dangles, in whatever order the clients' critical sections run. -/

import Webos.Devfs.Refines

namespace Webos.Devfs

open Webos.Lib.LinkedTree
open State

/-- A critical section of some client. A driver's `open` and `close` run between two of them,
when other clients may run too. -/
inductive Action where
  | register (path : Option (List UInt8)) (ops : Option FileOps) (userData : Addr)
      (answers : Nat → Option Addr)
  | unregister (path : Option (List UInt8))
  | openBegin (path : Option (List UInt8)) (answer : Option Addr)
  | openEnd (file : Addr) (callback : Int)
  | closeBegin (file : Addr)
  | closeEnd (file : Addr) (callback : Int)
  | opendir (path : Option (List UInt8)) (answer : Option Addr)
  | readdir (dir : Addr)
  | closedir (dir : Addr)

def Action.Possible (s : State) : Action → Prop
  | .register path ops userData answers => (Call.register path ops userData answers).Possible s
  | .openBegin _ answer => ∀ a, answer = some a → s.Unused a
  | .opendir _ answer => ∀ a, answer = some a → s.Unused a
  | _ => True

/-- What an action leaves, if the handle it names is in its phase. -/
def Action.next (maxPathLen nameLen : Nat) (s : State) : Action → Option State
  | .register path ops userData answers =>
    some (s.devfsRegisterFile maxPathLen path ops userData answers).2
  | .unregister path => some (s.devfsUnregisterFile maxPathLen path).2
  | .openBegin path answer => some (s.openBegin maxPathLen path answer).2
  | .openEnd a callback =>
    match s.handleAt a with
    | some ⟨a, node, .file .opening⟩ => some (s.openEnd ⟨a, node, .file .opening⟩ callback).2
    | _ => none
  | .closeBegin a =>
    match s.handleAt a with
    | some ⟨a, node, .file .opened⟩ => some (s.closeBegin ⟨a, node, .file .opened⟩)
    | _ => none
  | .closeEnd a callback =>
    match s.handleAt a with
    | some ⟨a, node, .file .closing⟩ => some (s.closeEnd ⟨a, node, .file .closing⟩ callback).2
    | _ => none
  | .opendir path answer => some (s.devfsOpendir maxPathLen path answer).2
  | .readdir a =>
    match s.handleAt a with
    | some ⟨a, node, .dir lastName started⟩ =>
      some (s.devfsReaddir maxPathLen nameLen ⟨a, node, .dir lastName started⟩).2
    | _ => none
  | .closedir a =>
    match s.handleAt a with
    | some ⟨a, node, .dir lastName started⟩ =>
      some (s.devfsClosedir ⟨a, node, .dir lastName started⟩).2
    | _ => none

namespace State

def Bounded (s : State) : Prop := ∀ a, s.users a < 2 ^ 16

/-- A node is allocated and linked to the root by its parents. -/
inductive Chained (s : State) : Addr → Prop where
  | root (alive : root ∈ s.live) : Chained s root
  | child {a c : Addr} (alive : c ∈ s.live) (parent : (s.node c).parent = some a)
      (member : c ∈ (s.node a).children) (above : Chained s a) : Chained s c

def Persists (s t : State) : Prop :=
  ∀ h ∈ t.handles, h.node ∈ s.live ∧ h.node ∈ t.live ∧
    ∀ p, s.links.node p = some h.node → t.links.node p = some h.node

variable {s t : State}

theorem Sound.chained (sound : s.Sound) {a : Addr} {p : List Name}
    (here : s.links.node p = some a) : s.Chained a := by
  induction p using List.reverseRecOn generalizing a with
  | nil =>
    cases here
    exact .root sound.linked.rooted
  | append_singleton p k ih =>
    obtain ⟨b, above, member, -⟩ := sound.linked.node_snoc_iff.mp here
    obtain ⟨alive, parent⟩ := sound.linked.child b (sound.linked.node_live above) a member
    exact .child alive parent member (ih above)

theorem Good.persists (good : t.Good) (sound : s.Sound)
    (back : ∀ h ∈ t.handles, ∃ p, s.links.node p = some h.node ∧ t.links.node p = some h.node) :
    Persists s t := by
  intro h member
  obtain ⟨p, before, after⟩ := back h member
  refine ⟨sound.linked.node_live before, good.sound.linked.node_live after, ?_⟩
  intro q there
  rw [sound.linked.node_injective there before]
  exact after

theorem Good.persists_of_links (good : t.Good) (sound : s.Sound) (links : t.links = s.links) :
    Persists s t := by
  apply good.persists sound
  intro h member
  obtain ⟨p, i, here, -⟩ := good.held.node h member
  have after := (entry_eq_some.mp here).1
  exact ⟨p, links ▸ after, after⟩

theorem After.persists {files : List Name → Option (FileOps × Addr)} (after : After s t files)
    (sound : s.Sound) (held : s.Held) : Persists s t := by
  apply after.good.persists sound
  intro h member
  rw [after.handles] at member
  obtain ⟨p, i, here, -⟩ := held.node h member
  have there := after.steady p h.node i here (held.used member here)
  exact ⟨p, (entry_eq_some.mp here).1, (entry_eq_some.mp there).1⟩

end State

variable {s t : State} {maxPathLen nameLen : Nat} {path : Option (List UInt8)} {h : Handle}

theorem links_dropHandle : (s.dropHandle h).links = s.links :=
  links_modify (s := s) (a := h.node) (f := fun n => { n with openCount := n.openCount - 1 })
    rfl rfl rfl

def State.Upheld (s t : State) : Prop := t.Good ∧ Persists s t

theorem upheld_refl (good : s.Good) : s.Upheld s :=
  ⟨good, good.persists_of_links good.sound rfl⟩

theorem upheld_after {files : List Name → Option (FileOps × Addr)} (good : s.Good)
    (after : After s t files) : s.Upheld t :=
  ⟨after.good, after.persists good.sound good.held⟩

theorem upheld_setKind (good : s.Good) {kind : HandleKind} (type : kind.type = h.kind.type) :
    s.Upheld (s.setKind h kind) := by
  have good' := good_setKind good type
  exact ⟨good', good'.persists_of_links good.sound rfl⟩

theorem upheld_dropHandle (good : s.Good) (member : h ∈ s.handles) (kind : h.kind.type = .file) :
    s.Upheld (s.dropHandle h) := by
  have good' := good.close member kind
  exact ⟨good', good'.persists_of_links good.sound links_dropHandle⟩

variable {answers : Nat → Option Addr}

theorem register_after (good : s.Good) (ok : s.Answers answers) (path : Option (List UInt8))
    (ops : Option FileOps) (userData : Addr) :
    ∃ files, After s (s.devfsRegisterFile maxPathLen path ops userData answers).2 files := by
  have still : After s s s.file := ⟨good, rfl, fun _ _ _ there _ => there, rfl⟩
  cases ops with
  | none => exact ⟨_, still⟩
  | some ops =>
    by_cases valid : ∃ p, Denotes maxPathLen path p false
    · obtain ⟨p, denotes⟩ := valid
      exact (good.register ok denotes ops userData).after
    · rw [devfsRegisterFile_invalid fun p denotes => valid ⟨p, denotes⟩]
      exact ⟨_, still⟩

theorem upheld_registerFile {ops : Option FileOps} {userData : Addr} (good : s.Good)
    (ok : s.Answers answers) :
    s.Upheld (s.devfsRegisterFile maxPathLen path ops userData answers).2 := by
  obtain ⟨files, after⟩ := register_after good ok path ops userData
  exact upheld_after good after

theorem upheld_acquire {mismatch : Int} {kind : HandleKind} {answer : Option Addr}
    (good : s.Good) (unused : ∀ a, answer = some a → s.Unused a)
    (bounded : (s.acquire maxPathLen path mismatch kind answer).2.Bounded) :
    s.Upheld (s.acquire maxPathLen path mismatch kind answer).2 := by
  cases answer with
  | none => exact upheld_refl good
  | some c =>
    cases found : s.findNode maxPathLen path with
    | none =>
      rw [acquire_absent found]
      exact upheld_refl good
    | some a =>
      obtain ⟨p, -, -, here, -⟩ := good.sound.findNode_eq_some.mp found
      rw [acquire_eq found] at bounded ⊢
      by_cases type : (s.node a).type = kind.type
      · rw [if_neg (not_not.mpr type)] at bounded ⊢
        have room : s.users a + 1 < 2 ^ 16 := by
          have count := bounded a
          unfold users recount at count
          rw [List.countP_cons_of_pos (by simp)] at count
          exact count
        have good' := good.attach here type (unused c rfl).2 room
        refine ⟨good', good'.persists_of_links good.sound ?_⟩
        exact links_modify (s := s) (a := a)
          (f := fun n => { n with openCount := (s.node a).openCount + 1 }) rfl rfl rfl
      · rw [if_pos type] at bounded ⊢
        exact upheld_refl good

theorem devfsOpendir_state {answer : Option Addr} : (s.devfsOpendir maxPathLen path answer).2 =
    (s.acquire maxPathLen path (-ENOTDIR) (.dir [] false) answer).2 := by
  unfold devfsOpendir
  obtain ⟨result, t⟩ := s.acquire maxPathLen path (-ENOTDIR) (.dir [] false) answer
  cases result with
  | error ret => rfl
  | ok h => rfl

theorem upheld_closedir (good : s.Good) (member : h ∈ s.handles) :
    s.Upheld (s.devfsClosedir h).2 := by
  obtain ⟨p, i, there, -⟩ := good.held.node h member
  obtain ⟨sound, -, held, -⟩ := good.detach member (entry_eq_some.mp there).1
  have after := good.closedir member
  refine ⟨after.good, ?_⟩
  have persists := after.persists sound held
  unfold Persists at persists ⊢
  rw [links_dropHandle] at persists
  exact persists

theorem next_rule {action : Action} {P : State → Prop} (possible : action.Possible s)
    (step : action.next maxPathLen nameLen s = some t) (same : P s)
    (register : ∀ path ops userData answers, s.Answers answers →
      P (s.devfsRegisterFile maxPathLen path ops userData answers).2)
    (unregister : ∀ path, P (s.devfsUnregisterFile maxPathLen path).2)
    (acquire : ∀ path mismatch kind answer, (∀ a, answer = some a → s.Unused a) →
      action = .openBegin path answer ∨ action = .opendir path answer →
      P (s.acquire maxPathLen path mismatch kind answer).2)
    (change : ∀ h kind, kind.type = h.kind.type → P (s.setKind h kind))
    (drop : ∀ h ∈ s.handles, h.kind.type = .file → P (s.dropHandle h))
    (closedir : ∀ h ∈ s.handles, P (s.devfsClosedir h).2) : P t := by
  cases action with
  | register path ops userData answers =>
    cases step
    exact register path ops userData answers possible
  | unregister path =>
    cases step
    exact unregister path
  | openBegin path answer =>
    cases step
    exact acquire path _ _ answer possible (Or.inl rfl)
  | openEnd a callback =>
    rw [Action.next] at step
    split at step
    · rename_i c node found
      cases step
      unfold openEnd
      split_ifs
      · exact drop _ (handleAt_mem found).1 rfl
      · exact change _ _ rfl
    · cases step
  | closeBegin a =>
    rw [Action.next] at step
    split at step
    · cases step
      exact change _ _ rfl
    · cases step
  | closeEnd a callback =>
    rw [Action.next] at step
    split at step
    · rename_i c node found
      cases step
      exact drop _ (handleAt_mem found).1 rfl
    · cases step
  | opendir path answer =>
    cases step
    rw [devfsOpendir_state]
    exact acquire path _ _ answer possible (Or.inr rfl)
  | readdir a =>
    rw [Action.next] at step
    split at step
    · cases step
      unfold devfsReaddir
      dsimp only
      split
      · exact same
      · exact change _ _ rfl
    · cases step
  | closedir a =>
    rw [Action.next] at step
    split at step
    · rename_i c node lastName started found
      cases step
      exact closedir _ (handleAt_mem found).1
    · cases step

theorem upheld_next {action : Action} (good : s.Good) (possible : action.Possible s)
    (step : action.next maxPathLen nameLen s = some t) (bounded : t.Bounded) : s.Upheld t := by
  refine next_rule (P := fun t => t.Bounded → s.Upheld t) possible step (fun _ => upheld_refl good)
    ?_ ?_ ?_ ?_ ?_ ?_ bounded
  · intro path ops userData answers ok _
    exact upheld_registerFile good ok
  · intro path _
    obtain ⟨files, after⟩ := (good.unregister maxPathLen path).after good
    exact upheld_after good after
  · intro path mismatch kind answer unused _ bounded
    exact upheld_acquire good unused bounded
  · intro h kind type _
    exact upheld_setKind good type
  · intro h member kind _
    exact upheld_dropHandle good member kind
  · intro h member _
    exact upheld_closedir good member

/-- The states the clients can bring about together while no count overflows. -/
inductive Reached (maxPathLen nameLen : Nat) : State → Prop where
  | boot : Reached maxPathLen nameLen .boot
  | step {s t : State} {action : Action} (before : Reached maxPathLen nameLen s)
      (possible : action.Possible s) (next : action.next maxPathLen nameLen s = some t)
      (bounded : t.Bounded) : Reached maxPathLen nameLen t

theorem Reached.good (reached : Reached maxPathLen nameLen s) : s.Good := by
  induction reached with
  | boot => exact good_boot
  | step before possible next bounded ih => exact (upheld_next ih possible next bounded).1

/-- A node's count is the number of its handles, a handle's node hangs in the tree, and an action
neither frees nor moves a node that has a handle after it. -/
theorem handles_never_dangle (maxPathLen nameLen : Nat) (s : State)
    (reached : Reached maxPathLen nameLen s) :
    (∀ a ∈ s.live, (s.node a).openCount.toNat = s.users a) ∧
    (∀ h ∈ s.handles, s.Chained h.node) ∧
    ∀ (action : Action) (t : State), action.Possible s →
      action.next maxPathLen nameLen s = some t → t.Bounded → s.Persists t := by
  have good := reached.good
  refine ⟨?_, ?_, ?_⟩
  · intro a alive
    obtain ⟨p, here⟩ := good.sound.linked.reached a alive
    exact good.held.count p a _ (entry_of_node here)
  · intro h member
    obtain ⟨p, i, there, -⟩ := good.held.node h member
    exact good.sound.chained (entry_eq_some.mp there).1
  · intro action t possible next bounded
    exact (upheld_next good possible next bounded).2

/-- A file that is being opened has a user, and so it stays when another client asks to remove
it. -/
theorem handles_never_dangle_opening : ∃ s t : State, ∃ h ∈ s.handles, h.kind = .file .opening ∧
    (s.node h.node).openCount.toNat = 1 ∧ s.Chained h.node ∧
    (Action.unregister leafPath).next 64 32 s = some t ∧ s.Persists t := by
  have bounded (n : UInt16) (handles : List Handle) (short : handles.length < 2 ^ 16) :
      (withLeaf.recount 1 n handles).Bounded :=
    fun a => Nat.lt_of_le_of_lt List.countP_le_length short
  have registered : Reached 64 32 (crowd 0) := by
    have possible :
        (Action.register leafPath (some .zero) 0 fun i => some (i + 1)).Possible .boot :=
      registerLeaf_possible
    refine .step .boot possible ?_ (bounded 0 [] (by decide))
    rw [crowd_zero]
    rfl
  have opening : Reached 64 32 (withLeaf.recount 1 1 [⟨2, 1, .file .opening⟩]) := by
    have possible : (Action.openBegin leafPath (some 2)).Possible (crowd 0) := by
      rintro a answer
      cases answer
      exact ⟨by decide, fun h member => nomatch member⟩
    refine .step registered possible ?_ (bounded _ _ (by decide))
    · have found : (crowd 0).findNode 64 leafPath = some 1 := findNode_withLeaf _ _
      rw [Action.next, openBegin, acquire_eq found, if_neg fun other => other rfl, crowd,
        recount_recount]
      rfl
  obtain ⟨count, chained, persists⟩ := handles_never_dangle 64 32 _ opening
  refine ⟨withLeaf.recount 1 1 [⟨2, 1, .file .opening⟩], _, ⟨2, 1, .file .opening⟩,
    List.mem_cons_self, rfl, ?_, ?_, rfl, ?_⟩
  · rfl
  · exact chained _ List.mem_cons_self
  · exact persists (.unregister leafPath) _ trivial rfl (bounded _ _ (by decide))

end Webos.Devfs
