/- digest: What each operation of devfs does to its files and handles. -/

import Mathlib.Algebra.Group.Nat.Defs
import Webos.Devfs.Register

namespace Webos.Devfs

open Webos.Adb (EBUSY EEXIST EINVAL ENOENT ENOMEM)
open Webos.Lib.LinkedTree

namespace State

variable (s : State)

def users (a : Addr) : Nat := s.handles.countP fun h => h.node = a

/-- The handles are distinct, refer to nodes of their own kind, and are counted there. -/
structure Held : Prop where
  distinct : (s.handles.map Handle.addr).Nodup
  node : ∀ h ∈ s.handles, ∃ p i, s.entry p = some (h.node, i) ∧ i.type = h.kind.type
  count : ∀ p a i, s.entry p = some (a, i) → i.openCount.toNat = s.users a

structure Good : Prop where
  sound : s.Sound
  full : s.Full
  held : s.Held

def file (p : List Name) : Option (FileOps × Addr) :=
  (s.entry p).bind fun e => if e.2.type = .file then some (e.2.ops, e.2.userData) else none

variable {s} {s' : State}

theorem file_eq_some {p : List Name} {v : FileOps × Addr} :
    s.file p = some v ↔
      ∃ a i, s.entry p = some (a, i) ∧ i.type = .file ∧ (i.ops, i.userData) = v := by
  unfold file
  rw [Option.bind_eq_some_iff]
  constructor
  · rintro ⟨⟨a, i⟩, here, value⟩
    split_ifs at value with type
    exact ⟨a, i, here, type, Option.some.inj value⟩
  · rintro ⟨a, i, here, type, rfl⟩
    exact ⟨(a, i), here, if_pos type⟩

theorem file_ext {f : List Name → Option (FileOps × Addr)}
    (same : ∀ p v, s.file p = some v ↔ f p = some v) : s.file = f := by
  funext p
  ext v
  exact same p v

theorem Held.used {s : State} (held : s.Held) {h : Handle} (member : h ∈ s.handles)
    {p : List Name} {i : Info} (here : s.entry p = some (h.node, i)) : i.openCount ≠ 0 := by
  intro zero
  have count := held.count p h.node i here
  rw [zero] at count
  have none' := List.countP_eq_zero.mp count.symm h member
  simp at none'

theorem Held.of_unused (sound : s.Sound) (held : s.Held) (handles : s'.handles = s.handles)
    (kept : ∀ p a i, s.entry p = some (a, i) → i.openCount ≠ 0 → s'.entry p = some (a, i))
    (news : ∀ p a i, s'.entry p = some (a, i) →
      s.entry p = some (a, i) ∨ (i.openCount = 0 ∧ a ∉ s.live)) : s'.Held := by
  refine ⟨?_, ?_, ?_⟩
  · rw [handles]
    exact held.distinct
  · intro h member
    rw [handles] at member
    obtain ⟨p, i, here, type⟩ := held.node h member
    exact ⟨p, i, kept p h.node i here (held.used member here), type⟩
  · intro p a i here
    rw [users, handles]
    rcases news p a i here with old | ⟨zero, dead⟩
    · exact held.count p a i old
    · rw [zero, eq_comm]
      refine List.countP_eq_zero.mpr ?_
      intro h member
      obtain ⟨q, j, there, -⟩ := held.node h member
      have alive := sound.linked.node_live (entry_eq_some.mp there).1
      simp only [decide_eq_true_eq]
      rintro rfl
      exact dead alive

section Modify

variable {a : Addr} {f : Node → Node}

structure InPlace (f : Node → Node) : Prop where
  children : ∀ n, (f n).children = n.children
  parent : ∀ n, (f n).parent = n.parent
  name : ∀ n, (f n).name = n.name
  type : ∀ n, (f n).type = n.type

theorem InPlace.links (inPlace : InPlace f) (a : Addr) : (s.modify a f).links = s.links :=
  links_modify (inPlace.children _) (inPlace.parent _) (inPlace.name _)

theorem InPlace.node_type (inPlace : InPlace f) (a x : Addr) :
    ((s.modify a f).node x).type = (s.node x).type := by
  by_cases here : x = a
  · subst here
    rw [node_modify_self, inPlace.type]
  · rw [node_modify_other here]

theorem InPlace.node_children (inPlace : InPlace f) (a x : Addr) :
    ((s.modify a f).node x).children = (s.node x).children := by
  by_cases here : x = a
  · subst here
    rw [node_modify_self, inPlace.children]
  · rw [node_modify_other here]

theorem Sound.modify (sound : s.Sound) (inPlace : InPlace f) (a : Addr) :
    (s.modify a f).Sound := by
  refine ⟨?_, ?_, ?_⟩
  · rw [inPlace.links]
    exact sound.linked
  · rw [inPlace.node_type]
    exact sound.rootDir
  · intro x alive
    rw [inPlace.node_type, inPlace.node_children]
    exact sound.leaf x alive

theorem Sound.entry_modify (sound : s.Sound) (inPlace : InPlace f) {p : List Name}
    (here : s.links.node p = some a) (q : List Name) :
    (s.modify a f).entry q =
      if q = p then some (a, (s.modify a f).info a) else s.entry q := by
  unfold entry
  rw [inPlace.links]
  split_ifs with same
  · subst same
    rw [here]
    rfl
  · cases found : s.links.node q with
    | none => rfl
    | some x =>
      have other : x ≠ a := by
        rintro rfl
        exact same (sound.linked.node_injective found here)
      rw [Option.map_some, Option.map_some, info, node_modify_other other]
      rfl

theorem fullBut_modify (full : s.FullBut a) : (s.modify a f).FullBut a := by
  intro x alive top other
  rw [node_modify_other other]
  exact full x alive top other

end Modify

def Steady (s s' : State) : Prop :=
  ∀ p a i, s.entry p = some (a, i) → i.openCount ≠ 0 → s'.entry p = some (a, i)

/-- A call that leaves the handles alone and makes `files` of the registered files. -/
structure After (s s' : State) (files : List Name → Option (FileOps × Addr)) : Prop where
  good : s'.Good
  files : s'.file = files
  steady : Steady s s'
  handles : s'.handles = s.handles

section Register

variable {x : Addr} {target : List Name}

theorem Grown.refl {s : State} (good : s.Good) (reached : ∃ q, s.links.node q = some x) :
    Grown s s x :=
  ⟨good.sound, fun y alive top _ => good.full y alive top top, reached, fun _ _ there => there, rfl⟩

theorem Good.undo {grown' : State} (good : s.Good) (grown : Grown s grown' x)
    (dirs : ∀ q c i, s.entry q = none → grown'.entry q = some (c, i) →
      i = .fresh .dir ∧ c ∉ s.live) : After s (grown'.pruneEmptyDirs x) s.file := by
  obtain ⟨q, reached⟩ := grown.reached
  have pruned := pruneEmptyDirs_pruned grown.sound grown.fullBut reached
  have back {p : List Name} {a : Addr} {i : Info} (there : (grown'.pruneEmptyDirs x).entry p =
      some (a, i)) : s.entry p = some (a, i) ∨ (i = .fresh .dir ∧ a ∉ s.live) := by
    have before := pruned.less p _ there
    cases old : s.entry p with
    | none => exact Or.inr (dirs p a i old before)
    | some e =>
      rw [grown.old p e old] at before
      exact Or.inl before
  have steady : Steady s (grown'.pruneEmptyDirs x) := by
    intro p a i there used
    exact pruned.kept p a i (grown.old p _ there) (Or.inr used)
  have handles := pruned.handles.trans grown.handles
  refine ⟨⟨pruned.sound, pruned.full, ?_⟩, ?_, steady, handles⟩
  · refine Held.of_unused good.sound good.held handles steady ?_
    intro p a i there
    rcases back there with old | ⟨rfl, dead⟩
    · exact Or.inl old
    · exact Or.inr ⟨rfl, dead⟩
  · apply file_ext
    intro p v
    rw [file_eq_some, file_eq_some]
    constructor
    · rintro ⟨a, i, there, type, value⟩
      rcases back there with old | ⟨rfl, -⟩
      · exact ⟨a, i, old, type, value⟩
      · cases type
    · rintro ⟨a, i, there, type, value⟩
      exact ⟨a, i, pruned.kept p a i (grown.old p _ there) (Or.inl type), type, value⟩

theorem Good.bind {grown' : State} (good : s.Good) (grown : Grown s grown' x)
    (dirs : DirsBut s grown' target) (absent : s.links.node target = none)
    (here : grown'.entry target = some (x, .fresh .file)) (new : x ∉ s.live) (ops : FileOps)
    (userData : Addr) :
    After s (grown'.modify x fun n => { n with ops := ops, userData := userData })
      (Function.update s.file target (some (ops, userData))) := by
  have inPlace : InPlace fun n => { n with ops := ops, userData := userData } :=
    ⟨fun _ => rfl, fun _ => rfl, fun _ => rfl, fun _ => rfl⟩
  obtain ⟨there, fresh⟩ := entry_eq_some.mp here
  have entries := grown.sound.entry_modify inPlace there
  have info : (grown'.modify x fun n => { n with ops := ops, userData := userData }).info x =
      ⟨.file, ops, userData, 0⟩ := by
    have type : (grown'.node x).type = .file := congrArg Info.type fresh
    have unused : (grown'.node x).openCount = 0 := congrArg Info.openCount fresh
    rw [State.info, node_modify_self, type, unused]
  rw [info] at entries
  have missing : s.entry target = none := by
    rw [entry, absent]
    rfl
  have old {p : List Name} {e : Addr × Info} (before : s.entry p = some e) :
      (grown'.modify x fun n => { n with ops := ops, userData := userData }).entry p = some e := by
    rw [entries, if_neg, grown.old p e before]
    rintro rfl
    rw [missing] at before
    cases before
  have back {p : List Name} {a : Addr} {i : Info} (other : p ≠ target)
      (after : grown'.entry p = some (a, i)) :
      s.entry p = some (a, i) ∨ (i = .fresh .dir ∧ a ∉ s.live) := by
    cases before : s.entry p with
    | none => exact Or.inr (dirs p a i other before after)
    | some e =>
      rw [grown.old p e before] at after
      exact Or.inl after
  have steady : Steady s (grown'.modify x fun n => { n with ops := ops, userData := userData }) :=
    fun p a i before _ => old before
  refine ⟨⟨grown.sound.modify inPlace x, ?_, ?_⟩, ?_, steady, grown.handles⟩
  · intro y alive top _ type
    have other : y ≠ x := by
      rintro rfl
      rw [inPlace.node_type] at type
      rw [show (grown'.node y).type = .file from congrArg Info.type fresh] at type
      cases type
    rw [node_modify_other other] at type ⊢
    exact grown.fullBut y alive top other type
  · refine Held.of_unused good.sound good.held grown.handles steady ?_
    intro p a i after
    rw [entries] at after
    split_ifs at after with same
    · cases after
      exact Or.inr ⟨rfl, new⟩
    · rcases back same after with before | ⟨rfl, dead⟩
      · exact Or.inl before
      · exact Or.inr ⟨rfl, dead⟩
  · apply file_ext
    intro p v
    rw [file_eq_some]
    by_cases same : p = target
    · subst same
      rw [Function.update_self, entries, if_pos rfl]
      constructor
      · rintro ⟨a, i, after, -, rfl⟩
        cases after
        rfl
      · rintro value
        cases value
        exact ⟨x, _, rfl, rfl, rfl⟩
    · rw [Function.update_of_ne same, file_eq_some]
      constructor
      · rintro ⟨a, i, after, type, value⟩
        rw [entries, if_neg same] at after
        rcases back same after with before | ⟨rfl, -⟩
        · exact ⟨a, i, before, type, value⟩
        · cases type
      · rintro ⟨a, i, before, type, value⟩
        exact ⟨a, i, old before, type, value⟩

variable {maxPathLen : Nat} {path : Option (List UInt8)} {p : List Name} {ops : FileOps}
  {userData : Addr} {answers : Nat → Option Addr}

theorem devfsRegisterFile_of_denotes (denotes : Denotes maxPathLen path p false) :
    s.devfsRegisterFile maxPathLen path (some ops) userData answers =
      let (ret, parent, s) := s.registerRounds answers root (rounds p false)
      if ret = 0 then (0, s.modify parent fun n => { n with ops := ops, userData := userData })
      else (ret, s.pruneEmptyDirs parent) := by
  have valid : validatePath maxPathLen path false = some (render p false) :=
    validatePath_eq_some.mpr ⟨p, false, denotes, rfl, fun no => nomatch no⟩
  have inner : render p false ≠ [slash] := by
    intro whole
    have ends := denotes.root (denotes.root_iff.mp whole)
    cases ends
  unfold devfsRegisterFile
  rw [valid]
  dsimp only
  rw [if_neg inner, components_render denotes.valid]

theorem devfsRegisterFile_invalid (invalid : ∀ p, ¬Denotes maxPathLen path p false)
    (ops : Option FileOps) :
    s.devfsRegisterFile maxPathLen path ops userData answers = (-EINVAL, s) := by
  unfold devfsRegisterFile
  cases ops with
  | none => rfl
  | some ops =>
    cases valid : validatePath maxPathLen path false with
    | none => rfl
    | some rel =>
      obtain ⟨p, trailing, denotes, rfl, ends⟩ := validatePath_eq_some.mp valid
      cases trailing with
      | false => exact absurd denotes (invalid p)
      | true =>
        rcases ends rfl with no | rfl
        · cases no
        · rfl

/-- How registration ends: what stands in the way is left alone, and what was made in vain is
gone. -/
inductive Registered (s : State) (answers : Nat → Option Addr) (target : List Name)
    (v : FileOps × Addr) : Int × State → Prop where
  | present {b : Addr} {s' : State} (found : s.links.node target = some b)
      (after : After s s' s.file) :
      Registered s answers target v (if (s.node b).type = .file then -EEXIST else -EISDIR, s')
  | below {b : Addr} {q r : List Name} {s' : State} (absent : s.links.node target = none)
      (split : target = q ++ r) (found : s.links.node q = some b) (file : (s.node b).type = .file)
      (after : After s s' s.file) : Registered s answers target v (-ENOTDIR, s')
  | refused {s' : State} (absent : s.links.node target = none)
      (clear : ∀ q r b, target = q ++ r → s.links.node q = some b → (s.node b).type = .dir)
      (fails : ∃ i < s.missing target, answers i = none) (after : After s s' s.file) :
      Registered s answers target v (-ENOMEM, s')
  | added {s' : State} (absent : s.links.node target = none)
      (clear : ∀ q r b, target = q ++ r → s.links.node q = some b → (s.node b).type = .dir)
      (succeeds : ∀ i < s.missing target, answers i ≠ none)
      (after : After s s' (Function.update s.file target (some v))) :
      Registered s answers target v (0, s')

theorem Registered.after {v : FileOps × Addr} {out : Int × State}
    (registered : Registered s answers target v out) : ∃ files, After s out.2 files := by
  cases registered with
  | present found after => exact ⟨_, after⟩
  | below absent split found file after => exact ⟨_, after⟩
  | refused absent clear fails after => exact ⟨_, after⟩
  | added absent clear succeeds after => exact ⟨_, after⟩

theorem Good.register (good : s.Good) (ok : s.Answers answers)
    (denotes : Denotes maxPathLen path p false) (ops : FileOps) (userData : Addr) :
    Registered s answers p (ops, userData)
      (s.devfsRegisterFile maxPathLen path (some ops) userData answers) := by
  have some' : p ≠ [] := by
    intro top
    cases denotes.root top
  have outcome : Outcome s answers p (s.registerRounds answers root (rounds p false)) :=
    good.sound.descend good.full ok p some' (p := []) rfl good.sound.rootDir
  have still {x : Addr} (above : ∃ q, s.links.node q = some x) :
      After s (s.pruneEmptyDirs x) s.file := by
    apply good.undo (Grown.refl good above)
    intro q c i absent there
    rw [absent] at there
    cases there
  rw [devfsRegisterFile_of_denotes denotes]
  generalize s.registerRounds answers root (rounds p false) = result at outcome
  cases outcome with
  | @present b x found above =>
    have fails : (if (s.node b).type = .file then -EEXIST else -EISDIR) ≠ 0 := by
      split_ifs
      all_goals decide
    dsimp only
    rw [if_neg fails]
    exact .present found (still above)
  | @below b x q r split proper found file above =>
    have absent : s.links.node p = none := by
      obtain ⟨k, r, rfl⟩ := List.exists_cons_of_ne_nil proper
      rw [split, Links.node_append, found, Option.bind_some, Links.walk_cons,
        good.sound.childless_file (good.sound.linked.node_live found) file]
      rfl
    have type : (s.node b).type = .file := by
      cases kind : (s.node b).type with
      | file => rfl
      | dir => exact absurd kind file
    exact .below absent split found type (still above)
  | created absent clear created =>
    cases created with
    | refused fails grown dirs missing =>
      refine .refused absent clear fails (good.undo grown ?_)
      intro q c i none' there
      refine dirs q c i ?_ none' there
      rintro rfl
      rw [missing] at there
      cases there
    | added succeeds grown dirs here new =>
      exact .added absent clear succeeds (good.bind grown dirs absent here new ops userData)

end Register

section Unregister

theorem Good.unbind {p : List Name} {k : Name} {a c : Addr} (good : s.Good)
    (above : s.links.node p = some a) (here : s.links.node (p ++ [k]) = some c)
    (type : (s.node c).type = .file) (unused : (s.node c).openCount = 0) :
    After s (((s.unlinkChild c).kFree c).pruneEmptyDirs a)
      (Function.update s.file (p ++ [k]) none) := by
  have empty := good.sound.leaf c (good.sound.linked.node_live here) type
  have entries := good.sound.entry_unlink above here empty
  have bare : s.FullBut c := fun y alive top _ => good.full y alive top top
  have still : ((s.unlinkChild c).kFree c).links.node p = some a := by
    have same := entries p
    rw [if_neg (by simp), entry_of_node above] at same
    exact (entry_eq_some.mp same).1
  have pruned := pruneEmptyDirs_pruned (good.sound.unlink above here empty)
    (fullBut_unlink good.sound bare above here) still
  have back {q : List Name} {e : Addr × Info}
      (there : (((s.unlinkChild c).kFree c).pruneEmptyDirs a).entry q = some e) :
      q ≠ p ++ [k] ∧ s.entry q = some e := by
    have before := pruned.less q e there
    rw [entries] at before
    split_ifs at before with same
    exact ⟨same, before⟩
  have kept {q : List Name} {b : Addr} {i : Info} (other : q ≠ p ++ [k])
      (before : s.entry q = some (b, i)) (needed : i.type = .file ∨ i.openCount ≠ 0) :
      (((s.unlinkChild c).kFree c).pruneEmptyDirs a).entry q = some (b, i) := by
    apply pruned.kept q b i _ needed
    rw [entries, if_neg other, before]
  have steady : Steady s (((s.unlinkChild c).kFree c).pruneEmptyDirs a) := by
    intro q b i before used
    refine kept ?_ before (Or.inr used)
    rintro rfl
    obtain ⟨same, rfl⟩ := entry_eq_some.mp before
    cases here.symm.trans same
    exact used unused
  have handles : (((s.unlinkChild c).kFree c).pruneEmptyDirs a).handles = s.handles := by
    rw [pruned.handles, unlinkChild_eq (good.sound.parent_eq above here)]
    rfl
  refine ⟨⟨pruned.sound, pruned.full, ?_⟩, ?_, steady, handles⟩
  · exact Held.of_unused good.sound good.held handles steady
      fun q b i there => Or.inl (back there).2
  · apply file_ext
    intro q v
    rw [file_eq_some]
    by_cases same : q = p ++ [k]
    · subst same
      rw [Function.update_self]
      constructor
      · rintro ⟨b, i, there, -, -⟩
        exact absurd rfl (back there).1
      · intro value
        cases value
    · rw [Function.update_of_ne same, file_eq_some]
      constructor
      · rintro ⟨b, i, there, file, value⟩
        exact ⟨b, i, (back there).2, file, value⟩
      · rintro ⟨b, i, there, file, value⟩
        exact ⟨b, i, kept same there (Or.inl file), file, value⟩

inductive Unregistered (s : State) (maxPathLen : Nat) (path : Option (List UInt8)) :
    Int × State → Prop where
  | absent (missing : s.findNode maxPathLen path = none) :
      Unregistered s maxPathLen path (-ENOENT, s)
  | dir {c : Addr} (found : s.findNode maxPathLen path = some c) (type : (s.node c).type = .dir) :
      Unregistered s maxPathLen path (-EISDIR, s)
  | busy {c : Addr} (found : s.findNode maxPathLen path = some c)
      (type : (s.node c).type = .file) (used : (s.node c).openCount ≠ 0) :
      Unregistered s maxPathLen path (-EBUSY, s)
  | removed {c : Addr} {p : List Name} {s' : State} (found : s.findNode maxPathLen path = some c)
      (here : s.links.node p = some c) (type : (s.node c).type = .file)
      (unused : (s.node c).openCount = 0) (after : After s s' (Function.update s.file p none)) :
      Unregistered s maxPathLen path (0, s')

theorem Unregistered.after {maxPathLen : Nat} {path : Option (List UInt8)} {out : Int × State}
    (good : s.Good) (unregistered : Unregistered s maxPathLen path out) :
    ∃ files, After s out.2 files := by
  have still : After s s s.file := ⟨good, rfl, fun _ _ _ here _ => here, rfl⟩
  cases unregistered with
  | absent missing => exact ⟨_, still⟩
  | dir found type => exact ⟨_, still⟩
  | busy found type used => exact ⟨_, still⟩
  | removed found here type unused after => exact ⟨_, after⟩

theorem Good.unregister (good : s.Good) (maxPathLen : Nat) (path : Option (List UInt8)) :
    Unregistered s maxPathLen path (s.devfsUnregisterFile maxPathLen path) := by
  unfold devfsUnregisterFile
  cases found : s.findNode maxPathLen path with
  | none => exact .absent found
  | some c =>
    obtain ⟨p, trailing, denotes, here, -⟩ := good.sound.findNode_eq_some.mp found
    dsimp only
    cases type : (s.node c).type with
    | dir =>
      exact .dir found type
    | file =>
      by_cases unused : (s.node c).openCount = 0
      · rcases List.eq_nil_or_concat' p with rfl | ⟨q, k, rfl⟩
        · cases here
          rw [show (s.node s.links.root).type = .dir from good.sound.rootDir] at type
          cases type
        · obtain ⟨a, above, -⟩ := good.sound.linked.node_snoc_iff.mp here
          rw [if_neg (not_not.mpr unused), good.sound.parent_eq above here]
          exact .removed found here type unused (good.unbind above here type unused)
      · rw [if_pos unused]
        exact .busy found type unused

end Unregister

section Use

def recount (s : State) (a : Addr) (n : UInt16) (handles : List Handle) : State :=
  { s.modify a fun node => { node with openCount := n } with handles := handles }

variable {p : List Name} {a : Addr} {n : UInt16} {handles : List Handle}

theorem Good.entry_recount (good : s.Good) (here : s.links.node p = some a) (n : UInt16)
    (handles : List Handle) (q : List Name) :
    (s.recount a n handles).entry q =
      if q = p then some (a, { s.info a with openCount := n }) else s.entry q := by
  have inPlace : InPlace fun node => { node with openCount := n } :=
    ⟨fun _ => rfl, fun _ => rfl, fun _ => rfl, fun _ => rfl⟩
  have info : (s.modify a fun node => { node with openCount := n }).info a =
      { s.info a with openCount := n } := by
    rw [State.info, node_modify_self]
    rfl
  rw [← info]
  exact good.sound.entry_modify inPlace here q

theorem Good.sound_recount (good : s.Good) (a : Addr) (n : UInt16) (handles : List Handle) :
    (s.recount a n handles).Sound := by
  have inPlace : InPlace fun node => { node with openCount := n } :=
    ⟨fun _ => rfl, fun _ => rfl, fun _ => rfl, fun _ => rfl⟩
  have sound := good.sound.modify inPlace a
  exact ⟨sound.linked, sound.rootDir, sound.leaf⟩

theorem Good.fullBut_recount (good : s.Good) (a : Addr) (n : UInt16) (handles : List Handle) :
    (s.recount a n handles).FullBut a := by
  have bare : s.FullBut a := fun y alive top _ => good.full y alive top top
  have kept := fullBut_modify (f := fun node => { node with openCount := n }) bare
  exact kept

theorem Good.file_recount (good : s.Good) (here : s.links.node p = some a) (n : UInt16)
    (handles : List Handle) : (s.recount a n handles).file = s.file := by
  funext q
  rw [file, file, good.entry_recount here]
  split_ifs with same
  · subst same
    rw [entry_of_node here]
    rfl
  · rfl

theorem Good.held_recount (good : s.Good) (here : s.links.node p = some a)
    (distinct : (handles.map Handle.addr).Nodup)
    (nodes : ∀ h ∈ handles, (h.node = a ∧ (s.node a).type = h.kind.type) ∨
      ∃ g ∈ s.handles, h.node = g.node ∧ h.kind.type = g.kind.type)
    (count : n.toNat = handles.countP fun h => h.node = a)
    (others : ∀ b ≠ a, (handles.countP fun h => h.node = b) = s.users b) :
    (s.recount a n handles).Held := by
  have entries := good.entry_recount here n handles
  refine ⟨distinct, ?_, ?_⟩
  · intro h member
    rcases nodes h member with ⟨same, type⟩ | ⟨g, old, same, type⟩
    · refine ⟨p, { s.info a with openCount := n }, ?_, type⟩
      rw [entries, if_pos rfl, same]
    · obtain ⟨q, i, there, kind⟩ := good.held.node g old
      by_cases again : q = p
      · subst again
        obtain ⟨this, rfl⟩ := entry_eq_some.mp there
        cases this.symm.trans here
        refine ⟨q, { s.info g.node with openCount := n }, ?_, kind.trans type.symm⟩
        rw [entries, if_pos rfl, same]
      · exact ⟨q, i, by rw [entries, if_neg again, same, there], kind.trans type.symm⟩
  · intro q b i there
    rw [entries] at there
    split_ifs at there with again
    · cases there
      exact count
    · have other : b ≠ a := by
        rintro rfl
        exact again (good.sound.linked.node_injective (entry_eq_some.mp there).1 here)
      exact (good.held.count q b i there).trans (others b other).symm

theorem openCount_recount (a : Addr) (n : UInt16) (handles : List Handle) :
    ((s.recount a n handles).node a).openCount = n := by
  unfold recount
  rw [node_modify_self]

theorem ops_recount (a x : Addr) (n : UInt16) (handles : List Handle) :
    ((s.recount a n handles).node x).ops = (s.node x).ops := by
  unfold recount
  by_cases here : x = a
  · subst here
    rw [node_modify_self]
  · rw [node_modify_other here]

theorem toNat_succ {n : UInt16} (room : n.toNat + 1 < 2 ^ 16) : (n + 1).toNat = n.toNat + 1 := by
  exact Nat.mod_eq_of_lt room

theorem toNat_pred {n : UInt16} (some' : n ≠ 0) : (n - 1).toNat = n.toNat - 1 := by
  have one : (1 : UInt16) ≤ n := by
    have zero : n.toNat ≠ 0 := fun zero => some' (UInt16.toNat_inj.mp zero)
    exact Nat.one_le_iff_ne_zero.mpr zero
  rw [UInt16.toNat_sub_of_le _ _ one]
  rfl

theorem Good.attach {c : Addr} {kind : HandleKind} (good : s.Good)
    (here : s.links.node p = some a) (type : (s.node a).type = kind.type)
    (unused : ∀ h ∈ s.handles, h.addr ≠ c) (room : s.users a + 1 < 2 ^ 16) :
    (s.recount a ((s.node a).openCount + 1) (⟨c, a, kind⟩ :: s.handles)).Good := by
  have before : (s.node a).openCount.toNat = s.users a := good.held.count p a _ (entry_of_node here)
  have count : ((s.node a).openCount + 1).toNat = s.users a + 1 := by
    rw [toNat_succ (by omega), before]
  refine ⟨good.sound_recount _ _ _, ?_, good.held_recount here ?_ ?_ ?_ ?_⟩
  · intro y alive top _ dir
    by_cases same : y = a
    · subst same
      right
      intro zero
      rw [openCount_recount] at zero
      rw [zero] at count
      exact absurd count.symm (Nat.succ_ne_zero _)
    · exact good.fullBut_recount a _ _ y alive top same dir
  · rw [List.map_cons, List.nodup_cons]
    refine ⟨?_, good.held.distinct⟩
    intro member
    obtain ⟨h, old, same⟩ := List.mem_map.mp member
    exact unused h old same
  · intro h member
    rcases List.mem_cons.mp member with rfl | old
    · exact Or.inl ⟨rfl, type⟩
    · exact Or.inr ⟨h, old, rfl, rfl⟩
  · rw [count, List.countP_cons_of_pos (by simp)]
    rfl
  · intro b other
    exact List.countP_cons_of_neg (by simpa using Ne.symm other)

variable {h : Handle}

theorem Good.detach (good : s.Good) (member : h ∈ s.handles) (here : s.links.node p = some h.node) :
    (s.dropHandle h).Sound ∧ (s.dropHandle h).FullBut h.node ∧ (s.dropHandle h).Held ∧
      (s.dropHandle h).file = s.file := by
  have shape : s.dropHandle h =
      s.recount h.node ((s.node h.node).openCount - 1) (s.handles.erase h) := rfl
  have before := good.held.count p h.node _ (entry_of_node here)
  have used := good.held.used member (entry_of_node here)
  have count := toNat_pred (n := (s.node h.node).openCount) used
  refine ⟨good.sound_recount _ _ _, good.fullBut_recount _ _ _, good.held_recount here ?_ ?_ ?_ ?_,
    good.file_recount here _ _⟩
  · exact good.held.distinct.sublist (List.erase_sublist.map _)
  · intro g kept
    exact Or.inr ⟨g, List.mem_of_mem_erase kept, rfl, rfl⟩
  · rw [count, show (s.node h.node).openCount.toNat = s.users h.node from before,
      List.countP_erase, users, if_pos ⟨member, by simp⟩]
  · intro b other
    rw [List.countP_erase, if_neg, Nat.sub_zero]
    · rfl
    · rintro ⟨-, same⟩
      simp only [decide_eq_true_eq] at same
      exact other same.symm

theorem Good.close (good : s.Good) (member : h ∈ s.handles) (kind : h.kind.type = .file) :
    (s.dropHandle h).Good := by
  obtain ⟨p, i, there, type⟩ := good.held.node h member
  obtain ⟨here, rfl⟩ := entry_eq_some.mp there
  obtain ⟨sound, bare, held, -⟩ := good.detach member here
  refine ⟨sound, ?_, held⟩
  intro y alive top _ dir
  refine bare y alive top ?_ dir
  rintro rfl
  have inPlace : InPlace fun n => { n with openCount := n.openCount - 1 } :=
    ⟨fun _ => rfl, fun _ => rfl, fun _ => rfl, fun _ => rfl⟩
  have same : ((s.dropHandle h).node h.node).type = (s.node h.node).type :=
    inPlace.node_type h.node h.node
  rw [same, show (s.node h.node).type = .file from type.trans kind] at dir
  cases dir

theorem Pruned.after (pruned : Pruned s s') (sound : s.Sound) (held : s.Held) :
    After s s' s.file := by
  have steady : Steady s s' := fun p a i there used => pruned.kept p a i there (Or.inr used)
  refine ⟨⟨pruned.sound, pruned.full, ?_⟩, ?_, steady, pruned.handles⟩
  · exact Held.of_unused sound held pruned.handles steady
      fun p a i there => Or.inl (pruned.less p _ there)
  · apply file_ext
    intro p v
    rw [file_eq_some, file_eq_some]
    constructor
    · rintro ⟨a, i, there, type, value⟩
      exact ⟨a, i, pruned.less p _ there, type, value⟩
    · rintro ⟨a, i, there, type, value⟩
      exact ⟨a, i, pruned.kept p a i there (Or.inl type), type, value⟩

theorem Good.closedir (good : s.Good) (member : h ∈ s.handles) :
    After (s.dropHandle h) (s.devfsClosedir h).2 s.file := by
  obtain ⟨p, i, there, -⟩ := good.held.node h member
  obtain ⟨here, -⟩ := entry_eq_some.mp there
  obtain ⟨sound, bare, held, files⟩ := good.detach member here
  have still : (s.dropHandle h).links.node p = some h.node := by
    have entries := good.entry_recount here ((s.node h.node).openCount - 1) (s.handles.erase h) p
    rw [if_pos rfl] at entries
    exact (entry_eq_some.mp entries).1
  rw [← files]
  exact (pruneEmptyDirs_pruned sound bare still).after sound held

end Use

end State

end Webos.Devfs
