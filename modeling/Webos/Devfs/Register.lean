/- digest: What devfs finds at a path, and how registration grows the tree. -/

import Webos.Devfs.Invariant

namespace Webos.Devfs

open Webos.Adb (EEXIST ENOMEM)
open Webos.Lib.LinkedTree

namespace State

variable {s : State}

section Find

theorem Sound.childless_file (sound : s.Sound) {a : Addr} (alive : a ∈ s.live)
    (file : (s.node a).type ≠ .dir) (k : Name) : s.links.child a k = none := by
  cases found : s.links.child a k with
  | none => rfl
  | some c =>
    have member := ((sound.linked.child_eq_some alive).mp found).1
    exact absurd (sound.dir_of_child alive member) file

theorem Sound.findFrom_rounds (sound : s.Sound) {a b : Addr} (alive : a ∈ s.live)
    (q : List Name) (trailing : Bool) : s.findFrom a (rounds q trailing) = some b ↔
      s.links.walk a q = some b ∧ (trailing = true → q ≠ [] → (s.node b).type = .dir) := by
  induction q generalizing a with
  | nil =>
    constructor
    · intro same
      exact ⟨same, fun _ none' => absurd rfl none'⟩
    · exact fun both => both.1
  | cons name q ih =>
    rw [Links.walk_cons]
    cases q with
    | nil =>
      rw [rounds, findFrom, findChild_eq]
      cases found : s.links.child a name with
      | none => simp
      | some c =>
        dsimp only
        split_ifs with refused
        · constructor
          · intro no
            cases no
          · rintro ⟨same, type⟩
            cases same
            exact absurd (type refused.1 (List.cons_ne_nil _ _)) refused.2
        · constructor
          · intro same
            cases same
            refine ⟨rfl, ?_⟩
            intro ends _
            by_contra file
            exact refused ⟨ends, file⟩
          · exact fun both => both.1
    | cons next rest =>
      rw [rounds, findFrom, findChild_eq]
      cases found : s.links.child a name with
      | none => simp
      | some c =>
        have member := ((sound.linked.child_eq_some alive).mp found).1
        have below := (sound.linked.child a alive c member).1
        rw [Option.bind_some]
        dsimp only
        split_ifs with refused
        · rw [Links.walk_cons, sound.childless_file below refused.2]
          simp
        · rw [ih below]
          simp

variable {path : Option (List UInt8)}

theorem findNode_of_denotes {maxPathLen : Nat} {p : List Name} {trailing : Bool}
    (denotes : Denotes maxPathLen path p trailing) :
    s.findNode maxPathLen path =
      if p = [] then some root else s.findFrom root (rounds p trailing) := by
  unfold findNode
  rw [validatePath_eq_some.mpr ⟨p, trailing, denotes, rfl, fun _ => Or.inl rfl⟩]
  dsimp only
  rw [components_render denotes.valid]
  exact if_congr denotes.root_iff rfl rfl

/-- `find_node` finds what the names of the path lead to; a slash at the end asks for a
directory. -/
theorem Sound.findNode_eq_some (sound : s.Sound) {maxPathLen : Nat} {b : Addr} :
    s.findNode maxPathLen path = some b ↔
      ∃ p trailing, Denotes maxPathLen path p trailing ∧ s.links.node p = some b ∧
        (trailing = true → (s.node b).type = .dir) := by
  have rooted : root ∈ s.live := sound.linked.rooted
  have named {p : List Name} {trailing : Bool} (denotes : Denotes maxPathLen path p trailing) :
      s.findNode maxPathLen path = some b ↔
        s.links.node p = some b ∧ (trailing = true → (s.node b).type = .dir) := by
    rw [findNode_of_denotes denotes]
    split_ifs with top
    · subst top
      constructor
      · intro same
        cases same
        exact ⟨rfl, fun _ => sound.rootDir⟩
      · exact fun both => both.1
    · rw [sound.findFrom_rounds rooted]
      simp only [ne_eq, top, not_false_eq_true, true_implies]
      rfl
  constructor
  · intro found
    have valid : validatePath maxPathLen path true ≠ none := by
      intro invalid
      rw [findNode, invalid] at found
      cases found
    obtain ⟨rel, valid⟩ := Option.ne_none_iff_exists'.mp valid
    obtain ⟨p, trailing, denotes, -⟩ := validatePath_eq_some.mp valid
    exact ⟨p, trailing, denotes, (named denotes).mp found⟩
  · rintro ⟨p, trailing, denotes, there⟩
    exact (named denotes).mpr there

end Find

/-- A tree that got new nodes, of which `x` may be a directory without children. -/
structure Grown (s s' : State) (x : Addr) : Prop where
  sound : s'.Sound
  fullBut : s'.FullBut x
  reached : ∃ q, s'.links.node q = some x
  old : ∀ q e, s.entry q = some e → s'.entry q = some e
  handles : s'.handles = s.handles

/-- Every new node, but perhaps the one at `target`, is an untouched directory. -/
def DirsBut (s s' : State) (target : List Name) : Prop :=
  ∀ q c i, q ≠ target → s.entry q = none → s'.entry q = some (c, i) → i = .fresh .dir ∧ c ∉ s.live

/-- The rounds of registration that have to make nodes end at the first `k_malloc` that fails, with
directories only, or with the new file. -/
inductive Created (s : State) (answers : Nat → Option Addr) (target : List Name) (count : Nat) :
    Int × Addr × State → Prop where
  | refused {x : Addr} {s' : State} (fails : ∃ i < count, answers i = none) (grown : Grown s s' x)
      (dirs : DirsBut s s' target) (missing : s'.entry target = none) :
      Created s answers target count (-ENOMEM, x, s')
  | added {x : Addr} {s' : State} (succeeds : ∀ i < count, answers i ≠ none) (grown : Grown s s' x)
      (dirs : DirsBut s s' target) (here : s'.entry target = some (x, .fresh .file))
      (new : x ∉ s.live) :
      Created s answers target count (0, x, s')

def Answers (s : State) (answers : Nat → Option Addr) : Prop :=
  (∀ i a, answers i = some a → s.Unused a) ∧
    ∀ i j a, answers i = some a → answers j = some a → i = j

section Create

variable {p : List Name} {k : Name} {a c : Addr}

theorem Sound.grow (sound : s.Sound) (full : s.FullBut a) (here : s.links.node p = some a)
    (dir : (s.node a).type = .dir) (fresh : c ∉ s.live) (vacant : s.links.child a k = none)
    (type : NodeType) : Grown s ((s.allocNode c type k).insertChild a c) c := by
  have entries := sound.entry_insert here fresh vacant type
  have apart : a ≠ c := by
    rintro rfl
    exact fresh (sound.linked.node_live here)
  refine ⟨sound.insert here fresh vacant dir type, ?_, ⟨p ++ [k], ?_⟩, ?_, rfl⟩
  · intro x alive top other
    have before : x ∈ s.live := (Finset.mem_insert.mp alive).resolve_left other
    rw [node_insertChild apart]
    by_cases above : x = a
    · rw [if_pos above]
      intro _
      exact Or.inl (List.ne_nil_of_mem (mem_place.mpr (Or.inl rfl)))
    · rw [if_neg above, if_neg other]
      exact full x before top above
  · have new := entries (p ++ [k])
    rw [if_pos rfl] at new
    exact (entry_eq_some.mp new).1
  · intro q e there
    rw [entries, if_neg, there]
    rintro rfl
    rw [entry, Links.node_snoc, here, Option.bind_some, vacant] at there
    cases there

variable {answers : Nat → Option Addr}

theorem Answers.tail (ok : s.Answers answers) (first : answers 0 = some c) (type : NodeType) :
    ((s.allocNode c type k).insertChild a c).Answers fun i => answers (i + 1) := by
  refine ⟨?_, ?_⟩
  · intro i b answer
    obtain ⟨dead, apart⟩ := ok.1 (i + 1) b answer
    refine ⟨?_, apart⟩
    intro alive
    rcases Finset.mem_insert.mp alive with rfl | alive
    · exact absurd (ok.2 _ _ b answer first) (Nat.succ_ne_zero i)
    · exact dead alive
  · intro i j b first second
    exact Nat.succ_inj.mp (ok.2 _ _ b first second)

theorem Created.after {target : List Name} {count : Nat} {result : Int × Addr × State} {s' : State}
    {x : Addr} (grown : Grown s s' x)
    (entries : ∀ q, s'.entry q = if q = p ++ [k] then some (c, .fresh .dir) else s.entry q)
    (fresh : c ∉ s.live) (larger : s.live ⊆ s'.live) (granted : answers 0 ≠ none)
    (created : Created s' (fun i => answers (i + 1)) target count result) :
    Created s answers target (count + 1) result := by
  have more {s'' : State} {y : Addr} (later : Grown s' s'' y) : Grown s s'' y :=
    ⟨later.sound, later.fullBut, later.reached,
      fun q e there => later.old q e (grown.old q e there),
      later.handles.trans grown.handles⟩
  have dirs {s'' : State} {y : Addr} (later : Grown s' s'' y) (dirs : DirsBut s' s'' target) :
      DirsBut s s'' target := by
    intro q d i other absent there
    cases between : s'.entry q with
    | none =>
      obtain ⟨info, new⟩ := dirs q d i other between there
      exact ⟨info, fun alive => new (larger alive)⟩
    | some e =>
      rw [later.old q e between] at there
      cases there
      rw [entries, absent] at between
      split_ifs at between
      cases between
      exact ⟨rfl, fresh⟩
  cases created with
  | refused fails later news missing =>
    obtain ⟨i, below, failed⟩ := fails
    exact .refused ⟨i + 1, by omega, failed⟩ (more later) (dirs later news) missing
  | added succeeds later news there new =>
    refine .added ?_ (more later) (dirs later news) there (fun alive => new (larger alive))
    intro i below
    cases i with
    | zero => exact granted
    | succ i => exact succeeds i (by omega)

theorem Sound.create (sound : s.Sound) (full : s.FullBut a) (here : s.links.node p = some a)
    (dir : (s.node a).type = .dir) (vacant : s.links.child a k = none) (ok : s.Answers answers)
    (rest : List Name) :
    Created s answers (p ++ k :: rest) (rest.length + 1)
      (s.registerRounds answers a (rounds (k :: rest) false)) := by
  induction rest generalizing s a p k answers with
  | nil =>
    rw [rounds_cons, registerRounds, findChild_eq, vacant]
    cases answer : answers 0 with
    | none =>
      refine .refused ⟨0, by simp, answer⟩
        ⟨sound, full, ⟨p, here⟩, fun _ _ there => there, rfl⟩ ?_ ?_
      · intro q c i _ absent there
        rw [absent] at there
        cases there
      · rw [entry, Links.node_snoc, here, Option.bind_some, vacant]
        rfl
    | some c =>
      have fresh := (ok.1 0 c answer).1
      have entries := sound.entry_insert here fresh vacant .file
      refine .added ?_ (sound.grow full here dir fresh vacant .file) ?_ ?_ fresh
      · intro i below
        obtain rfl : i = 0 := by
          simp only [List.length_nil] at below
          omega
        rw [answer]
        exact Option.some_ne_none c
      · intro q d i other absent there
        have same := entries q
        rw [if_neg other, absent] at same
        cases same.symm.trans there
      · exact (entries (p ++ [k])).trans (if_pos rfl)
  | cons next rest ih =>
    rw [rounds_cons, registerRounds, findChild_eq, vacant]
    cases answer : answers 0 with
    | none =>
      refine .refused ⟨0, by simp, answer⟩
        ⟨sound, full, ⟨p, here⟩, fun _ _ there => there, rfl⟩ ?_ ?_
      · intro q c i _ absent there
        rw [absent] at there
        cases there
      · rw [entry, Links.node_append, here, Option.bind_some, Links.walk_cons, vacant]
        rfl
    | some c =>
      have fresh := (ok.1 0 c answer).1
      have apart : a ≠ c := by
        rintro rfl
        exact fresh (sound.linked.node_live here)
      have entries := sound.entry_insert here fresh vacant .dir
      have grown := sound.grow full here dir fresh vacant .dir
      have node : ((s.allocNode c .dir k).insertChild a c).node c =
          { Node.fresh .dir k with parent := some a } := by
        rw [node_insertChild apart, if_neg (Ne.symm apart), if_pos rfl]
      have vacant' : ((s.allocNode c .dir k).insertChild a c).links.child c next = none := by
        have bare : ((s.allocNode c .dir k).insertChild a c).links.children c = [] :=
          congrArg Node.children node
        rw [Links.child, bare]
        rfl
      have there : ((s.allocNode c .dir k).insertChild a c).links.node (p ++ [k]) = some c :=
        (entry_eq_some.mp ((entries (p ++ [k])).trans (if_pos rfl))).1
      have later := ih grown.sound grown.fullBut there (by rw [node]; rfl) vacant'
        (Answers.tail ok answer .dir)
      rw [List.append_assoc, List.singleton_append] at later
      have granted : answers 0 ≠ none := by
        rw [answer]
        exact Option.some_ne_none c
      exact Created.after grown entries fresh (Finset.subset_insert c s.live) granted later

end Create

section Descend

variable {p : List Name} {k : Name} {a : Addr}

theorem Sound.dir_above (sound : s.Sound) {q r : List Name} {b x : Addr}
    (below : s.links.node (q ++ k :: r) = some x) (here : s.links.node q = some b) :
    (s.node b).type = .dir := by
  obtain ⟨b', here', walk⟩ := Links.node_of_append below
  cases here.symm.trans here'
  obtain ⟨c, step, -⟩ := Option.bind_eq_some_iff.mp walk
  have alive := sound.linked.node_live here
  exact sound.dir_of_child alive ((sound.linked.child_eq_some alive).mp step).1

theorem node_absent (here : s.links.node p = some a) (vacant : s.links.child a k = none)
    (rest : List Name) : s.links.node (p ++ k :: rest) = none := by
  rw [Links.node_append, here, Option.bind_some, Links.walk_cons, vacant]
  rfl

def missing (s : State) (target : List Name) : Nat :=
  target.inits.countP fun q => (s.links.node q).isNone

theorem missing_eq (here : s.links.node p = some a) (vacant : s.links.child a k = none)
    (rest : List Name) : s.missing (p ++ k :: rest) = rest.length + 1 := by
  have present : p.inits.countP (fun q => (s.links.node q).isNone) = 0 := by
    rw [List.countP_eq_zero]
    intro q member
    obtain ⟨r, rfl⟩ := (List.mem_inits q p).mp member
    obtain ⟨b, there, -⟩ := Links.node_of_append here
    rw [there]
    exact Bool.false_ne_true
  have absent : ((rest.inits.map (List.cons k)).map (p ++ ·)).countP
      (fun q => (s.links.node q).isNone) = rest.length + 1 := by
    rw [List.map_map, List.countP_map, List.countP_eq_length.mpr, List.length_inits]
    intro q _
    rw [Function.comp_apply, Function.comp_apply, node_absent here vacant]
    rfl
  rw [missing, List.inits_append, List.countP_append, present, Nat.zero_add, List.inits_cons]
  exact absent

inductive Outcome (s : State) (answers : Nat → Option Addr) (target : List Name) :
    Int × Addr × State → Prop where
  | present {b x : Addr} (found : s.links.node target = some b)
      (above : ∃ q, s.links.node q = some x) :
      Outcome s answers target (if (s.node b).type = .file then -EEXIST else -EISDIR, x, s)
  | below {b x : Addr} {q r : List Name} (split : target = q ++ r) (proper : r ≠ [])
      (found : s.links.node q = some b) (file : (s.node b).type ≠ .dir)
      (above : ∃ q, s.links.node q = some x) : Outcome s answers target (-ENOTDIR, x, s)
  | created {result : Int × Addr × State} (absent : s.links.node target = none)
      (clear : ∀ q r b, target = q ++ r → s.links.node q = some b → (s.node b).type = .dir)
      (created : Created s answers target (s.missing target) result) :
      Outcome s answers target result

theorem Sound.descend (sound : s.Sound) (full : s.Full) {answers : Nat → Option Addr}
    (ok : s.Answers answers) (names : List Name) (some' : names ≠ [])
    (here : s.links.node p = some a) (dir : (s.node a).type = .dir) :
    Outcome s answers (p ++ names) (s.registerRounds answers a (rounds names false)) := by
  induction names generalizing a p with
  | nil => exact absurd rfl some'
  | cons k rest ih =>
    have alive := sound.linked.node_live here
    cases step : s.links.child a k with
    | none =>
      have bare : s.FullBut a := fun x alive top _ => full x alive top top
      have created := sound.create bare here dir step ok rest
      rw [← missing_eq here step rest] at created
      refine .created (node_absent here step rest) ?_ created
      intro q r b split there
      rcases List.append_eq_append_iff.mp split with ⟨m, rfl, same⟩ | ⟨m, rfl, same⟩
      · cases m with
        | nil =>
          rw [List.append_nil] at there
          cases here.symm.trans there
          exact dir
        | cons j m =>
          cases same
          rw [node_absent here step m] at there
          cases there
      · cases m with
        | nil =>
          rw [List.append_nil] at here
          cases here.symm.trans there
          exact dir
        | cons j m => exact sound.dir_above here there
    | some b =>
      have there : s.links.node (p ++ [k]) = some b := by
        rw [Links.node_snoc, here]
        exact step
      rw [rounds_cons, registerRounds, findChild_eq, step]
      cases rest with
      | nil => exact .present there ⟨p, here⟩
      | cons next rest =>
        have whole : p ++ k :: next :: rest = (p ++ [k]) ++ next :: rest := by simp
        simp only [List.isEmpty_cons, Bool.not_false, Bool.or_true, not_true_eq_false, if_false]
        split_ifs with file
        · exact .below whole (List.cons_ne_nil _ _) there file ⟨p, here⟩
        · rw [whole]
          exact ih (List.cons_ne_nil _ _) there (not_not.mp file)

end Descend

end State

end Webos.Devfs
