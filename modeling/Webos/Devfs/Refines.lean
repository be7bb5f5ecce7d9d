/- digest: Every run of devfs calls is a run of a prefix-free map of paths. -/

import Webos.Devfs.Spec

namespace Webos.Devfs

open Webos.Adb (EBUSY EEXIST EINVAL ENOENT ENOMEM ascii)
open Webos.Lib
open Webos.Lib.LinkedTree
open State

variable {s s' : State} {m : Names} {maxPathLen : Nat} {path : Option (List UInt8)}

/-- A call returns what the map says and leaves a tree that stands for the new map. -/
structure Simulates (out : Int × State) (spec : Int × Names) : Prop where
  ret : out.1 = spec.1
  good : out.2.Good
  rep : Represents out.2 spec.2

theorem Represents.after {files : List Name → Option (FileOps × Addr)} (held : s.Held)
    (rep : Represents s m) (after : After s s' files) :
    Represents s' { m with file := files } := by
  refine ⟨after.files, ?_, ?_⟩
  · intro h member
    rw [after.handles] at member
    obtain ⟨p, i, here, known⟩ := rep.handle h member
    exact ⟨p, i, after.steady p h.node i here (held.used member here), known⟩
  · intro a g known
    rw [after.handles]
    exact rep.back a g known

section Register

variable {p : List Name} {ops : FileOps} {userData : Addr} {answers : Nat → Option Addr}

theorem Represents.register (good : s.Good) (rep : Represents s m) (ok : s.Answers answers)
    (denotes : Denotes maxPathLen path p false) :
    Simulates (s.devfsRegisterFile maxPathLen path (some ops) userData answers)
      (m.register p (ops, userData) answers) := by
  have registered := good.register ok denotes ops userData
  have same : m = { m with file := s.file } := by rw [rep.file]
  have back {s' : State} (after : After s s' s.file) : Represents s' m := by
    rw [same]
    exact rep.after good.held after
  have unbound (absent : s.links.node p = none) : ¬m.file p ≠ none := by
    rw [rep.file_iff, absent]
    rintro ⟨a, no, -⟩
    cases no
  have undirected (absent : s.links.node p = none) : ¬m.map.IsDir p := by
    rw [rep.isDir_iff good, absent]
    rintro ⟨a, no, -⟩
    cases no
  have clearance (clear : ∀ q r b, p = q ++ r → s.links.node q = some b → (s.node b).type = .dir) :
      ¬∃ q, m.file q ≠ none ∧ q <+: p := by
    rintro ⟨q, bound, r, split⟩
    obtain ⟨b, found, file⟩ := rep.file_iff.mp bound
    rw [clear q r b split.symm found] at file
    cases file
  generalize s.devfsRegisterFile maxPathLen path (some ops) userData answers = out at registered ⊢
  unfold Names.register
  cases registered with
  | @present b s' found after =>
    cases type : (s.node b).type with
    | file =>
      rw [if_pos (rep.file_iff.mpr ⟨b, found, type⟩)]
      exact ⟨rfl, after.good, back after⟩
    | dir =>
      have dir := (rep.isDir_iff good).mpr ⟨b, found, type⟩
      have unbound : ¬m.file p ≠ none := fun bound => (rep.prefixFree good).apart p bound dir
      rw [if_neg unbound, if_pos dir]
      exact ⟨rfl, after.good, back after⟩
  | @below b q r s' absent split found file after =>
    rw [if_neg (unbound absent), if_neg (undirected absent),
      if_pos ⟨q, rep.file_iff.mpr ⟨b, found, file⟩, r, split.symm⟩]
    exact ⟨rfl, after.good, back after⟩
  | refused absent clear fails after =>
    rw [rep.missing_eq good clear] at fails
    rw [if_neg (unbound absent), if_neg (undirected absent), if_neg (clearance clear), if_pos fails]
    exact ⟨rfl, after.good, back after⟩
  | added absent clear succeeds after =>
    rw [rep.missing_eq good clear] at succeeds
    rw [if_neg (unbound absent), if_neg (undirected absent), if_neg (clearance clear), if_neg]
    · refine ⟨rfl, after.good, ?_⟩
      rw [← rep.file]
      exact rep.after good.held after
    · rintro ⟨i, below, fails⟩
      exact succeeds i below fails

theorem Represents.registerFile (good : s.Good) (rep : Represents s m) (ok : s.Answers answers)
    (ops : Option FileOps) (userData : Addr) :
    Simulates (s.devfsRegisterFile maxPathLen path ops userData answers)
      (m.registerFile maxPathLen path ops userData answers) := by
  have invalid (no : ∀ p, ¬Denotes maxPathLen path p false) :
      Simulates (s.devfsRegisterFile maxPathLen path ops userData answers) (-EINVAL, m) := by
    rw [devfsRegisterFile_invalid no]
    exact ⟨rfl, good, rep⟩
  unfold Names.registerFile
  cases ops with
  | none => exact ⟨rfl, good, rep⟩
  | some ops =>
    cases parsed : parse maxPathLen path with
    | none => exact invalid fun p => parse_eq_none.mp parsed p false
    | some d =>
      obtain ⟨p, trailing⟩ := d
      have denotes := parse_eq_some.mp parsed
      cases trailing with
      | false => exact rep.register good ok denotes
      | true =>
        refine invalid fun q other => ?_
        cases (denotes.functional other).2

end Register

section Unregister

theorem Represents.unregister (good : s.Good) (rep : Represents s m) :
    Simulates (s.devfsUnregisterFile maxPathLen path) (m.unregister maxPathLen path) := by
  have unregistered := good.unregister maxPathLen path
  have known {c : Addr} {p : List Name} (found : s.findNode maxPathLen path = some c)
      (here : s.links.node p = some c) :
      m.lookup maxPathLen path = some ((s.node c).type, p) :=
    (rep.lookup_iff good).mpr ⟨c, found, here, rfl⟩
  generalize s.devfsUnregisterFile maxPathLen path = out at unregistered ⊢
  unfold Names.unregister
  cases unregistered with
  | absent missing =>
    rw [rep.lookup_none good missing]
    exact ⟨rfl, good, rep⟩
  | dir found type =>
    obtain ⟨p, -, -, here, -⟩ := good.sound.findNode_eq_some.mp found
    rw [known found here, type]
    exact ⟨rfl, good, rep⟩
  | busy found type used =>
    obtain ⟨p, -, -, here, -⟩ := good.sound.findNode_eq_some.mp found
    obtain ⟨a, open'⟩ := rep.of_used good (entry_of_node here) used
    rw [known found here, type]
    dsimp only
    rw [if_pos]
    · exact ⟨rfl, good, rep⟩
    · exact ⟨a, by rw [open', ← type]; rfl⟩
  | @removed c p s' found here type unused after =>
    have idle : ¬m.Busy p := by
      rintro ⟨a, open'⟩
      obtain ⟨h, member, rfl⟩ := rep.back a _ open'
      obtain ⟨q, i, there, same⟩ := rep.handle h member
      rw [open'] at same
      obtain ⟨-, rfl⟩ := Prod.mk.inj (Option.some.inj same)
      obtain ⟨again, rfl⟩ := entry_eq_some.mp there
      cases here.symm.trans again
      exact good.held.used member there unused
    rw [known found here, type]
    dsimp only
    rw [if_neg idle]
    refine ⟨rfl, after.good, ?_⟩
    rw [← rep.file]
    exact rep.after good.held after

end Unregister

section Use

variable {p : List Name} {a c : Addr} {kind : HandleKind} {h : Handle}

theorem Represents.attach (good : s.Good) (rep : Represents s m)
    (here : s.links.node p = some a) (unused : ∀ h ∈ s.handles, h.addr ≠ c) (n : UInt16) :
    Represents (s.recount a n (⟨c, a, kind⟩ :: s.handles)) (m.attach c (some (kind.type, p))) := by
  have entries := good.entry_recount here n (⟨c, a, kind⟩ :: s.handles)
  refine ⟨(good.file_recount here _ _).trans rep.file, ?_, ?_⟩
  · intro h member
    rcases List.mem_cons.mp member with rfl | old
    · refine ⟨p, { s.info a with openCount := n }, ?_, Names.handle_attach_self _ _ _⟩
      rw [entries, if_pos rfl]
    · obtain ⟨q, i, there, known⟩ := rep.handle h old
      have apart : (m.attach c (some (kind.type, p))).handle h.addr = some (h.kind.type, q) :=
        (m.handle_attach_other (unused h old) _).trans known
      by_cases again : q = p
      · subst again
        cases (entry_eq_some.mp there).1.symm.trans here
        refine ⟨q, { s.info h.node with openCount := n }, ?_, apart⟩
        rw [entries, if_pos rfl]
      · exact ⟨q, i, by rw [entries, if_neg again, there], apart⟩
  · intro b g known
    by_cases same : b = c
    · subst same
      exact ⟨_, List.mem_cons_self, rfl⟩
    · rw [Names.handle_attach_other _ same] at known
      obtain ⟨h, old, rfl⟩ := rep.back b g known
      exact ⟨h, List.mem_cons_of_mem _ old, rfl⟩

theorem addr_ne_of_erase (good : s.Good) (member : h ∈ s.handles) {g : Handle}
    (kept : g ∈ s.handles.erase h) : g.addr ≠ h.addr := by
  have perm := (List.perm_cons_erase member).map Handle.addr
  have distinct := perm.nodup_iff.mp good.held.distinct
  rw [List.map_cons, List.nodup_cons] at distinct
  intro same
  exact distinct.1 (same ▸ List.mem_map_of_mem kept)

theorem Represents.detach (good : s.Good) (rep : Represents s m) (member : h ∈ s.handles)
    (here : s.links.node p = some h.node) :
    Represents (s.dropHandle h) (m.attach h.addr none) := by
  have entries := good.entry_recount here ((s.node h.node).openCount - 1) (s.handles.erase h)
  refine ⟨(good.detach member here).2.2.2.trans rep.file, ?_, ?_⟩
  · intro g kept
    obtain ⟨q, i, there, known⟩ := rep.handle g (List.mem_of_mem_erase kept)
    have apart : (m.attach h.addr none).handle g.addr = some (g.kind.type, q) :=
      (m.handle_attach_other (addr_ne_of_erase good member kept) _).trans known
    by_cases again : q = p
    · subst again
      have same : g.node = h.node := by
        have one := (entry_eq_some.mp there).1.symm.trans here
        exact Option.some.inj one
      refine ⟨q, { s.info h.node with openCount := (s.node h.node).openCount - 1 }, ?_, apart⟩
      rw [same]
      exact (entries q).trans (if_pos rfl)
    · exact ⟨q, i, (entries q).trans ((if_neg again).trans there), apart⟩
  · intro b g known
    by_cases same : b = h.addr
    · subst same
      rw [Names.handle_attach_self] at known
      cases known
    · rw [Names.handle_attach_other _ same] at known
      obtain ⟨h', old, rfl⟩ := rep.back b g known
      refine ⟨h', (List.mem_erase_of_ne ?_).mpr old, rfl⟩
      rintro rfl
      exact same rfl

theorem mem_setKind {g : Handle} (member : g ∈ (s.setKind h kind).handles) :
    (g = { h with kind := kind } ∧ h ∈ s.handles) ∨ g ∈ s.handles := by
  obtain ⟨old, there, rfl⟩ := List.mem_map.mp member
  split_ifs with same
  · subst same
    exact Or.inl ⟨rfl, there⟩
  · exact Or.inr there

theorem addr_setKind : (s.setKind h kind).handles.map Handle.addr = s.handles.map Handle.addr := by
  unfold setKind
  rw [List.map_map]
  apply List.map_congr_left
  intro g _
  rw [Function.comp_apply]
  split_ifs with same
  · rw [same]
  · rfl

theorem users_setKind (a : Addr) : (s.setKind h kind).users a = s.users a := by
  unfold setKind users
  rw [List.countP_map]
  apply List.countP_congr
  intro g _
  rw [Function.comp_apply]
  split_ifs with same
  · rw [same]
  · rfl

theorem good_setKind (good : s.Good) (type : kind.type = h.kind.type) :
    (s.setKind h kind).Good := by
  refine ⟨⟨good.sound.linked, good.sound.rootDir, good.sound.leaf⟩, good.full, ?_, ?_, ?_⟩
  · rw [addr_setKind]
    exact good.held.distinct
  · intro g member
    rcases mem_setKind member with ⟨rfl, old⟩ | old
    · obtain ⟨p, i, here, known⟩ := good.held.node h old
      exact ⟨p, i, here, known.trans type.symm⟩
    · exact good.held.node g old
  · intro p a i here
    rw [users_setKind]
    exact good.held.count p a i here

theorem Represents.setKind (rep : Represents s m) (type : kind.type = h.kind.type) :
    Represents (s.setKind h kind) m := by
  refine ⟨rep.file, ?_, ?_⟩
  · intro g member
    rcases mem_setKind member with ⟨rfl, old⟩ | old
    · obtain ⟨p, i, here, known⟩ := rep.handle h old
      refine ⟨p, i, here, ?_⟩
      rw [type]
      exact known
    · exact rep.handle g old
  · intro a g known
    obtain ⟨h', old, rfl⟩ := rep.back a g known
    refine ⟨_, List.mem_map_of_mem old, ?_⟩
    split_ifs with same
    · rw [same]
    · rfl

end Use

section Calls

variable {h : Handle} {a c : Addr} {p : List Name}

theorem handleAt_mem (found : s.handleAt a = some h) : h ∈ s.handles ∧ h.addr = a := by
  have same := List.find?_some found
  exact ⟨List.mem_of_find?_eq_some found, of_decide_eq_true same⟩

def Call.Room (maxPathLen : Nat) (s : State) : Call → Prop
  | .openFile path _ _ => ∀ a, s.findNode maxPathLen path = some a → s.users a + 1 < 2 ^ 16
  | .opendir path _ => ∀ a, s.findNode maxPathLen path = some a → s.users a + 1 < 2 ^ 16
  | _ => True

theorem acquire_eq {mismatch : Int} {kind : HandleKind}
    (found : s.findNode maxPathLen path = some a) (c : Addr) :
    s.acquire maxPathLen path mismatch kind (some c) =
      if (s.node a).type ≠ kind.type then (.error mismatch, s)
      else (.ok ⟨c, a, kind⟩,
        s.recount a ((s.node a).openCount + 1) (⟨c, a, kind⟩ :: s.handles)) := by
  unfold acquire
  rw [found]
  rfl

theorem acquire_absent {mismatch : Int} {kind : HandleKind}
    (absent : s.findNode maxPathLen path = none) (c : Addr) :
    s.acquire maxPathLen path mismatch kind (some c) = (.error (-ENOENT), s) := by
  unfold acquire
  rw [absent]

theorem Represents.has_iff (rep : Represents s m) (here : s.links.node p = some a)
    (type : (s.node a).type = .file) (op : FileOps → Option Addr) :
    m.Has op p ↔ op (s.node a).ops ≠ none := by
  have bound : m.file p = some ((s.node a).ops, (s.node a).userData) := by
    rw [← rep.file]
    exact file_eq_some.mpr ⟨a, s.info a, entry_of_node here, type, rfl⟩
  constructor
  · rintro ⟨v, known, has⟩
    cases bound.symm.trans known
    exact has
  · exact fun has => ⟨_, bound, has⟩

theorem Represents.opendir (good : s.Good) (rep : Represents s m) {answer : Option Addr}
    (unused : ∀ c, answer = some c → s.Unused c)
    (room : (Call.opendir path answer).Room maxPathLen s) :
    Simulates (s.devfsOpendir maxPathLen path answer) (m.opendir maxPathLen path answer) := by
  unfold devfsOpendir Names.opendir
  cases answer with
  | none => exact ⟨rfl, good, rep⟩
  | some c =>
    cases found : s.findNode maxPathLen path with
    | none =>
      rw [acquire_absent found, rep.lookup_none good found]
      exact ⟨rfl, good, rep⟩
    | some a =>
      obtain ⟨p, trailing, denotes, here, -⟩ := good.sound.findNode_eq_some.mp found
      rw [acquire_eq found, (rep.lookup_iff good).mpr ⟨a, found, here, rfl⟩]
      cases type : (s.node a).type with
      | file =>
        exact ⟨rfl, good, rep⟩
      | dir =>
        have unused := (unused c rfl).2
        refine ⟨rfl, good.attach here type unused (room a found), ?_⟩
        exact rep.attach good here unused _

theorem Represents.openFile (good : s.Good) (rep : Represents s m) {answer : Option Addr}
    {callback : Int} (unused : ∀ c, answer = some c → s.Unused c)
    (room : (Call.openFile path answer callback).Room maxPathLen s) :
    Simulates (s.devfsOpen maxPathLen path answer callback)
      (m.openFile maxPathLen path answer callback) := by
  unfold devfsOpen openBegin Names.openFile
  cases answer with
  | none => exact ⟨rfl, good, rep⟩
  | some c =>
    cases found : s.findNode maxPathLen path with
    | none =>
      rw [acquire_absent found, rep.lookup_none good found]
      exact ⟨rfl, good, rep⟩
    | some a =>
      obtain ⟨p, trailing, denotes, here, -⟩ := good.sound.findNode_eq_some.mp found
      rw [acquire_eq found, (rep.lookup_iff good).mpr ⟨a, found, here, rfl⟩]
      cases type : (s.node a).type with
      | dir =>
        exact ⟨rfl, good, rep⟩
      | file =>
        rw [if_neg (by decide)]
        have unused := (unused c rfl).2
        have good' : (s.recount a ((s.node a).openCount + 1)
            (⟨c, a, .file .opening⟩ :: s.handles)).Good :=
          good.attach here type unused (room a found)
        have rep' : Represents (s.recount a ((s.node a).openCount + 1)
            (⟨c, a, .file .opening⟩ :: s.handles)) (m.attach c (some (.file, p))) :=
          rep.attach good here unused ((s.node a).openCount + 1)
        have free : m.handle c = none := by
          cases known : m.handle c with
          | none => rfl
          | some g =>
            obtain ⟨h, member, same⟩ := rep.back c g known
            exact absurd same (unused h member)
        have has := rep.has_iff here type FileOps.openFn
        generalize recorded : s.recount a ((s.node a).openCount + 1)
          (⟨c, a, .file .opening⟩ :: s.handles) = t at good' rep' ⊢
        have ops : (t.node a).ops = (s.node a).ops := by
          rw [← recorded, ops_recount]
        have member : (⟨c, a, .file .opening⟩ : Handle) ∈ t.handles := by
          rw [← recorded]
          exact List.mem_cons_self
        dsimp only
        unfold openEnd
        rw [ops]
        by_cases fails : (s.node a).ops.openFn ≠ none ∧ callback ≠ 0
        · rw [if_pos fails, if_pos ⟨has.mpr fails.1, fails.2⟩]
          refine ⟨rfl, good'.close member rfl, ?_⟩
          obtain ⟨q, i, there, -⟩ := good'.held.node _ member
          have back := rep'.detach good' member (entry_eq_some.mp there).1
          rw [Names.attach_attach, Names.attach_same free] at back
          exact back
        · rw [if_neg fails, if_neg fun both => fails ⟨has.mp both.1, both.2⟩]
          exact ⟨rfl, good_setKind good' rfl, rep'.setKind rfl⟩

theorem Represents.close (good : s.Good) (rep : Represents s m) {node : Addr} {callback : Int}
    (member : (⟨c, node, .file .opened⟩ : Handle) ∈ s.handles) :
    Simulates (s.devfsClose ⟨c, node, .file .opened⟩ callback) (m.close c callback) := by
  obtain ⟨p, i, there, known⟩ := rep.handle _ member
  have type := Represents.type_eq good member there
  obtain ⟨here, rfl⟩ := entry_eq_some.mp there
  have good' : (s.setKind ⟨c, node, .file .opened⟩ (.file .closing)).Good := good_setKind good rfl
  have rep' : Represents (s.setKind ⟨c, node, .file .opened⟩ (.file .closing)) m :=
    rep.setKind rfl
  have has := rep.has_iff here type FileOps.closeFn
  have member' : (⟨c, node, .file .closing⟩ : Handle) ∈
      (s.setKind ⟨c, node, .file .opened⟩ (.file .closing)).handles := by
    refine List.mem_map.mpr ⟨_, member, ?_⟩
    rw [if_pos rfl]
  unfold Names.close
  rw [known]
  refine ⟨?_, good'.close member' rfl, ?_⟩
  · classical
    change (if (s.node node).ops.closeFn = none then 0 else callback) =
      if m.Has FileOps.closeFn p then callback else 0
    by_cases absent : (s.node node).ops.closeFn = none
    · rw [if_pos absent, if_neg fun yes => has.mp yes absent]
    · rw [if_neg absent, if_pos (has.mpr absent)]
  · exact rep'.detach good' member' here

theorem Represents.closedir (good : s.Good) (rep : Represents s m) (member : h ∈ s.handles) :
    Simulates (s.devfsClosedir h) (0, m.attach h.addr none) := by
  obtain ⟨p, i, there, -⟩ := good.held.node h member
  obtain ⟨here, -⟩ := entry_eq_some.mp there
  obtain ⟨sound, bare, held, files⟩ := good.detach member here
  have after := good.closedir member
  refine ⟨rfl, after.good, ?_⟩
  have rep' := (rep.detach good member here).after held after
  rw [rep.file] at rep'
  exact rep'

theorem Represents.readdir (good : s.Good) (rep : Represents s m) (nameLen : Nat) :
    (s.devfsReaddir maxPathLen nameLen h).2.Good ∧
      Represents (s.devfsReaddir maxPathLen nameLen h).2 m := by
  unfold devfsReaddir
  cases kind : h.kind with
  | file phase => exact ⟨good, rep⟩
  | dir lastName started =>
    dsimp only
    cases s.nextChild lastName started (s.node h.node).children with
    | none => exact ⟨good, rep⟩
    | some child =>
      have type : ∀ name, (HandleKind.dir name true).type = h.kind.type := by
        intro name
        rw [kind]
        rfl
      exact ⟨good_setKind good (type _), rep.setKind (type _)⟩

theorem simulates {nameLen : Nat} {call : Call} {out : Int × State} (good : s.Good)
    (rep : Represents s m) (possible : call.Possible s) (room : call.Room maxPathLen s)
    (step : call.exec maxPathLen nameLen s = some out) :
    Simulates out (m.step maxPathLen call) := by
  cases call with
  | register path ops userData answers =>
    obtain rfl := Option.some.inj step
    exact rep.registerFile good possible ops userData
  | unregister path =>
    obtain rfl := Option.some.inj step
    exact rep.unregister good
  | openFile path answer callback =>
    obtain rfl := Option.some.inj step
    exact rep.openFile good possible room
  | close a callback =>
    rw [Call.exec] at step
    split at step
    · rename_i c node found
      obtain rfl := Option.some.inj step
      obtain ⟨member, same⟩ := handleAt_mem found
      cases same
      exact rep.close good member
    · cases step
  | opendir path answer =>
    obtain rfl := Option.some.inj step
    exact rep.opendir good possible room
  | readdir a =>
    rw [Call.exec] at step
    split at step
    · obtain rfl := Option.some.inj step
      obtain ⟨good', rep'⟩ := rep.readdir good nameLen
      exact ⟨rfl, good', rep'⟩
    · cases step
  | closedir a =>
    rw [Call.exec] at step
    split at step
    · rename_i c node lastName started found
      obtain rfl := Option.some.inj step
      obtain ⟨member, same⟩ := handleAt_mem found
      cases same
      exact rep.closedir good member
    · cases step

end Calls

section Runs

/-- A run of calls that all meet a condition, with what they returned. -/
inductive Runs (maxPathLen nameLen : Nat) (ok : State → Call → Prop) :
    State → List (Call × Int) → State → Prop where
  | nil (s : State) : Runs maxPathLen nameLen ok s [] s
  | cons {s t u : State} {call : Call} {ret : Int} {trace : List (Call × Int)}
      (meets : ok s call) (step : call.exec maxPathLen nameLen s = some (ret, t))
      (rest : Runs maxPathLen nameLen ok t trace u) :
      Runs maxPathLen nameLen ok s ((call, ret) :: trace) u

/-- What `k_malloc` can do, and a count that does not overflow. -/
def Call.Fits (maxPathLen : Nat) (s : State) (call : Call) : Prop :=
  call.Possible s ∧ call.Room maxPathLen s

noncomputable def Names.run (maxPathLen : Nat) : Names → List Call → List Int × Names
  | m, [] => ([], m)
  | m, call :: calls =>
    let (rets, last) := Names.run maxPathLen (m.step maxPathLen call).2 calls
    ((m.step maxPathLen call).1 :: rets, last)

theorem good_boot : State.boot.Good := by
  have linked : State.boot.links.Linked := by
    refine ⟨Finset.mem_singleton_self root, rfl, ?_, ?_, ?_⟩
    · intro a _ c member
      cases member
    · intro a _
      exact List.Pairwise.nil
    · intro a alive
      exact ⟨[], congrArg some (Finset.mem_singleton.mp alive).symm⟩
  refine ⟨⟨linked, rfl, fun a _ file => nomatch file⟩, ?_, List.nodup_nil, ?_, ?_⟩
  · intro a alive top
    exact absurd (Finset.mem_singleton.mp alive) top
  · intro h member
    cases member
  · intro p a i here
    obtain ⟨-, rfl⟩ := entry_eq_some.mp here
    rfl

theorem represents_boot : Represents State.boot .empty := by
  refine ⟨?_, ?_, ?_⟩
  · funext p
    cases p with
    | nil => rfl
    | cons k p => rfl
  · intro h member
    cases member
  · intro a g known
    cases known

theorem Runs.represents {nameLen : Nat} {trace : List (Call × Int)} {t : State} (good : s.Good)
    (rep : Represents s m)
    (run : Runs maxPathLen nameLen (Call.Fits maxPathLen) s trace t) :
    t.Good ∧ ∃ m', m.run maxPathLen (trace.map Prod.fst) = (trace.map Prod.snd, m') ∧
      Represents t m' := by
  induction run generalizing m with
  | nil s => exact ⟨good, m, rfl, rep⟩
  | cons meets step rest ih =>
    obtain ⟨ret, good', rep'⟩ := simulates good rep meets.1 meets.2 step
    obtain ⟨final, m', same, rep''⟩ := ih good' rep'
    refine ⟨final, m', ?_, rep''⟩
    rw [List.map_cons, Names.run, same, ← ret]
    rfl

theorem Represents.stat_eq (good : s.Good) (rep : Represents s m) :
    s.devfsStat maxPathLen path =
      match m.lookup maxPathLen path with
      | none => (-ENOENT, none)
      | some (type, _) => (0, some type) := by
  unfold devfsStat
  cases found : s.findNode maxPathLen path with
  | none => rw [rep.lookup_none good found]
  | some a =>
    obtain ⟨p, -, -, here, -⟩ := good.sound.findNode_eq_some.mp found
    rw [(rep.lookup_iff good).mpr ⟨a, found, here, rfl⟩]

theorem Names.lookup_congr {m m' : Names} (same : m'.map = m.map) :
    m'.lookup maxPathLen path = m.lookup maxPathLen path := by
  have files : m'.file = m.file := congrArg PathMap.file same
  unfold Names.lookup
  rw [same, files]

theorem Names.register_fails {p : List Name} {v : FileOps × Addr} {answers : Nat → Option Addr}
    (fails : (m.register p v answers).1 ≠ 0) : (m.register p v answers).2 = m := by
  unfold Names.register at fails ⊢
  split_ifs at fails ⊢
  · rfl
  · rfl
  · rfl
  · rfl
  · exact absurd rfl fails

theorem Names.step_fails {call : Call} (fails : (m.step maxPathLen call).1 ≠ 0) :
    (m.step maxPathLen call).2.map = m.map := by
  cases call with
  | register path ops userData answers =>
    rw [Names.step] at fails ⊢
    unfold Names.registerFile at fails ⊢
    split
    · rename_i ops p parsed
      rw [parsed] at fails
      rw [Names.register_fails fails]
    · rfl
  | unregister path =>
    rw [Names.step] at fails ⊢
    unfold Names.unregister at fails ⊢
    split
    · rfl
    · rfl
    · rename_i p found
      rw [found] at fails
      dsimp only at fails
      split_ifs at fails ⊢
      · rfl
      · exact absurd rfl fails
  | openFile path answer callback =>
    rw [Names.step] at fails ⊢
    unfold Names.openFile at fails ⊢
    split
    · rfl
    · rfl
    · rfl
    · rename_i a p found
      rw [found] at fails
      dsimp only at fails
      split_ifs at fails ⊢
      · rfl
      · exact absurd rfl fails
  | close a callback =>
    rw [Names.step, Names.close]
    split
    · rename_i p known
      have held : (fun d => ∃ b, (m.attach a none).handle b = some (.dir, d)) =
          fun d => ∃ b, m.handle b = some (.dir, d) := by
        funext d
        apply propext
        constructor
        · rintro ⟨b, there⟩
          by_cases same : b = a
          · rw [same, Names.handle_attach_self] at there
            cases there
          · rw [Names.handle_attach_other _ same] at there
            exact ⟨b, there⟩
        · rintro ⟨b, there⟩
          have other : b ≠ a := by
            rintro rfl
            rw [known] at there
            cases there
          exact ⟨b, (m.handle_attach_other other none).trans there⟩
      unfold Names.map
      rw [held]
      rfl
    · rfl
  | opendir path answer =>
    rw [Names.step] at fails ⊢
    unfold Names.opendir at fails ⊢
    split
    · rfl
    · rfl
    · rfl
    · rename_i a p found
      rw [found] at fails
      exact absurd rfl fails
  | readdir a => rfl
  | closedir a => exact absurd rfl fails

/-- Devfs is a prefix-free map of paths: its calls return what the map says, its nodes are what
the map binds and what leads there, and calls that fail leave all that a client sees as it was. -/
theorem devfs_refines_map (maxPathLen nameLen : Nat) (trace : List (Call × Int)) (s : State)
    (run : Runs maxPathLen nameLen (Call.Fits maxPathLen) .boot trace s) :
    (∃ m : Names, Names.empty.run maxPathLen (trace.map Prod.fst) = (trace.map Prod.snd, m) ∧
      m.map.PrefixFree ∧
      (∀ path v, (∃ a, s.findNode maxPathLen path = some a ∧ (s.node a).type = .file ∧
          ((s.node a).ops, (s.node a).userData) = v) ↔
        ∃ p, Denotes maxPathLen path p false ∧ m.file p = some v) ∧
      (∀ path, (∃ a, s.findNode maxPathLen path = some a ∧ (s.node a).type = .dir) ↔
        ∃ p trailing, Denotes maxPathLen path p trailing ∧ m.map.IsDir p)) ∧
    ∀ (call : Call) (ret : Int) (t : State), call.Fits maxPathLen s →
      call.exec maxPathLen nameLen s = some (ret, t) → ret ≠ 0 →
      ∀ path, t.devfsStat maxPathLen path = s.devfsStat maxPathLen path := by
  obtain ⟨good, m, same, rep⟩ := Runs.represents good_boot represents_boot run
  refine ⟨⟨m, same, rep.prefixFree good, ?_, ?_⟩, ?_⟩
  · intro path v
    constructor
    · rintro ⟨a, found, type, value⟩
      obtain ⟨p, trailing, denotes, here, ends⟩ := good.sound.findNode_eq_some.mp found
      have short : trailing = false := by
        cases trailing with
        | false => rfl
        | true =>
          rw [ends rfl] at type
          cases type
      subst short
      refine ⟨p, denotes, ?_⟩
      rw [← rep.file]
      exact file_eq_some.mpr ⟨a, s.info a, entry_of_node here, type, value⟩
    · rintro ⟨p, denotes, bound⟩
      rw [← rep.file] at bound
      obtain ⟨a, i, there, type, value⟩ := file_eq_some.mp bound
      obtain ⟨here, rfl⟩ := entry_eq_some.mp there
      refine ⟨a, ?_, type, value⟩
      exact good.sound.findNode_eq_some.mpr ⟨p, false, denotes, here, fun no => nomatch no⟩
  · intro path
    constructor
    · rintro ⟨a, found, type⟩
      obtain ⟨p, trailing, denotes, here, -⟩ := good.sound.findNode_eq_some.mp found
      exact ⟨p, trailing, denotes, (rep.isDir_iff good).mpr ⟨a, here, type⟩⟩
    · rintro ⟨p, trailing, denotes, dir⟩
      obtain ⟨a, here, type⟩ := (rep.isDir_iff good).mp dir
      refine ⟨a, ?_, type⟩
      exact good.sound.findNode_eq_some.mpr ⟨p, trailing, denotes, here, fun _ => type⟩
  · intro call ret t fits step fails path
    obtain ⟨code, good', rep'⟩ := simulates good rep fits.1 fits.2 step
    have kept : (m.step maxPathLen call).2.map = m.map := by
      apply Names.step_fails
      rw [← code]
      exact fails
    rw [rep'.stat_eq good', rep.stat_eq good, Names.lookup_congr kept]

def leafPath : Option (List UInt8) := some (ascii "/a")

def registerLeaf : Call := .register leafPath (some .zero) 0 fun i => some (i + 1)

def withLeaf : State :=
  (State.boot.devfsRegisterFile 64 leafPath (some .zero) 0 fun i => some (i + 1)).2

theorem registerLeaf_possible : registerLeaf.Possible .boot := by
  refine ⟨?_, ?_⟩
  · rintro i a answer
    cases answer
    refine ⟨?_, fun h member => nomatch member⟩
    intro alive
    exact absurd (Finset.mem_singleton.mp alive) (Nat.succ_ne_zero i)
  · rintro i j a first second
    cases first
    cases second
    rfl

theorem findNode_withLeaf (n : UInt16) (handles : List Handle) :
    (withLeaf.recount 1 n handles).findNode 64 leafPath = some 1 := rfl

theorem recount_recount (a : Addr) (n n' : UInt16) (handles handles' : List Handle) :
    (s.recount a n handles).recount a n' handles' = s.recount a n' handles' := by
  unfold recount State.modify
  simp

def crowdHandles (kind : HandleKind) (first : Addr) : Nat → List Handle
  | 0 => []
  | n + 1 => ⟨n + first, 1, kind⟩ :: crowdHandles kind first n

theorem mem_crowdHandles {kind : HandleKind} {first : Addr} {n : Nat} {h : Handle}
    (member : h ∈ crowdHandles kind first n) :
    h.kind = kind ∧ first ≤ h.addr ∧ h.addr < n + first := by
  induction n with
  | zero => cases member
  | succ n ih =>
    rcases List.mem_cons.mp member with rfl | old
    · exact ⟨rfl, Nat.le_add_left _ _, Nat.add_lt_add_right (Nat.lt_succ_self n) _⟩
    · obtain ⟨same, above, below⟩ := ih old
      exact ⟨same, above, Nat.lt_trans below (Nat.add_lt_add_right (Nat.lt_succ_self n) _)⟩

def crowd (n : Nat) : State :=
  withLeaf.recount 1 (UInt16.ofNat n) (crowdHandles (.file .opened) 2 n)

theorem recount_zero {a : Addr} (idle : (s.node a).openCount = 0) (closed : s.handles = []) :
    s.recount a 0 [] = s := by
  obtain ⟨node, live, handles⟩ := s
  cases closed
  have same : { node a with openCount := 0 } = node a := by rw [← show _ = _ from idle]
  unfold recount State.modify
  simp only [same, Function.update_eq_self]

theorem crowd_zero : crowd 0 = withLeaf := recount_zero rfl rfl

theorem registerLeaf_exec : registerLeaf.exec 64 32 .boot = some (0, crowd 0) := by
  rw [crowd_zero]
  rfl

theorem crowd_open (n : Nat) :
    (Call.openFile leafPath (some (n + 2)) 0).exec 64 32 (crowd n) = some (0, crowd (n + 1)) := by
  have found : (crowd n).findNode 64 leafPath = some 1 := findNode_withLeaf _ _
  have type : ((crowd n).node 1).type = .file := rfl
  have count : ((crowd n).node 1).openCount + 1 = UInt16.ofNat (n + 1) :=
    (UInt16.ofNat_add n 1).symm
  have moved : (⟨n + 2, 1, .file .opening⟩ :: crowdHandles (.file .opened) 2 n : List Handle).map
      (fun g => if g = ⟨n + 2, 1, .file .opening⟩ then ⟨n + 2, 1, .file .opened⟩ else g) =
      crowdHandles (.file .opened) 2 (n + 1) := by
    rw [List.map_cons, if_pos rfl, crowdHandles, List.cons.injEq]
    refine ⟨rfl, (List.map_congr_left ?_).trans (List.map_id _)⟩
    intro g member
    rw [if_neg]
    · rfl
    · rintro rfl
      cases (mem_crowdHandles member).1
  rw [Call.exec, devfsOpen, openBegin, acquire_eq found, if_neg fun other => other type]
  dsimp only
  unfold openEnd
  rw [ops_recount, if_neg fun fails => fails.2 rfl, count, crowd, recount_recount]
  exact congrArg (fun handles => some (0, withLeaf.recount 1 _ handles)) moved

theorem repeated_runs {crowd : Nat → State} {first : Call} {call : Nat → Call}
    (fresh : first.Possible .boot) (start : first.exec 64 32 .boot = some (0, crowd 0))
    (possible : ∀ n, (call n).Possible (crowd n))
    (step : ∀ n, (call n).exec 64 32 (crowd n) = some (0, crowd (n + 1))) (n : Nat) :
    ∃ trace, Runs 64 32 (fun s call => call.Possible s) .boot trace (crowd n) := by
  have onward (m : Nat) {u : State} {trace : List (Call × Int)}
      (rest : Runs 64 32 (fun s call => call.Possible s) (crowd m) trace u) :
      ∃ whole, Runs 64 32 (fun s call => call.Possible s) .boot whole u := by
    induction m generalizing trace with
    | zero => exact ⟨_, .cons fresh start rest⟩
    | succ m ih => exact ih (.cons (possible m) (step m) rest)
  exact onward n (.nil _)

/-- After 2^16 opens the count of a file is 0 again, and it can be unregistered while it is open. -/
theorem crowded_file_unregistered : ∃ trace s,
    Runs 64 32 (fun s call => call.Possible s) .boot trace s ∧
      (∃ h ∈ s.handles, s.findNode 64 leafPath = some h.node ∧ h.kind = .file .opened) ∧
      (s.devfsUnregisterFile 64 leafPath).1 = 0 := by
  have possible (n : Nat) : (Call.openFile leafPath (some (n + 2)) 0).Possible (crowd n) := by
    rintro a answer
    cases answer
    have live : (crowd n).live = {1, root} := rfl
    refine ⟨?_, fun h member => Nat.ne_of_lt (mem_crowdHandles member).2.2⟩
    rw [live]
    simp [root]
  obtain ⟨trace, run⟩ := repeated_runs registerLeaf_possible registerLeaf_exec possible crowd_open
    (2 ^ 16)
  refine ⟨trace, _, run, ?_, ?_⟩
  · obtain ⟨n, some'⟩ : ∃ n, 2 ^ 16 = n + 1 := ⟨2 ^ 16 - 1, rfl⟩
    refine ⟨⟨n + 2, 1, .file .opened⟩, ?_, findNode_withLeaf _ _, rfl⟩
    rw [some']
    exact List.mem_cons_self
  · have found : (crowd (2 ^ 16)).findNode 64 leafPath = some 1 := findNode_withLeaf _ _
    have empty : ((crowd (2 ^ 16)).node 1).openCount = 0 := by
      decide
    unfold devfsUnregisterFile
    rw [found]
    dsimp only
    rfl

/-- A file that is open stays registered. -/
theorem devfs_refines_map_busy : ∃ m, Names.empty.run 64
    [registerLeaf, .openFile leafPath (some 2) 0, .unregister leafPath] = ([0, 0, -EBUSY], m) := by
  have run : Runs 64 32 (Call.Fits 64) .boot
      [(registerLeaf, 0), (.openFile leafPath (some 2) 0, 0), (.unregister leafPath, -EBUSY)]
      (crowd 1) := by
    refine .cons ⟨registerLeaf_possible, trivial⟩ registerLeaf_exec
      (.cons ⟨?_, ?_⟩ (crowd_open 0) (.cons ⟨trivial, trivial⟩ ?_ (.nil _)))
    · rintro a answer
      cases answer
      exact ⟨by decide, fun h member => nomatch member⟩
    · intro a _
      exact (by decide : 0 + 1 < 2 ^ 16)
    · rfl
  obtain ⟨⟨m, same, -⟩, -⟩ := devfs_refines_map 64 32 _ _ run
  exact ⟨m, same⟩

end Runs

end Webos.Devfs
