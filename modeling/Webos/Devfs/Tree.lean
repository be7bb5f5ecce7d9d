/- digest: The nodes of devfs, and how files are registered, unregistered and found. -/

import Mathlib.Data.Finset.Card
import Mathlib.Logic.Function.Basic
import Webos.Devfs.Path
import Webos.Lib.CString

namespace Webos.Devfs

open Webos.Adb (EBUSY EEXIST EINVAL ENOENT ENOMEM)
open Webos.Lib.CString

/-- A pointer to a node, or to a handle. -/
abbrev Addr := Nat

inductive NodeType where
  | dir
  | file
  deriving DecidableEq

structure FileOps where
  openFn : Option Addr
  readFn : Option Addr
  writeFn : Option Addr
  closeFn : Option Addr
  deriving DecidableEq

def FileOps.zero : FileOps := ⟨none, none, none, none⟩

structure Node where
  children : List Addr
  parent : Option Addr
  ops : FileOps
  userData : Addr
  openCount : UInt16
  type : NodeType
  name : Name

def Node.fresh (type : NodeType) (name : Name) : Node where
  children := []
  parent := none
  ops := .zero
  userData := 0
  openCount := 0
  type := type
  name := name

/-- How far the caller of `devfs_open` or `devfs_close` has got with a file. -/
inductive Phase where
  | opening
  | opened
  | closing
  deriving DecidableEq

/-- A `struct devfs_file`, or a `struct devfs_dir` with the name it listed last. -/
inductive HandleKind where
  | file (phase : Phase)
  | dir (lastName : Name) (started : Bool)
  deriving DecidableEq

def HandleKind.type : HandleKind → NodeType
  | .file _ => .file
  | .dir _ _ => .dir

structure Handle where
  addr : Addr
  node : Addr
  kind : HandleKind
  deriving DecidableEq

/-- The memory devfs owns: its nodes, of which those in `live` are not freed, and its handles. -/
structure State where
  node : Addr → Node
  live : Finset Addr
  handles : List Handle

def root : Addr := 0

def State.boot : State where
  node := fun _ => .fresh .dir []
  live := {root}
  handles := []

namespace State

variable (s : State)

def modify (a : Addr) (f : Node → Node) : State :=
  { s with node := Function.update s.node a (f (s.node a)) }

def kFree (a : Addr) : State := { s with live := s.live.erase a }

/-- The loop of `find_child`. -/
def scanChildren (name : Name) : List Addr → Option Addr
  | [] => none
  | child :: rest =>
    let cmp := strncmp (s.node child).name name name.length
    if cmp = .eq ∧ (s.node child).name.length ≤ name.length then some child
    else if cmp = .gt ∨ (cmp = .eq ∧ ¬(s.node child).name.length ≤ name.length) then none
    else scanChildren name rest

def findChild (parent : Addr) (name : Name) : Option Addr :=
  s.scanChildren name (s.node parent).children

def allocNode (a : Addr) (type : NodeType) (name : Name) : State :=
  { s with node := Function.update s.node a (.fresh type name), live := insert a s.live }

/-- The loop of `insert_child` over the siblings. -/
def insertBefore (node : Addr) : List Addr → List Addr
  | [] => [node]
  | child :: rest =>
    if strcmp (s.node node).name (s.node child).name = .lt then node :: child :: rest
    else child :: insertBefore node rest

def insertChild (parent node : Addr) : State :=
  let s := s.modify node fun n => { n with parent := some parent }
  s.modify parent fun n => { n with children := s.insertBefore node n.children }

def unlinkChild (node : Addr) : State :=
  match (s.node node).parent with
  | none => s
  | some parent =>
    (s.modify parent fun n => { n with children := n.children.erase node }).modify node
      fun n => { n with parent := none }

/-- The loop of `prune_empty_dirs`, with a bound on its rounds. -/
def pruneRounds : Nat → State → Addr → State
  | 0, s, _ => s
  | rounds + 1, s, node =>
    if node ≠ root ∧ (s.node node).type = .dir ∧ (s.node node).children = [] ∧
        (s.node node).openCount = 0 then
      let rest := (s.unlinkChild node).kFree node
      match (s.node node).parent with
      | none => rest
      | some parent => pruneRounds rounds rest parent
    else s

def pruneEmptyDirs (node : Addr) : State := pruneRounds s.live.card s node

/-- The loop of `find_node`. -/
def findFrom : Addr → List (Name × Bool) → Option Addr
  | node, [] => some node
  | node, (name, more) :: rest =>
    match s.findChild node name with
    | none => none
    | some child =>
      if more ∧ (s.node child).type ≠ .dir then none else findFrom child rest

def findNode (maxPathLen : Nat) (path : Option (List UInt8)) : Option Addr :=
  match validatePath maxPathLen path true with
  | none => none
  | some rel => if rel = [slash] then some root else s.findFrom root (components rel.tail)

/-- The loop of `devfs_register_file`; `k_malloc` returns `answers 0`, then `answers 1` and so on.
The result is `ret`, the value of `parent` and the nodes. -/
def registerRounds : State → (Nat → Option Addr) → Addr → List (Name × Bool) → Int × Addr × State
  | s, _, parent, [] => (0, parent, s)
  | s, answers, parent, (name, more) :: rest =>
    match s.findChild parent name with
    | some node =>
      if ¬more then (if (s.node node).type = .file then -EEXIST else -EISDIR, parent, s)
      else if (s.node node).type ≠ .dir then (-ENOTDIR, parent, s)
      else registerRounds s answers node rest
    | none =>
      match answers 0 with
      | none => (-ENOMEM, parent, s)
      | some node =>
        let s := (s.allocNode node (if more then .dir else .file) name).insertChild parent node
        registerRounds s (fun i => answers (i + 1)) node rest

def devfsRegisterFile (maxPathLen : Nat) (path : Option (List UInt8)) (ops : Option FileOps)
    (userData : Addr) (answers : Nat → Option Addr) : Int × State :=
  match ops with
  | none => (-EINVAL, s)
  | some ops =>
    match validatePath maxPathLen path false with
    | none => (-EINVAL, s)
    | some rel =>
      if rel = [slash] then (-EINVAL, s)
      else
        let (ret, parent, s) := s.registerRounds answers root (components rel.tail)
        if ret = 0 then (0, s.modify parent fun n => { n with ops := ops, userData := userData })
        else (ret, s.pruneEmptyDirs parent)

def devfsUnregisterFile (maxPathLen : Nat) (path : Option (List UInt8)) : Int × State :=
  match s.findNode maxPathLen path with
  | none => (-ENOENT, s)
  | some node =>
    if (s.node node).type ≠ .file then (-EISDIR, s)
    else if (s.node node).openCount ≠ 0 then (-EBUSY, s)
    else
      let rest := (s.unlinkChild node).kFree node
      match (s.node node).parent with
      | none => (0, rest)
      | some parent => (0, rest.pruneEmptyDirs parent)

end State

end Webos.Devfs
