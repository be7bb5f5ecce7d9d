/- digest: The file and directory handles of devfs, and the calls a client can make. -/

import Webos.Devfs.Tree

namespace Webos.Devfs

open Webos.Adb (ENOENT ENOMEM ENOTSUP)
open Webos.Lib.CString

namespace State

variable (s : State)

def handleAt (a : Addr) : Option Handle := s.handles.find? fun h => h.addr = a

def setKind (h : Handle) (kind : HandleKind) : State :=
  { s with handles := s.handles.map fun g => if g = h then { h with kind := kind } else g }

def dropHandle (h : Handle) : State :=
  { s.modify h.node fun n => { n with openCount := n.openCount - 1 } with
    handles := s.handles.erase h }

/-- `devfs_open` and `devfs_opendir` up to the end of their first critical section: `k_malloc`
returned `answer`, and `mismatch` is the error for a node of the other type. -/
def acquire (maxPathLen : Nat) (path : Option (List UInt8)) (mismatch : Int) (kind : HandleKind)
    (answer : Option Addr) : Except Int Handle × State :=
  match answer with
  | none => (.error (-ENOMEM), s)
  | some a =>
    match s.findNode maxPathLen path with
    | none => (.error (-ENOENT), s)
    | some node =>
      if (s.node node).type ≠ kind.type then (.error mismatch, s)
      else (.ok ⟨a, node, kind⟩,
        { s.modify node fun n => { n with openCount := n.openCount + 1 } with
          handles := ⟨a, node, kind⟩ :: s.handles })

def openBegin (maxPathLen : Nat) (path : Option (List UInt8)) (answer : Option Addr) :
    Except Int Handle × State :=
  s.acquire maxPathLen path (-EISDIR) (.file .opening) answer

/-- The rest of `devfs_open`, where `callback` is what the driver's `open` returns. -/
def openEnd (file : Handle) (callback : Int) : Int × State :=
  if (s.node file.node).ops.openFn ≠ none ∧ callback ≠ 0 then (callback, s.dropHandle file)
  else (0, s.setKind file (.file .opened))

def devfsOpen (maxPathLen : Nat) (path : Option (List UInt8)) (answer : Option Addr)
    (callback : Int) : Int × State :=
  match s.openBegin maxPathLen path answer with
  | (.error ret, s) => (ret, s)
  | (.ok file, s) => s.openEnd file callback

def devfsRead (file : Handle) (callback : Int) : Int :=
  if (s.node file.node).ops.readFn = none then -ENOTSUP else callback

def devfsWrite (file : Handle) (callback : Int) : Int :=
  if (s.node file.node).ops.writeFn = none then -ENOTSUP else callback

def closeBegin (file : Handle) : State := s.setKind file (.file .closing)

/-- The rest of `devfs_close`, where `callback` is what the driver's `close` returned. -/
def closeEnd (file : Handle) (callback : Int) : Int × State :=
  (if (s.node file.node).ops.closeFn = none then 0 else callback, s.dropHandle file)

def devfsClose (file : Handle) (callback : Int) : Int × State :=
  (s.closeBegin file).closeEnd { file with kind := .file .closing } callback

def devfsStat (maxPathLen : Nat) (path : Option (List UInt8)) : Int × Option NodeType :=
  match s.findNode maxPathLen path with
  | none => (-ENOENT, none)
  | some node => (0, some (s.node node).type)

def devfsOpendir (maxPathLen : Nat) (path : Option (List UInt8)) (answer : Option Addr) :
    Int × State :=
  match s.acquire maxPathLen path (-ENOTDIR) (.dir [] false) answer with
  | (.error ret, s) => (ret, s)
  | (.ok _, s) => (0, s)

def nextChild (lastName : Name) (started : Bool) (children : List Addr) : Option Addr :=
  children.find? fun child => !(started && strcmp (s.node child).name lastName != .gt)

def devfsReaddir (maxPathLen nameLen : Nat) (dir : Handle) : Option (Name × NodeType) × State :=
  match dir.kind with
  | .file _ => (none, s)
  | .dir lastName started =>
    match s.nextChild lastName started (s.node dir.node).children with
    | none => (none, s)
    | some child =>
      (some ((s.node child).name.take nameLen, (s.node child).type),
        s.setKind dir (.dir ((s.node child).name.take (maxPathLen - 1)) true))

def devfsClosedir (dir : Handle) : Int × State := (0, (s.dropHandle dir).pruneEmptyDirs dir.node)

def Unused (a : Addr) : Prop := a ∉ s.live ∧ ∀ h ∈ s.handles, h.addr ≠ a

end State

/-- A call of a client, with what `k_malloc` and the driver's callback return in it. -/
inductive Call where
  | register (path : Option (List UInt8)) (ops : Option FileOps) (userData : Addr)
      (answers : Nat → Option Addr)
  | unregister (path : Option (List UInt8))
  | openFile (path : Option (List UInt8)) (answer : Option Addr) (callback : Int)
  | close (file : Addr) (callback : Int)
  | opendir (path : Option (List UInt8)) (answer : Option Addr)
  | readdir (dir : Addr)
  | closedir (dir : Addr)

def Call.Possible (s : State) : Call → Prop
  | .register _ _ _ answers =>
    (∀ i a, answers i = some a → s.Unused a) ∧
      ∀ i j a, answers i = some a → answers j = some a → i = j
  | .openFile _ answer _ => ∀ a, answer = some a → s.Unused a
  | .opendir _ answer => ∀ a, answer = some a → s.Unused a
  | _ => True

/-- A call, which can only name a handle that is open: the result and the state. -/
def Call.exec (maxPathLen nameLen : Nat) (s : State) : Call → Option (Int × State)
  | .register path ops userData answers =>
    some (s.devfsRegisterFile maxPathLen path ops userData answers)
  | .unregister path => some (s.devfsUnregisterFile maxPathLen path)
  | .openFile path answer callback => some (s.devfsOpen maxPathLen path answer callback)
  | .close a callback =>
    match s.handleAt a with
    | some ⟨a, node, .file .opened⟩ => some (s.devfsClose ⟨a, node, .file .opened⟩ callback)
    | _ => none
  | .opendir path answer => some (s.devfsOpendir maxPathLen path answer)
  | .readdir a =>
    match s.handleAt a with
    | some ⟨a, node, .dir lastName started⟩ =>
      some (0, (s.devfsReaddir maxPathLen nameLen ⟨a, node, .dir lastName started⟩).2)
    | _ => none
  | .closedir a =>
    match s.handleAt a with
    | some ⟨a, node, .dir lastName started⟩ =>
      some (s.devfsClosedir ⟨a, node, .dir lastName started⟩)
    | _ => none

end Webos.Devfs
