/- digest: The router with its three services, and the runs of the whole. -/

import Webos.Adb.Logcat.Ownership
import Webos.Adb.Shell.Ownership
import Webos.Adb.Sync.Ownership

namespace Webos.Adb

open Webos.Lib Webos.Lib.Files Webos.Lib.Program Webos.Services

section Lift

variable {cfg : Config} {σ τ : Type}

def ServiceOps.lift (ops : ServiceOps cfg τ) (get : σ → τ) (set : τ → σ → σ) :
    ServiceOps cfg σ where
  openOp st s suffix :=
    (ops.openOp (get st) s suffix).bind fun out => .done (out.1, set out.2 st)
  writeOp := ops.writeOp.map fun write st s data =>
    (write (get st) s data).bind fun out => .done (out.1, set out.2 st)
  txReadyOp := ops.txReadyOp.map fun txReady st s =>
    (txReady (get st) s).bind fun out => .done (out.1, set out.2 st)
  closeOp := ops.closeOp.map fun close st s => set (close (get st) s) st

end Lift

namespace System

variable {cfg : Config} {β φ μ π : Type}

/-- The options of the services and the code behind them: the dummy shell, the file system and the
heap of the logcat service. -/
structure Parts (cfg : Config) (β φ μ : Type) where
  shell : Shell.Options cfg
  backend : Shell.Backend β
  fs : FileSystem Sync.Path (Slot cfg) UInt8 φ
  logcat : Logcat.Options
  malloc : μ → Nat → Bool × μ

structure Services (parts : Parts cfg β φ μ) where
  shell : Shell.Statics cfg parts.shell β
  sync : Sync.Statics cfg φ
  logcat : Logcat.Statics cfg μ

variable {parts : Parts cfg β φ μ}

def Services.boot (parts : Parts cfg β φ μ) (world : β) (disk : φ) (heap : μ) (log : ByteRing) :
    Services parts where
  shell := ⟨fun _ => Shell.ShellContext.zero cfg, world⟩
  sync := ⟨fun _ => Sync.SyncContext.zero cfg, 0, disk⟩
  logcat := ⟨⟨none, .zeroed 0, 0, false, false, false, []⟩, .boot log, heap⟩

def setShell (shell : Shell.Statics cfg parts.shell β) (st : Services parts) : Services parts :=
  { st with shell }

def setSync (sync : Sync.Statics cfg φ) (st : Services parts) : Services parts := { st with sync }

def setLogcat (logcat : Logcat.Statics cfg μ) (st : Services parts) : Services parts :=
  { st with logcat }

/-- The operation tables that `handle_open` puts into a slot. -/
def ops (parts : Parts cfg β φ μ) : ServiceKind → ServiceOps cfg (Services parts)
  | .shell => (Shell.shellOps parts.backend).lift Services.shell setShell
  | .sync => (Sync.syncOps parts.fs).lift Services.sync setSync
  | .logcat => (Logcat.logcatOps parts.logcat parts.malloc).lift Services.logcat setLogcat

/-- A platform with the services of the repository. -/
def env (parts : Parts cfg β φ μ) (base : Env cfg (Services parts) π) :
    Env cfg (Services parts) π :=
  { base with ops := ops parts }

section Effects

variable {st : Services parts} {s : Slot cfg}

def OpenEffect (st : Services parts) (s : Slot cfg) (ret : Int) (st' : Services parts) :
    ServiceKind → Prop
  | .shell => Opened Shell.ShellContext.stream (Shell.ShellContext.zero cfg) st.shell.contexts s ret
      st'.shell.contexts ∧ st'.sync = st.sync ∧ st'.logcat = st.logcat
  | .sync => Opened Sync.SyncContext.stream (Sync.SyncContext.zero cfg) st.sync.contexts s ret
      st'.sync.contexts ∧ st'.shell = st.shell ∧ st'.logcat = st.logcat
  | .logcat => Logcat.Begun s st.logcat ret st'.logcat ∧ st'.shell = st.shell ∧ st'.sync = st.sync

structure WorkEffect (st st' : Services parts) : Prop where
  shell : Worked Shell.ShellContext.stream st.shell.contexts st'.shell.contexts
  sync : Worked Sync.SyncContext.stream st.sync.contexts st'.sync.contexts
  logcat : Logcat.Resumed st.logcat st'.logcat

def CloseEffect (st : Services parts) (s : Slot cfg) (st' : Services parts) : ServiceKind → Prop
  | .shell => Closed Shell.ShellContext.stream (Shell.ShellContext.zero cfg) st.shell.contexts s
      st'.shell.contexts ∧ st'.sync = st.sync ∧ st'.logcat = st.logcat
  | .sync => Closed Sync.SyncContext.stream (Sync.SyncContext.zero cfg) st.sync.contexts s
      st'.sync.contexts ∧ st'.shell = st.shell ∧ st'.logcat = st.logcat
  | .logcat => st'.logcat = Logcat.adbLogcatClose st.logcat s ∧ st'.shell = st.shell ∧
      st'.sync = st.sync

theorem open_effect (base : Env cfg (Services parts) π) (kind : ServiceKind) (st : Services parts)
    (s : Slot cfg) (suffix : List UInt8) : (((env parts base).ops kind).openOp st s suffix).Meets
      (StreamCall.Within (· = s)) (fun out => OpenEffect st s out.1 out.2 kind) := by
  cases kind with
  | shell =>
    exact (Shell.adbShellOpen_meets parts.backend st.shell s suffix).bind
      fun out opened => ⟨opened, rfl, rfl⟩
  | sync => exact (Sync.syncOpen_meets st.sync s suffix).bind fun out opened => ⟨opened, rfl, rfl⟩
  | logcat =>
    exact (Logcat.adbLogcatOpen_meets parts.logcat parts.malloc st.logcat s suffix).bind
      fun out begun => ⟨begun, rfl, rfl⟩

theorem write_effect (kind : ServiceKind) {write : Services parts → Slot cfg → List UInt8 →
    Callback cfg (Services parts) Int} (found : (ops parts kind).writeOp = some write)
    (st : Services parts) (s : Slot cfg) (data : List UInt8) :
    (write st s data).Meets (StreamCall.Within (· = s)) (fun out => WorkEffect st out.2) := by
  cases kind <;> cases found
  · exact (Shell.adbShellWrite_meets parts.backend st.shell s data).bind
      fun out worked => ⟨worked, .inl rfl, rfl, rfl, rfl⟩
  · exact (Sync.syncWrite_meets parts.fs st.sync s data).bind
      fun out worked => ⟨.inl rfl, worked, rfl, rfl, rfl⟩
  · exact (Logcat.adbLogcatWrite_meets st.logcat s data).bind
      fun out same => ⟨.inl rfl, .inl rfl, same ▸ ⟨rfl, rfl, rfl⟩⟩

theorem ready_effect (kind : ServiceKind) {txReady : Services parts → Slot cfg →
    Callback cfg (Services parts) Unit} (found : (ops parts kind).txReadyOp = some txReady)
    (st : Services parts) (s : Slot cfg) :
    (txReady st s).Meets (StreamCall.Within (· = s)) (fun out => WorkEffect st out.2) := by
  cases kind <;> cases found
  · exact (Shell.adbShellTxReady_meets parts.backend st.shell s).bind
      fun out worked => ⟨worked, .inl rfl, rfl, rfl, rfl⟩
  · exact ⟨.inl rfl, .inl rfl, rfl, rfl, rfl⟩
  · exact (Logcat.adbLogcatTxReady_meets st.logcat s).bind
      fun out resumed => ⟨.inl rfl, .inl rfl, resumed⟩

theorem close_effect (parts : Parts cfg β φ μ) (kind : ServiceKind) : ∃ close,
    (ops parts kind).closeOp = some close ∧ ∀ st s, CloseEffect st s (close st s) kind := by
  cases kind with
  | shell =>
    exact ⟨_, rfl, fun st s => ⟨Shell.adbShellClose_closed parts.backend st.shell s, rfl, rfl⟩⟩
  | sync => exact ⟨_, rfl, fun st s => ⟨Sync.syncClose_closed parts.fs st.sync s, rfl, rfl⟩⟩
  | logcat => exact ⟨_, rfl, fun st s => ⟨rfl, rfl, rfl⟩⟩

end Effects

/-- What other threads do to the log and to the logcat service outside the router. The calls by
which the logcat worker writes or closes are entry points of the router. -/
inductive LogStep where
  | put (msg : List UInt8)
  | clear
  | register (id : Nat)
  | unregister (id : Nat)
  | deliver (data : List UInt8)
  | capture (room : Nat)
  | abandon (generation : UInt32)

/-- The effect of such a step, at any time: a delivery or a step of the worker may be late. -/
def LogStep.run (step : LogStep) (st : Logcat.Statics cfg μ) : Logcat.Statics cfg μ :=
  match step with
  | .put msg => { st with buffer := (logBufferPut msg st.buffer).2 }
  | .clear => { st with buffer := logBufferClear st.buffer }
  | .register id => { st with buffer := (logBufferSetListener (.foreign id) st.buffer).2 }
  | .unregister id => { st with buffer := logBufferClearListener (.foreign id) st.buffer }
  | .deliver data => Logcat.liveLogListener data st
  | .capture room => if st.logcat.active && !st.logcat.sending && st.logcat.ring.len != 0 then
      st.set (Logcat.LogcatContext.capture room) else st
  | .abandon generation => if st.logcat.current generation then
      st.set fun c => { c with sending := false } else st

/-- The states of the system between its steps: between two calls of the entry points of the
router, inside the receive loop before every pass, and between the steps of other threads. -/
inductive Running (parts : Parts cfg β φ μ) (base : Env cfg (Services parts) π) :
    World cfg (Services parts) π → Prop where
  | boot (world : β) (disk : φ) (heap : μ) (log : ByteRing) (platform : π) :
    Running parts base (protocolResetUnlocked (env parts base)
      (World.boot cfg (Services.boot parts world disk heap log) platform))
  | input {w : World cfg (Services parts) π} (input : Input cfg) : Running parts base w →
    Running parts base (w.input (env parts base) input)
  | enter {w : World cfg (Services parts) π} : Running parts base w →
    Running parts base { w with dispatching := true }
  | pass {w : World cfg (Services parts) π} (data : List UInt8) : Running parts base w →
    w.dispatching = true → Running parts base (receivePass (env parts base) data w).2.2
  | log {w : World cfg (Services parts) π} (step : LogStep) : Running parts base w →
    Running parts base { w with services := setLogcat (step.run w.services.logcat) w.services }

variable {w : World cfg (Services parts) π} {base : Env cfg (Services parts) π}

theorem Running.invariant {J : World cfg (Services parts) π → Prop}
    (rule : Upholds (env parts base) J) (start : ∀ world disk heap log platform,
      J (World.boot cfg (Services.boot parts world disk heap log) platform))
    (logs : ∀ w (step : LogStep), J w →
      J { w with services := setLogcat (step.run w.services.logcat) w.services })
    (running : Running parts base w) : J w := by
  induction running with
  | boot world disk heap log platform => exact rule.reset (start world disk heap log platform)
  | input input _ holds => exact rule.enters.input input _ holds
  | enter _ holds => exact rule.still holds rfl rfl
  | pass data _ dispatching holds =>
    exact (rule.enters.receives.receivePass data _ dispatching).1 holds
  | log step _ holds => exact logs _ step holds

/-- The services as `app/prj.conf` builds them, on a platform where every call succeeds: commands
print nothing and the file system is one in memory. -/
def Parts.project : Parts Config.project Unit (Disk Sync.Path (Slot Config.project) UInt8)
    Unit where
  shell := .project
  backend := ⟨fun _ _ => (true, ()), fun _ => (0, ()), id, fun _ _ => (0, ()), fun _ => ([], ())⟩
  fs := memory
  logcat := ⟨4096, by decide⟩
  malloc := fun _ _ => (true, ())

def Env.accepting (parts : Parts cfg β φ μ) : Env cfg (Services parts) Unit where
  transportSend := some (fun _ _ _ => (0, ()))
  usbResetTx := id
  malloc := fun _ _ => (true, ())
  workReschedule := fun _ => (0, ())
  ops := ops parts

def start : World Config.project (Services Parts.project) Unit :=
  protocolResetUnlocked (env _ (Env.accepting _)) (World.boot _
    (Services.boot _ () ⟨fun _ => none, fun _ => none, 0⟩ () (.zeroed 1024)) ())

theorem Running.start : Running Parts.project (Env.accepting _) start := .boot _ _ _ _ _

theorem Running.inputs (run : List (Input cfg)) (running : Running parts base w) :
    Running parts base (w.inputs (env parts base) run) := by
  induction run generalizing w with
  | nil => exact running
  | cons input run ih => exact ih (running.input input)

end System

end Webos.Adb
