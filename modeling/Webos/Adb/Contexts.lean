/- digest: Shell and sync contexts stay in step with the slots of the stream table. -/

import Webos.Adb.Framing
import Webos.Adb.Router.Ids
import Webos.Adb.System

namespace Webos.Adb.System

open Webos.Lib Webos.Lib.Files Webos.Lib.Owners Webos.Lib.Program

variable {cfg : Config} {β φ μ π : Type} {parts : Parts cfg β φ μ}
  {base : Env cfg (Services parts) π} {w : World cfg (Services parts) π}

def shellOwner (st : Services parts) (i : Fin parts.shell.maxStreams) : Option (Slot cfg) :=
  (st.shell.contexts i).stream

def syncOwner (st : Services parts) (i : Slot cfg) : Option (Slot cfg) :=
  (st.sync.contexts i).stream

theorem tabled {ι : Type} [DecidableEq ι] (base : Env cfg (Services parts) π) (kind : ServiceKind)
    (own : Services parts → ι → Option (Slot cfg))
    (opened : ∀ st s ret st', OpenEffect st s ret st' kind → Claimed own st s (ret, st'))
    (openedBy : ∀ st s ret st' other, other ≠ kind → OpenEffect st s ret st' other →
      own st' = own st)
    (worked : ∀ st st', WorkEffect st st' → own st' = own st)
    (closed : ∀ st s st', CloseEffect st s st' kind → Freed own st s st')
    (closedBy : ∀ st s st' other, other ≠ kind → CloseEffect st s st' other →
      own st' = own st) : Tabled (env parts base) kind own where
  opened st s suffix := (open_effect base kind st s suffix).mono (fun _ _ => trivial)
    fun out effect => opened st s out.1 out.2 effect
  openedBy other different st s suffix := (open_effect base other st s suffix).mono
    (fun _ _ => trivial) fun out effect => openedBy st s out.1 out.2 other different effect
  wrote other write found st s data := (write_effect other found st s data).mono
    (fun _ _ => trivial) fun out effect => worked st out.2 effect
  readied other txReady found st s := (ready_effect other found st s).mono
    (fun _ _ => trivial) fun out effect => worked st out.2 effect
  closed := by
    obtain ⟨close, found, effect⟩ := close_effect parts kind
    exact ⟨close, found, fun st s => closed st s _ (effect st s)⟩
  closedBy other different close found st s := by
    obtain ⟨close', same, effect⟩ := close_effect parts other
    cases found.symm.trans same
    exact closedBy st s _ other different (effect st s)

theorem shell_tabled (base : Env cfg (Services parts) π) :
    Tabled (env parts base) .shell (shellOwner : Services parts → _) := by
  refine tabled base .shell shellOwner (fun st s ret st' effect => ?_) ?_
    (fun st st' effect => effect.shell.owners) (fun st s st' effect => ?_) ?_
  · exact Opened.claimed (fun st : Services parts => st.shell.contexts) effect.1 rfl
  · intro st s ret st' other different effect
    cases other with
    | shell => exact absurd rfl different
    | _ => exact congrArg (fun shell i => (Shell.Statics.contexts shell i).stream) effect.2.1
  · exact Closed.freed (fun st : Services parts => st.shell.contexts) effect.1 rfl
  · intro st s st' other different effect
    cases other with
    | shell => exact absurd rfl different
    | _ => exact congrArg (fun shell i => (Shell.Statics.contexts shell i).stream) effect.2.1

theorem sync_tabled (base : Env cfg (Services parts) π) :
    Tabled (env parts base) .sync (syncOwner : Services parts → _) := by
  have same {st st' : Services parts} (kept : st'.sync = st.sync) : syncOwner st' = syncOwner st :=
    congrArg (fun sync i => (Sync.Statics.contexts sync i).stream) kept
  refine tabled base .sync syncOwner (fun st s ret st' effect => ?_) ?_
    (fun st st' effect => effect.sync.owners) (fun st s st' effect => ?_) ?_
  · exact Opened.claimed (fun st : Services parts => st.sync.contexts) effect.1 rfl
  · intro st s ret st' other different effect
    cases other with
    | shell => exact same effect.2.1
    | sync => exact absurd rfl different
    | logcat => exact same effect.2.2
  · exact Closed.freed (fun st : Services parts => st.sync.contexts) effect.1 rfl
  · intro st s st' other different effect
    cases other with
    | shell => exact same effect.2.1
    | sync => exact absurd rfl different
    | logcat => exact same effect.2.2

theorem Running.shellInStep (running : Running parts base w) : InStep .shell shellOwner w :=
  running.invariant (shell_tabled base).upholds
    (fun _ _ _ _ _ => .empty (fun _ => rfl) (fun _ live => nomatch live.1))
    (fun _ _ inStep => inStep.keep rfl (fun _ => .refl _))

theorem Running.syncInStep (running : Running parts base w) : InStep .sync syncOwner w :=
  running.invariant (sync_tabled base).upholds
    (fun _ _ _ _ _ => .empty (fun _ => rfl) (fun _ live => nomatch live.1))
    (fun _ _ inStep => inStep.keep rfl (fun _ => .refl _))

/-- In every state, the shell and sync contexts that are in use are exactly those of the used slots
with these services, one for each; a slot that is free or serves another service has none. -/
theorem contexts_in_step (running : Running parts base w) :
    (∀ i s, shellOwner w.services i = some s → Live .shell w s) ∧
    (∀ i s, syncOwner w.services i = some s → Live .sync w s) ∧
    (∀ s, Live .shell w s → ∃! i, shellOwner w.services i = some s) ∧
    (∀ s, Live .sync w s → ∃! i, syncOwner w.services i = some s) ∧
    (∀ s, ¬ Live .shell w s → ∀ i, shellOwner w.services i ≠ some s) ∧
    (∀ s, ¬ Live .sync w s → ∀ i, syncOwner w.services i ≠ some s) := by
  have shell := running.shellInStep
  have sync := running.syncInStep
  refine ⟨shell.sound, sync.sound, fun s live => ?_, fun s live => ?_,
    fun s dead => shell.absent dead, fun s dead => sync.absent dead⟩
  · obtain ⟨i, held⟩ := shell.complete s live
    exact ⟨i, held, fun j other => shell.unique j i s other held⟩
  · obtain ⟨i, held⟩ := sync.complete s live
    exact ⟨i, held, fun j other => sync.unique j i s other held⟩

def shellAndSync : World Config.project (Services Parts.project) Unit :=
  start.inputs (env _ (Env.accepting _)) [.receive connectPacket.bytes, .receive shellPacket.bytes,
    .receive { syncPacket with arg0 := 8 }.bytes]

theorem contexts_in_step_two : Live .shell shellAndSync firstSlot ∧
    Live .sync shellAndSync secondSlot ∧
    (∃! i, shellOwner shellAndSync.services i = some firstSlot) ∧
    (∃! i, syncOwner shellAndSync.services i = some secondSlot) := by
  have shell : Live .shell shellAndSync firstSlot := by
    unfold Live
    decide +kernel
  have sync : Live .sync shellAndSync secondSlot := by
    unfold Live
    decide +kernel
  have inStep := contexts_in_step (.inputs _ .start : Running _ _ shellAndSync)
  exact ⟨shell, sync, inStep.2.2.1 _ shell, inStep.2.2.2.1 _ sync⟩

def hostPacket (command : UInt32) (payload : List UInt8) (short : payload.length < 2 ^ 32) :
    WirePacket :=
  ⟨command, 7, 1, adbChecksum payload, payload, short⟩

theorem empty_short : ([] : List UInt8).length < 2 ^ 32 := by decide

end Webos.Adb.System
