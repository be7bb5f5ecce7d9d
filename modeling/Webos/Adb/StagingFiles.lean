/- digest: No staging file of a sync upload is left behind by the system. -/

import Webos.Adb.Contexts
import Webos.Adb.Sync.Leftovers
import Webos.Adb.Sync.Staging

namespace Webos.Adb.System

open Webos.Lib Webos.Lib.Files Webos.Lib.Program Webos.Adb.Sync

variable {cfg : Config} {β φ μ π : Type}

section Power

variable {parts : Parts cfg β φ μ} {base : Env cfg (Services parts) π}
  {w : World cfg (Services parts) π}

/-- The states of the system since it was powered on with `disk`. -/
inductive Powered (parts : Parts cfg β φ μ) (base : Env cfg (Services parts) π) (disk : φ) :
    World cfg (Services parts) π → Prop where
  | boot (world : β) (heap : μ) (log : ByteRing) (platform : π) :
    Powered parts base disk (protocolResetUnlocked (env parts base)
      (World.boot cfg (Services.boot parts world disk heap log) platform))
  | input {w : World cfg (Services parts) π} (input : Input cfg) : Powered parts base disk w →
    Powered parts base disk (w.input (env parts base) input)
  | enter {w : World cfg (Services parts) π} : Powered parts base disk w →
    Powered parts base disk { w with dispatching := true }
  | pass {w : World cfg (Services parts) π} (data : List UInt8) : Powered parts base disk w →
    w.dispatching = true → Powered parts base disk (receivePass (env parts base) data w).2.2
  | log {w : World cfg (Services parts) π} (step : LogStep) : Powered parts base disk w →
    Powered parts base disk
      { w with services := setLogcat (step.run w.services.logcat) w.services }

theorem Powered.running {disk : φ} (powered : Powered parts base disk w) :
    Running parts base w := by
  induction powered with
  | boot world heap log platform => exact .boot world disk heap log platform
  | input input _ running => exact running.input input
  | enter _ running => exact running.enter
  | pass data _ dispatching running => exact running.pass data dispatching
  | log step _ running => exact running.log step

theorem Running.powered (running : Running parts base w) : ∃ disk, Powered parts base disk w := by
  induction running with
  | boot world disk heap log platform => exact ⟨disk, .boot world heap log platform⟩
  | input input _ powered => exact powered.imp fun _ powered => powered.input input
  | enter _ powered => exact powered.imp fun _ powered => powered.enter
  | pass data _ dispatching powered =>
    exact powered.imp fun _ powered => powered.pass data dispatching
  | log step _ powered => exact powered.imp fun _ powered => powered.log step

theorem Powered.inputs {disk : φ} (powered : Powered parts base disk w) (run : List (Input cfg)) :
    Powered parts base disk (w.inputs (env parts base) run) := by
  induction run generalizing w with
  | nil => exact powered
  | cons input run ih => exact ih (powered.input input)

/-- The callbacks of the sync service make its statics, those of the other services leave them. -/
theorem sync_attended (base : Env cfg (Services parts) π) (disk : φ) :
    Upholds (env parts base) (fun w => Attended parts.fs disk w.services.sync) := by
  refine Upholds.of_services (P := fun st : Services parts => Attended parts.fs disk st.sync)
    ?_ ?_ ?_ ?_
  · rintro (_ | _ | _) st s suffix attended
    · exact (Prog.meets_ends _).bind fun out _ => attended
    · exact (Prog.meets_ends _).bind fun out ends => .opened attended ends
    · exact (Prog.meets_ends _).bind fun out _ => attended
  · rintro (_ | _ | _) write ⟨⟩ st s data attended
    · exact (Prog.meets_ends _).bind fun out _ => attended
    · exact (Prog.meets_ends _).bind fun out ends => .wrote attended ends
    · exact (Prog.meets_ends _).bind fun out _ => attended
  · rintro (_ | _ | _) txReady ⟨⟩ st s attended
    · exact (Prog.meets_ends _).bind fun out _ => attended
    · exact attended
    · exact (Prog.meets_ends _).bind fun out _ => attended
  · rintro (_ | _ | _) close ⟨⟩ st s attended
    · exact attended
    · exact .closed s attended
    · exact attended

theorem Powered.attended {disk : φ} (powered : Powered parts base disk w) :
    Attended parts.fs disk w.services.sync := by
  have rule := sync_attended base disk
  induction powered with
  | boot world heap log platform => exact rule.reset .boot
  | input input _ holds => exact rule.enters.input input _ holds
  | enter _ holds => exact rule.still holds rfl rfl
  | pass data _ dispatching holds =>
    exact (rule.enters.receives.receivePass data _ dispatching).1 holds
  | log step _ holds => exact holds

end Power

section Tracking

variable {κ : Type} {key : Path → κ} {fs : FileSystem κ (Slot cfg) UInt8 φ} {names : φ → Set κ}
  {parts : Parts cfg β (φ × Tape Path) μ} {base : Env cfg (Services parts) π}
  {w : World cfg (Services parts) π}

/-- In every state of the system, the staging names in use on the volume are those that were there
at power on and the live temporaries; no backup is left, and nothing is once no slot serves `sync:`.
The volume may take several names for one file (`key`), but not two names of `N`, which has all that
the service has opened, renamed or removed. -/
theorem staging_files_tracked (truthful : Truthful fs names)
    (volume : parts.fs = taped key partMarked fs) {disk : φ}
    (powered : Powered parts base (disk, .blank) w) {N : Set Path} (apart : Set.InjOn key N)
    (fine : w.services.sync.disk.2.Fine N (2 ^ 32)) :
    let st := w.services.sync
    (∀ p ∈ N, staging p → (key p ∈ names st.disk.1 ↔ key p ∈ names disk ∨
      ∃ i, (st.contexts i).temporaryLive = true ∧ p = (st.contexts i).temporary)) ∧
    (∀ i, (st.contexts i).temporaryLive = true → (st.contexts i).temporary ∈ N ∧
      key (st.contexts i).temporary ∉ names disk ∧
      ∃ token, (st.contexts i).temporary = partName (st.contexts i).path token) ∧
    (∀ path token, oldName path token ∈ N → key (oldName path token) ∈ names st.disk.1 →
      key (oldName path token) ∈ names disk) ∧
    ((∀ s, ¬Live .sync w s) → ∀ p ∈ N, staging p → key p ∈ names st.disk.1 →
      key p ∈ names disk) := by
  intro st
  have attended : Attended (taped key partMarked fs) (disk, .blank) st := volume ▸ powered.attended
  have tracked := attended.settled (truthful.guarded partMarked apart)
    (fun x fine => fine.looks) fine
  have exact {p : Path} (known : p ∈ N) (mark : staging p) : key p ∈ names st.disk.1 ↔
      key p ∈ names disk ∨
        ∃ i, (st.contexts i).temporaryLive = true ∧ p = (st.contexts i).temporary := by
    have whole := tracked.exact p mark
    exact ⟨fun there => (whole.mp ⟨known, there⟩).imp_left And.right,
      fun given => (whole.mpr (given.imp_left (And.intro known))).2⟩
  have there (i : Slot cfg) (live : (st.contexts i).temporaryLive = true) :=
    (tracked.exact _ (tracked.own i (tracked.parked i live)).temporary_staging).mpr
      (Or.inr ⟨i, live, rfl⟩)
  refine ⟨fun p => exact, fun i live => ?_, fun path token known here => ?_,
    fun released p known mark here => ?_⟩
  · have own := tracked.own i (tracked.parked i live)
    obtain ⟨token, -, temporary, -⟩ := own.named
    exact ⟨(there i live).1, fun before => own.fresh.1 ⟨(there i live).1, before⟩, token, temporary⟩
  · rcases (exact known (oldName_staging _ _)).mp here with before | ⟨i, live, same⟩
    · exact before
    · obtain ⟨token', -, temporary, -⟩ := (tracked.own i (tracked.parked i live)).named
      exact absurd (temporary.symm.trans same.symm) (partName_ne_oldName _ _ _ _)
  · rcases (exact known mark).mp here with before | ⟨i, live, -⟩
    · exact before
    · have unused : (st.contexts i).stream = none := by
        cases held : (st.contexts i).stream with
        | none => rfl
        | some s => exact absurd held (powered.running.syncInStep.absent (released s) i)
      cases (tracked.free i unused).symm.trans live

end Tracking

section Samples

/-- The project's build on a volume that does not tell upper case from lower case. -/
def folding : Parts Config.project Unit (SampleDisk × Tape Path) Unit :=
  { shell := Parts.project.shell
    backend := Parts.project.backend
    fs := taped foldCase partMarked memory
    logcat := Parts.project.logcat
    malloc := Parts.project.malloc }

def pushedPath : Path := ascii "/STORAGE:/x"

def uploading : World Config.project (Services folding) Unit :=
  World.inputs (env folding (Env.accepting _)) (protocolResetUnlocked
    (env folding (Env.accepting _))
    (World.boot _ (Services.boot _ () (blank, .blank) () (.zeroed 1024)) ()))
    [.receive connectPacket.bytes, .receive syncPacket.bytes,
      .receive (hostPacket ADB_COMMAND_WRTE
        (recordHeader SYNC_ID_SEND 17 ++ ascii "/STORAGE:/x,33188") (by decide)).bytes]

theorem Powered.uploading : Powered folding (Env.accepting _) (blank, .blank) uploading :=
  (Powered.boot () () (.zeroed 1024) ()).inputs _

/-- The staging file is there and no backup, whatever the case in which they are asked for. -/
theorem staging_files_tracked_upload :
    foldCase (partName pushedPath 1) ∈ uploading.services.sync.disk.1.names ∧
      foldCase (oldName pushedPath 1) ∉ uploading.services.sync.disk.1.names := by
  have powered := Powered.uploading
  have used : uploading.services.sync.disk.2.used = [partName pushedPath 1] := by decide +kernel
  have failed : uploading.services.sync.disk.2.failed = 0 := by decide +kernel
  have looks : uploading.services.sync.disk.2.looks = 1 := by decide +kernel
  have live : (uploading.services.sync.contexts firstSlot).temporaryLive = true ∧
      partName pushedPath 1 = (uploading.services.sync.contexts firstSlot).temporary := by
    decide +kernel
  generalize uploading = w at *
  have fine : w.services.sync.disk.2.Fine (namesOf pushedPath) (2 ^ 32) := by
    refine ⟨failed, fun p member => ?_, by omega⟩
    rw [used] at member
    exact List.mem_singleton.mp member ▸ part_mem _ _
  have tracked := staging_files_tracked memory_truthful rfl powered (foldCase_injOn pushedPath) fine
  refine ⟨(tracked.1 _ (part_mem _ _) (partName_staging _ _)).mpr (Or.inr ⟨firstSlot, live⟩),
    fun inside => ?_⟩
  have before : foldCase (oldName pushedPath 1) ∈ blank.names :=
    tracked.2.2.1 _ _ (old_mem _ _) inside
  cases before

/-- The upload ends, and the host sends a file under the name that was its staging name, in upper
case. -/
def shouting : World Config.project (Services folding) Unit :=
  uploading.inputs (env folding (Env.accepting _))
    [.receive (hostPacket ADB_COMMAND_WRTE (recordHeader SYNC_ID_DONE 0) (by decide)).bytes,
      .receive (hostPacket ADB_COMMAND_OKAY [] empty_short).bytes,
      .receive (hostPacket ADB_COMMAND_WRTE (recordHeader SYNC_ID_SEND 35 ++
        ascii "/STORAGE:/x.ADB-PART-00000001,33188" ++ recordHeader SYNC_ID_DONE 0)
          (by decide)).bytes]

/-- The file of the second upload has a name that was chosen as a temporary and is not live: the
check of the path looks for the staging marks in lower case only. -/
theorem folded_name_left :
    let st := uploading.services.sync
    let st' := shouting.services.sync
    Running folding (Env.accepting _) shouting ∧
    ((st.contexts firstSlot).temporaryLive = true ∧
      (st.contexts firstSlot).temporary = partName pushedPath 1) ∧
    (∀ i, (st'.contexts i).temporaryLive = false) ∧
    st'.disk.2.failed = 0 ∧ st'.disk.2.looks = 2 ∧
    (st'.disk.1.node (foldCase (partName pushedPath 1))).isSome = true :=
  ⟨(Powered.uploading.inputs _).running, by decide +kernel⟩

end Samples

end Webos.Adb.System
