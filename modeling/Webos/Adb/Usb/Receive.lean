/- digest: When the OUT endpoint stays armed and which OUT transfers reach the router. -/

import Webos.Adb.Usb.Link

namespace Webos.Adb.Usb

variable {cfg : UsbConfig} {σ κ : Type} {k : Kernel κ}
  {ops : ServiceKind → ServiceOps cfg.adb σ} {l : Link cfg σ κ}

section Armed

/-- The bits of `adb_usb.state` that re-arming depends on, and whether an OUT buffer is active. -/
structure Flags where
  enabled : Bool
  resetting : Bool
  engaged : Bool
  active : Bool

def Link.flags (l : Link cfg σ κ) : Flags :=
  ⟨l.usb.enabled, l.usb.resetting, l.usb.outEngaged, l.usb.activeOut.isSome⟩

/-- `submit_out` when allocation and enqueue succeed. -/
def Flags.submit (f : Flags) : Flags :=
  if !f.enabled || f.resetting || f.engaged then f else { f with engaged := true, active := true }

def Task.flags (f : Flags) : Task → Flags
  | .protocolReset | .receive _ | .txReady => f
  | .resetQueues => { f with engaged := false, active := false }
  | .setEnabled => { f with enabled := true }
  | .setResetting value => { f with resetting := value }
  | .submitOut => f.submit
  | .submitIfEnabled => if f.enabled then f.submit else f
  | .rearm => if f.enabled && !f.resetting then f.submit else f

structure Flags.Armed (f : Flags) : Prop where
  calm : f.resetting = false
  armed : f.enabled = true → f.engaged = true ∧ f.active = true

/-- The tasks that are left end with the endpoint armed, whether or not a receive overflows the
control queue. -/
def Settles : List Task → Flags → Prop
  | [], f => f.Armed
  | .receive _ :: rest, f => Settles rest f ∧ Settles rest (overflowTasks.foldl Task.flags f)
  | task :: rest, f => Settles rest (task.flags f)

theorem settles_overflow (rest : List Task) (f : Flags) :
    Settles (overflowTasks ++ rest) f ↔ Settles rest (overflowTasks.foldl Task.flags f) :=
  Iff.rfl

theorem settles_reset (f : Flags) : Settles InVerdict.resetProtocol.tasks f := by
  obtain ⟨enabled, resetting, engaged, active⟩ := f
  cases enabled
  · exact ⟨rfl, fun enabled => by cases enabled⟩
  · exact ⟨rfl, fun _ => ⟨rfl, rfl⟩⟩

theorem settles_received (data : List UInt8) (f : Flags) (calm : f.resetting = false) :
    Settles [.receive data, .rearm] { f with engaged := false, active := false } := by
  obtain ⟨enabled, resetting, engaged, active⟩ := f
  cases calm
  cases enabled
  · exact ⟨⟨rfl, fun enabled => by cases enabled⟩, ⟨rfl, fun enabled => by cases enabled⟩⟩
  · exact ⟨⟨rfl, fun _ => ⟨rfl, rfl⟩⟩, ⟨rfl, fun _ => ⟨rfl, rfl⟩⟩⟩

theorem settles_enable (f : Flags) (calm : f.resetting = false) :
    Settles [.resetQueues, .protocolReset, .setEnabled, .submitOut] f := by
  obtain ⟨enabled, resetting, engaged, active⟩ := f
  cases calm
  exact ⟨rfl, fun _ => ⟨rfl, rfl⟩⟩

theorem flags_of_undisturbed {m : Link cfg σ κ} (same : Undisturbed l.usb m.usb) :
    m.flags = l.flags := by
  unfold Link.flags
  rw [same.enabled, same.resetting, same.outEngaged, same.activeOut]

theorem submitOut_flags (reliable : k.Reliable) (l : Link cfg σ κ) :
    (l.setUsb (submitOut cfg k l.usb).2).flags = l.flags.submit := by
  have found := reliable.alloc l.usb.kernel .bulkOut cfg.adb.usbTransferSize
  have queued := reliable.enqueue (k.epBufAlloc l.usb.kernel .bulkOut cfg.adb.usbTransferSize).2
  unfold submitOut Flags.submit
  dsimp only
  by_cases off : (!l.usb.enabled || l.usb.resetting) = true
  · rw [if_pos off, if_pos (by simp [Link.flags, off])]
    rfl
  by_cases engaged : l.usb.outEngaged = true
  · rw [if_neg off, if_pos engaged, if_pos (by simp [Link.flags, engaged])]
    rfl
  · rw [if_neg off, if_neg engaged, if_neg (by simp [found]), if_neg (by simp [queued]),
      if_neg (by simp only [Bool.not_eq_true] at off engaged; simp [Link.flags, off, engaged])]
    rfl

theorem perform_flags (ops : ServiceKind → ServiceOps cfg.adb σ) (l : Link cfg σ κ)
    (reliable : k.Reliable) (task : Task) (other : ∀ data, task ≠ .receive data) :
    (l.perform k ops task).flags = task.flags l.flags ∧ (l.perform k ops task).todo = l.todo := by
  have submitted := submitOut_flags reliable l
  cases task with
  | protocolReset =>
    exact ⟨flags_of_undisturbed ((undisturbedServes k ops).enters.reset l.world), rfl⟩
  | resetQueues => exact ⟨rfl, rfl⟩
  | setEnabled => exact ⟨rfl, rfl⟩
  | setResetting value => exact ⟨rfl, rfl⟩
  | submitOut => exact ⟨submitted, rfl⟩
  | submitIfEnabled =>
    unfold Link.perform Task.flags
    dsimp only
    rw [show l.flags.enabled = l.usb.enabled from rfl]
    split_ifs
    · exact ⟨submitted, rfl⟩
    · exact ⟨rfl, rfl⟩
  | receive data => exact absurd rfl (other data)
  | rearm =>
    unfold Link.perform Task.flags
    dsimp only
    rw [show l.flags.enabled = l.usb.enabled from rfl,
      show l.flags.resetting = l.usb.resetting from rfl]
    split_ifs
    · exact ⟨submitted, rfl⟩
    · exact ⟨rfl, rfl⟩
  | txReady =>
    exact ⟨flags_of_undisturbed ((undisturbedServes k ops).enters.protocolTxReady l.world), rfl⟩

theorem receive_flags (k : Kernel κ) (ops : ServiceKind → ServiceOps cfg.adb σ)
    (l : Link cfg σ κ) (data : List UInt8) :
    (l.perform k ops (.receive data)).flags = l.flags ∧
      ((l.perform k ops (.receive data)).todo = l.todo ∨
        (l.perform k ops (.receive data)).todo = overflowTasks ++ l.todo) := by
  have router := (undisturbedServes k ops).enters.protocolReceive data l.world
  unfold Link.perform Link.receive
  dsimp only
  split_ifs with present overflow
  · exact ⟨flags_of_undisturbed router, .inr rfl⟩
  · exact ⟨flags_of_undisturbed router, .inl rfl⟩
  · exact ⟨rfl, .inl rfl⟩

theorem task_settles (reliable : k.Reliable) (task : Task) (rest : List Task)
    (settles : Settles (task :: rest) l.flags) (left : l.todo = rest) :
    Settles (l.perform k ops task).todo (l.perform k ops task).flags := by
  by_cases received : ∃ data, task = .receive data
  · obtain ⟨data, rfl⟩ := received
    obtain ⟨flags, todo | todo⟩ := receive_flags k ops l data
    · rw [flags, todo, left]
      exact settles.1
    · rw [flags, todo, left, settles_overflow]
      exact settles.2
  · have other : ∀ data, task ≠ .receive data := fun data same => received ⟨data, same⟩
    obtain ⟨flags, todo⟩ := perform_flags ops l reliable task other
    rw [flags, todo, left]
    cases task with
    | receive data => exact absurd rfl (other data)
    | _ => exact settles

/-- The oldest OUT transfer is not that of the active buffer, or ends without an error. -/
def OutSucceeds (l : Link cfg σ κ) : LinkStep cfg σ → Prop
  | .outDone err _ => err = 0 ∨ l.usb.activeOut ≠ l.usb.outPipe.head?
  | _ => True

instance (l : Link cfg σ κ) (step : LinkStep cfg σ) : Decidable (OutSucceeds l step) := by
  unfold OutSucceeds
  split <;> infer_instance

theorem inDone_settles (err : Int) (settles : Settles [] l.flags) (idle : l.todo = []) :
    Settles (l.inDone k err).todo (l.inDone k err).flags := by
  unfold Link.inDone
  cases pipe : l.usb.inPipe with
  | nil =>
    rw [idle]
    exact settles
  | cons buffer rest =>
    obtain ⟨same, resetting⟩ := inRequest_undisturbed cfg k buffer err { l.usb with inPipe := rest }
    dsimp only
    generalize inRequest cfg k buffer err { l.usb with inPipe := rest } = out at same resetting
    obtain ⟨verdict, u⟩ := out
    have kept (calm : verdict ≠ .resetProtocol) :
        Settles [] { l.setUsb u with todo := verdict.tasks }.flags := by
      have quiet : u.resetting = l.usb.resetting := by simpa [calm] using resetting
      have flags : { l.setUsb u with todo := verdict.tasks }.flags = l.flags :=
        flags_of_undisturbed { same with resetting := quiet }
      rw [flags]
      exact settles
    cases verdict with
    | stale => exact kept (by decide)
    | nothing => exact kept (by decide)
    | notifyProtocol => exact kept (by decide)
    | resetProtocol => exact settles_reset _

theorem outDone_settles (err : Int) (data : List UInt8) (settles : Settles [] l.flags)
    (idle : l.todo = []) (good : OutSucceeds l (.outDone err data)) :
    Settles (l.outDone err data).todo (l.outDone err data).flags := by
  unfold Link.outDone
  cases pipe : l.usb.outPipe with
  | nil =>
    rw [idle]
    exact settles
  | cons buffer rest =>
    dsimp only
    split_ifs with stale success
    · rw [show ((l.note (.completed buffer err data)).setUsb
        { l.usb with outPipe := rest }).todo = l.todo from rfl, idle]
      exact settles
    · exact settles_received data l.flags settles.calm
    · rcases good with zero | other
      · exact absurd zero success
      · rw [pipe] at other
        exact absurd (not_not.mp stale) other

theorem step_settles (reliable : k.Reliable) (step : LinkStep cfg σ)
    (settles : Settles l.todo l.flags) (good : OutSucceeds l step) :
    Settles (l.step k ops step).todo (l.step k ops step).flags := by
  refine Link.step_rule (P := fun m => Settles m.todo m.flags) k ops step settles (fun idle => ?_)
    (fun err idle => inDone_settles err (idle ▸ settles) idle)
    (fun err data same idle => outDone_settles err data (idle ▸ settles) idle (same ▸ good))
    (fun task rest todo => task_settles reliable task rest (todo ▸ settles) rfl)
    (fun request => ?_) fun _ => settles
  · rw [idle] at settles
    exact settles_enable l.flags settles.calm
  · have same : (l.step k ops (.call request)).flags = l.flags :=
      flags_of_undisturbed (api_undisturbed k ops request l.world)
    exact same ▸ settles

theorem reach_settles (reliable : k.Reliable) (reach : Reach k ops OutSucceeds l) :
    Settles l.todo l.flags := by
  induction reach with
  | boot services kernel =>
    have same := (undisturbedServes k ops).enters.reset
      (World.boot cfg.adb services (UsbData.boot kernel))
    have flags : (Link.boot k ops services kernel).flags = ⟨false, false, false, false⟩ := by
      unfold Link.flags Link.usb Link.boot
      rw [same.enabled, same.resetting, same.outEngaged, same.activeOut]
      rfl
    rw [flags]
    exact ⟨rfl, fun enabled => by cases enabled⟩
  | step step _ good ih => exact step_settles reliable step ih good

/-- The receive endpoint stays armed as long as each completion of the active OUT buffer has status
0: an OUT request is outstanding whenever the interface is enabled and no callback is running. -/
theorem out_endpoint_stays_armed (reliable : k.Reliable) (reach : Reach k ops OutSucceeds l)
    (idle : l.todo = []) (enabled : l.usb.enabled = true) :
    l.usb.resetting = false ∧ l.usb.activeOut ≠ none ∧ l.usb.outEngaged = true := by
  have settles := reach_settles reliable reach
  rw [idle] at settles
  obtain ⟨engaged, active⟩ := settles.armed enabled
  exact ⟨settles.calm, Option.isSome_iff_ne_none.mp active, engaged⟩

def plainOps : ServiceKind → ServiceOps UsbConfig.project.adb Unit := (Env.ideal _).ops

def linkBoot : Link UsbConfig.project Unit Unit := Link.boot Kernel.ideal plainOps () ()

def enableSteps : List (LinkStep UsbConfig.project Unit) := [.enable, .task, .task, .task, .task]

def connectBytes : List UInt8 := encodeMessage ADB_COMMAND_CNXN ADB_VERSION 4096 []

def brokenReplySteps : List (LinkStep UsbConfig.project Unit) :=
  enableSteps ++ [.outDone 0 connectBytes, .task, .task, .inDone (- EIO), .task, .task,
    .task, .task]

theorem out_endpoint_stays_armed_reset :
    let l := linkBoot.run Kernel.ideal plainOps brokenReplySteps
    l.todo = [] ∧ l.usb.enabled = true ∧ l.usb.activeOut ≠ none ∧ l.usb.outEngaged = true := by
  have reach : Reach Kernel.ideal plainOps OutSucceeds
      (linkBoot.run Kernel.ideal plainOps brokenReplySteps) :=
    .run _ _ _ (.boot () ()) (by decide +kernel)
  have idle : (linkBoot.run Kernel.ideal plainOps brokenReplySteps).todo = [] := by
    decide +kernel
  have enabled : (linkBoot.run Kernel.ideal plainOps brokenReplySteps).usb.enabled = true := by
    decide +kernel
  have armed := out_endpoint_stays_armed Kernel.ideal_reliable reach idle enabled
  exact ⟨idle, enabled, armed.2⟩

/-- An OUT transfer that fails once leaves the endpoint without a request. -/
theorem failed_out_transfer_disarms :
    let l := linkBoot.run Kernel.ideal plainOps (enableSteps ++ [.outDone (- EIO) []])
    l.todo = [] ∧ l.usb.enabled = true ∧ l.usb.resetting = false ∧ l.usb.activeOut = none ∧
      l.usb.outEngaged = false := by
  decide +kernel

end Armed

section Delivered

/-- The buffers that `reset_usb_queues` found outstanding. -/
def forgotten (record : List RxEvent) : List Nat :=
  record.filterMap (fun e =>
    match e with
    | .forgot buffer => buffer
    | _ => none)

/-- The data of the OUT transfers that completed successfully, in completion order. -/
def arrived (record : List RxEvent) : List (List UInt8) :=
  record.filterMap (fun e =>
    match e with
    | .completed _ err data => if err = 0 ∧ data ≠ [] then some data else none
    | _ => none)

def delivered (record : List RxEvent) : List (List UInt8) :=
  record.filterMap (fun e =>
    match e with
    | .delivered data => some data
    | _ => none)

def waiting (todo : List Task) : List (List UInt8) :=
  todo.filterMap (fun task =>
    match task with
    | .receive data => if data ≠ [] then some data else none
    | _ => none)

structure Piped (u : UsbData κ) (lost : List Nat) : Prop where
  engaged : u.outEngaged = false → u.activeOut = none
  nodup : u.outPipe.Nodup
  below : ∀ b ∈ u.outPipe, b < u.buffers
  past : ∀ b ∈ lost, b < u.buffers
  active : ∀ b, u.activeOut = some b → b ∈ u.outPipe ∧ b ∉ lost
  known : ∀ b ∈ u.outPipe, u.activeOut = some b ∨ b ∈ lost

variable {u : UsbData κ} {lost : List Nat}

theorem Piped.undisturbed {v : UsbData κ} (piped : Piped u lost) (same : Undisturbed u v) :
    Piped v lost := by
  refine ⟨?_, ?_, ?_, ?_, ?_, ?_⟩
  · rw [same.outEngaged, same.activeOut]
    exact piped.engaged
  · rw [same.outPipe]
    exact piped.nodup
  · rw [same.outPipe]
    exact fun b member => Nat.lt_of_lt_of_le (piped.below b member) same.buffers
  · exact fun b member => Nat.lt_of_lt_of_le (piped.past b member) same.buffers
  · rw [same.activeOut, same.outPipe]
    exact piped.active
  · rw [same.activeOut, same.outPipe]
    exact piped.known

theorem Piped.flag (piped : Piped u lost) (enabled resetting : Bool) :
    Piped { u with enabled, resetting } lost := { piped with }

theorem Piped.reset (piped : Piped u lost) :
    Piped (resetUsbQueues cfg u) (lost ++ u.activeOut.toList) := by
  refine ⟨fun _ => rfl, piped.nodup, piped.below, ?_, ?_, ?_⟩
  · intro b member
    rcases List.mem_append.mp member with old | now
    · exact piped.past b old
    · rw [Option.mem_toList] at now
      exact piped.below b (piped.active b now).1
  · intro b none
    cases none
  · intro b member
    refine .inr (List.mem_append.mpr ?_)
    rcases piped.known b member with now | old
    · exact .inr (Option.mem_toList.mpr now)
    · exact .inl old

theorem Piped.submit (piped : Piped u lost) : Piped (submitOut cfg k u).2 lost := by
  unfold submitOut
  dsimp only
  split_ifs with off engaged starved refused
  · exact piped
  · exact piped
  · exact piped.undisturbed ⟨rfl, rfl, rfl, rfl, rfl, rfl, Nat.le_refl _⟩
  all_goals
    have none_active : u.activeOut = none := piped.engaged (by simpa using engaged)
    have fresh (b : Nat) (member : b ∈ u.outPipe) : b < u.buffers + 1 :=
      Nat.lt_succ_of_lt (piped.below b member)
    have past (b : Nat) (member : b ∈ lost) : b < u.buffers + 1 :=
      Nat.lt_succ_of_lt (piped.past b member)
  · refine ⟨fun _ => rfl, piped.nodup, fresh, past, (fun b absent => nomatch absent), ?_⟩
    rw [← none_active]
    exact piped.known
  · refine ⟨(fun off => nomatch off), ?_, ?_, past, ?_, ?_⟩
    · rw [List.nodup_append]
      refine ⟨piped.nodup, by simp, ?_⟩
      intro a member b last same
      rw [List.mem_singleton] at last
      have := piped.below a member
      omega
    · intro b member
      rcases List.mem_append.mp member with old | new
      · exact fresh b old
      · rw [List.mem_singleton.mp new]
        exact Nat.lt_succ_self _
    · intro b here
      cases here
      refine ⟨by simp, fun member => ?_⟩
      exact Nat.lt_irrefl _ (piped.past _ member)
    · intro b member
      rcases List.mem_append.mp member with old | new
      · rcases piped.known b old with now | old
        · rw [none_active] at now
          cases now
        · exact .inr old
      · exact .inl (congrArg some (List.mem_singleton.mp new).symm)

theorem Piped.complete (piped : Piped u lost) {buffer : Nat} {rest : List Nat}
    (pipe : u.outPipe = buffer :: rest) :
    (u.activeOut = some buffer ↔ buffer ∉ lost) ∧
    (u.activeOut = some buffer →
      Piped { u with outPipe := rest, activeOut := none, outEngaged := false } lost) ∧
    (u.activeOut ≠ some buffer → Piped { u with outPipe := rest } lost) := by
  have first : buffer ∈ u.outPipe := by simp [pipe]
  have later (b : Nat) (member : b ∈ rest) : b ∈ u.outPipe := by simp [pipe, member]
  have nodup := piped.nodup
  rw [pipe, List.nodup_cons] at nodup
  refine ⟨⟨fun now => (piped.active buffer now).2, fun kept => ?_⟩, fun now => ?_, fun stale => ?_⟩
  · exact (piped.known buffer first).resolve_right kept
  · refine ⟨fun _ => rfl, nodup.2, fun b member => piped.below b (later b member), piped.past,
      (fun b absent => nomatch absent), fun b member => .inr ?_⟩
    refine (piped.known b (later b member)).resolve_left fun same => ?_
    rw [now, Option.some.injEq] at same
    exact nodup.1 (same ▸ member)
  · refine ⟨piped.engaged, nodup.2, fun b member => piped.below b (later b member), piped.past,
      fun b now => ?_, fun b member => piped.known b (later b member)⟩
    obtain ⟨inside, kept⟩ := piped.active b now
    rw [pipe] at inside
    rcases List.mem_cons.mp inside with same | member
    · exact absurd (same ▸ now) stale
    · exact ⟨member, kept⟩

def Quiet : List Task → Bool → Prop
  | [], resetting => resetting = false
  | .receive _ :: rest, resetting => resetting = false ∧ Quiet rest resetting
  | .setResetting value :: rest, _ => Quiet rest value
  | _ :: rest, resetting => Quiet rest resetting

structure Tracked (l : Link cfg σ κ) : Prop where
  quiet : Quiet l.todo l.usb.resetting
  piped : Piped l.usb (forgotten l.record)

theorem forgotten_note (record : List RxEvent) (e : RxEvent) :
    forgotten (record ++ [e]) = forgotten record ++ (match e with
        | .forgot buffer => buffer.toList
        | _ => []) := by
  unfold forgotten
  rw [List.filterMap_append]
  cases e with
  | forgot buffer => cases buffer <;> rfl
  | _ => rfl

theorem perform_tracked (task : Task) (quiet : Quiet (task :: l.todo) l.usb.resetting)
    (piped : Piped l.usb (forgotten l.record)) : Tracked (l.perform k ops task) := by
  have submitted : Piped (l.setUsb (submitOut cfg k l.usb).2).usb (forgotten l.record) :=
    piped.submit
  have kept : (submitOut cfg k l.usb).2.resetting = l.usb.resetting := by
    unfold submitOut
    dsimp only
    split_ifs <;> rfl
  cases task with
  | protocolReset =>
    have same := (undisturbedServes k ops).enters.reset l.world
    exact ⟨same.resetting.symm ▸ quiet, piped.undisturbed same⟩
  | resetQueues =>
    refine ⟨quiet, ?_⟩
    have reset : Piped (resetUsbQueues cfg l.usb) (forgotten l.record ++ l.usb.activeOut.toList) :=
      piped.reset
    show Piped (resetUsbQueues cfg l.usb) (forgotten (l.record ++ [.forgot l.usb.activeOut]))
    rw [forgotten_note]
    exact reset
  | setEnabled => exact ⟨quiet, piped.flag true l.usb.resetting⟩
  | setResetting value => exact ⟨quiet, piped.flag l.usb.enabled value⟩
  | submitOut => exact ⟨kept.symm ▸ quiet, submitted⟩
  | submitIfEnabled =>
    unfold Link.perform
    dsimp only
    split_ifs
    · exact ⟨kept.symm ▸ quiet, submitted⟩
    · exact ⟨quiet, piped⟩
  | receive data =>
    have same := (undisturbedServes k ops).enters.protocolReceive data l.world
    have calm : (webosAdbProtocolReceive (linkEnv cfg k ops) data l.world).2.platform.resetting =
      false := same.resetting.trans quiet.1
    have rest : Quiet l.todo false := quiet.1 ▸ quiet.2
    unfold Link.perform Link.receive
    dsimp only
    split_ifs
    · refine ⟨rest, ?_⟩
      show Piped _ (forgotten (l.record ++ [.delivered data]))
      rw [forgotten_note, List.append_nil]
      exact piped.undisturbed same
    · refine ⟨calm.symm ▸ rest, ?_⟩
      show Piped _ (forgotten (l.record ++ [.delivered data]))
      rw [forgotten_note, List.append_nil]
      exact piped.undisturbed same
    · exact ⟨quiet.2, piped⟩
  | rearm =>
    unfold Link.perform
    dsimp only
    split_ifs
    · exact ⟨kept.symm ▸ quiet, submitted⟩
    · exact ⟨quiet, piped⟩
  | txReady =>
    have same := (undisturbedServes k ops).enters.protocolTxReady l.world
    exact ⟨same.resetting.symm ▸ quiet, piped.undisturbed same⟩

theorem inDone_tracked (err : Int) (tracked : Tracked l) (idle : l.todo = []) :
    Tracked (l.inDone k err) := by
  have quiet := tracked.quiet
  rw [idle] at quiet
  unfold Link.inDone
  cases pipe : l.usb.inPipe with
  | nil => exact tracked
  | cons buffer rest =>
    obtain ⟨same, resetting⟩ := inRequest_undisturbed cfg k buffer err { l.usb with inPipe := rest }
    dsimp only
    generalize inRequest cfg k buffer err { l.usb with inPipe := rest } = out at same resetting
    obtain ⟨verdict, u⟩ := out
    have piped : Piped { u with resetting := l.usb.resetting } (forgotten l.record) :=
      tracked.piped.undisturbed { same with resetting := rfl }
    refine ⟨?_, piped.flag u.enabled u.resetting⟩
    rw [quiet, Bool.false_or] at resetting
    cases verdict with
    | resetProtocol => rfl
    | _ => exact resetting

theorem outDone_tracked (err : Int) (data : List UInt8) (tracked : Tracked l)
    (idle : l.todo = []) : Tracked (l.outDone err data) := by
  have quiet := tracked.quiet
  rw [idle] at quiet
  unfold Link.outDone
  cases pipe : l.usb.outPipe with
  | nil => exact tracked
  | cons buffer rest =>
    obtain ⟨-, live, stale⟩ := tracked.piped.complete pipe
    have lost : forgotten (l.record ++ [.completed buffer err data]) = forgotten l.record := by
      rw [forgotten_note, List.append_nil]
    dsimp only
    split_ifs with other success
    · refine ⟨idle.symm ▸ quiet, ?_⟩
      show Piped _ (forgotten (l.record ++ [.completed buffer err data]))
      rw [lost]
      exact stale other
    · refine ⟨⟨quiet, quiet⟩, ?_⟩
      show Piped _ (forgotten (l.record ++ [.completed buffer err data]))
      rw [lost]
      exact live (not_not.mp other)
    · refine ⟨quiet, ?_⟩
      show Piped _ (forgotten (l.record ++ [.completed buffer err data]))
      rw [lost]
      exact live (not_not.mp other)

theorem step_tracked (step : LinkStep cfg σ) (tracked : Tracked l) :
    Tracked (l.step k ops step) := by
  refine Link.step_rule k ops step tracked (fun idle => ?_)
    (fun err idle => inDone_tracked err tracked idle)
    (fun err data _ idle => outDone_tracked err data tracked idle) (fun task rest todo => ?_)
    (fun request => ?_) fun _ => ⟨tracked.quiet, tracked.piped⟩
  · have quiet := tracked.quiet
    rw [idle] at quiet
    exact ⟨quiet, tracked.piped⟩
  · have quiet := tracked.quiet
    rw [todo] at quiet
    exact perform_tracked task quiet tracked.piped
  · have same := api_undisturbed k ops request l.world
    exact ⟨same.resetting.symm ▸ tracked.quiet, tracked.piped.undisturbed same⟩

theorem reach_tracked {allowed : Link cfg σ κ → LinkStep cfg σ → Prop}
    (reach : Reach k ops allowed l) : Tracked l := by
  induction reach with
  | boot services kernel =>
    have same := (undisturbedServes k ops).enters.reset
      (World.boot cfg.adb services (UsbData.boot kernel))
    refine ⟨same.resetting, Piped.undisturbed ?_ same⟩
    refine ⟨fun _ => rfl, List.nodup_nil, ?_, ?_, ?_, ?_⟩
    all_goals
      intro b here
      cases here
  | step step _ _ ih => exact step_tracked step ih

def Remembered (l : Link cfg σ κ) : LinkStep cfg σ → Prop
  | .outDone err data =>
    err = 0 → data ≠ [] → ∀ buffer ∈ l.usb.outPipe.head?, buffer ∉ forgotten l.record
  | _ => True

instance (l : Link cfg σ κ) (step : LinkStep cfg σ) : Decidable (Remembered l step) := by
  unfold Remembered
  split <;> infer_instance

def Accounted (l : Link cfg σ κ) : Prop :=
  arrived l.record = delivered l.record ++ waiting l.todo

theorem waiting_receive (data : List UInt8) (rest : List Task) :
    waiting (.receive data :: rest) = (if data ≠ [] then [data] else []) ++ waiting rest := by
  unfold waiting
  by_cases some_data : data ≠ []
  · simp [some_data]
  · simp [not_not.mp some_data]

theorem perform_accounted (task : Task) (quiet : Quiet (task :: l.todo) l.usb.resetting)
    (accounted : arrived l.record = delivered l.record ++ waiting (task :: l.todo)) :
    Accounted (l.perform k ops task) := by
  cases task with
  | receive data =>
    have calm := quiet.1
    unfold Accounted Link.perform Link.receive
    dsimp only
    by_cases some_data : data ≠ []
    · rw [if_pos ⟨some_data, calm⟩]
      have overflow : waiting (overflowTasks ++ l.todo) = waiting l.todo := rfl
      rw [waiting_receive, if_pos some_data] at accounted
      have noted : arrived (l.record ++ [.delivered data]) = arrived l.record := by
        simp [arrived]
      have passed : delivered (l.record ++ [.delivered data]) = delivered l.record ++ [data] := by
        simp [delivered]
      show arrived (l.record ++ [.delivered data]) = delivered (l.record ++ [.delivered data]) ++
        waiting (if _ then overflowTasks ++ l.todo else l.todo)
      rw [noted, passed, accounted, List.append_assoc]
      split_ifs
      · rw [overflow]
      · rfl
    · rw [if_neg (fun both => some_data both.1)]
      rwa [waiting_receive, if_neg some_data] at accounted
  | resetQueues =>
    have noted : arrived (l.record ++ [.forgot l.usb.activeOut]) = arrived l.record := by
      simp [arrived]
    have passed : delivered (l.record ++ [.forgot l.usb.activeOut]) = delivered l.record := by
      simp [delivered]
    show arrived (l.record ++ [.forgot l.usb.activeOut]) =
      delivered (l.record ++ [.forgot l.usb.activeOut]) ++ waiting l.todo
    rw [noted, passed]
    exact accounted
  | submitIfEnabled =>
    unfold Link.perform
    dsimp only
    split_ifs
    all_goals exact accounted
  | rearm =>
    unfold Link.perform
    dsimp only
    split_ifs
    all_goals exact accounted
  | _ => exact accounted

theorem outDone_accounted (err : Int) (data : List UInt8) (tracked : Tracked l)
    (idle : l.todo = []) (remembered : Remembered l (.outDone err data))
    (accounted : Accounted l) : Accounted (l.outDone err data) := by
  unfold Accounted at accounted
  rw [idle] at accounted
  unfold Link.outDone
  cases pipe : l.usb.outPipe with
  | nil =>
    unfold Accounted
    rw [idle]
    exact accounted
  | cons buffer rest =>
    obtain ⟨current, -, -⟩ := tracked.piped.complete pipe
    have came : arrived (l.record ++ [.completed buffer err data]) =
        arrived l.record ++ if err = 0 ∧ data ≠ [] then [data] else [] := by
      unfold arrived
      rw [List.filterMap_append]
      split_ifs with good
      all_goals simp [good]
    have passed : delivered (l.record ++ [.completed buffer err data]) = delivered l.record := by
      simp [delivered]
    dsimp only
    split_ifs with other success
    · have nothing : ¬(err = 0 ∧ data ≠ []) := by
        intro good
        have kept := remembered good.1 good.2 buffer (by rw [pipe]; rfl)
        exact other (current.mpr kept)
      show arrived (l.record ++ [.completed buffer err data]) =
        delivered (l.record ++ [.completed buffer err data]) ++ waiting l.todo
      rw [came, passed, idle, if_neg nothing, List.append_nil]
      exact accounted
    · show arrived (l.record ++ [.completed buffer err data]) =
        delivered (l.record ++ [.completed buffer err data]) ++ waiting [.receive data, .rearm]
      rw [came, passed, accounted, List.append_assoc]
      rw [waiting_receive]
      simp [success, waiting]
    · show arrived (l.record ++ [.completed buffer err data]) =
        delivered (l.record ++ [.completed buffer err data]) ++ waiting []
      rw [came, passed, if_neg (fun good => success good.1), List.append_nil]
      exact accounted

theorem step_accounted (step : LinkStep cfg σ) (tracked : Tracked l)
    (remembered : Remembered l step) (accounted : Accounted l) :
    Accounted (l.step k ops step) := by
  refine Link.step_rule k ops step accounted (fun idle => ?_) (fun err idle => ?_)
    (fun err data same idle => outDone_accounted err data tracked idle
    (same ▸ remembered) accounted)
    (fun task rest todo => ?_) (fun _ => accounted) fun _ => accounted
  · unfold Accounted at accounted ⊢
    rw [idle] at accounted
    exact accounted
  · unfold Accounted at accounted ⊢
    rw [idle] at accounted
    unfold Link.inDone
    split
    · rw [idle]
      exact accounted
    · rw [show ∀ verdict : InVerdict, waiting verdict.tasks = waiting [] by
        intro verdict; cases verdict <;> rfl]
      exact accounted
  · have quiet := tracked.quiet
    unfold Accounted at accounted
    rw [todo] at quiet accounted
    exact perform_accounted task quiet accounted

theorem reach_accounted (reach : Reach k ops Remembered l) : Accounted l := by
  induction reach with
  | boot services kernel => rfl
  | step step before remembered ih =>
    exact step_accounted step (reach_tracked before) remembered ih

theorem completion_delivers (tracked : Tracked l) (idle : l.todo = []) {buffer : Nat}
    {rest : List Nat} (pipe : l.usb.outPipe = buffer :: rest) {data : List UInt8}
    (some_data : data ≠ []) :
    delivered ((l.step k ops (.outDone 0 data)).step k ops .task).record = delivered l.record ++
      if buffer ∈ forgotten l.record then [] else [data] := by
  have calm := tracked.quiet
  rw [idle] at calm
  obtain ⟨current, -, -⟩ := tracked.piped.complete pipe
  have passed : delivered (l.record ++ [.completed buffer 0 data]) = delivered l.record := by
    simp [delivered]
  have done : l.step k ops (.outDone 0 data) = l.outDone 0 data := if_pos idle
  rw [done]
  unfold Link.outDone
  rw [pipe]
  dsimp only
  by_cases other : l.usb.activeOut ≠ some buffer
  · have lost : buffer ∈ forgotten l.record := not_not.mp (mt current.mpr other)
    have stopped : ((l.note (.completed buffer 0 data)).setUsb
        { l.usb with outPipe := rest }).todo = [] := idle
    rw [if_pos other, if_pos lost, List.append_nil]
    unfold Link.step
    rw [stopped]
    exact passed
  · have kept : buffer ∉ forgotten l.record := current.mp (not_not.mp other)
    have received : delivered (l.record ++ [.completed buffer 0 data] ++ [.delivered data]) =
        delivered l.record ++ [data] := by
      simp [delivered]
    rw [if_neg other, if_neg kept, if_pos rfl]
    unfold Link.step Link.perform
    dsimp only
    rw [if_pos ⟨some_data, calm⟩]
    exact received

/-- The data of the oldest OUT transfer reaches the router if and only if no `reset_usb_queues`
found that transfer outstanding; so where none such completes with data, all data is passed on in
order. -/
theorem out_data_delivered (cfg : UsbConfig) (k : Kernel κ)
    (ops : ServiceKind → ServiceOps cfg.adb σ) (l : Link cfg σ κ) :
    (Reach k ops (fun _ _ => True) l → l.todo = [] → ∀ buffer rest data,
      l.usb.outPipe = buffer :: rest → data ≠ [] →
      (delivered ((l.step k ops (.outDone 0 data)).step k ops .task).record =
        delivered l.record ++ [data] ↔ buffer ∉ forgotten l.record)) ∧
    (Reach k ops Remembered l → arrived l.record = delivered l.record ++ waiting l.todo) := by
  refine ⟨fun reach idle buffer rest data pipe some_data => ?_, reach_accounted⟩
  rw [completion_delivers (reach_tracked reach) idle pipe some_data]
  split_ifs with lost
  · simp [lost]
  · simp [lost]

/-- The transfer that the reset forgot is aborted; the next one is received. -/
theorem out_data_delivered_reset :
    let l := linkBoot.run Kernel.ideal plainOps (brokenReplySteps ++
      [.outDone (-ECONNABORTED) [], .outDone 0 connectBytes, .task])
    arrived l.record = [connectBytes, connectBytes] ∧
    arrived l.record = delivered l.record ++ waiting l.todo := by
  have reach : Reach Kernel.ideal plainOps Remembered
      (linkBoot.run Kernel.ideal plainOps (brokenReplySteps ++
        [.outDone (-ECONNABORTED) [], .outDone 0 connectBytes, .task])) :=
    .run _ _ _ (.boot () ()) (by decide +kernel)
  have accounted := (out_data_delivered _ Kernel.ideal plainOps _).2 reach
  exact ⟨by decide +kernel, accounted⟩

/-- After the reset that follows a failed IN transfer, the next handshake of the host lands in the
buffer that the reset forgot and is dropped. -/
theorem forgotten_out_transfer_drops_data :
    let l := linkBoot.run Kernel.ideal plainOps (brokenReplySteps ++ [.outDone 0 connectBytes])
    l.todo = [] ∧ l.usb.enabled = true ∧ arrived l.record = [connectBytes, connectBytes] ∧
      delivered l.record = [connectBytes] := by
  decide +kernel

end Delivered

end Webos.Adb.Usb
