/- digest: A refused OPEN disturbs nobody, except that a second logcat ends the first. -/

import Webos.Adb.Contexts
import Webos.Adb.Router.Opens

namespace Webos.Adb.System

open Webos.Lib Webos.Lib.Owners Webos.Lib.Program Webos.Services

variable {cfg : Config} {β φ μ π : Type} {parts : Parts cfg β φ μ}
  {base : Env cfg (Services parts) π} {w v : World cfg (Services parts) π} {s : Slot cfg}

section Sessions

structure Tied (w : World cfg (Services parts) π) : Prop where
  stream : w.services.logcat.logcat.active = true →
    ∃ t, w.services.logcat.logcat.stream = some t ∧ Live .logcat w t
  listener : w.services.logcat.buffer.listener = some .live → w.services.logcat.logcat.active = true

theorem Tied.keep (tied : Tied w) (resumed : Logcat.Resumed w.services.logcat v.services.logcat)
    (live : ∀ t, Live .logcat w t → Live .logcat v t) : Tied v := by
  refine ⟨fun active => ?_, fun listening => ?_⟩
  · obtain ⟨t, stream, alive⟩ := tied.stream (resumed.active ▸ active)
    exact ⟨t, resumed.stream.trans stream, live t alive⟩
  · rw [resumed.active]
    exact tied.listener (resumed.buffer ▸ listening)

theorem Tied.same (tied : Tied w) (resumed : Logcat.Resumed w.services.logcat v.services.logcat)
    (same : ∀ s, (w.streams s).Same (v.streams s)) : Tied v :=
  tied.keep resumed (fun t live => (live_same same t).mpr live)

theorem release_effect (base : Env cfg (Services parts) π) (used : (w.streams s).used = true) :
    (∃ kind, (w.streams s).ops = some kind ∧
      CloseEffect w.services s (releaseStream (env parts base) s w).services kind) ∨
    ((w.streams s).ops = none ∧ (releaseStream (env parts base) s w).services = w.services) := by
  rw [releaseStream_services _ used]
  cases served : (w.streams s).ops with
  | none => exact .inr ⟨rfl, rfl⟩
  | some kind =>
    obtain ⟨close, found, effect⟩ := close_effect parts kind
    refine .inl ⟨kind, rfl, ?_⟩
    rw [show (some kind).bind (fun kind => ((env parts base).ops kind).closeOp) = some close
      from found]
    exact effect w.services s

theorem Tied.close (closed : v.services.logcat = Logcat.adbLogcatClose w.services.logcat s) :
    Tied v := by
  refine ⟨fun active => ?_, fun listening => ?_⟩
  · rw [closed] at active
    cases active
  · rw [closed] at listening
    unfold Logcat.adbLogcatClose logBufferClearListener at listening
    split_ifs at listening with mine
    exact absurd listening mine

theorem Tied.release (base : Env cfg (Services parts) π) (tied : Tied w) :
    Tied (releaseStream (env parts base) s w) := by
  by_cases used : (w.streams s).used = true
  · have others (other : (w.streams s).ops ≠ some .logcat) (t : Slot cfg)
        (live : Live .logcat w t) : Live .logcat (releaseStream (env parts base) s w) t := by
      refine (live_release _ used t).mpr ⟨live, ?_⟩
      rintro rfl
      exact other live.2
    rcases release_effect base used with ⟨kind, served, effect⟩ | ⟨served, same⟩
    · cases kind with
      | shell => exact tied.keep (effect.2.2 ▸ ⟨rfl, rfl, rfl⟩) (others (by simp [served]))
      | sync => exact tied.keep (effect.2.2 ▸ ⟨rfl, rfl, rfl⟩) (others (by simp [served]))
      | logcat => exact .close effect.1
    · exact tied.keep (same ▸ ⟨rfl, rfl, rfl⟩) (others (by simp [served]))
  · have same : releaseStream (env parts base) s w = w := by
      unfold releaseStream
      rw [if_pos (by simp [used])]
    rw [same]
    exact tied

theorem Tied.opened (base : Env cfg (Services parts) π) {remoteId : UInt32} {kind : ServiceKind}
    (suffix : List UInt8) (dispatching : w.dispatching = true)
    (allocated : allocateStream remoteId kind w = (some s, v)) (tied : Tied w) :
    Tied (settleOpen (env parts base) s
      (callback (env parts base) (((env parts base).ops kind).openOp v.services s suffix) v)) := by
  have taken := live_allocate .logcat allocated
  obtain ⟨free, shape⟩ := allocateStream_some allocated
  have on : v.dispatching = true := by rw [shape]; exact dispatching
  have before : Tied v := tied.keep (by rw [shape]; exact ⟨rfl, rfl, rfl⟩)
    (fun t live => (taken t).mpr (.inr live))
  have effect := callback_result (env parts base) (open_effect base kind v.services s suffix) v
  have same := fun t => ((callback_anywhere (env parts base)
    (((env parts base).ops kind).openOp v.services s suffix) on).filled t).same
  have called : Tied (callback (env parts base)
      (((env parts base).ops kind).openOp v.services s suffix) v).2 := by
    generalize callback (env parts base) (((env parts base).ops kind).openOp v.services s
      suffix) v =
      out at effect same
    cases kind with
    | shell => exact before.same (effect.2.2 ▸ ⟨rfl, rfl, rfl⟩) same
    | sync => exact before.same (effect.2.2 ▸ ⟨rfl, rfl, rfl⟩) same
    | logcat =>
      have begun := effect.1
      refine ⟨fun active => ?_, fun listening => ?_⟩
      · rcases begun.session active with busy | mine
        · obtain ⟨t, stream, live⟩ := before.stream busy
          refine ⟨t, ?_, (live_same same t).mpr live⟩
          rw [(begun.busy busy).2]
          exact stream
        · exact ⟨s, mine, (live_same same s).mpr ((taken s).mpr (.inl ⟨rfl, rfl⟩))⟩
      · rcases begun.listener with kept | ⟨-, active⟩
        · have busy := before.listener (kept ▸ listening)
          rw [(begun.busy busy).2]
          exact busy
        · exact active
  unfold settleOpen
  split_ifs
  · exact called.release base
  · exact called

theorem tied_upholds (base : Env cfg (Services parts) π) : Upholds (env parts base) Tied where
  still tied services streams := tied.same (services ▸ ⟨rfl, rfl, rfl⟩)
    (fun _ => streams ▸ .refl _)
  mark same tied := tied.same ⟨rfl, rfl, rfl⟩ (setStream_same same)
  release tied := tied.release base
  opened suffix dispatching allocated tied := tied.opened base suffix dispatching allocated
  wrote s data dispatching found tied :=
    tied.same (callback_result _ (write_effect _ found _ s data) _).logcat
      (fun t => ((callback_anywhere _ _ dispatching).filled t).same)
  readied s dispatching found tied :=
    tied.same (callback_result _ (ready_effect _ found _ s) _).logcat
      (fun t => ((callback_anywhere _ _ dispatching).filled t).same)

theorem LogStep.session (step : LogStep) (st : Logcat.Statics cfg μ) :
    (step.run st).logcat.active = st.logcat.active ∧
    (step.run st).logcat.stream = st.logcat.stream ∧
    ((step.run st).buffer.listener = some .live → st.buffer.listener = some .live) := by
  cases step with
  | put msg =>
    refine ⟨rfl, rfl, fun listening => ?_⟩
    unfold LogStep.run logBufferPut at listening
    dsimp only at listening
    split_ifs at listening <;> exact listening
  | clear => exact ⟨rfl, rfl, id⟩
  | register id =>
    refine ⟨rfl, rfl, fun listening => ?_⟩
    unfold LogStep.run logBufferSetListener at listening
    dsimp only at listening
    split_ifs at listening
    · exact listening
    · cases listening
  | unregister id =>
    refine ⟨rfl, rfl, fun listening => ?_⟩
    unfold LogStep.run logBufferClearListener at listening
    dsimp only at listening
    split_ifs at listening
    exact listening
  | deliver data =>
    unfold LogStep.run Logcat.liveLogListener
    split_ifs <;> exact ⟨rfl, rfl, id⟩
  | capture room =>
    unfold LogStep.run
    split_ifs <;> exact ⟨rfl, rfl, id⟩
  | abandon generation =>
    unfold LogStep.run
    dsimp only
    split_ifs <;> exact ⟨rfl, rfl, id⟩

theorem Running.tied (running : Running parts base w) : Tied w := by
  refine running.invariant (tied_upholds base) (fun _ _ _ _ _ => ⟨nofun, nofun⟩) ?_
  intro w step tied
  obtain ⟨active, stream, listener⟩ := step.session w.services.logcat
  refine ⟨fun running => ?_, fun listening => active.trans (tied.listener (listener listening))⟩
  obtain ⟨t, served, live⟩ := tied.stream (active ▸ running)
  exact ⟨t, stream.trans served, live⟩

end Sessions

/-- What other streams than `s` have of the services is the same: their contexts, a logcat session
and the registered listener. -/
structure Untouched (s : Slot cfg) (st st' : Services parts) : Prop where
  shell : ∀ i t, shellOwner st i = some t → st'.shell.contexts i = st.shell.contexts i
  sync : ∀ i t, syncOwner st i = some t → st'.sync.contexts i = st.sync.contexts i
  logcat : ∀ t, t ≠ s → st.logcat.logcat.active = true → st.logcat.logcat.stream = some t →
    st'.logcat.logcat = st.logcat.logcat
  listener : ∀ listener, st.logcat.buffer.listener = some listener →
    st'.logcat.buffer.listener = some listener

structure Spared (s : Slot cfg) (w v : World cfg (Services parts) π) : Prop where
  slots : ∀ t, t ≠ s → v.streams t = w.streams t
  services : Untouched s w.services v.services

/-- Which service `handle_open` tries for a destination, with what suffix. -/
def openRoute (cfg : Config) (destination : List UInt8) : Option (ServiceKind × List UInt8) :=
  if destination == ascii "track-jdwp" || destination == ascii "track-app" then none
  else if cfg.reboot && destination.take (ascii "reboot:").length == ascii "reboot:" then none
  else if cfg.logcat && decide (destination.length ≥ (ascii "shell:").length) &&
      webosAdbLogcatMatches cfg (destination.drop (ascii "shell:").length) then
    if destination.take (ascii "shell:").length = ascii "shell:" then
      some (.logcat, destination.drop (ascii "shell:").length)
    else none
  else if cfg.shell && destination.take (ascii "shell:").length == ascii "shell:" then
    some (.shell, destination.drop (ascii "shell:").length)
  else if cfg.sync && destination.take (ascii "sync:").length == ascii "sync:" then
    some (.sync, destination.drop (ascii "sync:").length)
  else none

section Route

variable {σ : Type} {env : Env cfg σ π} {w v u : World cfg σ π} {destination pre : List UInt8}
  {kind : ServiceKind} {remote : UInt32} {suffix : List UInt8} {ret : Int}

theorem openStream_unfit (unfit : destination.take pre.length ≠ pre) :
    openStream env destination remote pre kind w = (-ENOENT, w) :=
  if_pos (by simp [unfit])

theorem openStream_refused (fits : destination.take pre.length = pre)
    (allocated : allocateStream remote kind w = (some s, v))
    (called : callback env ((env.ops kind).openOp v.services s (destination.drop pre.length)) v =
      (ret, u)) (refused : ret ≠ 0) :
    Posted (releaseStream env s u) (openStream env destination remote pre kind w).2 := by
  have long : ¬ destination.length < pre.length := by
    rw [← fits, List.length_take]
    omega
  unfold openStream
  rw [if_neg (by simp [fits, long]), allocated]
  dsimp only
  rw [called]
  rw [if_pos refused]
  exact (postedPosts env).sendControl _ _ _ _ _ (by decide)

theorem openIf_unfit {enabled : Bool}
    (apart : (enabled && destination.take pre.length == pre) = false) :
    openIf env enabled destination remote pre kind w = (-ENOENT, w) := by
  unfold openIf
  split_ifs with on
  · exact openStream_unfit (by simpa [on] using apart)
  · rfl

theorem openService_shell (enabled : cfg.shell = true)
    (fits : destination.take (ascii "shell:").length = ascii "shell:") :
    Posted (openStream env destination remote (ascii "shell:") .shell w).2
      (openService env destination remote w).2 := by
  have unfit : destination.take (ascii "sync:").length ≠ ascii "sync:" := by
    intro both
    have first := congrArg (List.take 5) fits
    rw [List.take_take] at first
    exact absurd (both.symm.trans first) (by decide)
  unfold openService
  rw [show openIf env cfg.shell destination remote (ascii "shell:") .shell w =
    openStream env destination remote (ascii "shell:") .shell w from if_pos enabled]
  generalize openStream env destination remote (ascii "shell:") .shell w = out
  dsimp only
  rw [openIf_unfit (by simp [unfit])]
  rw [if_neg (show ¬ -ENOENT ≠ -ENOENT from not_not.mpr rfl)]
  split_ifs
  · exact .refl _
  · exact (postedPosts env).sendControl _ _ _ _ _ (by decide)

theorem openService_sync (enabled : cfg.sync = true)
    (apart : (cfg.shell && destination.take (ascii "shell:").length == ascii "shell:") = false) :
    Posted (openStream env destination remote (ascii "sync:") .sync w).2
      (openService env destination remote w).2 := by
  unfold openService
  rw [openIf_unfit apart]
  dsimp only
  rw [if_neg (show ¬ -ENOENT ≠ -ENOENT from not_not.mpr rfl), openIf, if_pos enabled]
  split_ifs
  · exact .refl _
  · exact (postedPosts env).sendControl _ _ _ _ _ (by decide)

theorem handleOpen_refused (online : w.online = true) {p : WirePacket} (loaded : w.rx = p.loaded)
    (named : p.arg0 ≠ 0) (fresh : p.arg1 = 0) (payload : p.payload = destination ++ [0])
    (routed : openRoute cfg destination = some (kind, suffix))
    (allocated : allocateStream p.arg0 kind w = (some s, v))
    (called : callback env ((env.ops kind).openOp v.services s suffix) v = (ret, u))
    (refused : ret ≠ 0) : Posted (releaseStream env s u) (handleOpen env w).2 := by
  rw [handleOpen_destination online loaded named fresh payload]
  unfold openRoute at routed
  split_ifs at routed ⊢ with track reboot logcat prefixed shell sync
  · cases routed
    exact openStream_refused prefixed allocated called refused
  · cases routed
    simp only [Bool.and_eq_true, beq_iff_eq] at shell
    exact (openStream_refused shell.2 allocated called refused).trans
      (openService_shell shell.1 shell.2)
  · cases routed
    rw [Bool.not_eq_true] at shell
    simp only [Bool.and_eq_true, beq_iff_eq] at sync
    exact (openStream_refused sync.2 allocated called refused).trans (openService_sync sync.1 shell)

end Route

section Refused

variable {kind : ServiceKind} {remote : UInt32} {suffix : List UInt8}

/-- A refused `open` and the `close` that follows it leave the other streams alone, unless they are
those of a second logcat. -/
theorem refused_untouched {st mid last : Services parts} {ret : Int}
    (effect : OpenEffect st s ret mid kind) (refused : ret ≠ 0)
    (closed : CloseEffect mid s last kind) (shell : ∀ i, shellOwner st i ≠ some s)
    (sync : ∀ i, syncOwner st i ≠ some s)
    (listens : st.logcat.buffer.listener = some .live → st.logcat.logcat.active = true)
    (elsewhere : st.logcat.logcat.active = true → ∃ t, st.logcat.logcat.stream = some t ∧ t ≠ s) :
    Untouched s st last ↔ ¬ (kind = .logcat ∧ st.logcat.logcat.active = true) := by
  cases kind with
  | shell =>
    obtain ⟨opened, sync', logcat'⟩ := effect
    obtain ⟨closed, sync'', logcat''⟩ := closed
    have same := closed.absent (opened.absent refused rfl shell)
    refine ⟨fun _ second => (nomatch second.1), fun _ => ⟨fun i t held => ?_, ?_, ?_, ?_⟩⟩
    · rw [same]
      exact opened.spares held
    · rw [sync'', sync']
      exact fun _ _ _ => rfl
    · rw [logcat'', logcat']
      exact fun _ _ _ _ => rfl
    · rw [logcat'', logcat']
      exact fun _ listening => listening
  | sync =>
    obtain ⟨opened, shell', logcat'⟩ := effect
    obtain ⟨closed, shell'', logcat''⟩ := closed
    have same := closed.absent (opened.absent refused rfl sync)
    refine ⟨fun _ second => (nomatch second.1), fun _ => ⟨?_, fun i t held => ?_, ?_, ?_⟩⟩
    · rw [shell'', shell']
      exact fun _ _ _ => rfl
    · rw [same]
      exact opened.spares held
    · rw [logcat'', logcat']
      exact fun _ _ _ _ => rfl
    · rw [logcat'', logcat']
      exact fun _ listening => listening
  | logcat =>
    obtain ⟨begun, shell', sync'⟩ := effect
    obtain ⟨logcat'', shell'', sync''⟩ := closed
    refine ⟨fun untouched ⟨_, active⟩ => ?_, fun single => ⟨?_, ?_, ?_, ?_⟩⟩
    · obtain ⟨t, stream, other⟩ := elsewhere active
      have same := untouched.logcat t other active stream
      rw [logcat''] at same
      have ended : false = st.logcat.logcat.active := congrArg Logcat.LogcatContext.active same
      exact nomatch ended.trans active
    · rw [shell'', shell']
      exact fun _ _ _ => rfl
    · rw [sync'', sync']
      exact fun _ _ _ => rfl
    · exact fun _ _ active => absurd ⟨rfl, active⟩ single
    · intro listener listening
      have foreign : listener ≠ .live := by
        rintro rfl
        exact single ⟨rfl, listens listening⟩
      have kept : mid.logcat.buffer.listener = some listener := by
        rcases begun.listener with kept | ⟨none, -⟩
        · exact kept.trans listening
        · exact nomatch none.symm.trans listening
      rw [logcat'']
      unfold Logcat.adbLogcatClose logBufferClearListener
      rw [kept, if_neg (fun same => foreign (Option.some.inj same))]
      exact kept

theorem release_spared (shell : InStep .shell shellOwner w) (sync : InStep .sync syncOwner w)
    (tied : Tied w) (dispatching : w.dispatching = true)
    (allocated : allocateStream remote kind w = (some s, v)) {u : World cfg (Services parts) π}
    {ret : Int} (called : callback (env parts base)
      (((env parts base).ops kind).openOp v.services s suffix) v = (ret, u)) (refused : ret ≠ 0) :
    Spared s w (releaseStream (env parts base) s u) ↔
      ¬ (kind = .logcat ∧ w.services.logcat.logcat.active = true) := by
  obtain ⟨free, shape⟩ := allocateStream_some allocated
  have on : v.dispatching = true := by rw [shape]; exact dispatching
  have effect := callback_result (env parts base) (open_effect base kind v.services s suffix) v
  have prepared := callback_prepared (env parts base) (open_effect base kind v.services s suffix) on
  rw [called] at effect prepared
  rw [show v.services = w.services by rw [shape]; rfl] at effect
  have unserved (k : ServiceKind) : ¬ Live k w s := fun live => nomatch free.symm.trans live.1
  have live : Live kind u s :=
    (live_same (fun t => (prepared.filled t).same) s).mpr
      ((live_allocate kind allocated s).mpr (.inl ⟨rfl, rfl⟩))
  have slots (t : Slot cfg) (other : t ≠ s) :
      (releaseStream (env parts base) s u).streams t = w.streams t := by
    rw [releaseStream_streams, if_pos live.1, Function.update_of_ne other, prepared.others t other,
      shape, note_streams]
    exact Function.update_of_ne other _ _
  have closed : CloseEffect u.services s (releaseStream (env parts base) s u).services kind := by
    rcases release_effect base live.1 with ⟨k, served, closed⟩ | ⟨served, -⟩
    · cases live.2.symm.trans served
      exact closed
    · exact nomatch live.2.symm.trans served
  have elsewhere (active : w.services.logcat.logcat.active = true) :
      ∃ t, w.services.logcat.logcat.stream = some t ∧ t ≠ s := by
    obtain ⟨t, stream, alive⟩ := tied.stream active
    refine ⟨t, stream, ?_⟩
    rintro rfl
    exact unserved .logcat alive
  have untouched := refused_untouched effect refused closed (shell.absent (unserved .shell))
    (sync.absent (unserved .sync)) tied.listener elsewhere
  exact ⟨fun spared => untouched.mp spared.services, fun single => ⟨slots, untouched.mpr single⟩⟩

/-- An OPEN whose service refuses it leaves every other stream as it was, exactly when it is not
the OPEN of a logcat while another logcat runs. -/
theorem refused_open_spares (running : Running parts base w) (dispatching : w.dispatching = true)
    (online : w.online = true) {destination : List UInt8} {p : WirePacket}
    (command : p.command = ADB_COMMAND_OPEN) (named : p.arg0 ≠ 0) (fresh : p.arg1 = 0)
    (payload : p.payload = destination ++ [0]) (sum : checksumPasses p.loaded = true)
    (routed : openRoute cfg destination = some (kind, suffix))
    (allocated : allocateStream p.arg0 kind { w with rx := p.loaded } = (some s, v))
    {u : World cfg (Services parts) π} {ret : Int} (called : callback (env parts base)
      (((env parts base).ops kind).openOp v.services s suffix) v = (ret, u)) (refused : ret ≠ 0)
    (rest : List UInt8) :
    Spared s w (finishMessage (env parts base) rest { w with rx := p.loaded }).2.2 ↔
      ¬ (kind = .logcat ∧ w.services.logcat.logcat.active = true) := by
  have core := release_spared (w := { w with rx := p.loaded })
    (running.shellInStep.still rfl rfl) (running.syncInStep.still rfl rfl)
    ((tied_upholds base).still running.tied rfl rfl) dispatching allocated called refused
  have posted := handleOpen_refused (w := { w with rx := p.loaded }) online rfl named fresh payload
    routed allocated called refused
  obtain ⟨call, noted⟩ := dispatchMessage_open (env parts base) (w := { w with rx := p.loaded }) rfl
    command sum
  have streams : (finishMessage (env parts base) rest { w with rx := p.loaded }).2.2.streams =
      (releaseStream (env parts base) s u).streams := by
    unfold finishMessage
    rw [noted]
    exact posted.streams
  have services : (finishMessage (env parts base) rest { w with rx := p.loaded }).2.2.services =
      (releaseStream (env parts base) s u).services := by
    unfold finishMessage
    rw [noted]
    exact posted.services
  rw [← core]
  refine ⟨fun spared => ⟨?_, ?_⟩, fun spared => ⟨?_, ?_⟩⟩
  · exact streams ▸ spared.slots
  · exact services ▸ spared.services
  · exact streams ▸ spared.slots
  · exact services ▸ spared.services

end Refused

section Examples

def prompting : World Config.project (Services Parts.project) Unit :=
  { start.inputs (env _ (Env.accepting _)) [.receive connectPacket.bytes,
      .receive shellPacket.bytes] with dispatching := true }

/-- The shell does not run `reboot`; the interactive shell in the other slot stays as it is. -/
theorem refused_open_spares_shell :
    let p := openPacket 8 "shell:reboot" (by decide)
    Live .shell prompting firstSlot ∧ Spared secondSlot prompting (finishMessage
      (env Parts.project (Env.accepting _)) [] { prompting with rx := p.loaded }).2.2 := by
  intro p
  have running : Running Parts.project (Env.accepting _) prompting := .enter (.inputs _ .start)
  have allocated : allocateStream p.arg0 .shell { prompting with rx := p.loaded } =
      (some secondSlot, (allocateStream p.arg0 .shell { prompting with rx := p.loaded }).2) :=
    Prod.ext (by decide +kernel) rfl
  have live : Live .shell prompting firstSlot := by
    unfold Live
    decide +kernel
  exact ⟨live, (refused_open_spares running rfl (by decide +kernel) (p := p) rfl (by decide) rfl
    (show _ = ascii "shell:reboot" ++ [0] from rfl) (by decide)
    (show _ = some (ServiceKind.shell, ascii "reboot") by decide) allocated rfl
    (by decide +kernel) []).mpr (by decide)⟩

def logcatPacket (remoteId : UInt32) : WirePacket := openPacket remoteId "shell:logcat" (by decide)

def following : World Config.project (Services Parts.project) Unit :=
  start.inputs (env _ (Env.accepting _)) [.receive connectPacket.bytes,
    .receive (logcatPacket 7).bytes]

/-- A second logcat is refused, and the first one, still in its slot, is ended: it sends nothing any
more and no longer listens to the log. -/
theorem refused_logcat_ends_first :
    let env := env Parts.project (Env.accepting _)
    let v := (webosAdbProtocolReceive env (logcatPacket 8).bytes following).2
    Running _ (Env.accepting _) following ∧
    (following.services.logcat.logcat.active = true ∧
      following.services.logcat.logcat.stream = some firstSlot ∧
      following.services.logcat.buffer.listener = some .live) ∧
    answers 8 (following.since v) = [⟨ADB_COMMAND_CLSE, 0, 8, []⟩] ∧
    (v.streams firstSlot).used = true ∧ (v.streams firstSlot).ops = some .logcat ∧
    v.services.logcat.logcat.active = false ∧ v.services.logcat.buffer.listener = none :=
  ⟨.inputs _ .start, by decide +kernel⟩

end Examples

end Webos.Adb.System
