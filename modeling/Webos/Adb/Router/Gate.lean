/- digest: Streams, services, ids and reboots exist only inside a session that CNXN opened. -/

import Webos.Adb.Router.Rules

namespace Webos.Adb

open Webos.Lib.Bytes Webos.Lib.Program Webos.Lib.RingQueue

variable {cfg : Config} {σ π : Type} {env : Env cfg σ π}

/-- Whether the record ends inside a session: the latest CNXN since the last reset was followed by
the acceptance of its reply. -/
def sessionUp (log : List (Event cfg)) : Bool :=
  log.foldl (fun up e =>
    match e with
    | .connect _ | .reset => false
    | .accepted p => up || p.command == ADB_COMMAND_CNXN
    | _ => up) false

structure Gated (w : World cfg σ π) : Prop where
  used : ∀ s, (w.streams s).used = true → w.online = true
  online : w.online = sessionUp w.log

structure Dormant (w : World cfg σ π) : Prop where
  offline : w.online = false
  unused : ∀ s, (w.streams s).used = false

theorem Gated.dormant {w : World cfg σ π} (gated : Gated w) (offline : w.online = false) :
    Dormant w := by
  refine ⟨offline, fun s => ?_⟩
  cases used : (w.streams s).used
  · rfl
  · rw [gated.used s used] at offline
    cases offline

section Session

theorem sessionUp_append (log : List (Event cfg)) (e : Event cfg) :
    sessionUp (log ++ [e]) = match e with
      | .connect _ | .reset => false
      | .accepted p => sessionUp log || p.command == ADB_COMMAND_CNXN
      | _ => sessionUp log := by
  rw [sessionUp, List.foldl_append]
  rfl

theorem sessionUp_quiet (log : List (Event cfg)) {e : Event cfg} (quiet : e.quiet = true) :
    sessionUp (log ++ [e]) = sessionUp log := by
  rw [sessionUp_append]
  cases e with
  | accepted p =>
    have plain : p.command ≠ ADB_COMMAND_CNXN := by simpa [Event.quiet] using quiet
    simp [plain]
  | connect limit => cases quiet
  | reset => cases quiet
  | _ => rfl

theorem releaseStream_streams (env : Env cfg σ π) (s : Slot cfg) (w : World cfg σ π) :
    (releaseStream env s w).streams =
      if (w.streams s).used then Function.update w.streams s (Stream.zero cfg) else w.streams := by
  unfold releaseStream
  cases used : (w.streams s).used
  · simp [used]
  · simp only [used, Bool.not_true, ↓reduceIte, Bool.false_eq_true]
    rfl

theorem releaseStream_log (env : Env cfg σ π) (s : Slot cfg) (w : World cfg σ π) :
    (releaseStream env s w).log =
      if (w.streams s).used then w.log ++ [.released s] else w.log := by
  unfold releaseStream
  cases used : (w.streams s).used
  · simp [used]
  · simp only [used, Bool.not_true, ↓reduceIte, Bool.false_eq_true]
    rfl

theorem releaseStream_unused (env : Env cfg σ π) (s : Slot cfg) (w : World cfg σ π) (t : Slot cfg)
    (unused : t = s ∨ (w.streams t).used = false) :
    ((releaseStream env s w).streams t).used = false := by
  rw [releaseStream_streams env]
  split_ifs with used
  · by_cases same : t = s
    · subst same
      rw [Function.update_self]
      rfl
    · rw [Function.update_of_ne same]
      exact unused.resolve_left same
  · rcases unused with rfl | unused
    · simpa using used
    · exact unused

theorem closeAllStreams_unused (env : Env cfg σ π) (w : World cfg σ π) (t : Slot cfg) :
    ((closeAllStreams env w).streams t).used = false := by
  have all (slots : List (Slot cfg)) (v : World cfg σ π)
      (gone : t ∈ slots ∨ (v.streams t).used = false) :
      ((slots.foldl (fun w s => releaseStream env s w) v).streams t).used = false := by
    induction slots generalizing v with
    | nil => exact gone.resolve_left List.not_mem_nil
    | cons s slots ih =>
      refine ih _ ?_
      rcases gone with member | unused
      · rcases List.mem_cons.mp member with rfl | later
        · exact Or.inr (releaseStream_unused env t v t (Or.inl rfl))
        · exact Or.inl later
      · exact Or.inr (releaseStream_unused env s v t (Or.inr unused))
  exact all _ w (Or.inl (List.mem_finRange t))

end Session

section Invariant

variable {w v : World cfg σ π}

theorem Gated.keep (gated : Gated w)
    (used : ∀ s, (v.streams s).used = true → (w.streams s).used = true ∨ w.online = true)
    (online : v.online = w.online) (log : sessionUp v.log = sessionUp w.log) : Gated v := by
  refine ⟨fun s here => ?_, ?_⟩
  · rw [online]
    exact (used s here).elim (gated.used s) id
  · rw [online, log, gated.online]

theorem Gated.still (gated : Gated w) (streams : v.streams = w.streams)
    (online : v.online = w.online) (log : v.log = w.log) : Gated v :=
  gated.keep (fun s here => Or.inl (streams ▸ here)) online (by rw [log])

theorem gated_release (env : Env cfg σ π) (s : Slot cfg) (gated : Gated w) :
    Gated (releaseStream env s w) := by
  refine gated.keep (fun t here => Or.inl ?_) (release_calm env s w).online ?_
  · by_contra unused
    rw [releaseStream_unused env s w t (Or.inr (by simpa using unused))] at here
    cases here
  · rw [releaseStream_log env]
    split_ifs
    · exact sessionUp_append _ _
    · rfl

theorem gatedSends (env : Env cfg σ π) : Sends env (fun w v => Gated w → Gated v) where
  refl _ := id
  trans _ _ _ first second := second ∘ first
  note w e quiet gated := gated.keep (fun _ => Or.inl) rfl (sessionUp_quiet w.log quiet)
  control _ _ gated := gated.still rfl rfl rfl
  transmit _ _ _ _ _ _ _ gated := gated.still rfl rfl rfl
  mark w s st same gated := by
    refine gated.keep (fun t here => Or.inl ?_) rfl rfl
    by_cases at_s : t = s
    · subst at_s
      rw [setStream_streams, Function.update_self, same.used] at here
      exact here
    · rw [setStream_streams, Function.update_of_ne at_s] at here
      exact here
  release w s gated := gated_release env s gated

theorem gated_callback (env : Env cfg σ π) {α : Type} (program : Callback cfg σ α)
    (gated : Gated w) :
    Gated (callback env program w).2 :=
  (gatedSends env).callback program w (fun _ _ gated => gated.still rfl rfl rfl) gated

theorem allocateStream_log {remoteId : UInt32} {kind : ServiceKind} {s : Slot cfg}
    (allocated : allocateStream remoteId kind w = (some s, v)) :
    v.log = w.log ++ [.drawn w.nextLocalId] ++ [.allocated s w.nextLocalId remoteId] := by
  rw [(allocateStream_some allocated).2]
  rfl

theorem gatedHandles (env : Env cfg σ π) : Handles env (fun w v => Gated w → Gated v) where
  toSends := gatedSends env
  takeId _ _ gated := gated.keep (fun _ => Or.inl) rfl (sessionUp_append _ _)
  reboot _ _ gated := by
    unfold webosAdbRebootRequest
    dsimp only
    split_ifs
    · exact gated.still rfl rfl rfl
    · exact gated.keep (fun _ => Or.inl) rfl (sessionUp_append _ _)
  opened w v s remoteId kind suffix online _ allocated gated := by
    have calm := allocate_calm remoteId kind w
    rw [allocated] at calm
    have opening : Gated v := by
      refine gated.keep (fun _ _ => Or.inr online) calm.online ?_
      rw [allocateStream_log allocated]
      exact (sessionUp_append _ _).trans (sessionUp_append _ _)
    have called := gated_callback env ((env.ops kind).openOp v.services s suffix) opening
    unfold settleOpen
    split_ifs
    · exact gated_release env s called
    · exact called
  wrote _ _ _ _ _ _ _ _ _ gated := gated_callback env _ gated
  readied _ _ _ _ _ _ _ _ gated := gated_callback env _ gated

theorem restart_dormant (env : Env cfg σ π) (w : World cfg σ π) :
    Dormant (restartSession env w) := by
  refine ⟨?_, fun s => closeAllStreams_unused env _ s⟩
  exact ((calmSends env).closeAllStreams { w with online := false }).online

theorem restart_gated (env : Env cfg σ π) (w : World cfg σ π) : Gated (restartSession env w) := by
  have dormant := restart_dormant env w
  refine ⟨fun s used => ?_, ?_⟩
  · rw [dormant.unused s] at used
    cases used
  · rw [dormant.offline]
    unfold restartSession
    rw [note_log, sessionUp_append]

theorem connect_gated (env : Env cfg σ π) (gated : Gated w) : Gated (handleConnect env w).2 := by
  refine (gatedSends env).connect (fun _ => restart_gated env w) (fun v _ =>
    ⟨fun _ _ => rfl, ?_⟩) gated
  rw [note_log, sessionUp_append]
  simp

theorem reset_dormant (env : Env cfg σ π) (w : World cfg σ π) :
    Dormant (protocolResetUnlocked env w) :=
  ⟨rfl, fun s => closeAllStreams_unused env _ s⟩

theorem reset_gated (env : Env cfg σ π) (w : World cfg σ π) :
    Gated (protocolResetUnlocked env w) := by
  refine ⟨fun s used => ?_, ?_⟩
  · rw [(reset_dormant env w).unused s] at used
    cases used
  · unfold protocolResetUnlocked
    rw [note_log, sessionUp_append]
    rfl

theorem gatedEnters (env : Env cfg σ π) : Enters env (fun w v => Gated w → Gated v) where
  toHandles := gatedHandles env
  receiver _ _ gated := gated.still rfl rfl rfl
  allocated _ _ gated := gated.keep (fun _ => Or.inl) rfl (sessionUp_append _ _)
  connect _ _ gated := connect_gated env gated
  dispatched _ _ gated := gated.keep (fun _ => Or.inl) rfl (sessionUp_append _ _)
  dispatching _ _ gated := gated.still rfl rfl rfl
  reset w _ := reset_gated env w

end Invariant

section Independence

variable (ops : ServiceKind → ServiceOps cfg σ) (work : π → Int × π)

def Env.swap (env : Env cfg σ π) : Env cfg σ π := { env with ops := ops, workReschedule := work }

variable (closes : ∀ kind, (ops kind).closeOp = (env.ops kind).closeOp) {w : World cfg σ π}

include closes

theorem releaseStream_swap (s : Slot cfg) (w : World cfg σ π) :
    releaseStream (env.swap ops work) s w = releaseStream env s w := by
  unfold releaseStream
  simp only [Env.swap, closes]

theorem closeAllStreams_swap (w : World cfg σ π) :
    closeAllStreams (env.swap ops work) w = closeAllStreams env w := by
  unfold closeAllStreams
  simp only [releaseStream_swap ops work closes]

theorem handleConnect_swap (w : World cfg σ π) :
    handleConnect (env.swap ops work) w = handleConnect env w := by
  have restarted : restartSession (env.swap ops work) w = restartSession env w := by
    unfold restartSession
    rw [closeAllStreams_swap ops work closes]
    rfl
  unfold handleConnect
  rw [restarted]
  rfl

omit closes in
theorem Dormant.find_none (dormant : Dormant w) (localId remoteId : UInt32) :
    findStream w localId remoteId = none := by
  refine List.find?_eq_none.mpr fun s _ => ?_
  simp [dormant.unused s]

omit closes in
theorem Dormant.handleOpen (dormant : Dormant w) : handleOpen env w = (-EBADMSG, w) := by
  simp only [Adb.handleOpen, dormant.offline, Bool.not_false, Bool.true_or, ↓reduceIte]

omit closes in
theorem Dormant.handleWrite (dormant : Dormant w) :
    handleWrite env w = sendClose env 0 w.rx.message.arg0 w := by
  simp only [Adb.handleWrite, dormant.find_none]

omit closes in
theorem Dormant.handleReady (dormant : Dormant w) : handleReady env w = (0, w) := by
  simp only [Adb.handleReady, dormant.find_none]

omit closes in
theorem Dormant.handleClose (dormant : Dormant w) : handleClose env w = (0, w) := by
  simp only [Adb.handleClose, dormant.find_none]

omit closes in
theorem sendClose_swap (localId remoteId : UInt32) (w : World cfg σ π) :
    sendClose (env.swap ops work) localId remoteId w = sendClose env localId remoteId w := rfl

theorem routeMessage_swap (dormant : Dormant w) :
    routeMessage (env.swap ops work) w = routeMessage env w := by
  unfold routeMessage
  rw [handleConnect_swap ops work closes, dormant.handleOpen, dormant.handleOpen,
    dormant.handleWrite, dormant.handleWrite, dormant.handleReady, dormant.handleReady,
    dormant.handleClose, dormant.handleClose, sendClose_swap]

theorem dispatchMessage_swap (dormant : Dormant w) :
    dispatchMessage (env.swap ops work) w = dispatchMessage env w := by
  unfold dispatchMessage
  rw [routeMessage_swap ops work closes dormant]

theorem flushStream_swap (s : Slot cfg) (w : World cfg σ π) :
    flushStream (env.swap ops work) s w = flushStream env s w := by
  unfold flushStream flushClose
  simp only [releaseStream_swap ops work closes]
  rfl

theorem streamWriteLocked_swap (stream : Option (Slot cfg)) (generation : UInt32)
    (data : List UInt8) (w : World cfg σ π) :
    streamWriteLocked (env.swap ops work) stream generation data w =
      streamWriteLocked env stream generation data w := by
  unfold streamWriteLocked storeWrite
  simp only [flushStream_swap ops work closes]

theorem streamCloseLocked_swap (stream : Option (Slot cfg)) (generation : UInt32)
    (w : World cfg σ π) : streamCloseLocked (env.swap ops work) stream generation w =
      streamCloseLocked env stream generation w := by
  unfold streamCloseLocked
  simp only [flushStream_swap ops work closes]

theorem protocolTxReady_swap (w : World cfg σ π) :
    webosAdbProtocolTxReady (env.swap ops work) w = webosAdbProtocolTxReady env w := by
  have pumped (passes : Nat) (v : World cfg σ π) :
      pumpLoop (env.swap ops work) passes v = pumpLoop env passes v := by
    induction passes generalizing v with
    | zero => rfl
    | succ passes ih =>
      unfold pumpLoop
      simp only [ih]
      rfl
  have flushed (slots : List (Slot cfg)) (v : World cfg σ π) :
      flushPending (env.swap ops work) slots v = flushPending env slots v := by
    induction slots generalizing v with
    | nil => rfl
    | cons s rest ih =>
      unfold flushPending
      simp only [flushStream_swap ops work closes, ih]
  unfold webosAdbProtocolTxReady pumpControls
  simp only [pumped, flushed]

theorem protocolReset_swap (w : World cfg σ π) :
    protocolResetUnlocked (env.swap ops work) w = protocolResetUnlocked env w := by
  unfold protocolResetUnlocked
  rw [closeAllStreams_swap ops work closes]

end Independence

section Idle

/-- No id is taken beyond a restart of the counter, and neither an allocation of a stream nor a
reboot is recorded. -/
structure Idles (w v : World cfg σ π) : Prop where
  ids : v.nextLocalId = w.nextLocalId ∨ v.nextLocalId = 1
  events : ∃ new, v.log = w.log ++ new ∧
    ∀ e ∈ new, e ≠ .reboot ∧ ∀ s localId remoteId, e ≠ .allocated s localId remoteId

theorem Idles.refl (w : World cfg σ π) : Idles w w := ⟨Or.inl rfl, [], by simp⟩

variable {w v : World cfg σ π}

theorem Idles.trans {u : World cfg σ π} (first : Idles w v) (second : Idles v u) : Idles w u := by
  obtain ⟨new, grown, quiet⟩ := first.events
  obtain ⟨later, grown', quiet'⟩ := second.events
  refine ⟨?_, new ++ later, by rw [grown', grown, List.append_assoc], fun e member => ?_⟩
  · rcases second.ids with same | one
    · rw [same]
      exact first.ids
    · exact Or.inr one
  · exact (List.mem_append.mp member).elim (quiet e) (quiet' e)

theorem Idles.noted (e : Event cfg) (ids : v.nextLocalId = w.nextLocalId ∨ v.nextLocalId = 1)
    (log : v.log = w.log ++ [e])
    (quiet : e ≠ .reboot ∧ ∀ s localId remoteId, e ≠ .allocated s localId remoteId) :
    Idles w v := by
  refine ⟨ids, [e], log, fun e' member => ?_⟩
  rw [List.mem_singleton.mp member]
  exact quiet

theorem Idles.still (ids : v.nextLocalId = w.nextLocalId) (log : v.log = w.log) : Idles w v :=
  ⟨Or.inl ids, [], by rw [log, List.append_nil], by simp⟩

theorem releaseStream_nextLocalId (env : Env cfg σ π) (s : Slot cfg) (w : World cfg σ π) :
    (releaseStream env s w).nextLocalId = w.nextLocalId := by
  unfold releaseStream
  dsimp only
  split_ifs <;> rfl

theorem idlesSends (env : Env cfg σ π) : Sends env Idles where
  refl := Idles.refl
  trans _ _ _ := Idles.trans
  note w e quiet := by
    refine Idles.noted e (Or.inl rfl) rfl ⟨?_, fun s localId remoteId => ?_⟩ <;>
      · rintro rfl
        cases quiet
  control _ _ := .still rfl rfl
  transmit _ _ _ _ _ _ _ := .still rfl rfl
  mark _ _ _ _ := .still rfl rfl
  release w s := by
    have ids := releaseStream_nextLocalId env s w
    have log := releaseStream_log env s w
    split_ifs at log
    · exact .noted (.released s) (Or.inl ids) log ⟨nofun, nofun⟩
    · exact .still ids log

theorem restart_idles (env : Env cfg σ π) (w : World cfg σ π) : Idles w (restartSession env w) := by
  have closed := (idlesSends env).closeAllStreams { w with online := false }
  refine Idles.trans (v := closeAllStreams env { w with online := false })
    ⟨closed.ids, closed.events⟩ ?_
  exact .noted (.connect _) (Or.inr rfl) rfl ⟨nofun, nofun⟩

theorem connect_idles (env : Env cfg σ π) (w : World cfg σ π) : Idles w (handleConnect env w).2 :=
  (idlesSends env).connect (restart_idles env w) fun _ =>
    .noted (.accepted _) (Or.inl rfl) rfl ⟨nofun, nofun⟩

theorem reset_idles (env : Env cfg σ π) (w : World cfg σ π) :
    Idles w (protocolResetUnlocked env w) := by
  have closed := (idlesSends env).closeAllStreams (resetRx w)
  refine Idles.trans (v := closeAllStreams env (resetRx w)) ⟨closed.ids, closed.events⟩ ?_
  exact .noted .reset (Or.inr rfl) rfl ⟨nofun, nofun⟩

end Idle

section Runs

/-- The states of the router between its steps: between two calls of its entry points, and inside
the receive loop before every pass. -/
inductive Visited (env : Env cfg σ π) : World cfg σ π → Prop where
  | boot (services : σ) (platform : π) :
    Visited env (protocolResetUnlocked env (World.boot cfg services platform))
  | input {w : World cfg σ π} (input : Input cfg) : Visited env w → Visited env (w.input env input)
  | enter {w : World cfg σ π} : Visited env w → Visited env { w with dispatching := true }
  | pass {w : World cfg σ π} (data : List UInt8) : Visited env w → w.dispatching = true →
    Visited env (receivePass env data w).2.2

theorem Visited.inputs {w : World cfg σ π} (run : List (Input cfg)) (visited : Visited env w) :
    Visited env (w.inputs env run) := by
  induction run generalizing w with
  | nil => exact visited
  | cons input run ih => exact ih (visited.input input)

theorem visited_gated {w : World cfg σ π} (visited : Visited env w) : Gated w := by
  induction visited with
  | boot services platform => exact reset_gated env _
  | input input _ gated => exact (gatedEnters env).input input _ gated
  | enter _ gated => exact gated.still rfl rfl rfl
  | pass data _ dispatching gated =>
    exact ((gatedEnters env).receives.receivePass data _ dispatching).1 gated

/-- A dispatch that runs no service callback but `close`, whatever the others are, takes no id and
asks for no reboot. -/
structure Barred (env : Env cfg σ π) (v : World cfg σ π) : Prop where
  services : ∀ ops work, (∀ kind, (ops kind).closeOp = (env.ops kind).closeOp) →
    dispatchMessage (env.swap ops work) v = dispatchMessage env v
  idles : Idles v (dispatchMessage env v).2

variable {v : World cfg σ π}

private theorem dispatch_idles (routed : Idles v (routeMessage env v).2) :
    Idles v (dispatchMessage env v).2 := by
  unfold dispatchMessage
  split_ifs
  · exact routed.trans (.noted (.dispatched _) (Or.inl rfl) rfl ⟨nofun, nofun⟩)
  · exact .noted (.dispatched _) (Or.inl rfl) rfl ⟨nofun, nofun⟩

theorem Dormant.barred (dormant : Dormant v) : Barred env v := by
  refine ⟨fun ops work closes => dispatchMessage_swap ops work closes dormant, dispatch_idles ?_⟩
  unfold routeMessage
  rw [dormant.handleOpen, dormant.handleWrite, dormant.handleReady, dormant.handleClose]
  split_ifs
  · exact connect_idles env v
  · exact .refl v
  · exact (idlesSends env).sendClose 0 _ v
  all_goals exact .refl v

theorem connect_barred (connects : v.rx.message.command = ADB_COMMAND_CNXN) : Barred env v := by
  have routed : routeMessage env v = handleConnect env v := if_pos connects
  refine ⟨fun ops work closes => ?_, dispatch_idles (routed ▸ connect_idles env v)⟩
  have swapped : routeMessage (env.swap ops work) v = routeMessage env v := by
    rw [routed]
    exact (if_pos connects).trans (handleConnect_swap ops work closes v)
  unfold dispatchMessage
  rw [swapped]

theorem dispatch_calm (dispatching : v.dispatching = true)
    (other : v.rx.message.command ≠ ADB_COMMAND_CNXN) : Calm v (dispatchMessage env v).2 := by
  have routed : Calm v (routeMessage env v).2 := by
    unfold routeMessage
    rw [if_neg other]
    split_ifs
    · exact (calmHandles env).handleOpen v dispatching
    · exact (calmHandles env).handleWrite v dispatching
    · exact (calmHandles env).handleReady v dispatching
    · exact (calmSends env).handleClose v
    · exact .refl v
  unfold dispatchMessage
  split_ifs
  · exact ⟨routed.online, routed.dispatching⟩
  · exact ⟨rfl, rfl⟩

end Runs

def Input.silent : Input cfg → Bool
  | .receive _ => false
  | _ => true

theorem silent_swap {input : Input cfg} (silent : input.silent = true)
    (ops : ServiceKind → ServiceOps cfg σ) (work : π → Int × π)
    (closes : ∀ kind, (ops kind).closeOp = (env.ops kind).closeOp) (w : World cfg σ π) :
    w.input (env.swap ops work) input = w.input env input := by
  cases input with
  | streamWrite stream data =>
    exact congrArg Prod.snd (streamWriteLocked_swap ops work closes stream 0 data w)
  | streamWriteGeneration stream generation data =>
    exact congrArg Prod.snd (streamWriteLocked_swap ops work closes stream generation data w)
  | streamClose stream => exact streamCloseLocked_swap ops work closes stream 0 w
  | streamCloseGeneration stream generation =>
    exact streamCloseLocked_swap ops work closes stream generation w
  | receive data => cases silent
  | txReady => exact protocolTxReady_swap ops work closes w
  | reset => exact protocolReset_swap ops work closes w

section Locked

variable (locked : cfg.allowNoAuth = false)

include locked

theorem lockedEnters (env : Env cfg σ π) :
    Enters env (fun w v => Dormant w → Dormant v ∧ Idles w v) where
  refl w dormant := ⟨dormant, .refl w⟩
  trans _ _ _ first second dormant :=
    have middle := first dormant
    have last := second middle.1
    ⟨last.1, middle.2.trans last.2⟩
  note w e quiet dormant := ⟨⟨dormant.offline, dormant.unused⟩, (idlesSends env).note w e quiet⟩
  control _ _ dormant := ⟨⟨dormant.offline, dormant.unused⟩, .still rfl rfl⟩
  transmit _ _ _ _ _ _ _ dormant := ⟨⟨dormant.offline, dormant.unused⟩, .still rfl rfl⟩
  mark w s st same dormant := by
    refine ⟨⟨dormant.offline, fun t => ?_⟩, .still rfl rfl⟩
    by_cases at_s : t = s
    · subst at_s
      rw [setStream_streams, Function.update_self, same.used]
      exact dormant.unused t
    · rw [setStream_streams, Function.update_of_ne at_s]
      exact dormant.unused t
  release w s dormant :=
    ⟨⟨(release_calm env s w).online.trans dormant.offline,
      fun t => releaseStream_unused env s w t (Or.inr (dormant.unused t))⟩,
      (idlesSends env).release w s⟩
  takeId w online dormant := by
    rw [dormant.offline] at online
    cases online
  reboot w online dormant := by
    rw [dormant.offline] at online
    cases online
  opened w _ _ _ _ _ online _ _ dormant := by
    rw [dormant.offline] at online
    cases online
  wrote w s _ _ _ _ used _ _ dormant := by
    rw [dormant.unused s] at used
    cases used
  readied w s _ _ _ used _ _ dormant := by
    rw [dormant.unused s] at used
    cases used
  receiver _ _ dormant := ⟨⟨dormant.offline, dormant.unused⟩, .still rfl rfl⟩
  allocated _ _ dormant := ⟨⟨dormant.offline, dormant.unused⟩,
    .noted (.alloc _ _) (Or.inl rfl) rfl ⟨nofun, nofun⟩⟩
  connect w _ dormant := by
    have refused : handleConnect env w = (-EACCES, w) := by
      unfold handleConnect
      rw [locked]
      rfl
    rw [refused]
    exact ⟨dormant, .refl w⟩
  dispatched _ _ dormant := ⟨⟨dormant.offline, dormant.unused⟩,
    .noted (.dispatched _) (Or.inl rfl) rfl ⟨nofun, nofun⟩⟩
  dispatching _ _ dormant := ⟨⟨dormant.offline, dormant.unused⟩, .still rfl rfl⟩
  reset w _ := ⟨reset_dormant env w, reset_idles env w⟩

variable (ops : ServiceKind → ServiceOps cfg σ) (work : π → Int × π)
  (closes : ∀ kind, (ops kind).closeOp = (env.ops kind).closeOp)

include closes

variable {w : World cfg σ π}

omit locked in
private theorem finishMessage_swap (dormant : Dormant w) (data : List UInt8) :
    finishMessage (env.swap ops work) data w = finishMessage env data w := by
  unfold finishMessage
  rw [dispatchMessage_swap ops work closes dormant]

omit locked in
private theorem headerPhase_swap (dormant : Dormant w) (data : List UInt8) :
    headerPhase (env.swap ops work) data w = headerPhase env data w := by
  have decoded (v : World cfg σ π) (asleep : Dormant v) : Dormant (decodeHeader env v).2 := by
    unfold decodeHeader
    dsimp only
    split_ifs <;> exact ⟨asleep.offline, asleep.unused⟩
  have finished (v : World cfg σ π) (asleep : Dormant v) (rest : List UInt8) :
      finishHeader (env.swap ops work) rest v = finishHeader env rest v := by
    have same : decodeHeader (env.swap ops work) v = decodeHeader env v := rfl
    unfold finishHeader
    rw [same]
    dsimp only
    rw [finishMessage_swap ops work closes (decoded v asleep)]
  unfold headerPhase
  dsimp only
  rw [finished]
  exact ⟨dormant.offline, dormant.unused⟩

omit locked in
private theorem payloadPhase_swap (dormant : Dormant w) (data : List UInt8) :
    payloadPhase (env.swap ops work) data w = payloadPhase env data w := by
  unfold payloadPhase
  dsimp only
  rw [finishMessage_swap ops work closes]
  exact ⟨dormant.offline, dormant.unused⟩

private theorem receivePass_swap (dormant : Dormant w) (dispatching : w.dispatching = true)
    (data : List UInt8) : receivePass (env.swap ops work) data w = receivePass env data w := by
  have header := headerPhase_swap ops work closes dormant data
  have asleep := (((lockedEnters locked env).receives.headerPhase data w dispatching).1 dormant).1
  unfold receivePass
  rw [header]
  generalize headerPhase env data w = out at asleep ⊢
  obtain ⟨_ | ret, rest, v⟩ := out
  · exact payloadPhase_swap ops work closes asleep rest
  · rfl

private theorem receiveLoop_swap (passes : Nat) (data : List UInt8) (dormant : Dormant w)
    (dispatching : w.dispatching = true) :
    receiveLoop (env.swap ops work) passes data w = receiveLoop env passes data w := by
  induction passes generalizing data w with
  | zero => rfl
  | succ passes ih =>
    have same := receivePass_swap locked ops work closes dormant dispatching data
    obtain ⟨kept, flag⟩ := (lockedEnters locked env).receives.receivePass data w dispatching
    have asleep := (kept dormant).1
    unfold receiveLoop
    rw [same]
    generalize receivePass env data w = out at asleep flag ⊢
    obtain ⟨_ | ret, rest, v⟩ := out
    · simp only [ih rest asleep flag]
    · rfl

theorem input_swap (dormant : Dormant w) (input : Input cfg) :
    w.input (env.swap ops work) input = w.input env input := by
  cases input with
  | receive data =>
    have same := receiveLoop_swap locked ops work closes data.length data
      (w := { w with dispatching := true }) ⟨dormant.offline, dormant.unused⟩ rfl
    simp only [World.input, webosAdbProtocolReceive, protocolReceiveUnlocked, same]
  | _ => exact silent_swap rfl ops work closes w

theorem inputs_swap (run : List (Input cfg)) (dormant : Dormant w) :
    w.inputs (env.swap ops work) run = w.inputs env run := by
  induction run generalizing w with
  | nil => rfl
  | cons first rest ih =>
    have same := input_swap locked ops work closes dormant first
    have asleep := ((lockedEnters locked env).input first w dormant).1
    show (w.input (env.swap ops work) first).inputs (env.swap ops work) rest = _
    rw [same, ih asleep]
    rfl

end Locked

theorem silent_idles (env : Env cfg σ π) {input : Input cfg} (silent : input.silent = true)
    (w : World cfg σ π) : Idles w (w.input env input) := by
  cases input with
  | streamWrite stream data => exact (idlesSends env).streamWriteLocked stream 0 data w
  | streamWriteGeneration stream generation data =>
    exact (idlesSends env).streamWriteLocked stream generation data w
  | streamClose stream => exact (idlesSends env).streamCloseLocked stream 0 w
  | streamCloseGeneration stream generation =>
    exact (idlesSends env).streamCloseLocked stream generation w
  | receive data => cases silent
  | txReady => exact (idlesSends env).protocolTxReady w
  | reset => exact reset_idles env w

/-- Session gate: a used stream implies the session flag, which is set exactly when the latest CNXN
since the last reset had its reply accepted. Outside a session nothing runs an `open`, `write` or
`tx_ready` callback, takes an id, allocates a stream or asks for a reboot, and without ALLOW_NO_AUTH
there never is one. -/
theorem session_gate (env : Env cfg σ π) :
    (∀ w, Visited env w → (∀ s, (w.streams s).used = true → w.online = true) ∧
      w.online = sessionUp w.log ∧
      ∀ v : World cfg σ π, v.online = w.online → v.streams = w.streams → v.dispatching = true →
        (v.online = true ∧ (dispatchMessage env v).2.online = true) ∨ Barred env v) ∧
    (∀ (w : World cfg σ π) (input : Input cfg), input.silent = true →
      Idles w (w.input env input) ∧ ∀ ops work,
        (∀ kind, (ops kind).closeOp = (env.ops kind).closeOp) →
        w.input (env.swap ops work) input = w.input env input) ∧
    (cfg.allowNoAuth = false → ∀ services platform (run : List (Input cfg)),
      let start := protocolResetUnlocked env (World.boot cfg services platform)
      Dormant (start.inputs env run) ∧ (start.inputs env run).nextLocalId = 1 ∧
      (∀ e ∈ (start.inputs env run).log,
        e ≠ .reboot ∧ ∀ s localId remoteId, e ≠ .allocated s localId remoteId) ∧
      ∀ ops work, (∀ kind, (ops kind).closeOp = (env.ops kind).closeOp) →
        start.inputs (env.swap ops work) run = start.inputs env run) := by
  refine ⟨fun w visited => ?_, fun w input silent => ?_, fun locked services platform run => ?_⟩
  · have gated := visited_gated visited
    refine ⟨gated.used, gated.online, fun v online streams dispatching => ?_⟩
    by_cases connects : v.rx.message.command = ADB_COMMAND_CNXN
    · exact Or.inr (connect_barred connects)
    · cases flag : v.online with
      | true => exact Or.inl ⟨rfl, (dispatch_calm dispatching connects).online.trans flag⟩
      | false =>
        have dormant := gated.dormant (online.symm.trans flag)
        exact Or.inr (Dormant.barred ⟨flag, fun s => streams ▸ dormant.unused s⟩)
  · exact ⟨silent_idles env silent w, fun ops work closes => silent_swap silent ops work closes w⟩
  · intro start
    have booted : Idles (World.boot cfg services platform) start := reset_idles env _
    have asleep : Dormant start := reset_dormant env _
    obtain ⟨dormant, idles⟩ := (lockedEnters locked env).inputs run start asleep
    have whole := booted.trans idles
    obtain ⟨new, grown, quiet⟩ := whole.events
    refine ⟨dormant, whole.ids.elim id id, fun e member => ?_, fun ops work closes => ?_⟩
    · rw [grown] at member
      exact quiet e member
    · exact inputs_swap locked ops work closes run asleep

def Config.locked : Config := { Config.project with allowNoAuth := false }

/-- The gate of that build under a handshake and an OPEN. -/
theorem session_gate_locked :
    let start := protocolResetUnlocked (Env.ideal Config.locked) (World.boot Config.locked () ())
    let run := [.receive (encodeMessage ADB_COMMAND_CNXN ADB_VERSION 4096 []),
      .receive (encodeMessage ADB_COMMAND_OPEN 1 0 (ascii "sync:" ++ [0]) ++
        (ascii "sync:" ++ [0]))]
    Config.locked.allowNoAuth = false ∧ Dormant (start.inputs (Env.ideal Config.locked) run) := by
  intro start run
  have gate := (session_gate (Env.ideal Config.locked)).2.2 rfl () () run
  exact ⟨rfl, gate.1⟩

end Webos.Adb
