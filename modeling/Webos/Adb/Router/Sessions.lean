/- digest: Every entry point keeps the record inside the abstract session, so all runs do. -/

import Webos.Adb.Router.Receiver
import Webos.Adb.Router.Refines

namespace Webos.Adb

open Webos.Lib.Bytes Webos.Lib.Program Webos.Lib.RingQueue Webos.Lib.Monitor Webos.Lib.Fragment

variable {cfg : Config} {σ π : Type} (env : Env cfg σ π)

structure Session.Settled (t : Session cfg) : Prop where
  returned : t.Returned
  announced : t.Announced

variable {w : World cfg σ π} {t u : Session cfg} {s : Slot cfg} {line : Line}

theorem Session.Settled.of_each (each : ∀ s line, t.lines s = some line →
    line.owed = none ∧ line.announced = true) : t.Settled :=
  ⟨fun s line present => (each s line present).1, fun s line present => (each s line present).2⟩

theorem Session.Settled.each (settled : t.Settled) (present : t.lines s = some line) :
    line.owed = none ∧ line.announced = true :=
  ⟨settled.returned s line present, settled.announced s line present⟩

private theorem Steady.before (steady : Steady t u) (returned : t.Returned) {line' : Line}
    (present : u.lines s = some line') : line'.owed = none ∧
      ∃ line, t.lines s = some line ∧ line'.announced = line.announced := by
  cases here : t.lines s with
  | none => cases (steady.absent s here).symm.trans present
  | some line =>
    obtain ⟨line'', now, owed, same⟩ := steady.present s line here (returned s line here)
    obtain rfl : line'' = line' := Option.some.inj (now.symm.trans present)
    exact ⟨owed, line, rfl, same⟩

theorem Steady.returned (steady : Steady t u) (returned : t.Returned) : u.Returned :=
  fun _ _ present => (steady.before returned present).1

theorem Steady.announced (steady : Steady t u) (returned : t.Returned) {line' : Line}
    (present : u.lines s = some line')
    (announced : ∀ line, t.lines s = some line → line.announced = true) :
    line'.announced = true := by
  obtain ⟨-, line, here, same⟩ := steady.before returned present
  rw [same, announced line here]

theorem Steady.settled (steady : Steady t u) (settled : t.Settled) : u.Settled :=
  ⟨steady.returned settled.returned, fun s _ present =>
    steady.announced settled.returned present (settled.announced s)⟩

theorem OnlySlot.settled (only : OnlySlot s t u) (settled : t.Settled) : u.Settled := by
  refine .of_each fun s' line' present => ?_
  by_cases same : s' = s
  · subst same
    obtain ⟨line, here, owed, announced⟩ := only.own line' present
    rw [owed, announced]
    exact settled.each here
  · rw [only.others s' same] at present
    exact settled.each present

theorem Session.Settled.of_lines (settled : t.Settled) (same : u.lines = t.lines) : u.Settled :=
  ⟨fun s line present => settled.returned s line (same ▸ present),
    fun s line present => settled.announced s line (same ▸ present)⟩

theorem tracks_callback {α : Type} (program : Callback cfg σ α) (tracks : Tracks w t)
    (returned : t.Returned) (dispatching : w.dispatching = true) :
    ∃ u, Tracks (callback env program w).2 u ∧ Steady t u := by
  have ran := run_related (streamApi env) (fun w w' : World cfg σ π => w.dispatching = true →
      ∀ t, Tracks w t → t.Returned → w'.dispatching = true ∧ ∃ u, Tracks w' u ∧ Steady t u)
    (fun w on t tracks _ => ⟨on, t, tracks, .refl t⟩)
    (fun w v x first second on t tracks returned => by
      obtain ⟨on', u, next, steady⟩ := first on t tracks returned
      obtain ⟨on'', u', last, steady'⟩ := second on' u next (steady.returned returned)
      exact ⟨on'', u', last, steady.trans steady'⟩)
    (fun call v on t tracks returned => by
      cases call with
      | write stream generation data =>
        refine ⟨((keepsSends env).streamWriteLocked
          stream generation data v).dispatching.trans on, ?_⟩
        exact tracks_streamWriteLocked env stream generation data tracks returned
          (fun off => by rw [on] at off; cases off)
      | close stream generation =>
        refine ⟨((keepsSends env).streamCloseLocked stream generation v).dispatching.trans on, ?_⟩
        exact tracks_streamCloseLocked_dispatching env stream generation tracks on
      | generation stream => exact ⟨on, t, tracks, .refl t⟩
      | maxPayload stream => exact ⟨on, t, tracks, .refl t⟩)
    program w
  obtain ⟨-, u, next, steady⟩ := ran dispatching t tracks returned
  exact ⟨u, next.congr rfl, steady⟩

def Good (host : Option UInt32) (w : World cfg σ π) : Prop :=
  ∃ t, Tracks w t ∧ t.Settled ∧ t.host = host

variable {host : Option UInt32}

theorem good_sendControl (command arg0 arg1 : UInt32) (payload : List UInt8) (good : Good host w)
    (control : command ≠ ADB_COMMAND_WRTE) (excused : ∀ t : Session cfg,
      Owed.cleared (t.owes (.accepted ⟨command, arg0, arg1, payload⟩)) = true) :
    Good host (sendControl env command arg0 arg1 payload w).2 := by
  obtain ⟨t, tracks, settled, same⟩ := good
  obtain ⟨u, spoken⟩ := tracks_sendControl env command arg0 arg1 payload tracks control
  exact ⟨u, spoken.tracks (excused t), settled.of_lines spoken.lines, spoken.host.trans same⟩

theorem good_sendClose (remoteId : UInt32) (good : Good host w) :
    Good host (sendClose env 0 remoteId w).2 := by
  refine good_sendControl env _ _ _ _ good (by decide) fun t => ?_
  simp [Session.owes, Owed.cleared, ADB_COMMAND_CLSE, ADB_COMMAND_OKAY]

theorem tracks_draw (tracks : Tracks w t) :
    Tracks (allocateLocalId w).2 (t.turn (.drawn w.nextLocalId)) :=
  tracks.paying rfl (step_of_act (Or.inr tracks.paid) rfl) rfl
    { tracks.rel.turn _ with counter := nextId_ne_zero _ }

theorem good_sendReady_drawn (remoteId : UInt32) (good : Good host w) :
    Good host (sendReady env (allocateLocalId w).1 remoteId (allocateLocalId w).2).2 := by
  obtain ⟨t, tracks, settled, same⟩ := good
  obtain ⟨u, spoken⟩ := tracks_sendControl env ADB_COMMAND_OKAY w.nextLocalId remoteId []
    (tracks_draw tracks) (by decide)
  have excused : Owed.cleared ((t.turn (.drawn w.nextLocalId)).owes
      (.accepted ⟨ADB_COMMAND_OKAY, w.nextLocalId, remoteId, []⟩)) = true := by
    simp [Session.owes, Session.turn, Session.spares, Owed.cleared]
  exact ⟨u, spoken.tracks excused, settled.of_lines spoken.lines, spoken.host.trans same⟩

theorem tracks_allocateStream {remoteId : UInt32} {ops : ServiceKind} (tracks : Tracks w t)
    (online : t.host.isSome = true) {v : World cfg σ π}
    (found : allocateStream remoteId ops w = (some s, v)) :
    ∃ u localId, Tracks v u ∧ u.host = t.host ∧ t.lines s = none ∧
      u.lines = Function.update t.lines s (some (.fresh localId remoteId)) := by
  unfold allocateStream at found
  split at found
  · cases found
  · rename_i s' free
    cases found
    have unused := List.find?_some free
    rw [Bool.not_eq_true'] at unused
    have absent : t.lines s = none := by
      cases here : t.lines s with
      | none => rfl
      | some line =>
        rw [(tracks.rel.shows s line here).used] at unused
        cases unused
    have drawn := tracks_draw tracks
    have allowed : (t.turn (.drawn w.nextLocalId)).step (.allocated s w.nextLocalId remoteId) =
        some (((t.turn (.drawn w.nextLocalId)).turn (.allocated s w.nextLocalId remoteId)).setLine s
          (some (.fresh w.nextLocalId remoteId))) := by
      refine step_of_act (Or.inr drawn.paid) ?_
      simp [Session.act, Session.opened, absent, online, tracks.rel.direct, tracks.rel.counter]
    have placed : Rel ((allocateLocalId w).2.setStream s { Stream.zero cfg with
        used := true, localId := w.nextLocalId, remoteId := remoteId,
        generation := w.nextStreamGeneration, ops := some ops })
        (((t.turn (.drawn w.nextLocalId)).turn (.allocated s w.nextLocalId remoteId)).setLine s
          (some (.fresh w.nextLocalId remoteId))) :=
      (drawn.rel.turn _).setLine ⟨rfl, rfl, rfl, rfl, rfl, rfl, rfl⟩ online
    exact ⟨_, w.nextLocalId, drawn.paying rfl allowed rfl { placed with }, rfl, absent, rfl⟩

structure Opening (s : Slot cfg) (t : Session cfg) : Prop where
  returned : t.Returned
  announced : ∀ s' ≠ s, ∀ line, t.lines s' = some line → line.announced = true

theorem Opening.drop (opening : Opening s t) (lines : u.lines = Function.update t.lines s none) :
    u.Settled := by
  refine .of_each fun s' line present => ?_
  by_cases same : s' = s
  · rw [lines, same, Function.update_self] at present
    cases present
  · rw [lines, Function.update_of_ne same] at present
    exact ⟨opening.returned s' line present, opening.announced s' same line present⟩

theorem Opening.announce (opening : Opening s t) (here : t.lines s = some line)
    (lines : u.lines = Function.update t.lines s (some { line with announced := true })) :
    u.Settled := by
  refine .of_each fun s' line' present => ?_
  by_cases same : s' = s
  · rw [lines, same, Function.update_self] at present
    cases present
    exact ⟨opening.returned s line here, rfl⟩
  · rw [lines, Function.update_of_ne same] at present
    exact ⟨opening.returned s' line' present, opening.announced s' same line' present⟩

theorem good_release (tracks : Tracks w t) (opening : Opening s t) (same : t.host = host) :
    Good host (releaseStream env s w) := by
  obtain ⟨u, released, kept, lines⟩ := tracks_releaseStream env tracks (opening.returned s)
  exact ⟨u, released, opening.drop lines, kept.trans same⟩

theorem Session.Settled.opening (settled : t.Settled) (s : Slot cfg) : Opening s t :=
  ⟨settled.returned, fun s' _ => settled.announced s'⟩

theorem good_flushStream (good : Good host w) (used : (w.streams s).used = true) :
    Good host (flushStream env s w).2 := by
  obtain ⟨t, tracks, settled, same⟩ := good
  obtain ⟨line, here⟩ := tracks.rel.line_of_used used
  obtain ⟨u, flushed, only⟩ := tracks_flushStream env tracks here (settled.returned s line here)
    (settled.announced s line here)
  exact ⟨u, flushed, only.settled settled, only.host.trans same⟩

theorem good_announceStream (tracks : Tracks w t) (opening : Opening s t)
    (here : t.lines s = some line) (same : t.host = host) :
    Good host (announceStream env s w).2 := by
  obtain ⟨u, ready, kept, final, lines⟩ := tracks_sendReadyFor env tracks here
  unfold announceStream
  by_cases ok : (sendReadyFor env s w).1 = 0
  · rw [if_pos ok] at lines
    have now : u.lines s = some { line with announced := true } := by
      rw [lines, Function.update_self]
    have good : Good host (sendReadyFor env s w).2 :=
      ⟨u, ready, opening.announce here lines, kept.trans same⟩
    have flushed := good_flushStream env good (ready.rel.shows s _ now).used
    simp only [ok, ↓reduceIte]
    split_ifs
    · exact flushed
    · obtain ⟨v, tracks', settled', same'⟩ := flushed
      exact good_release env tracks' (settled'.opening s) same'
    · exact flushed
  · rw [if_neg ok] at lines
    simp only [ok, ↓reduceIte, final, Bool.false_eq_true, ne_eq, not_false_eq_true]
    refine good_release env ready ?_ (kept.trans same)
    exact ⟨fun s' line' present => opening.returned s' line' (lines ▸ present),
      fun s' other line' present => opening.announced s' other line' (lines ▸ present)⟩

theorem Good.congr {w' : World cfg σ π} (good : Good host w) (shown : w'.shown = w.shown) :
    Good host w' := by
  obtain ⟨t, tracks, settled, same⟩ := good
  exact ⟨t, tracks.congr shown, settled, same⟩

theorem good_openReboot (destination : List UInt8) (remoteId : UInt32) (good : Good host w) :
    Good host (openReboot env destination remoteId w).2 := by
  have reboot {v : World cfg σ π} (good : Good host v) :
      Good host (webosAdbRebootRequest env v).2 := by
    unfold webosAdbRebootRequest
    dsimp only
    split_ifs
    · exact good.congr rfl
    · obtain ⟨t, tracks, settled, same⟩ := good
      exact ⟨_, Tracks.still (tracks.congr rfl) rfl rfl,
        settled.of_lines rfl, same⟩
  have ready := good_sendReady_drawn env remoteId good
  unfold openReboot
  dsimp only
  split_ifs
  · exact good_sendClose env remoteId good
  · exact reboot ready
  · exact ready

private theorem settled_update {line' : Line} (settled : t.Settled) (here : t.lines s = some line)
    (owed : line'.owed = line.owed) (announced : line.announced = true → line'.announced = true) :
    (t.setLine s (some line')).Settled := by
  refine .of_each fun s' other present => ?_
  by_cases same : s' = s
  · subst same
    rw [setLine_self] at present
    cases present
    exact ⟨owed.trans (settled.returned s' line here), announced (settled.announced s' line here)⟩
  · rw [setLine_other same] at present
    exact settled.each present

private theorem good_writeFailed (tracks : Tracks w t) (settled : t.Settled) (same : t.host = host)
    (here : t.lines s = some line) :
    Good host (flushStream env s ((w.setStream s { w.streams s with
      closePending := true, txPending := false, awaitingAck := false }).note
        (.writeFailed s))).2 := by
  have shows := tracks.rel.shows s line here
  have next : line.abort = some { line with
      closing := true, pending := none, awaiting := false, failed := true } := by
    rw [Line.abort, settled.returned s line here]
    rfl
  have moved := tracks.move (e := .writeFailed s) (c := { w.streams s with
    closePending := true, txPending := false, awaitingAck := false })
      (Or.inr tracks.paid) rfl here next
    { shows with pending := rfl, awaiting := rfl, closing := rfl }
  refine good_flushStream env ⟨_, moved, settled_update (settled.of_lines rfl) here rfl
    (fun on => on), same⟩ ?_
  rw [note_streams, setStream_streams, Function.update_self]
  exact shows.used

private theorem good_sendReadyFor (tracks : Tracks w t) (settled : t.Settled) (same : t.host = host)
    (here : t.lines s = some line) : Good host (sendReadyFor env s w).2 ∧
      ((sendReadyFor env s w).2.streams s).used = true := by
  obtain ⟨u, ready, kept, -, lines⟩ := tracks_sendReadyFor env tracks here
  split_ifs at lines
  · have now : u.lines s = some { line with announced := true } := by
      rw [lines, Function.update_self]
    exact ⟨⟨u, ready, (settled.opening s).announce here lines, kept.trans same⟩,
      (ready.rel.shows s _ now).used⟩
  · exact ⟨⟨u, ready, settled.of_lines lines, kept.trans same⟩,
      (ready.rel.shows s line (by rw [lines, here])).used⟩

theorem good_handleClose (good : Good host w) : Good host (handleClose env w).2 := by
  unfold handleClose
  split
  · exact good
  · rename_i s found
    obtain ⟨t, tracks, settled, same⟩ := good
    obtain ⟨line, here⟩ := tracks.rel.line_of_used (find_used found)
    have marked := tracks.mark (e := .hostClose s) (Or.inr tracks.paid) rfl here rfl
      { tracks.rel.shows s line here with }
    obtain ⟨⟨u, closed, kept, lines⟩, -⟩ := tracks_close_release env marked (setLine_self _)
      (settled.returned s line here) (Or.inl rfl)
    rw [Session.setLine, Function.update_idem] at lines
    exact ⟨u, closed, (settled.opening s).drop lines, kept.trans same⟩

section Handlers

variable (dispatching : w.dispatching = true)

include dispatching

theorem good_openStream (destination : List UInt8) (remoteId : UInt32) (pre : List UInt8)
    (kind : ServiceKind) (good : Good host w) (online : host.isSome = true) :
    Good host (openStream env destination remoteId pre kind w).2 := by
  unfold openStream
  split_ifs
  · exact good
  · have kept := allocate_calm remoteId kind w
    obtain ⟨t, tracks, settled, same⟩ := good
    rcases eq : allocateStream remoteId kind w with ⟨_ | s, v⟩
    · have idle : v = w := by
        unfold allocateStream at eq
        split at eq
        · cases eq; rfl
        · cases eq
      rw [idle]
      exact good_sendClose env remoteId ⟨t, tracks, settled, same⟩
    · rw [eq] at kept
      obtain ⟨u, localId, placed, host', absent, lines⟩ :=
        tracks_allocateStream tracks (same ▸ online) eq
      have here : u.lines s = some (.fresh localId remoteId) := by rw [lines, Function.update_self]
      have returned : u.Returned := by
        intro s' line present
        by_cases own : s' = s
        · rw [lines, own, Function.update_self] at present
          cases present
          rfl
        · rw [lines, Function.update_of_ne own] at present
          exact settled.returned s' line present
      obtain ⟨x, called, steady⟩ := tracks_callback env
        ((env.ops kind).openOp v.services s (destination.drop pre.length)) placed returned
        (kept.dispatching.trans dispatching)
      have opening : Opening s x := by
        refine ⟨steady.returned returned, fun s' other line present => ?_⟩
        refine steady.announced returned present fun line' earlier => ?_
        rw [lines, Function.update_of_ne other] at earlier
        exact settled.announced s' line' earlier
      have host'' : x.host = host := steady.host.trans (host'.trans same)
      obtain ⟨line, now, -, -⟩ := steady.present s _ here rfl
      dsimp only
      split_ifs
      · exact good_sendClose env remoteId (good_release env called opening host'')
      · exact good_announceStream env called opening now host''

theorem good_openIf (enabled : Bool) (destination : List UInt8) (remoteId : UInt32)
    (pre : List UInt8) (kind : ServiceKind) (good : Good host w) (online : host.isSome = true) :
    Good host (openIf env enabled destination remoteId pre kind w).2 := by
  unfold openIf
  split_ifs
  · exact good_openStream env dispatching destination remoteId pre kind good online
  · exact good

theorem good_openService (destination : List UInt8) (remoteId : UInt32) (good : Good host w)
    (up : w.online = true) (online : host.isSome = true) :
    Good host (openService env destination remoteId w).2 := by
  have first := good_openIf env dispatching cfg.shell destination remoteId (ascii "shell:") .shell
    good online
  have kept := ((calmHandles env).openIf cfg.shell destination remoteId (ascii "shell:") .shell w up
    dispatching).dispatching.trans dispatching
  have second := good_openIf env kept cfg.sync destination remoteId
    (ascii "sync:") .sync first online
  unfold openService
  dsimp only
  split_ifs
  · exact first
  · exact second
  · exact good_sendClose env remoteId second

theorem good_handleOpen (good : Good host w) : Good host (handleOpen env w).2 := by
  unfold handleOpen
  dsimp only
  by_cases online : w.online = true
  · have hosted : host.isSome = true := by
      obtain ⟨t, tracks, -, same⟩ := good
      exact same ▸ tracks.rel.online online
    split_ifs
    · exact good
    · exact good_sendReady_drawn env _ good
    · exact good_openReboot env _ _ good
    · exact good_openStream env dispatching _ _ _ _ good hosted
    · exact good_openService env dispatching _ _ good online hosted
  · rw [if_pos (by simp [online])]
    exact good

theorem good_handleWrite (good : Good host w) : Good host (handleWrite env w).2 := by
  unfold handleWrite
  split
  · exact good_sendClose env _ good
  · rename_i s found
    split
    · exact good_sendClose env _ good
    · rename_i write selected
      obtain ⟨t, tracks, settled, same⟩ := good
      obtain ⟨line, here⟩ := tracks.rel.line_of_used (find_used found)
      obtain ⟨u, called, steady⟩ := tracks_callback env
        (write w.services s (w.rx.payload.getD [])) tracks settled.returned dispatching
      obtain ⟨line', now, -, -⟩ := steady.present s line here (settled.returned s line here)
      have host' : u.host = host := steady.host.trans same
      obtain ⟨ready, used⟩ := good_sendReadyFor env called (steady.settled settled) host' now
      dsimp only
      split_ifs
      · exact good_writeFailed env called (steady.settled settled) host' now
      · exact good_flushStream env ready used
      · exact ready

theorem good_notifyReady (tracks : Tracks w t) (settled : t.Settled) (same : t.host = host) :
    Good host (notifyReady env s w) := by
  unfold notifyReady
  split
  · exact ⟨t, tracks, settled, same⟩
  · rename_i txReady selected
    obtain ⟨u, called, steady⟩ := tracks_callback env (txReady w.services s) tracks
      settled.returned dispatching
    exact ⟨u, called, steady.settled settled, steady.host.trans same⟩

theorem good_handleReady (good : Good host w) : Good host (handleReady env w).2 := by
  unfold handleReady
  split
  · exact good
  · rename_i s found
    obtain ⟨t, tracks, settled, same⟩ := good
    obtain ⟨line, here⟩ := tracks.rel.line_of_used (find_used found)
    have shows := tracks.rel.shows s line here
    have settled' :
      ((t.turn (.ready s)).setLine s (some { line with awaiting := false })).Settled :=
      settled_update (settled.of_lines rfl) here rfl (fun on => on)
    dsimp only
    split_ifs with early used
    · rw [note_streams, Bool.not_eq_true'] at early
      exact ⟨_, tracks.mark (e := .ready s) (Or.inr tracks.paid) rfl here rfl
        { shows with awaiting := early }, settled', same⟩
    all_goals
      have acked := tracks.move (e := .ready s) (c := { w.streams s with awaitingAck := false })
        (Or.inr tracks.paid) rfl here rfl { shows with awaiting := rfl }
      have notified : Good host (notifyReady env s ((w.note (.ready s)).acknowledge s)) :=
        good_notifyReady env dispatching acked settled' same
    · exact good_flushStream env notified used
    · exact notified

end Handlers

section Session

private theorem tracks_releaseAll (slots : List (Slot cfg)) (tracks : Tracks w t)
    (returned : t.Returned) :
    ∃ u, Tracks (slots.foldl (fun w s => releaseStream env s w) w) u ∧ u.Returned ∧
      ∀ s, (s ∈ slots ∨ t.lines s = none) → u.lines s = none := by
  induction slots generalizing w t with
  | nil => exact ⟨t, tracks, returned, fun s gone => gone.resolve_left List.not_mem_nil⟩
  | cons s slots ih =>
    obtain ⟨v, released, -, lines⟩ := tracks_releaseStream env tracks (returned s)
    have returned' : v.Returned := by
      intro s' line present
      by_cases same : s' = s
      · rw [lines, same, Function.update_self] at present
        cases present
      · rw [lines, Function.update_of_ne same] at present
        exact returned s' line present
    obtain ⟨u, rest, returned'', gone⟩ := ih released returned'
    refine ⟨u, rest, returned'', fun s' earlier => gone s' ?_⟩
    by_cases same : s' = s
    · exact Or.inr (by rw [lines, same, Function.update_self])
    · rcases earlier with member | absent
      · exact Or.inl ((List.mem_cons.mp member).resolve_left same)
      · exact Or.inr (by rw [lines, Function.update_of_ne same, absent])

theorem tracks_closeAllStreams (tracks : Tracks w t) (returned : t.Returned) :
    ∃ u, Tracks (closeAllStreams env w) u ∧ ∀ s, u.lines s = none := by
  obtain ⟨u, closed, -, gone⟩ :=
    tracks_releaseAll env (List.finRange cfg.maxStreams) tracks returned
  exact ⟨u, closed, fun s => gone s (Or.inl (List.mem_finRange s))⟩

private theorem step_clear {e : Event cfg} {next : Option UInt32} (tracks : Tracks w t)
    (gone : ∀ s, t.lines s = none) (clears : (t.turn e).act t.due e = (t.turn e).clear next) :
    t.step e = some { t.turn e with queue := [], host := next, accepted := [], handed := [] } := by
  refine step_of_act (Or.inr tracks.paid) ?_
  rw [clears, Session.clear]
  exact if_pos ⟨fun s => by rw [turn_lines, gone s]; rfl, tracks.rel.direct⟩

private theorem settled_of_gone (gone : ∀ s, t.lines s = none) : t.Settled :=
  ⟨fun s _ present => (nomatch (gone s).symm.trans present),
    fun s _ present => (nomatch (gone s).symm.trans present)⟩

theorem good_restartSession (good : Good host w) :
    ∃ limit, Good (some limit) (restartSession env w) := by
  obtain ⟨t, tracks, settled, -⟩ := good
  have offline : Tracks { w with online := false } t :=
    ⟨⟨tracks.log, { tracks.rel with online := fun on => (by cases on) }⟩, tracks.paid⟩
  obtain ⟨u, closed, gone⟩ := tracks_closeAllStreams env offline settled.returned
  refine ⟨_, _, closed.paying rfl (step_clear closed gone rfl) rfl ?_, settled_of_gone gone, rfl⟩
  exact { closed.rel with
    ring := clear_valid cfg.depth_pos
    queue := contents_clear.symm
    plain := List.forall_mem_nil _
    limit := fun limit same => by cases same; rfl
    online := fun _ => rfl
    hosted := fun _ _ _ => rfl
    counter := show (1 : UInt32) ≠ 0 by decide }

theorem good_handleConnect (good : Good host w) : ∃ host, Good host (handleConnect env w).2 := by
  obtain ⟨limit, restarted⟩ := good_restartSession env good
  have sent : Good (some limit) (sendConnect env (restartSession env w)).2 :=
    good_sendControl env _ _ _ _ restarted (by decide) fun t => rfl
  unfold handleConnect
  dsimp only
  split_ifs
  · exact ⟨host, good⟩
  · obtain ⟨t, tracks, settled, same⟩ := sent
    exact ⟨some limit, t, ⟨⟨tracks.log, { tracks.rel with online := fun _ => by rw [same]; rfl }⟩,
      tracks.paid⟩, settled, same⟩
  · exact ⟨some limit, sent⟩

theorem good_protocolReset (good : Good host w) :
    ∃ host, Good host (protocolResetUnlocked env w) := by
  obtain ⟨t, tracks, settled, -⟩ := good
  obtain ⟨u, closed, gone⟩ := tracks_closeAllStreams env (w := resetRx w)
    (tracks.congr rfl) settled.returned
  refine ⟨_, _, closed.paying (e := .reset) rfl (step_clear closed gone rfl) rfl ?_,
    settled_of_gone gone, rfl⟩
  exact { closed.rel with
    ring := clear_valid cfg.depth_pos
    queue := contents_clear.symm
    plain := List.forall_mem_nil _
    limit := fun limit same => (by cases same)
    online := fun on => (by cases on)
    hosted := fun s line present => (nomatch (gone s).symm.trans present)
    counter := show (1 : UInt32) ≠ 0 by decide }

theorem good_dispatchMessage (dispatching : w.dispatching = true) (good : Good host w) :
    ∃ host, Good host (dispatchMessage env w).2 := by
  have routed : ∃ host, Good host
      (if checksumPasses w.rx then routeMessage env w else (-EBADMSG, w)).2 := by
    unfold routeMessage
    split_ifs
    · exact good_handleConnect env good
    · exact ⟨host, good_handleOpen env dispatching good⟩
    · exact ⟨host, good_handleWrite env dispatching good⟩
    · exact ⟨host, good_handleReady env dispatching good⟩
    · exact ⟨host, good_handleClose env good⟩
    all_goals exact ⟨host, good⟩
  obtain ⟨host', t, tracks, settled, same⟩ := routed
  exact ⟨host', _, tracks.still rfl rfl, settled.of_lines rfl, same⟩

end Session

section Runs

structure Sound (w : World cfg σ π) : Prop where
  dispatching : w.dispatching = true
  good : ∃ host, Good host w

variable (data : List UInt8)

theorem soundReceives : Receives env (fun w v => Sound w → Sound v) where
  refl _ := id
  trans _ _ _ first second := second ∘ first
  receiver w rx sound := by
    obtain ⟨host, good⟩ := sound.good
    exact ⟨sound.dispatching, host, good.congr rfl⟩
  allocated w size sound := by
    obtain ⟨host, t, tracks, settled, same⟩ := sound.good
    exact ⟨sound.dispatching, host, _, Tracks.still (tracks.congr rfl) rfl rfl,
      settled.of_lines rfl, same⟩
  dispatchMessage w sound := by
    obtain ⟨host, good⟩ := sound.good
    exact ⟨(grows_dispatchMessage env w sound.dispatching).dispatching.trans sound.dispatching,
      good_dispatchMessage env sound.dispatching good⟩

theorem good_protocolReceive (good : Good host w) :
    ∃ host, Good host (webosAdbProtocolReceive env data w).2 := by
  have entered : Sound { w with dispatching := true } :=
    ⟨rfl, host, good.congr rfl⟩
  obtain ⟨host', after⟩ := ((soundReceives env).receiveLoop data _ data.length entered).good
  exact ⟨host', after.congr rfl⟩

theorem good_flushPending (slots : List (Slot cfg)) (good : Good host w) :
    Good host (flushPending env slots w) := by
  induction slots generalizing w with
  | nil => exact good
  | cons s slots ih =>
    unfold flushPending
    dsimp only
    split_ifs with ready
    · rw [Bool.and_eq_true] at ready
      exact good_flushStream env good ready.1
    · rw [Bool.and_eq_true] at ready
      exact ih (good_flushStream env good ready.1)
    · exact ih good

theorem good_protocolTxReady (good : Good host w) : Good host (webosAdbProtocolTxReady env w) := by
  have pumped : Good host (if w.online then pumpControls env w else (0, w)).2 := by
    split_ifs
    · obtain ⟨t, tracks, settled, same⟩ := good
      obtain ⟨u, sent, kept, lines⟩ := tracks_pumpLoop env w.control.count tracks
      exact ⟨u, sent, settled.of_lines lines, kept.trans same⟩
    · exact good
  unfold webosAdbProtocolTxReady
  generalize (if w.online then pumpControls env w else (0, w)) = out at pumped
  dsimp only at pumped ⊢
  split_ifs
  · exact pumped
  · exact good_flushPending env _ pumped
  · exact pumped

theorem good_streamWriteLocked (stream : Option (Slot cfg)) (generation : UInt32)
    (data : List UInt8) (good : Good host w) :
    Good host (streamWriteLocked env stream generation data w).2 := by
  obtain ⟨t, tracks, settled, same⟩ := good
  obtain ⟨u, written, steady⟩ := tracks_streamWriteLocked env stream generation data tracks
    settled.returned (fun _ => settled.announced)
  exact ⟨u, written, steady.settled settled, steady.host.trans same⟩

theorem good_streamCloseLocked (stream : Option (Slot cfg)) (generation : UInt32)
    (good : Good host w) : Good host (streamCloseLocked env stream generation w) := by
  cases stream with
  | none => exact good
  | some s =>
    unfold streamCloseLocked
    dsimp only
    split_ifs with used flag
    · simp only [Bool.and_eq_true] at used
      obtain ⟨t, tracks, settled, same⟩ := good
      obtain ⟨line, here⟩ := tracks.rel.line_of_used used.1
      exact ⟨_, tracks_close_mark tracks here,
        settled_update (settled.of_lines rfl) here rfl (fun on => on), same⟩
    · simp only [Bool.and_eq_true] at used
      obtain ⟨t, tracks, settled, same⟩ := good
      obtain ⟨line, here⟩ := tracks.rel.line_of_used used.1
      refine good_flushStream env ⟨_, tracks_close_mark tracks here,
        settled_update (settled.of_lines rfl) here rfl (fun on => on), same⟩ ?_
      rw [note_streams, setStream_streams, Function.update_self]
      exact used.1
    · exact good

theorem good_input (input : Input cfg) (good : Good host w) :
    ∃ host, Good host (World.input env w input) := by
  cases input with
  | streamWrite stream data => exact ⟨host, good_streamWriteLocked env stream 0 data good⟩
  | streamWriteGeneration stream generation data =>
    exact ⟨host, good_streamWriteLocked env stream generation data good⟩
  | streamClose stream => exact ⟨host, good_streamCloseLocked env stream 0 good⟩
  | streamCloseGeneration stream generation =>
    exact ⟨host, good_streamCloseLocked env stream generation good⟩
  | receive data => exact good_protocolReceive env data good
  | txReady => exact ⟨host, good_protocolTxReady env good⟩
  | reset => exact good_protocolReset env good

private theorem good_boot (services : σ) (platform : π) :
    Good none (World.boot cfg services platform) := by
  refine ⟨Session.init cfg, ⟨⟨rfl, ?_⟩, rfl⟩, settled_of_gone fun _ => rfl, rfl⟩
  exact ⟨⟨cfg.depth_pos, (Nat.zero_mod _).symm, Nat.zero_le _⟩, rfl,
    fun p none => absurd none List.not_mem_nil, rfl, fun _ _ => rfl,
    fun _ _ present => (by cases present), fun _ same => (by cases same),
    fun on => (by cases on), fun _ _ present => (by cases present),
    show (1 : UInt32) ≠ 0 by decide⟩

/-- The record of every reachable state is one the abstract session allows, and the statics show
the session it leads to. -/
theorem reachable_tracks (reachable : Reachable env w) : ∃ t, Tracks w t ∧ t.Settled := by
  obtain ⟨services, platform, run, rfl⟩ := reachable
  have start : ∃ host, Good host (protocolResetUnlocked env (World.boot cfg services platform)) :=
    good_protocolReset env (good_boot services platform)
  have all (run : List (Input cfg)) (v : World cfg σ π) (good : ∃ host, Good host v) :
      ∃ host, Good host (World.inputs env v run) := by
    induction run generalizing v with
    | nil => exact good
    | cons input run ih =>
      obtain ⟨host, good⟩ := good
      exact ih _ (good_input env input good)
  obtain ⟨host, t, tracks, settled, -⟩ := all run _ start
  exact ⟨t, tracks, settled⟩

end Runs

end Webos.Adb
