/- digest: The router simulates the abstract session; every reachable record is accepted. -/

import Webos.Adb.Router.Dispatch
import Webos.Adb.Session.Machine

namespace Webos.Adb

open Webos.Lib.Bytes Webos.Lib.Program Webos.Lib.RingQueue Webos.Lib.Monitor

variable {cfg : Config} {σ π : Type} (env : Env cfg σ π)

structure Stream.Shows (st : Stream) (line : Line) : Prop where
  used : st.used = true
  localId : st.localId = line.localId
  remoteId : st.remoteId = line.remoteId
  pending : line.pending = if st.txPending then some st.txBytes else none
  awaiting : st.awaitingAck = line.awaiting
  closing : st.closePending = line.closing
  live : line.closed = false

structure Rel (w : World cfg σ π) (t : Session cfg) : Prop where
  ring : w.control.Valid cfg.controlQueueDepth
  queue : t.queue = w.control.contents cfg.controlQueueDepth
  plain : ∀ p ∈ t.queue, p.command ≠ ADB_COMMAND_WRTE
  direct : t.direct = none
  empty : ∀ s, t.lines s = none → (w.streams s).used = false
  shows : ∀ s line, t.lines s = some line → (w.streams s).Shows line
  limit : ∀ limit, t.host = some limit → w.negotiatedPayload = min limit.toNat cfg.maxPayload
  online : w.online = true → t.host.isSome = true
  hosted : ∀ s line, t.lines s = some line → t.host.isSome = true
  counter : w.nextLocalId ≠ 0

structure Mirrors (w : World cfg σ π) (t : Session cfg) : Prop where
  log : Recorded w.log t
  rel : Rel w t

/-- Between two of the router's actions no packet is still to be named. -/
structure Tracks (w : World cfg σ π) (t : Session cfg) : Prop extends Mirrors w t where
  paid : Owed.cleared t.due = true

variable {w : World cfg σ π} {t u : Session cfg}

theorem Rel.session (rel : Rel w t) (lines : u.lines = t.lines) (queue : u.queue = t.queue)
    (direct : u.direct = t.direct) (host : u.host = t.host) : Rel w u where
  ring := rel.ring
  queue := queue.trans rel.queue
  plain := queue ▸ rel.plain
  direct := direct.trans rel.direct
  empty := lines ▸ rel.empty
  shows := lines ▸ rel.shows
  limit := host ▸ rel.limit
  online := host ▸ rel.online
  hosted := lines ▸ host ▸ rel.hosted
  counter := rel.counter

theorem Rel.turn (rel : Rel w t) (e : Event cfg) : Rel w (t.turn e) :=
  { rel with }

theorem Mirrors.step {w' : World cfg σ π} {e : Event cfg} (mirrors : Mirrors w t)
    (log : w'.log = w.log ++ [e]) (allowed : t.step e = some u) (rel : Rel w' u) :
    Mirrors w' u := by
  refine ⟨?_, rel⟩
  rw [log]
  exact accepts_append mirrors.log (accepts_one allowed)

theorem Mirrors.paying {w' : World cfg σ π} {e : Event cfg} (mirrors : Mirrors w t)
    (log : w'.log = w.log ++ [e]) (allowed : t.step e = some u) (free : t.owes e = none)
    (rel : Rel w' u) : Tracks w' u := by
  refine ⟨mirrors.step log allowed rel, ?_⟩
  rw [(step_owed allowed).1, free]
  rfl

/-- The part of the router's state that a session stands for. -/
def World.shown (w : World cfg σ π) :=
  (w.log, w.streams, w.control, w.negotiatedPayload, w.online, w.nextLocalId)

theorem Tracks.congr {w' : World cfg σ π} (tracks : Tracks w t) (same : w'.shown = w.shown) :
    Tracks w' t := by
  cases w
  cases w'
  cases same
  exact { tracks with rel := { tracks.rel with } }

theorem Rel.note (rel : Rel w t) (e : Event cfg) : Rel (w.note e) t :=
  { rel with }

theorem Tracks.still {e : Event cfg} (tracks : Tracks w t)
    (acted : (t.turn e).act t.due e = some (t.turn e)) (free : t.owes e = none) :
    Tracks (w.note e) (t.turn e) :=
  tracks.paying rfl (step_of_act (Or.inr tracks.paid) acted) free ((tracks.rel.turn e).note e)

section Control

variable (command arg0 arg1 : UInt32) (payload : List UInt8)

structure Spoken (p : Packet) (t : Session cfg) (out : Int × World cfg σ π) (u : Session cfg) :
    Prop where
  mirrors : Mirrors out.2 u
  lines : u.lines = t.lines
  host : u.host = t.host
  due : out.1 = 0 → u.due = t.owes (.accepted p)
  refused : out.1 ≠ 0 → Owed.cleared u.due = true
  final : flowControlError out.1 = false

private def settled (p : Packet) (out : Int × World cfg σ π) : Int × World cfg σ π :=
  (out.1, if out.1 = 0 then out.2.note (.accepted p) else out.2)

private theorem refused_spoken {p : Packet} {ret : Int} (tracks : Tracks w t) (bad : ret ≠ 0)
    (final : flowControlError ret = false) : Spoken p t (settled p (ret, w)) t := by
  rw [settled, if_neg bad]
  exact ⟨tracks.toMirrors, rfl, rfl, fun ok => absurd ok bad, fun _ => tracks.paid, final⟩

private theorem Spoken.after {p : Packet} {e : Event cfg} {out : Int × World cfg σ π}
    (spoken : Spoken p (t.turn e) out u) (spare : t.spares e = t.spare) : Spoken p t out u := by
  refine ⟨spoken.mirrors, spoken.lines, spoken.host, fun ok => ?_, spoken.refused, spoken.final⟩
  rw [spoken.due ok]
  simp only [Session.owes, Session.turn, spare]

private theorem enqueue_spoken (tracks : Tracks w t) (control : command ≠ ADB_COMMAND_WRTE) :
    ∃ u, Spoken ⟨command, arg0, arg1, payload⟩ t (settled ⟨command, arg0, arg1, payload⟩
      (enqueueControl command arg0 arg1 payload w)) u := by
  have rel := tracks.rel
  unfold enqueueControl
  split_ifs with long full
  · exact ⟨t, refused_spoken tracks (by decide) (by decide)⟩
  · exact ⟨_, (refused_spoken (tracks.still rfl rfl) (by decide) (by decide)).after rfl⟩
  · have room : w.control.count < cfg.controlQueueDepth :=
      Nat.lt_of_le_of_ne rel.ring.count_le full
    have allowed : t.step (.accepted ⟨command, arg0, arg1, payload⟩) =
        some { t.turn (.accepted ⟨command, arg0, arg1, payload⟩) with
          queue := t.queue ++ [⟨command, arg0, arg1, payload⟩]
          accepted := t.accepted ++ [⟨command, arg0, arg1, payload⟩] } := by
      refine step_of_act (Or.inr tracks.paid) ?_
      simp only [Session.act, Session.accept, turn_direct, rel.direct, turn_queue, turn_accepted]
    refine ⟨_, tracks.step rfl allowed ?_, rfl, rfl, fun _ => rfl, fun bad => absurd rfl bad, rfl⟩
    refine { rel with ring := push_valid rel.ring room _, queue := ?_, plain := ?_ }
    · exact (congrArg (· ++ _) rel.queue).trans (contents_push rel.ring room _).symm
    · intro p member
      rcases List.mem_append.mp member with old | new
      · exact rel.plain p old
      · exact (List.mem_singleton.mp new) ▸ control

private theorem direct_spoken {p : Packet} {platform : π} (tracks : Tracks w t)
    (control : p.command ≠ ADB_COMMAND_WRTE) (idle : w.control.count = 0) :
    ∃ u, Spoken p t (settled p (0, World.note { w with platform } (.send p 0))) u := by
  have rel := tracks.rel
  have empty : t.queue = [] := by rw [rel.queue, contents_eq_nil_iff]; exact idle
  let sending : Session cfg :=
    { t.turn (.send p 0) with direct := some p, handed := t.handed ++ [p] }
  let taking : Session cfg :=
    { sending.turn (.accepted p) with direct := none, accepted := t.accepted ++ [p] }
  have sent : t.step (.send p 0) = some sending := by
    refine step_of_act (Or.inr tracks.paid) ?_
    simp [Session.act, Session.send, control, rel.direct, empty, sending]
  have taken : sending.step (.accepted p) = some taking := by
    refine step_of_act (Or.inr ?_) ?_
    · simp [sending, Session.owes, control, Owed.cleared]
    · simp [Session.act, Session.accept, taking, sending]
  refine ⟨taking, ⟨?_, ?_⟩, rfl, rfl, fun _ => rfl, fun bad => absurd rfl bad, rfl⟩
  · exact accepts_append (accepts_append tracks.log (accepts_one sent)) (accepts_one taken)
  · have moved : Rel (World.note (World.note { w with platform } (.send p 0)) (.accepted p)) t :=
      { rel with }
    exact moved.session rfl rfl rel.direct.symm rfl

theorem tracks_sendControl (tracks : Tracks w t) (control : command ≠ ADB_COMMAND_WRTE) :
    ∃ u, Spoken ⟨command, arg0, arg1, payload⟩ t
      (sendControl env command arg0 arg1 payload w) u := by
  have same : sendControl env command arg0 arg1 payload w =
      settled ⟨command, arg0, arg1, payload⟩ (routeControl env command arg0 arg1 payload w) := rfl
  rw [same]
  unfold routeControl sendPacketRaw
  split_ifs with queued
  · exact enqueue_spoken command arg0 arg1 payload tracks control
  · cases env.transportSend with
    | none => exact ⟨t, refused_spoken tracks (by decide) (by decide)⟩
    | some send =>
      dsimp only
      obtain ⟨ret, platform⟩ := send w.platform (encodeMessage command arg0 arg1 payload) payload
      have moved : Tracks { w with platform } t := tracks.congr rfl
      have refused (bad : ret ≠ 0) : Tracks (World.note { w with platform }
          (.send ⟨command, arg0, arg1, payload⟩ ret))
          (t.turn (.send ⟨command, arg0, arg1, payload⟩ ret)) :=
        moved.still (by simp only [Session.act, Session.send, control, ↓reduceIte, ne_eq, bad,
          not_false_eq_true]) (if_neg control)
      by_cases taken : ret = 0
      · subst taken
        exact direct_spoken tracks control (not_not.mp queued)
      · split_ifs with flow
        · obtain ⟨u, spoken⟩ := enqueue_spoken command arg0 arg1 payload (refused taken) control
          exact ⟨u, spoken.after rfl⟩
        · exact ⟨_, (refused_spoken (refused taken) taken (by simpa using flow)).after rfl⟩

/-- A control that answers for no stream is excused, and so is one that no stream owes. -/
theorem Spoken.tracks {p : Packet} {out : Int × World cfg σ π} (spoken : Spoken p t out u)
    (excused : Owed.cleared (t.owes (.accepted p)) = true) : Tracks out.2 u := by
  refine ⟨spoken.mirrors, ?_⟩
  by_cases ok : out.1 = 0
  · rw [spoken.due ok]
    exact excused
  · exact spoken.refused ok

private theorem tracks_pop (platform : π) (tracks : Tracks w t) (filled : 0 < w.control.count) :
    ∃ u, Tracks { World.note { w with platform } (.send w.control.front 0) with
      control := w.control.pop cfg.controlQueueDepth } u ∧ u.host = t.host ∧ u.lines = t.lines := by
  have rel := tracks.rel
  have queue := rel.queue.trans (contents_pop rel.ring filled)
  have control : w.control.front.command ≠ ADB_COMMAND_WRTE :=
    rel.plain _ (queue ▸ List.mem_cons_self)
  have allowed : t.step (.send w.control.front 0) = some { t.turn (.send w.control.front 0) with
      queue := (w.control.pop cfg.controlQueueDepth).contents cfg.controlQueueDepth
      handed := t.handed ++ [w.control.front] } := by
    refine step_of_act (Or.inr tracks.paid) ?_
    simp [Session.act, Session.send, control, rel.direct, queue]
  refine ⟨_, tracks.paying rfl allowed (if_neg control) ?_, rfl, rfl⟩
  exact { rel with
    ring := pop_valid rel.ring filled
    queue := rfl
    plain := fun p member => rel.plain p (queue ▸ List.mem_cons_of_mem _ member) }

theorem tracks_pumpLoop (passes : Nat) (tracks : Tracks w t) :
    ∃ u, Tracks (pumpLoop env passes w).2 u ∧ u.host = t.host ∧ u.lines = t.lines := by
  induction passes generalizing w t with
  | zero => exact ⟨t, tracks, rfl, rfl⟩
  | succ passes ih =>
    unfold pumpLoop sendPacketRaw
    split_ifs with idle
    · exact ⟨t, tracks, rfl, rfl⟩
    · cases env.transportSend with
      | none =>
        dsimp only
        exact ⟨t, tracks, rfl, rfl⟩
      | some send =>
        dsimp only
        generalize send w.platform _ w.control.front.payload = reply
        obtain ⟨ret, platform⟩ := reply
        split_ifs with bad
        · have moved : Tracks { w with platform } t := tracks.congr rfl
          have queue := tracks.rel.queue.trans
            (contents_pop tracks.rel.ring (Nat.pos_of_ne_zero idle))
          have control : w.control.front.command ≠ ADB_COMMAND_WRTE :=
            tracks.rel.plain _ (queue ▸ List.mem_cons_self)
          refine ⟨_, moved.still ?_ (if_neg control), rfl, rfl⟩
          simp [Session.act, Session.send, control, bad]
        · obtain rfl : ret = 0 := not_not.mp bad
          obtain ⟨v, next, host, lines⟩ := tracks_pop platform tracks (Nat.pos_of_ne_zero idle)
          obtain ⟨u, final, host', same⟩ := ih next
          exact ⟨u, final, host'.trans host, same.trans lines⟩

end Control

section Lines

variable {s : Slot cfg} {line line' : Line}

theorem Rel.update (rel : Rel w t) {st : Stream} {next : Option Line}
    (unused : next = none → st.used = false) (shows : ∀ line, next = some line → st.Shows line)
    (hosted : next.isSome = true → t.host.isSome = true) :
    Rel (w.setStream s st) (t.setLine s next) := by
  refine { rel with
    empty := fun s' absent => ?_
    shows := fun s' other present => ?_
    hosted := fun s' other present => ?_ } <;> by_cases same : s' = s
  · subst same
    rw [setStream_streams, Function.update_self]
    exact unused (setLine_self next ▸ absent)
  · rw [setStream_streams, Function.update_of_ne same]
    exact rel.empty s' (setLine_other same next ▸ absent)
  · subst same
    rw [setStream_streams, Function.update_self]
    exact shows other (setLine_self next ▸ present)
  · rw [setStream_streams, Function.update_of_ne same]
    exact rel.shows s' other (setLine_other same next ▸ present)
  · subst same
    exact hosted (Option.isSome_of_eq_some (setLine_self next ▸ present))
  · exact rel.hosted s' other (setLine_other same next ▸ present)

theorem Rel.setLine (rel : Rel w t) {st : Stream} (shows : st.Shows line')
    (hosted : t.host.isSome = true) : Rel (w.setStream s st) (t.setLine s (some line')) :=
  rel.update (fun gone => absurd gone (Option.some_ne_none _))
    (fun _ here => Option.some.inj here ▸ shows) (fun _ => hosted)

variable {e : Event cfg}

theorem step_of_move {move : Line → Option Line} (pays : e.pays = true ∨ Owed.cleared t.due = true)
    (moves : (t.turn e).move t.due e = some (s, move)) (here : t.lines s = some line)
    (next : move line = some line') : t.step e = some ((t.turn e).setLine s (some line')) := by
  have moved : (t.turn e).onLine s move = some ((t.turn e).setLine s (some line')) := by
    simp [Session.onLine, here, next]
  refine step_of_act pays ?_
  cases e with
  | write s' data ret =>
    cases moves
    have present : ¬((t.lines s).isNone = true ∧ ret ≠ 0) := by simp [here]
    simp only [Session.act, turn_lines, present, ↓reduceIte]
    exact moved
  | stored s' data => cases moves; exact moved
  | wrte s' data answer => cases moves; exact moved
  | close s' => cases moves; exact moved
  | ready s' => cases moves; exact moved
  | okay s' => cases moves; exact moved
  | clse s' => cases moves; exact moved
  | writeFailed s' => cases moves; exact moved
  | hostClose s' => cases moves; exact moved
  | _ => cases moves

private theorem move_free {due : Option Owed} {move : Slot cfg × (Line → Option Line)}
    (moves : u.move due e = some move) : t.owes e = none := by
  cases e <;> first | rfl | cases moves

theorem Mirrors.move {move : Line → Option Line} {c : Stream} (mirrors : Mirrors w t)
    (pays : e.pays = true ∨ Owed.cleared t.due = true)
    (moves : (t.turn e).move t.due e = some (s, move)) (here : t.lines s = some line)
    (next : move line = some line') (shows : c.Shows line') :
    Tracks ((w.setStream s c).note e) ((t.turn e).setLine s (some line')) :=
  mirrors.paying rfl (step_of_move pays moves here next) (move_free moves)
    (((mirrors.rel.turn e).setLine shows (mirrors.rel.hosted s line here)).note e)

theorem Mirrors.mark {move : Line → Option Line} (mirrors : Mirrors w t)
    (pays : e.pays = true ∨ Owed.cleared t.due = true)
    (moves : (t.turn e).move t.due e = some (s, move)) (here : t.lines s = some line)
    (next : move line = some line') (shows : (w.streams s).Shows line') :
    Tracks (w.note e) ((t.turn e).setLine s (some line')) := by
  have moved := mirrors.move (c := w.streams s) pays moves here next shows
  have same : w.setStream s (w.streams s) = w := by
    simp [World.setStream]
  rwa [same] at moved

private theorem owes_okay (localId remoteId : UInt32) :
    (t.owes (.accepted ⟨ADB_COMMAND_OKAY, localId, remoteId, []⟩)).map Owed.packet =
      some ⟨ADB_COMMAND_OKAY, localId, remoteId, []⟩ := by
  simp [Session.owes]

private theorem owes_clse (localId remoteId : UInt32) :
    (t.owes (.accepted ⟨ADB_COMMAND_CLSE, localId, remoteId, []⟩)).map Owed.packet =
      some ⟨ADB_COMMAND_CLSE, localId, remoteId, []⟩ := by
  simp [Session.owes, ADB_COMMAND_CLSE, ADB_COMMAND_OKAY]

theorem tracks_sendReadyFor (tracks : Tracks w t) (here : t.lines s = some line) :
    ∃ u, Tracks (sendReadyFor env s w).2 u ∧ u.host = t.host ∧
      flowControlError (sendReadyFor env s w).1 = false ∧
      u.lines = if (sendReadyFor env s w).1 = 0
        then Function.update t.lines s (some { line with announced := true }) else t.lines := by
  have shows := tracks.rel.shows s line here
  obtain ⟨u, spoken⟩ := tracks_sendControl env ADB_COMMAND_OKAY (w.streams s).localId
    (w.streams s).remoteId [] tracks (by decide)
  unfold sendReadyFor sendReady
  dsimp only
  split_ifs with ok
  · have now : u.lines s = some line := by rw [spoken.lines, here]
    have next : line.announce u.due = some { line with announced := true } := by
      rw [Line.announce, spoken.due ok, owes_okay, shows.localId, shows.remoteId, shows.live]
      exact if_pos ⟨rfl, rfl⟩
    have marked := spoken.mirrors.mark (e := .okay s) (Or.inl rfl) rfl now next
      { spoken.mirrors.rel.shows s line now with }
    refine ⟨_, marked, spoken.host, spoken.final, ?_⟩
    rw [Session.setLine, turn_lines, spoken.lines]
  · exact ⟨u, ⟨spoken.mirrors, spoken.refused ok⟩, spoken.host, spoken.final, spoken.lines⟩

private theorem tracks_release (used : (w.streams s).used = true)
    (accepted : Recorded w.log u)
    (paid : Owed.cleared u.due = true) (here : u.lines s = some line) (owed : line.owed = none)
    (rel : Rel w t) (lines : Function.update u.lines s none = Function.update t.lines s none)
    (queue : u.queue = t.queue) (direct : u.direct = t.direct) (host : u.host = t.host) :
    ∃ v, Tracks (releaseStream env s w) v ∧ v.host = t.host ∧
      v.lines = Function.update t.lines s none := by
  have allowed : u.step (.released s) = some ((u.turn (.released s)).setLine s none) := by
    refine step_of_act (Or.inr paid) ?_
    simp [Session.act, Session.released, here, owed]
  unfold releaseStream
  simp only [used, Bool.not_true, Bool.false_eq_true, ↓reduceIte]
  refine ⟨_, ⟨⟨accepts_append accepted (accepts_one allowed), ?_⟩, rfl⟩, host, lines⟩
  have dropped : Rel (w.setStream s (Stream.zero cfg)) (t.setLine s none) :=
    rel.update (fun _ => rfl) (fun _ here => absurd here.symm (Option.some_ne_none _))
      (fun here => absurd here Bool.false_ne_true)
  have freed := dropped.session (u := (u.turn (.released s)).setLine s none) lines queue direct host
  exact { freed with }

theorem tracks_releaseStream (tracks : Tracks w t) (owed : ∀ line, t.lines s = some line →
    line.owed = none) : ∃ u, Tracks (releaseStream env s w) u ∧ u.host = t.host ∧
      u.lines = Function.update t.lines s none := by
  cases here : t.lines s with
  | none =>
    have unused := tracks.rel.empty s here
    refine ⟨t, ?_, rfl, ?_⟩
    · unfold releaseStream
      simp only [unused, Bool.not_false, ↓reduceIte]
      exact tracks
    · rw [← here, Function.update_eq_self]
  | some line =>
    exact tracks_release env (tracks.rel.shows s line here).used tracks.log tracks.paid here
      (owed line here) tracks.rel rfl rfl rfl rfl

theorem tracks_close_release (tracks : Tracks w t) (here : t.lines s = some line)
    (owed : line.owed = none) (ready : line.hostClosed = true ∨
      (line.closing = true ∧ line.pending = none ∧ line.awaiting = false)) :
    (∃ u, Tracks (releaseStream env s (sendCloseFor env s w).2) u ∧ u.host = t.host ∧
      u.lines = Function.update t.lines s none) ∧
    ((sendCloseFor env s w).1 ≠ 0 → ∃ u, Tracks (sendCloseFor env s w).2 u ∧ u.host = t.host ∧
      u.lines = t.lines) := by
  have shows := tracks.rel.shows s line here
  obtain ⟨u, spoken⟩ := tracks_sendControl env ADB_COMMAND_CLSE (w.streams s).localId
    (w.streams s).remoteId [] tracks (by decide)
  have now : u.lines s = some line := by rw [spoken.lines, here]
  have used := (spoken.mirrors.rel.shows s line now).used
  unfold sendCloseFor sendClose
  dsimp only
  by_cases ok : (sendControl env ADB_COMMAND_CLSE (w.streams s).localId (w.streams s).remoteId []
    w).1 = 0
  · rw [if_pos ok]
    refine ⟨?_, fun bad => absurd ok bad⟩
    have next : line.finish u.due = some { line with closed := true } := by
      rw [Line.finish, spoken.due ok, owes_clse, shows.localId, shows.remoteId, shows.live, owed]
      refine if_pos ⟨rfl, rfl, rfl, ?_⟩
      rcases ready with theirs | ⟨closing, pending, free⟩
      · exact Or.inl theirs
      · exact Or.inr ⟨closing, by rw [pending]; rfl, by rw [free]; rfl⟩
    have said := accepts_append spoken.mirrors.log
      (accepts_one (step_of_move (e := .clse s) (Or.inl rfl) rfl now next))
    obtain ⟨v, released, host, lines⟩ := tracks_release env (w := World.note _ (.clse s)) used said
      rfl (setLine_self _) owed (spoken.mirrors.rel.note (.clse s))
        (Function.update_idem ..) rfl rfl
      rfl
    exact ⟨v, released, host.trans spoken.host, by rw [lines, spoken.lines]⟩
  · rw [if_neg ok]
    have refused : Tracks (sendControl env ADB_COMMAND_CLSE (w.streams s).localId
        (w.streams s).remoteId [] w).2 u := ⟨spoken.mirrors, spoken.refused ok⟩
    refine ⟨?_, fun _ => ⟨u, refused, spoken.host, spoken.lines⟩⟩
    obtain ⟨v, released, host, lines⟩ := tracks_releaseStream env (s := s) refused
      (fun line' present => by
        obtain rfl : line = line' := Option.some.inj (now.symm.trans present)
        exact owed)
    exact ⟨v, released, host.trans spoken.host, by rw [lines, spoken.lines]⟩

structure OnlySlot (s : Slot cfg) (t u : Session cfg) : Prop where
  host : u.host = t.host
  others : ∀ s' ≠ s, u.lines s' = t.lines s'
  own : ∀ line', u.lines s = some line' →
    ∃ line, t.lines s = some line ∧ line'.owed = line.owed ∧ line'.announced = line.announced

theorem OnlySlot.of_eq (host : u.host = t.host) (same : u.lines = t.lines) : OnlySlot s t u :=
  ⟨host, fun _ _ => by rw [same], fun line' present => ⟨line', by rw [← same, present], rfl, rfl⟩⟩

theorem OnlySlot.of_drop (host : u.host = t.host)
    (dropped : u.lines = Function.update t.lines s none) : OnlySlot s t u := by
  refine ⟨host, fun s' other => by rw [dropped, Function.update_of_ne other],
    fun line' present => ?_⟩
  rw [dropped, Function.update_self] at present
  cases present

theorem tracks_flushClose (tracks : Tracks w t) (here : t.lines s = some line)
    (owed : line.owed = none) : ∃ u, Tracks (flushClose env s w).2 u ∧ OnlySlot s t u := by
  have shows := tracks.rel.shows s line here
  unfold flushClose
  dsimp only
  by_cases ready : ((w.streams s).closePending && !(w.streams s).txPending &&
      !(w.streams s).awaitingAck) = true
  · rw [if_pos ready]
    simp only [Bool.and_eq_true, Bool.not_eq_true'] at ready
    obtain ⟨⟨closing, unsent⟩, free⟩ := ready
    obtain ⟨⟨u, next, host, lines⟩, kept⟩ := tracks_close_release env tracks here owed (Or.inr
      ⟨shows.closing ▸ closing, by rw [shows.pending, unsent]; rfl, shows.awaiting ▸ free⟩)
    split_ifs with refused
    · obtain ⟨u, next, host, lines⟩ := kept refused
      exact ⟨u, next, .of_eq host lines⟩
    · exact ⟨u, next, .of_drop host lines⟩
  · rw [if_neg ready]
    exact ⟨t, tracks, .of_eq rfl rfl⟩

def Line.sentOut (line : Line) (data : List UInt8) : Line :=
  { line with pending := none, awaiting := true, sent := line.sent ++ [data] }

/-- The packet is owed a name, unless there was no transport to send it. -/
private theorem mirrors_sendData (arg0 arg1 : UInt32) (payload : List UInt8) (tracks : Tracks w t)
    (idle : t.idle) : ∃ u, Mirrors (sendPacketRaw env ADB_COMMAND_WRTE arg0 arg1 payload w).2 u ∧
      u.lines = t.lines ∧ u.host = t.host ∧ u.idle ∧
      (sendPacketRaw env ADB_COMMAND_WRTE arg0 arg1 payload w).2.streams = w.streams ∧
      (u.due = some ⟨⟨ADB_COMMAND_WRTE, arg0, arg1, payload⟩,
          (sendPacketRaw env ADB_COMMAND_WRTE arg0 arg1 payload w).1, false⟩ ∨
        (sendPacketRaw env ADB_COMMAND_WRTE arg0 arg1 payload w).1 ≠ 0 ∧
          Owed.cleared u.due = true) := by
  unfold sendPacketRaw
  cases env.transportSend with
  | none => exact ⟨t, tracks.toMirrors, rfl, rfl, idle, rfl, Or.inr
    ⟨show - ENODEV ≠ 0 by decide, tracks.paid⟩⟩
  | some send =>
    dsimp only
    generalize send w.platform _ payload = reply
    obtain ⟨ret, platform⟩ := reply
    have moved : Tracks { w with platform } t := tracks.congr rfl
    have allowed : t.step (.send ⟨ADB_COMMAND_WRTE, arg0, arg1, payload⟩ ret) =
        some (t.turn (.send ⟨ADB_COMMAND_WRTE, arg0, arg1, payload⟩ ret)) :=
      step_of_act (Or.inr tracks.paid) (by simp [Session.act, Session.send, idle])
    exact ⟨_, moved.step rfl allowed ((moved.rel.turn _).note _), rfl, rfl, idle, rfl, Or.inl rfl⟩

theorem tracks_flush_pending (tracks : Tracks w t) (here : t.lines s = some line)
    (announced : line.announced = true) (pending : (w.streams s).txPending = true)
    (free : (w.streams s).awaitingAck = false) :
    ∃ u, Tracks (flushStream env s w).2 u ∧ u.host = t.host ∧
      u.lines = if (flushStream env s w).1 = 0
        then Function.update t.lines s (some (line.sentOut (w.streams s).txBytes))
        else t.lines := by
  have shows := tracks.rel.shows s line here
  have allowed : line.pending = some (w.streams s).txBytes ∧ (!line.awaiting) = true ∧
      (!line.closed) = true ∧ line.announced = true :=
    ⟨by rw [shows.pending, pending]; rfl, by rw [← shows.awaiting, free]; rfl,
      by rw [shows.live]; rfl, announced⟩
  by_cases queued : w.control.count = 0
  · have idle : t.idle :=
      ⟨by rw [tracks.rel.queue, contents_eq_nil_iff]; exact queued, tracks.rel.direct⟩
    obtain ⟨u, sent, lines, host, quiet, streams, due⟩ := mirrors_sendData env
      (w.streams s).localId (w.streams s).remoteId (w.streams s).txBytes tracks idle
    rw [shows.localId, shows.remoteId] at due
    have now : u.lines s = some line := by rw [lines, here]
    unfold flushStream
    simp only [pending, free, Bool.not_false, Bool.and_self, ↓reduceIte, queued, ne_eq,
      not_true_eq_false]
    generalize out : sendPacketRaw env ADB_COMMAND_WRTE (w.streams s).localId
      (w.streams s).remoteId (w.streams s).txBytes w = reply at sent streams
    rw [← shows.localId, ← shows.remoteId, out] at due
    obtain ⟨ret, v⟩ := reply
    rw [shows.localId, shows.remoteId] at due
    by_cases ok : ret = 0
    · subst ok
      have next : (fun line => if (u.turn (.wrte s (w.streams s).txBytes 0)).idle
          then line.transmit u.due (w.streams s).txBytes 0 else none) line =
          some (line.sentOut (w.streams s).txBytes) := by
        simp [quiet, Line.transmit, allowed, Line.sentOut, due.resolve_right fun no => no.1 rfl]
      have moved := sent.move (e := .wrte s (w.streams s).txBytes 0)
        (c := { w.streams s with txPending := false, awaitingAck := true })
          (Or.inl rfl) rfl now next
        { shows with pending := rfl, awaiting := rfl }
      simp only [not_true_eq_false, ↓reduceIte, flushClose, setStream_streams, Function.update_self,
        Bool.not_true, Bool.and_false, Bool.false_eq_true]
      exact ⟨_, moved, host, by rw [Session.setLine, turn_lines, lines]⟩
    · have next : (fun line => if (u.turn (.wrte s (w.streams s).txBytes ret)).idle
          then line.transmit u.due (w.streams s).txBytes ret else none) line = some line := by
        rcases due with due | ⟨-, cleared⟩
        · simp [quiet, Line.transmit, allowed, ok, due]
        · simp [quiet, Line.transmit, allowed, ok, cleared]
      have marked := sent.mark (e := .wrte s (w.streams s).txBytes ret) (Or.inl rfl) rfl now next
        (by rw [streams]; exact shows)
      simp only [ok, not_false_eq_true, ↓reduceIte]
      refine ⟨_, marked, host, ?_⟩
      rw [Session.setLine, turn_lines, lines, ← here, Function.update_eq_self]
  · unfold flushStream
    simp only [pending, free, Bool.not_false, Bool.and_self, ↓reduceIte, queued, ne_eq,
      not_false_eq_true]
    exact ⟨t, tracks, rfl, rfl⟩

theorem tracks_flushStream (tracks : Tracks w t) (here : t.lines s = some line)
    (owed : line.owed = none) (announced : line.announced = true) :
    ∃ u, Tracks (flushStream env s w).2 u ∧ OnlySlot s t u := by
  by_cases sending : (w.streams s).txPending = true ∧ (w.streams s).awaitingAck = false
  · obtain ⟨u, next, host, lines⟩ :=
      tracks_flush_pending env tracks here announced sending.1 sending.2
    refine ⟨u, next, ?_⟩
    split_ifs at lines
    · refine ⟨host, fun s' other => by rw [lines, Function.update_of_ne other],
        fun line' present => ?_⟩
      rw [lines, Function.update_self] at present
      cases present
      exact ⟨line, here, rfl, rfl⟩
    · exact .of_eq host lines
  · have quiet : ((w.streams s).txPending && !(w.streams s).awaitingAck) = false := by
      rw [Bool.and_eq_false_iff, Bool.not_eq_false']
      by_cases pending : (w.streams s).txPending = true
      · exact Or.inr (Bool.not_eq_false _ ▸ fun free => sending ⟨pending, free⟩)
      · exact Or.inl (Bool.not_eq_true _ ▸ pending)
    unfold flushStream
    simp only [quiet, Bool.false_eq_true, ↓reduceIte]
    exact tracks_flushClose env tracks here owed

structure Steady (t u : Session cfg) : Prop where
  host : u.host = t.host
  absent : ∀ s, t.lines s = none → u.lines s = none
  present : ∀ s line, t.lines s = some line → line.owed = none → ∃ line', u.lines s = some line' ∧
    line'.owed = none ∧ line'.announced = line.announced

theorem Steady.refl (t : Session cfg) : Steady t t :=
  ⟨rfl, fun _ absent => absent, fun _ line here owed => ⟨line, here, owed, rfl⟩⟩

theorem Steady.of_lines (host : u.host = t.host) (lines : u.lines = t.lines) : Steady t u :=
  ⟨host, fun _ absent => lines ▸ absent, fun _ line here owed => ⟨line, lines ▸ here, owed, rfl⟩⟩

theorem Steady.trans {v : Session cfg} (first : Steady t u) (second : Steady u v) : Steady t v := by
  refine ⟨second.host.trans first.host, fun s absent => second.absent s (first.absent s absent),
    fun s line here owed => ?_⟩
  obtain ⟨line', next, owed', same⟩ := first.present s line here owed
  obtain ⟨line'', last, owed'', same'⟩ := second.present s line' next owed'
  exact ⟨line'', last, owed'', same'.trans same⟩

theorem Steady.of_update (host : u.host = t.host) (here : t.lines s = some line)
    (lines : u.lines = Function.update t.lines s (some line'))
    (owed : line.owed = none → line'.owed = none)
    (announced : line'.announced = line.announced) : Steady t u := by
  refine ⟨host, fun s' absent => ?_, fun s' other present owes => ?_⟩
  · by_cases same : s' = s
    · rw [same, here] at absent
      cases absent
    · rw [lines, Function.update_of_ne same, absent]
  · by_cases same : s' = s
    · subst same
      obtain rfl : line = other := Option.some.inj (here.symm.trans present)
      exact ⟨line', by rw [lines, Function.update_self], owed owes, announced⟩
    · exact ⟨other, by rw [lines, Function.update_of_ne same, present], owes, rfl⟩

variable {data : List UInt8}

private theorem tracks_write_refused {ret : Int} (tracks : Tracks w t)
    (returned : ∀ s line, t.lines s = some line → line.owed = none) (bad : ret ≠ 0) :
    ∃ u, Tracks (w.note (.write s data ret)) u ∧ Steady t u := by
  cases here : t.lines s with
  | none =>
    have still := tracks.still (e := .write s data ret) (by simp [Session.act, here, bad]) rfl
    exact ⟨_, still, .of_lines rfl rfl⟩
  | some line =>
    have next : line.wrote data ret = some line := by
      simp [Line.wrote, returned s line here, bad]
    have marked := tracks.mark (e := .write s data ret) (Or.inr tracks.paid) rfl here next
      (tracks.rel.shows s line here)
    exact ⟨_, marked, .of_update rfl here rfl (fun owed => owed) rfl⟩

private def Line.copied (line : Line) (data : List UInt8) : Line :=
  { line with pending := some data, owed := some data }

private theorem fits_of_room (tracks : Tracks w t) (here : t.lines s = some line)
    (room : data.length ≤ webosAdbStreamMaxPayload w) : t.fits data = true := by
  obtain ⟨limit, host⟩ := Option.isSome_iff_exists.mp (tracks.rel.hosted s line here)
  have negotiated := tracks.rel.limit limit host
  have capacity : webosAdbStreamMaxPayload w ≤ min w.negotiatedPayload cfg.txPayloadSize := by
    unfold webosAdbStreamMaxPayload
    split_ifs
    · exact min_le_left _ _
    · exact le_refl _
  simp only [Session.fits, host, decide_eq_true_eq]
  omega

private theorem tracks_store (tracks : Tracks w t) (here : t.lines s = some line)
    (owed : line.owed = none) (room : data.length ≤ webosAdbStreamMaxPayload w)
    (unsent : (w.streams s).txPending = false) (free : (w.streams s).awaitingAck = false) :
    Tracks (w.store s data) ((t.turn (.stored s data)).setLine s (some (line.copied data))) := by
  have shows := tracks.rel.shows s line here
  have next :
    (fun line => if (t.turn (.stored s data)).fits data then line.store data else none) line =
      some (line.copied data) := by
    have empty : line.pending = none := by rw [shows.pending, unsent]; rfl
    simp [fits_of_room tracks here room, Line.store, empty, owed, ← shows.awaiting, free,
      shows.live, Line.copied]
  refine tracks.move (Or.inr tracks.paid) rfl here next { shows with pending := ?_ }
  have taken := take_memcpy (w.streams s).txData 0 data (Nat.zero_le _)
  rw [Nat.zero_add, List.take_zero, List.nil_append] at taken
  simp [Line.copied, Stream.txBytes, taken]

theorem Steady.of_setLine {line₁ line₂ : Line} (host : u.host = t.host)
    (lines : u.lines = Function.update t.lines s (some line₁)) (here : t.lines s = some line)
    (settled : line.owed = none → line₂.owed = none)
    (announced : line₂.announced = line.announced) :
    Steady t (u.setLine s (some line₂)) := by
  refine Steady.of_update host here ?_ settled announced
  rw [Session.setLine, lines, Function.update_idem]

private theorem tracks_write_done {line₁ : Line} (tracks : Tracks w u) (host : u.host = t.host)
    (lines : u.lines = Function.update t.lines s (some line₁)) (here : t.lines s = some line)
    (owed : line₁.owed = some data) (announced : line₁.announced = line.announced) :
    ∃ v, Tracks (w.note (.write s data 0)) v ∧ Steady t v := by
  have now : u.lines s = some line₁ := by rw [lines, Function.update_self]
  have next : line₁.wrote data 0 =
      some { line₁ with owed := none, written := line₁.written ++ [data] } := by
    simp [Line.wrote, owed]
  exact ⟨_, tracks.mark (e := .write s data 0) (Or.inr tracks.paid) rfl now next
    { tracks.rel.shows s line₁ now with }, .of_setLine host lines here (fun _ => rfl) announced⟩

private theorem tracks_write_undone {ret : Int} {line₁ : Line} (tracks : Tracks w u)
    (host : u.host = t.host) (lines : u.lines = Function.update t.lines s (some line₁))
    (here : t.lines s = some line) (owed : line₁.owed = some data)
    (pending : line₁.pending = some data) (announced : line₁.announced = line.announced)
    (bad : ret ≠ 0) : ∃ v, Tracks ((w.setStream s { w.streams s with
      txPending := false, txLen := 0 }).note (.write s data ret)) v ∧ Steady t v := by
  have now : u.lines s = some line₁ := by rw [lines, Function.update_self]
  have next : line₁.wrote data ret = some { line₁ with owed := none, pending := none } := by
    simp [Line.wrote, owed, pending, bad]
  exact ⟨_, tracks.move (e := .write s data ret) (Or.inr tracks.paid) rfl now next
    { tracks.rel.shows s line₁ now with pending := rfl }, .of_setLine host lines here
    (fun _ => rfl) announced⟩

private theorem tracks_write_flushed (tracks : Tracks w t) (here : t.lines s = some line)
    (owed : line.owed = none) (announced : line.announced = true)
    (room : data.length ≤ webosAdbStreamMaxPayload w) (unsent : (w.streams s).txPending = false)
    (free : (w.streams s).awaitingAck = false) :
    ∃ u, Tracks ((settleWrite s (flushStream env s (w.store s data))).2.note
      (.write s data (settleWrite s (flushStream env s (w.store s data))).1)) u ∧ Steady t u := by
  have stored := tracks_store tracks here owed room unsent free
  have now : (w.store s data).streams s = { w.streams s with
      txData := memcpy (w.streams s).txData 0 data, txLen := data.length, txPending := true } :=
    Function.update_self ..
  have bytes : ((w.store s data).streams s).txBytes = data := by
    have taken := take_memcpy (w.streams s).txData 0 data (Nat.zero_le _)
    rw [Nat.zero_add, List.take_zero, List.nil_append] at taken
    rw [now, Stream.txBytes, taken]
  obtain ⟨u, flushed, host, lines⟩ := tracks_flush_pending env stored (setLine_self _) announced
    (by rw [now]) (by rw [now]; exact free)
  rw [bytes, Session.setLine, turn_lines, Function.update_idem] at lines
  unfold settleWrite
  dsimp only
  split_ifs with flow bad
  · have pressed : (flushStream env s (w.store s data)).1 ≠ 0 := by
      rcases flow with full | busy
      · rw [full]; decide
      · rw [busy]; decide
    rw [if_neg pressed] at lines
    exact tracks_write_done flushed host lines here rfl rfl
  · rw [if_neg bad] at lines
    exact tracks_write_undone flushed host lines here rfl rfl rfl bad
  · rw [if_pos (not_not.mp bad)] at lines
    exact tracks_write_done flushed host lines here rfl rfl

theorem Rel.line_of_used (rel : Rel w t) (used : (w.streams s).used = true) :
    ∃ line, t.lines s = some line := by
  cases here : t.lines s with
  | none =>
    rw [rel.empty s here] at used
    cases used
  | some line => exact ⟨line, rfl⟩

theorem tracks_close_mark (tracks : Tracks w t) (here : t.lines s = some line) :
    Tracks ((w.setStream s { w.streams s with closePending := true }).note (.close s))
      ((t.turn (.close s)).setLine s (some { line with closing := true })) :=
  tracks.move (Or.inr tracks.paid) rfl here rfl
    { tracks.rel.shows s line here with closing := rfl }

def Session.Returned (t : Session cfg) : Prop := ∀ s line, t.lines s = some line → line.owed = none

def Session.Announced (t : Session cfg) : Prop :=
  ∀ s line, t.lines s = some line → line.announced = true

theorem tracks_streamWriteLocked (stream : Option (Slot cfg)) (generation : UInt32)
    (data : List UInt8) (tracks : Tracks w t) (returned : t.Returned)
    (announced : w.dispatching = false → t.Announced) :
    ∃ u, Tracks (streamWriteLocked env stream generation data w).2 u ∧ Steady t u := by
  cases stream with
  | none => exact ⟨t, tracks, .refl t⟩
  | some s =>
    have refused (ret : Int) (bad : ret ≠ 0) :
        ∃ u, Tracks (w.note (.write s data ret)) u ∧ Steady t u :=
      tracks_write_refused tracks returned bad
    unfold streamWriteLocked storeWrite
    dsimp only
    split_ifs with stale long busy dispatching
    · exact refused (-EINVAL) (by decide)
    · exact refused (-EMSGSIZE) (by decide)
    · exact refused (-EBUSY) (by decide)
    all_goals
      simp only [Bool.or_eq_true, Bool.not_eq_true', not_or, Bool.not_eq_false] at stale
      simp only [Bool.or_eq_true, not_or, Bool.not_eq_true] at busy
      obtain ⟨line, here⟩ := tracks.rel.line_of_used stale.1
    · have stored := tracks_store tracks here (returned s line here)
        (Nat.not_lt.mp long) busy.1 busy.2
      exact tracks_write_done stored rfl rfl here rfl rfl
    · exact tracks_write_flushed env tracks here (returned s line here)
        (announced (Bool.not_eq_true _ ▸ dispatching) s line here)
          (Nat.not_lt.mp long) busy.1 busy.2

theorem tracks_streamCloseLocked_dispatching (stream : Option (Slot cfg)) (generation : UInt32)
    (tracks : Tracks w t) (dispatching : w.dispatching = true) :
    ∃ u, Tracks (streamCloseLocked env stream generation w) u ∧ Steady t u := by
  cases stream with
  | none => exact ⟨t, tracks, .refl t⟩
  | some s =>
    unfold streamCloseLocked
    dsimp only
    split_ifs with used flag
    · simp only [Bool.and_eq_true] at used
      obtain ⟨line, here⟩ := tracks.rel.line_of_used used.1
      exact ⟨_, tracks_close_mark tracks here, Steady.of_update rfl here rfl (fun owed => owed) rfl⟩
    · exact absurd dispatching flag
    · exact ⟨t, tracks, .refl t⟩

end Lines

end Webos.Adb
