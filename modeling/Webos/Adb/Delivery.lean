/- digest: Stop-and-wait delivery, deferred close and control order for every run of the router. -/

import Webos.Adb.Framing
import Webos.Adb.Router.Ids
import Webos.Adb.Router.Sessions
import Webos.Adb.Session.Ties

namespace Webos.Adb

open Webos.Lib.RingQueue Webos.Lib.Monitor

variable {cfg : Config} {σ π : Type} (env : Env cfg σ π)
variable {w : World cfg σ π} {s : Slot cfg} {localId remoteId : UInt32}

/-- The host connects, opens a stream, is sent two writes, acknowledges both; the service closes. -/
def sampleRun : List (Input Config.project) :=
  [.receive (Packet.wire ⟨ADB_COMMAND_CNXN, 16777217, 4096, []⟩),
    .receive (Packet.wire ⟨ADB_COMMAND_OPEN, 5, 0, ascii "sync:" ++ [0]⟩),
    .streamWrite (some firstSlot) [1],
    .receive (Packet.wire ⟨ADB_COMMAND_OKAY, 5, 1, []⟩),
    .streamWrite (some firstSlot) [2, 3],
    .streamClose (some firstSlot),
    .receive (Packet.wire ⟨ADB_COMMAND_OKAY, 5, 1, []⟩)]

def sampleWorld : World Config.project Unit Unit :=
  World.inputs (Env.ideal Config.project)
    (protocolResetUnlocked (Env.ideal Config.project) (World.boot Config.project () ())) sampleRun

theorem sampleWorld_reachable : Reachable (Env.ideal Config.project) sampleWorld :=
  ⟨(), (), sampleRun, rfl⟩

section Parts

variable {t u : Session cfg} {pre mid post : List (Event cfg)}

private theorem released_returned (allowed : t.step (.released s) = some u) {line : Line}
    (here : t.lines s = some line) : line.owed = none := by
  cases step_cases allowed with
  | still _ neutral => cases neutral
  | line _ s' move line₀ line' moves before next => cases moves
  | released _ line₀ before owed =>
    obtain rfl : line₀ = line := Option.some.inj (before.symm.trans here)
    exact owed
  | clear _ host kind gone direct => cases (gone s).symm.trans here

private theorem failed_returned (allowed : t.step (.writeFailed s) = some u) {line : Line}
    (here : t.lines s = some line) : line.owed = none := by
  obtain ⟨line₀, line', before, next, -⟩ := onLine_cases (act_of_step allowed).2
  obtain rfl : line₀ = line := Option.some.inj (before.symm.trans here)
  unfold Line.abort at next
  split_ifs at next with owed
  exact Option.isNone_iff_eq_none.mp owed

private theorem balanced_or_behind
    (run : Recorded (pre ++ .allocated s localId remoteId :: mid) u) (alive : .released s ∉ mid)
    (sound : .writeFailed s ∉ mid)
    (returned : ∀ line, u.lines s = some line → line.owed = none) :
    mid.filterMap (Event.writtenOn s) = mid.filterMap (Event.sentOn s) ∨
      ∃ data, mid.filterMap (Event.writtenOn s) = mid.filterMap (Event.sentOn s) ++ [data] := by
  obtain ⟨line, here, balanced⟩ := incarnation_balanced run alive sound
  rw [returned line here, Option.toList_none, List.append_nil] at balanced
  cases pending : line.pending with
  | none =>
    rw [pending, Option.toList_none, List.append_nil] at balanced
    exact Or.inl balanced
  | some data =>
    rw [pending] at balanced
    exact Or.inr ⟨data, balanced⟩

private theorem transmit_fits {data : List UInt8} {answer : Int}
    (run : Recorded (pre ++ .wrte s data answer :: post) u) :
    ∃ limit, hostLimit pre = some limit ∧
      data.length ≤ min limit.toNat (min cfg.maxPayload cfg.txPayloadSize) := by
  obtain ⟨v, v', before, allowed, -⟩ := accepts_middle run
  obtain ⟨-, line, -, here, -, pending, -⟩ := transmit_cases allowed
  have fits := ((accepts_inv before).lines s line here).fits data pending
  unfold Session.fits at fits
  rw [← (accepts_account before).1]
  cases host : v.host with
  | none => rw [host] at fits; cases fits
  | some limit =>
    rw [host] at fits
    exact ⟨limit, rfl, of_decide_eq_true fits⟩

end Parts

/-- What leaves is named by the next event as the packet of a living stream with its ids. Only an
OKAY with an id drawn for no stream and a CLSE with the id zero answer for none. -/
structure Named (log : List (Event cfg)) : Prop where
  data : ∀ pre p answer post, log = pre ++ .send p answer :: post → p.command = ADB_COMMAND_WRTE →
    ∃ s rest, post = .wrte s p.payload answer :: rest ∧ Lives pre s p.arg0 p.arg1
  okay : ∀ pre p post, log = pre ++ .accepted p :: post → p.command = ADB_COMMAND_OKAY →
    (∃ s rest, post = .okay s :: rest ∧ Lives pre s p.arg0 p.arg1) ∨
      ∃ a b, pre = a ++ .drawn p.arg0 :: b ∧ ∀ s l r, .allocated s l r ∉ b
  close : ∀ pre p post, log = pre ++ .accepted p :: post → p.command = ADB_COMMAND_CLSE →
    (∃ s rest, post = .clse s :: rest ∧ Lives pre s p.arg0 p.arg1) ∨ p.arg0 = 0

theorem Tracks.named {t : Session cfg} (tracks : Tracks w t) : Named w.log := by
  have run := tracks.log
  refine ⟨fun pre p answer post log => ?_, fun pre p post log okay => ?_, fun pre p post log => ?_⟩
  · rw [log] at run
    exact data_named run tracks.paid
  · rw [log] at run
    rcases okay_named run tracks.paid okay with named | ⟨v, before, spare⟩
    · exact Or.inl named
    · exact Or.inr (spare_drawn before spare)
  · rw [log] at run
    exact close_named run tracks.paid

section Wire

variable {u : Session cfg} {pre mid post : List (Event cfg)}

private theorem snoc_of_incarnation {e : Event cfg} {before : List (Event cfg)}
    (same : pre ++ .allocated s localId remoteId :: mid = before ++ [e])
    (other : e ≠ .allocated s localId remoteId) : ∃ a, mid = a ++ [e] := by
  rcases List.eq_nil_or_concat mid with rfl | ⟨a, last, rfl⟩
  · exact absurd (List.singleton_inj.mp (List.append_inj_right' same rfl)).symm other
  · rw [List.concat_eq_append, ← List.cons_append, ← List.append_assoc] at same
    exact ⟨a, by rw [List.concat_eq_append, List.append_inj_right' same rfl]⟩

private theorem incarnation_data {data : List UInt8}
    (run : Recorded (pre ++ .allocated s localId remoteId :: (mid ++ .wrte s data 0 :: post)) u)
    (alive : .released s ∉ mid) :
    ∃ a, mid = a ++ [.send ⟨ADB_COMMAND_WRTE, localId, remoteId, data⟩ 0] := by
  rw [← List.cons_append, ← List.append_assoc] at run
  obtain ⟨v, v', before, allowed, -⟩ := accepts_middle run
  obtain ⟨line, here, follows⟩ := incarnation_line before alive
  obtain ⟨line', before', here', split⟩ := data_sent before allowed
  obtain rfl : line = line' := Option.some.inj (here.symm.trans here')
  rw [follows.localId, follows.remoteId] at split
  exact snoc_of_incarnation split (by simp)

end Wire

/-- Exactly-once, in-order, stop-and-wait delivery: up to its release or a failing write callback,
what a stream transmits are its accepted writes or all but the last one, acknowledged one by one and
within the limits of the host and the build. The transmissions are the WRTE packets with the ids of
the stream that the transport took, and no WRTE is sent but for a stream with its ids. -/
theorem stream_delivery (reachable : Reachable env w) {pre mid post : List (Event cfg)}
    (log : w.log = pre ++ .allocated s localId remoteId :: (mid ++ post))
    (alive : .released s ∉ mid) (sound : .writeFailed s ∉ mid)
    (ends : post = [] ∨ ∃ rest, post = .released s :: rest ∨ post = .writeFailed s :: rest) :
    (mid.filterMap (Event.writtenOn s) = mid.filterMap (Event.sentOn s) ∨
      ∃ data, mid.filterMap (Event.writtenOn s) = mid.filterMap (Event.sentOn s) ++ [data]) ∧
    (∀ a b c data data', mid = a ++ .wrte s data 0 :: (b ++ .wrte s data' 0 :: c) → .ready s ∈ b) ∧
    (∀ a data b, mid = a ++ .wrte s data 0 :: b →
      ∃ limit, hostLimit (pre ++ .allocated s localId remoteId :: a) = some limit ∧
        data.length ≤ min limit.toNat (min cfg.maxPayload cfg.txPayloadSize)) ∧
    (∀ a data b, mid = a ++ .wrte s data 0 :: b →
      ∃ before, a = before ++ [.send ⟨ADB_COMMAND_WRTE, localId, remoteId, data⟩ 0]) ∧
    (∀ a p answer b, w.log = a ++ .send p answer :: b → p.command = ADB_COMMAND_WRTE →
      ∃ s' rest, b = .wrte s' p.payload answer :: rest ∧ Lives a s' p.arg0 p.arg1) := by
  obtain ⟨t, tracks, settled⟩ := reachable_tracks env reachable
  have run := tracks.log
  rw [log] at run
  refine ⟨?_, fun a b c data data' split => ?_, fun a data b split => ?_, fun a data b split => ?_,
    tracks.named.data⟩
  · rcases ends with rfl | ⟨rest, rfl | rfl⟩
    · rw [List.append_nil] at run
      exact balanced_or_behind run alive sound (settled.returned s)
    · rw [← List.cons_append, ← List.append_assoc] at run
      obtain ⟨v, v', before, allowed, -⟩ := accepts_middle run
      exact balanced_or_behind before alive sound fun _ => released_returned allowed
    · rw [← List.cons_append, ← List.append_assoc] at run
      obtain ⟨v, v', before, allowed, -⟩ := accepts_middle run
      exact balanced_or_behind before alive sound fun _ => failed_returned allowed
  · subst split
    have inside {e : Event cfg} (absent : e ∉ a ++ .wrte s data 0 :: (b ++ .wrte s data' 0 :: c)) :
        e ∉ b := fun member => absent (by simp [member])
    have shape : pre ++ .allocated s localId remoteId ::
        ((a ++ .wrte s data 0 :: (b ++ .wrte s data' 0 :: c)) ++ post) =
        (pre ++ .allocated s localId remoteId :: a) ++
          .wrte s data 0 :: (b ++ .wrte s data' 0 :: (c ++ post)) := by simp
    rw [shape] at run
    exact incarnation_alternates run (inside alive) (inside sound)
  · subst split
    have shape : pre ++ .allocated s localId remoteId :: ((a ++ .wrte s data 0 :: b) ++ post) =
        (pre ++ .allocated s localId remoteId :: a) ++ .wrte s data 0 :: (b ++ post) := by simp
    rw [shape] at run
    exact transmit_fits run
  · subst split
    rw [List.append_assoc, List.cons_append] at run
    exact incarnation_data run fun member => alive (List.mem_append_left _ member)

theorem stream_delivery_two_writes :
    let s := firstSlot
    let mid := (sampleWorld.log.drop 8).take 19
    (mid.filterMap (Event.writtenOn s) = [[1], [2, 3]] ∧
      mid.filterMap (Event.sentOn s) = [[1], [2, 3]]) ∧
    (mid.filterMap (Event.writtenOn s) = mid.filterMap (Event.sentOn s) ∨
      ∃ data, mid.filterMap (Event.writtenOn s) = mid.filterMap (Event.sentOn s) ++ [data]) ∧
    (∀ a b c data data', mid = a ++ .wrte s data 0 :: (b ++ .wrte s data' 0 :: c) → .ready s ∈ b) ∧
    (∀ a data b, mid = a ++ .wrte s data 0 :: b →
      ∃ limit, hostLimit (sampleWorld.log.take 7 ++ .allocated s 1 5 :: a) = some limit ∧
        data.length ≤ min limit.toNat (min 4096 512)) ∧
    (∀ a data b, mid = a ++ .wrte s data 0 :: b →
      ∃ before, a = before ++ [.send ⟨ADB_COMMAND_WRTE, 1, 5, data⟩ 0]) ∧
    (∀ a p answer b, sampleWorld.log = a ++ .send p answer :: b → p.command = ADB_COMMAND_WRTE →
      ∃ s' rest, b = .wrte s' p.payload answer :: rest ∧ Lives a s' p.arg0 p.arg1) := by
  intro s mid
  have log : sampleWorld.log =
      sampleWorld.log.take 7 ++ .allocated s 1 5 :: (mid ++ sampleWorld.log.drop 27) := by
    decide +kernel
  refine ⟨by decide +kernel, ?_⟩
  exact stream_delivery (Env.ideal Config.project) sampleWorld_reachable log (by decide +kernel)
    (by decide +kernel) (Or.inr ⟨sampleWorld.log.drop 28, Or.inl (by decide +kernel)⟩)

section Closing

variable {t u : Session cfg} {pre mid post : List (Event cfg)}

private theorem run_absent (run : accepts Session.step t mid = some u) (absent : t.lines s = none)
    (same : ∀ localId remoteId, .allocated s localId remoteId ∉ mid) : u.lines s = none := by
  induction mid generalizing t with
  | nil =>
    cases run
    exact absent
  | cons e rest ih =>
    obtain ⟨v, allowed, run⟩ := accepts_cons run
    have gone := step_absent allowed absent fun localId remoteId here =>
      same localId remoteId (by simp [here])
    exact ih run gone fun localId remoteId member => same localId remoteId (.tail e member)

private theorem present_alive {line : Line} (run : accepts Session.step t mid = some u)
    (present : u.lines s = some line)
    (same : ∀ localId remoteId, .allocated s localId remoteId ∉ mid) : .released s ∉ mid := by
  intro member
  obtain ⟨a, b, rfl⟩ := List.append_of_mem member
  obtain ⟨v, v', -, allowed, rest⟩ := accepts_middle run
  have absent := run_absent rest (released_line allowed) fun localId remoteId here =>
    same localId remoteId (by simp [here])
  rw [absent] at present
  cases present

private theorem acknowledged {a b : List (Event cfg)} {data : List UInt8} {line : Line}
    (run : accepts Session.step t (a ++ .wrte s data 0 :: b) = some u)
    (present : u.lines s = some line) (quiet : line.awaiting = false) (alive : .released s ∉ b)
    (sound : .writeFailed s ∉ b) : .ready s ∈ b := by
  obtain ⟨v, v', -, allowed, rest⟩ := accepts_middle run
  obtain ⟨-, -, line₁, -, sent, -, -, -, -, waits, -⟩ := transmit_cases allowed
  obtain ⟨line₂, here, follows⟩ := run_line rest sent alive
  obtain rfl : line₂ = line := Option.some.inj (here.symm.trans present)
  by_contra unread
  have still := follows.awaiting (waits rfl) unread sound
  rw [quiet] at still
  cases still

end Closing

section Finality

variable {t u v : Session cfg} {pre mid post rest : List (Event cfg)}

private theorem silent_after (run : Recorded mid t)
    (closed : t.step (.clse s) = some u) (after : accepts Session.step u post = some v)
    (same : ∀ l r, .allocated s l r ∉ post) : ∀ e ∈ post, e.onBehalf s = false := by
  obtain ⟨-, line', -, final, -, -, shut, -⟩ := finish_cases closed
  have finished : u.Finished s := fun line here => by
    obtain rfl : line' = line := Option.some.inj (final.symm.trans here)
    exact shut
  exact finished_run (step_inv (accepts_inv run) closed) finished after same

/-- What leaves after a CLSE and is named as that of some slot is not that of the closed one. -/
private theorem named_elsewhere {e : Event cfg} {s' : Slot cfg} {a b : List (Event cfg)}
    {name : Event cfg} (run : Recorded mid t)
    (closed : t.step (.clse s) = some u)
    (after : accepts Session.step u (a ++ e :: (name :: b)) = some v)
    (same : ∀ l r, .allocated s l r ∉ a) (own : name.onBehalf s' = true)
    (plain : e.acceptedControl.isSome = true ∨ ∃ p answer, e = .send p answer) : s' ≠ s := by
  rintro rfl
  rw [show a ++ e :: (name :: b) = (a ++ [e, name]) ++ b by simp] at after
  obtain ⟨v', first, -⟩ := accepts_split after
  have silent := silent_after run closed first fun l r member => ?_
  · rw [silent name (by simp)] at own
    cases own
  · rcases List.mem_append.mp member with old | new
    · exact same l r old
    · rcases List.mem_cons.mp new with rfl | last
      · rcases plain with control | ⟨p, answer, sent⟩
        · cases control
        · cases sent
      · rw [← List.mem_singleton.mp last] at own
        cases own

end Finality

/-- Close is deferred and final: the CLSE of an incarnation whose write callbacks did not fail and
that the host did not close comes after every accepted write was sent and acknowledged, and
nothing is issued on behalf of the incarnation after its CLSE. The CLSE and the transmissions are
packets with the ids of the stream. A WRTE, OKAY or CLSE with these ids that comes later is that of
another stream which has them, or an OKAY for no stream whose id was drawn anew. -/
theorem close_deferred_and_final (reachable : Reachable env w)
    {pre mid post rest : List (Event cfg)}
    (log : w.log = pre ++ .allocated s localId remoteId :: (mid ++ .clse s :: (post ++ rest)))
    (same : ∀ l r, .allocated s l r ∉ mid ++ post) :
    (.writeFailed s ∉ mid → .hostClose s ∉ mid →
      mid.filterMap (Event.writtenOn s) = mid.filterMap (Event.sentOn s) ∧
      ∀ a data b, mid = a ++ .wrte s data 0 :: b → .ready s ∈ b) ∧
    (∀ e ∈ post, e.onBehalf s = false) ∧
    (∃ before, mid = before ++ [.accepted ⟨ADB_COMMAND_CLSE, localId, remoteId, []⟩]) ∧
    (∀ a data b, mid = a ++ .wrte s data 0 :: b →
      ∃ before, a = before ++ [.send ⟨ADB_COMMAND_WRTE, localId, remoteId, data⟩ 0]) ∧
    Named w.log ∧
    (∀ a p answer b, post = a ++ .send p answer :: b → p.command = ADB_COMMAND_WRTE →
      p.arg0 = localId → p.arg1 = remoteId →
      ∃ s', s' ≠ s ∧ Lives (pre ++ .allocated s localId remoteId :: (mid ++ .clse s :: a)) s'
        localId remoteId) ∧
    (∀ a p b, post = a ++ .accepted p :: b →
      p.command = ADB_COMMAND_OKAY ∨ p.command = ADB_COMMAND_CLSE →
      p.arg0 = localId → p.arg1 = remoteId → .drawn localId ∈ a ∨
      ∃ s', s' ≠ s ∧ Lives (pre ++ .allocated s localId remoteId :: (mid ++ .clse s :: a)) s'
        localId remoteId) := by
  obtain ⟨t, tracks, -⟩ := reachable_tracks env reachable
  have run := tracks.log
  rw [log] at run
  obtain ⟨v₀, v₁, before, opened, run⟩ := accepts_middle run
  obtain ⟨v₂, v₃, during, closed, run⟩ := accepts_middle run
  obtain ⟨v₄, after, -⟩ := accepts_split run
  obtain ⟨line, line', present, final, owed, idle, -⟩ := finish_cases closed
  have alive := present_alive during present fun l r member =>
    same l r (List.mem_append_left post member)
  have first : Recorded (pre ++ .allocated s localId remoteId :: mid) v₂ :=
    accepts_append before (accepts_append (accepts_one opened) during)
  obtain ⟨line₁, here₁, follows⟩ := incarnation_line first alive
  obtain rfl : line₁ = line := Option.some.inj (here₁.symm.trans present)
  obtain ⟨spare, line₂, earlier, here₂, said⟩ := close_accepted first closed
  obtain rfl : line₁ = line₂ := Option.some.inj (here₁.symm.trans here₂)
  rw [follows.localId, follows.remoteId] at said
  have apart (l r : UInt32) : .allocated s l r ∉ post := fun member =>
    same l r (List.mem_append_right mid member)
  refine ⟨fun sound held => ?_, silent_after first closed after apart,
    snoc_of_incarnation said (by simp), fun a data b split => ?_, tracks.named,
    fun a p answer b split data localId' remoteId' => ?_,
    fun a p b split kind localId' remoteId' => ?_⟩
  · obtain ⟨pending, awaiting⟩ := idle (follows.hostClosed held)
    obtain ⟨line₂, here₂, balanced⟩ := incarnation_balanced first alive sound
    obtain rfl : line₂ = line₁ := Option.some.inj (here₂.symm.trans present)
    rw [owed, pending, Option.toList_none, List.append_nil, List.append_nil] at balanced
    refine ⟨balanced, fun a data b split => ?_⟩
    subst split
    have inside {e : Event cfg} (absent : e ∉ a ++ .wrte s data 0 :: b) : e ∉ b :=
      fun member => absent (by simp [member])
    exact acknowledged during present awaiting (inside alive) (inside sound)
  · subst split
    exact incarnation_data first fun member => alive (List.mem_append_left _ member)
  · subst split
    have here : w.log = (pre ++ .allocated s localId remoteId :: (mid ++ .clse s :: a)) ++
        .send p answer :: (b ++ rest) := by rw [log]; simp
    obtain ⟨s', more, shape, lives⟩ := tracks.named.data _ p answer _ here data
    rw [localId', remoteId'] at lives
    rw [List.append_assoc, List.cons_append, shape] at run
    exact ⟨s', named_elsewhere first closed run (fun l r member => apart l r (by simp [member]))
      (by simp [Event.onBehalf]) (Or.inr ⟨p, answer, rfl⟩), lives⟩
  · subst split
    have here : w.log = (pre ++ .allocated s localId remoteId :: (mid ++ .clse s :: a)) ++
        .accepted p :: (b ++ rest) := by rw [log]; simp
    have quiet (l r : UInt32) : .allocated s l r ∉ a := fun member => apart l r (by simp [member])
    have whole := tracks.log
    rw [here] at whole
    rw [List.append_assoc, List.cons_append] at run
    rcases kind with okay | close
    · rcases okay_named whole tracks.paid okay with ⟨s', more, shape, lives⟩ | ⟨v, reached, drawn⟩
      · rw [localId', remoteId'] at lives
        rw [shape] at run
        exact Or.inr ⟨s', named_elsewhere first closed run quiet (by simp [Event.onBehalf])
          (Or.inl rfl), lives⟩
      · obtain ⟨v', passed, -⟩ := accepts_split run
        have again := accepts_append first (accepts_append (accepts_one closed) passed)
        rw [List.append_assoc, List.cons_append, List.singleton_append] at again
        obtain rfl : v' = v := Option.some.inj (again.symm.trans reached)
        refine Or.inl ((run_spare passed (localId' ▸ drawn)).resolve_left fun kept => ?_)
        rw [(step_owed closed).2] at kept
        cases spare.symm.trans kept
    · have nonzero := (opened_line opened).2.2
      rcases close_named whole tracks.paid close with ⟨s', more, shape, lives⟩ | zero
      · rw [localId', remoteId'] at lives
        rw [shape] at run
        exact Or.inr ⟨s', named_elsewhere first closed run quiet (by simp [Event.onBehalf])
          (Or.inl rfl), lives⟩
      · exact absurd (localId'.symm.trans zero) nonzero

def Event.opens : Event cfg → Bool
  | .allocated _ _ _ => true
  | _ => false

theorem close_deferred_two_writes :
    let s := firstSlot
    let mid := (sampleWorld.log.drop 8).take 18
    mid.filterMap (Event.writtenOn s) = [[1], [2, 3]] ∧
    (mid.filterMap (Event.writtenOn s) = mid.filterMap (Event.sentOn s) ∧
      ∀ a data b, mid = a ++ .wrte s data 0 :: b → .ready s ∈ b) ∧
    (∀ e ∈ sampleWorld.log.drop 27, e.onBehalf s = false) ∧
    ∃ before, mid = before ++ [.accepted ⟨ADB_COMMAND_CLSE, 1, 5, []⟩] := by
  intro s mid
  have log : sampleWorld.log = sampleWorld.log.take 7 ++ .allocated s 1 5 ::
      (mid ++ .clse s :: (sampleWorld.log.drop 27 ++ [])) := by decide +kernel
  have once : (mid ++ sampleWorld.log.drop 27).all (fun e => !e.opens) = true := by decide +kernel
  have closed := close_deferred_and_final (Env.ideal Config.project) sampleWorld_reachable log
    fun l r member => absurd (List.all_eq_true.mp once _ member) Bool.false_ne_true
  exact ⟨by decide +kernel, closed.1 (by decide +kernel) (by decide +kernel), closed.2.1,
    closed.2.2.1⟩

section Order

variable {t u : Session cfg} {pre mid post : List (Event cfg)}

end Order

end Webos.Adb
