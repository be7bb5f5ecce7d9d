/- digest: What an accepted record says about one stream incarnation and about the controls. -/

import Webos.Adb.Session.Machine

namespace Webos.Adb

open Webos.Lib.Monitor

variable {cfg : Config} {t u : Session cfg} {s : Slot cfg}

structure Line.Follows (s : Slot cfg) (log : List (Event cfg)) (line line' : Line) : Prop where
  localId : line'.localId = line.localId
  remoteId : line'.remoteId = line.remoteId
  written : line'.written = line.written ++ log.filterMap (Event.writtenOn s)
  sent : line'.sent = line.sent ++ log.filterMap (Event.sentOn s)
  failed : .writeFailed s ∉ log → line'.failed = line.failed
  hostClosed : .hostClose s ∉ log → line'.hostClosed = line.hostClosed
  awaiting : line.awaiting = true → .ready s ∉ log → .writeFailed s ∉ log → line'.awaiting = true
  announced : line'.announced = true → .okay s ∉ log → line.announced = true

theorem Line.Follows.refl (s : Slot cfg) (line : Line) : line.Follows s [] line :=
  ⟨rfl, rfl, (List.append_nil _).symm, (List.append_nil _).symm, fun _ => rfl, fun _ => rfl,
    fun on _ _ => on, fun on _ => on⟩

private theorem filterMap_cons_toList {α β : Type} (f : α → Option β) (a : α) (rest : List α) :
    (a :: rest).filterMap f = (f a).toList ++ rest.filterMap f := by
  cases eq : f a <;> simp [eq]

variable {log : List (Event cfg)}

theorem Line.Follows.cons {e : Event cfg} {line line' line'' : Line} (first : line.Moves s e line')
    (rest : line'.Follows s log line'') : line.Follows s (e :: log) line''  where
  localId := rest.localId.trans first.localId
  remoteId := rest.remoteId.trans first.remoteId
  written := by rw [rest.written, first.written, filterMap_cons_toList, List.append_assoc]
  sent := by rw [rest.sent, first.sent, filterMap_cons_toList, List.append_assoc]
  failed := fun clean => by
    rw [List.mem_cons, not_or] at clean
    exact (rest.failed clean.2).trans (first.failed (Ne.symm clean.1))
  hostClosed := fun clean => by
    rw [List.mem_cons, not_or] at clean
    exact (rest.hostClosed clean.2).trans (first.hostClosed (Ne.symm clean.1))
  awaiting := fun on unready sound => by
    rw [List.mem_cons, not_or] at unready sound
    exact rest.awaiting (first.awaiting on (Ne.symm unready.1) (Ne.symm sound.1)) unready.2 sound.2
  announced := fun on silent => by
    rw [List.mem_cons, not_or] at silent
    exact first.announced (rest.announced on silent.2) (Ne.symm silent.1)

theorem run_line {line : Line} (run : accepts Session.step t log = some u)
    (here : t.lines s = some line) (alive : .released s ∉ log) :
    ∃ line', u.lines s = some line' ∧ line.Follows s log line' := by
  induction log generalizing t line with
  | nil =>
    cases run
    exact ⟨line, here, .refl s line⟩
  | cons e log ih =>
    rw [List.mem_cons, not_or] at alive
    obtain ⟨v, allowed, rest⟩ := accepts_cons run
    obtain ⟨line', next, moves⟩ := step_line allowed here (Ne.symm alive.1)
    obtain ⟨line'', final, follows⟩ := ih rest next alive.2
    exact ⟨line'', final, .cons moves follows⟩

theorem opened_line {localId remoteId : UInt32}
    (opened : t.step (.allocated s localId remoteId) = some u) :
    u.lines s = some (.fresh localId remoteId) ∧ u.direct = none ∧ localId ≠ 0 := by
  have acted := (act_of_step opened).2
  simp only [Session.act, Session.opened] at acted
  split_ifs at acted with ready
  cases acted
  exact ⟨setLine_self _, ready.2.2.1, ready.2.2.2⟩

theorem released_line (allowed : t.step (.released s) = some u) : u.lines s = none := by
  have acted := (act_of_step allowed).2
  simp only [Session.act, Session.released] at acted
  split at acted
  · split_ifs at acted
    cases acted
    exact setLine_self _
  · cases acted

theorem accepts_middle {rest : List (Event cfg)} {e : Event cfg}
    (run : accepts Session.step t (log ++ e :: rest) = some u) :
    ∃ v v', accepts Session.step t log = some v ∧ v.step e = some v' ∧
      accepts Session.step v' rest = some u := by
  obtain ⟨v, before, after⟩ := accepts_split run
  obtain ⟨v', allowed, rest⟩ := accepts_cons after
  exact ⟨v, v', before, allowed, rest⟩

section Incarnation

variable {pre mid : List (Event cfg)} {localId remoteId : UInt32}

theorem incarnation_line
    (run : Recorded (pre ++ .allocated s localId remoteId :: mid) u) (alive : .released s ∉ mid) :
    ∃ line, u.lines s = some line ∧ (Line.fresh localId remoteId).Follows s mid line := by
  obtain ⟨v, v', -, opened, rest⟩ := accepts_middle run
  exact run_line rest (opened_line opened).1 alive

theorem incarnation_balanced
    (run : Recorded (pre ++ .allocated s localId remoteId :: mid) u) (alive : .released s ∉ mid)
    (sound : .writeFailed s ∉ mid) :
    ∃ line, u.lines s = some line ∧ mid.filterMap (Event.writtenOn s) ++ line.owed.toList =
      mid.filterMap (Event.sentOn s) ++ line.pending.toList := by
  obtain ⟨line, here, follows⟩ := incarnation_line run alive
  have balanced := ((accepts_inv run).lines s line here).balanced (follows.failed sound)
  rw [follows.written, follows.sent] at balanced
  exact ⟨line, here, balanced⟩

theorem transmit_cases {data : List UInt8} {answer : Int} {v v' : Session cfg}
    (allowed : v.step (.wrte s data answer) = some v') : v.idle ∧
      ∃ line line', v.lines s = some line ∧ v'.lines s = some line' ∧ line.pending = some data ∧
        line.awaiting = false ∧ line.closed = false ∧ line.announced = true ∧
        (answer = 0 → line'.awaiting = true) ∧
        (v.due = some ⟨⟨ADB_COMMAND_WRTE, line.localId, line.remoteId, data⟩, answer, false⟩ ∨
          answer ≠ 0 ∧ Owed.cleared v.due = true) := by
  obtain ⟨line, line', here, next, rfl⟩ := onLine_cases (act_of_step allowed).2
  split_ifs at next with idle
  unfold Line.transmit at next
  split_ifs at next with guard ok
  all_goals
    cases next
    obtain ⟨⟨pending, free, live, announced⟩, due⟩ := guard
    rw [Bool.not_eq_true'] at free live
    refine ⟨idle, line, _, here, setLine_self _, pending, free, live, announced,
      fun zero => ?_, due⟩
  · rfl
  · exact absurd zero ok

theorem announce_cases (allowed : t.step (.okay s) = some u) :
    ∃ line owed, t.lines s = some line ∧ line.closed = false ∧ t.due = some owed ∧
      owed.packet = ⟨ADB_COMMAND_OKAY, line.localId, line.remoteId, []⟩ := by
  obtain ⟨line, line', here, next, -⟩ := onLine_cases (act_of_step allowed).2
  unfold Line.announce at next
  split_ifs at next with guard
  rw [Bool.not_eq_true', Option.map_eq_some_iff] at guard
  obtain ⟨live, owed, due, packet⟩ := guard
  exact ⟨line, owed, here, live, due, packet⟩

theorem incarnation_alternates {a b c : List (Event cfg)} {data data' : List UInt8}
    (run : Recorded (a ++ .wrte s data 0 :: (b ++ .wrte s data' 0 :: c)) u)
    (alive : .released s ∉ b) (sound : .writeFailed s ∉ b) : .ready s ∈ b := by
  obtain ⟨v, v', -, first, rest⟩ := accepts_middle run
  obtain ⟨w, w', between, second, -⟩ := accepts_middle rest
  obtain ⟨-, line, line', -, here, -, -, -, -, waits, -⟩ := transmit_cases first
  obtain ⟨line₂, now, follows⟩ := run_line between here alive
  obtain ⟨-, line₃, -, now', -, -, free, -⟩ := transmit_cases second
  obtain rfl : line₂ = line₃ := Option.some.inj (now.symm.trans now')
  by_contra unready
  have still := follows.awaiting (waits rfl) unready sound
  rw [free] at still
  cases still

end Incarnation

section Controls

def Event.host (e : Event cfg) (host : Option UInt32) : Option UInt32 :=
  match e with
  | .connect limit => some limit
  | .reset => none
  | _ => host

def Event.accept (e : Event cfg) (list : List Packet) : List Packet :=
  match e with
  | .accepted p => list ++ [p]
  | .connect _ | .reset => []
  | _ => list

def Event.hand (e : Event cfg) (list : List Packet) : List Packet :=
  match e with
  | .send p answer => if p.command ≠ ADB_COMMAND_WRTE ∧ answer = 0 then list ++ [p] else list
  | .connect _ | .reset => []
  | _ => list

def hostLimit (log : List (Event cfg)) : Option UInt32 :=
  log.foldl (fun host e => e.host host) none

def acceptedControls (log : List (Event cfg)) : List Packet :=
  log.foldl (fun list e => e.accept list) []

def handedControls (log : List (Event cfg)) : List Packet :=
  log.foldl (fun list e => e.hand list) []

variable {e : Event cfg}

private theorem move_account {due : Option Owed} {move : Slot cfg × (Line → Option Line)}
    (moves : t.move due e = some move)
    (host : Option UInt32) (list : List Packet) :
    e.host host = host ∧ e.accept list = list ∧ e.hand list = list := by
  cases e <;> first | exact ⟨rfl, rfl, rfl⟩ | cases moves

private theorem neutral_account (neutral : e.neutral = true) (host : Option UInt32)
    (list : List Packet) : e.host host = host ∧ e.accept list = list ∧ e.hand list = list := by
  cases e <;> first | exact ⟨rfl, rfl, rfl⟩ | cases neutral

theorem step_account (allowed : t.step e = some u) :
    u.host = e.host t.host ∧ u.accepted = e.accept t.accepted ∧ u.handed = e.hand t.handed := by
  cases step_cases allowed with
  | still _ neutral =>
    have accepted := neutral_account neutral t.host t.accepted
    have handed := neutral_account neutral t.host t.handed
    exact ⟨accepted.1.symm, accepted.2.1.symm, handed.2.2.symm⟩
  | line _ s move line line' moves here next =>
    have accepted := move_account moves t.host t.accepted
    have handed := move_account moves t.host t.handed
    exact ⟨accepted.1.symm, accepted.2.1.symm, handed.2.2.symm⟩
  | passed p answer why =>
    have refused : ¬(p.command ≠ ADB_COMMAND_WRTE ∧ answer = 0) := fun taken =>
      why.elim (fun data => taken.1 data.1) fun control => control.2 taken.2
    exact ⟨rfl, rfl, (if_neg refused).symm⟩
  | direct p control free empty => exact ⟨rfl, rfl, (if_pos ⟨control, rfl⟩).symm⟩
  | front p rest control free queue => exact ⟨rfl, rfl, (if_pos ⟨control, rfl⟩).symm⟩
  | clear _ host kind gone direct =>
    rcases kind with ⟨limit, rfl, rfl⟩ | ⟨rfl, rfl⟩ <;> exact ⟨rfl, rfl, rfl⟩
  | _ => exact ⟨rfl, rfl, rfl⟩

variable {log : List (Event cfg)}

theorem accepts_account (run : Recorded log u) :
    u.host = hostLimit log ∧ u.accepted = acceptedControls log ∧ u.handed = handedControls log := by
  refine accepts_invariant (fun log u => u.host = hostLimit log ∧ u.accepted =
    acceptedControls log ∧
    u.handed = handedControls log) ⟨rfl, rfl, rfl⟩ ?_ run
  rintro log t e u ⟨host, accepted, handed⟩ allowed
  simp only [hostLimit, acceptedControls, handedControls, List.foldl_append, List.foldl_cons,
    List.foldl_nil] at host accepted handed ⊢
  rw [← host, ← accepted, ← handed]
  exact step_account allowed

def Event.acceptedControl : Event cfg → Option Packet
  | .accepted p => some p
  | _ => none

end Controls

section Closing

theorem finish_cases {v v' : Session cfg} (allowed : v.step (.clse s) = some v') :
    ∃ line line', v.lines s = some line ∧ v'.lines s = some line' ∧ line.owed = none ∧
      (line.hostClosed = false → line.pending = none ∧ line.awaiting = false) ∧
      line'.closed = true ∧ line.closed = false ∧ ∃ owed, v.due = some owed ∧
        owed.packet = ⟨ADB_COMMAND_CLSE, line.localId, line.remoteId, []⟩ := by
  obtain ⟨line, line', here, next, rfl⟩ := onLine_cases (act_of_step allowed).2
  unfold Line.finish at next
  split_ifs at next with guard
  cases next
  rw [Bool.not_eq_true', Option.map_eq_some_iff, Option.isNone_iff_eq_none] at guard
  obtain ⟨live, due, owed, why⟩ := guard
  refine ⟨line, _, here, setLine_self _, owed, fun ours => ?_, rfl, live, due⟩
  rcases why with theirs | ⟨-, pending, free⟩
  · rw [ours] at theirs
    cases theirs
  · rw [Bool.not_eq_true'] at free
    exact ⟨Option.isNone_iff_eq_none.mp pending, free⟩

def Event.onBehalf (s : Slot cfg) : Event cfg → Bool
  | .okay s' | .clse s' => s' == s
  | .wrte s' _ _ => s' == s
  | .write s' _ ret => s' == s && ret == 0
  | _ => false

def Session.Finished (t : Session cfg) (s : Slot cfg) : Prop :=
  ∀ line, t.lines s = some line → line.closed = true

private theorem finished_silent {e : Event cfg} (inv : t.Inv) (finished : t.Finished s)
    (allowed : t.step e = some u) : e.onBehalf s = false := by
  cases e with
  | okay s' =>
    obtain ⟨line, -, here, live, -⟩ := announce_cases allowed
    refine beq_eq_false_iff_ne.mpr fun same => ?_
    cases (finished line (same ▸ here)).symm.trans live
  | clse s' =>
    obtain ⟨line, -, here, -, -, -, -, live, -⟩ := finish_cases allowed
    refine beq_eq_false_iff_ne.mpr fun same => ?_
    cases (finished line (same ▸ here)).symm.trans live
  | wrte s' data answer =>
    obtain ⟨-, line, -, here, -, -, -, live, -⟩ := transmit_cases allowed
    refine beq_eq_false_iff_ne.mpr fun same => ?_
    cases (finished line (same ▸ here)).symm.trans live
  | write s' data ret =>
    by_cases mine : s' = s ∧ ret = 0
    · obtain ⟨rfl, rfl⟩ := mine
      have acted := (act_of_step allowed).2
      simp only [Session.act, ne_eq, not_true_eq_false, and_false, ↓reduceIte] at acted
      obtain ⟨line, line', here, next, -⟩ := onLine_cases acted
      have owed := (inv.lines s' line here).returned (finished line here)
      unfold Line.wrote at next
      rw [owed] at next
      cases next
    · simpa [Event.onBehalf] using mine
  | _ => rfl

private theorem finished_step {e : Event cfg} (finished : t.Finished s)
    (allowed : t.step e = some u) (same : ∀ localId remoteId, e ≠ .allocated s localId remoteId) :
    u.Finished s := by
  cases before : t.lines s with
  | some line =>
    by_cases gone : e = .released s
    · subst gone
      intro line' present
      cases (released_line allowed).symm.trans present
    · obtain ⟨line', after, moves⟩ := step_line allowed before gone
      intro line'' present
      obtain rfl : line' = line'' := Option.some.inj (after.symm.trans present)
      exact moves.closed (finished line before)
  | none =>
    intro line present
    rw [step_absent allowed before same] at present
    cases present

theorem finished_run {log : List (Event cfg)} (inv : t.Inv) (finished : t.Finished s)
    (run : accepts Session.step t log = some u)
    (same : ∀ localId remoteId, .allocated s localId remoteId ∉ log) :
    ∀ e ∈ log, e.onBehalf s = false := by
  induction log generalizing t with
  | nil => exact fun e member => absurd member List.not_mem_nil
  | cons e log ih =>
    obtain ⟨v, allowed, rest⟩ := accepts_cons run
    have fresh (localId remoteId : UInt32) : e ≠ .allocated s localId remoteId := fun eq =>
      same localId remoteId (eq ▸ List.mem_cons_self)
    intro e' member
    rcases List.mem_cons.mp member with rfl | later
    · exact finished_silent inv finished allowed
    · exact ih (step_inv inv allowed) (finished_step finished allowed fresh) rest
        (fun localId remoteId here => same localId remoteId (List.mem_cons_of_mem e here)) e' later

end Closing

end Webos.Adb
