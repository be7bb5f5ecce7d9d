/- digest: The abstract session a router record follows: one FIFO of controls, one slot a line. -/

import Webos.Adb.Router.State
import Webos.Lib.Monitor

namespace Webos.Adb

open Webos.Lib.Monitor

variable {cfg : Config}

/-- A stream as its peer sees it, with what was written to it and sent for it so far. A write
between the copy and its return is `owed` to its caller. -/
structure Line where
  localId : UInt32
  remoteId : UInt32
  pending : Option (List UInt8)
  owed : Option (List UInt8)
  awaiting : Bool
  closing : Bool
  announced : Bool
  closed : Bool
  hostClosed : Bool
  failed : Bool
  written : List (List UInt8)
  sent : List (List UInt8)

def Line.fresh (localId remoteId : UInt32) : Line :=
  ⟨localId, remoteId, none, none, false, false, false, false, false, false, [], []⟩

/-- Data that was sent or a control that was accepted, whose stream the next event names. A packet
that answers for no stream is excused. -/
structure Owed where
  packet : Packet
  answer : Int
  excused : Bool
  deriving DecidableEq

/-- The session: lines, the queue of controls not yet handed over, a control handed over whose
acceptance is still to be recorded, what the next event has to name, an id that was drawn and
given to no stream, the limit of the host's CNXN and the controls accepted and handed over since
the queue was last emptied. -/
structure Session (cfg : Config) where
  lines : Slot cfg → Option Line
  queue : List Packet
  direct : Option Packet
  due : Option Owed
  spare : Option UInt32
  host : Option UInt32
  accepted : List Packet
  handed : List Packet

def Session.init (cfg : Config) : Session cfg := ⟨fun _ => none, [], none, none, none, none, [], []⟩

def Session.setLine (t : Session cfg) (s : Slot cfg) (line : Option Line) : Session cfg :=
  { t with lines := Function.update t.lines s line }

def Session.onLine (t : Session cfg) (s : Slot cfg) (move : Line → Option Line) :
    Option (Session cfg) :=
  match t.lines s with
  | none => none
  | some line => (move line).map (fun line => t.setLine s (some line))

def Session.idle (t : Session cfg) : Prop := t.queue = [] ∧ t.direct = none

instance (t : Session cfg) : Decidable t.idle := inferInstanceAs (Decidable (_ ∧ _))

/-- Data goes out only on an idle session; a control that goes out is the oldest one. -/
def Session.send (t : Session cfg) (p : Packet) (answer : Int) : Option (Session cfg) :=
  if p.command = ADB_COMMAND_WRTE then (if t.idle then some t else none)
  else if answer ≠ 0 then some t
  else
    match t.direct, t.queue with
    | some _, _ => none
    | none, [] => some { t with direct := some p, handed := t.handed ++ [p] }
    | none, front :: rest =>
      if front = p then some { t with queue := rest, handed := t.handed ++ [p] } else none

def Session.accept (t : Session cfg) (p : Packet) : Option (Session cfg) :=
  match t.direct with
  | none => some { t with
      queue := t.queue ++ [p], accepted := t.accepted ++ [p] }
  | some q =>
    if q = p then some { t with direct := none, accepted := t.accepted ++ [p] }
    else none

def Session.opened (t : Session cfg) (s : Slot cfg) (localId remoteId : UInt32) :
    Option (Session cfg) :=
  if (t.lines s).isNone ∧ t.host.isSome ∧ t.direct = none ∧ localId ≠ 0 then
    some (t.setLine s (some (.fresh localId remoteId)))
  else none

def Session.released (t : Session cfg) (s : Slot cfg) : Option (Session cfg) :=
  match t.lines s with
  | some line => if line.owed.isNone then some (t.setLine s none) else none
  | none => none

def Session.clear (t : Session cfg) (host : Option UInt32) : Option (Session cfg) :=
  if (∀ s, (t.lines s).isNone) ∧ t.direct = none then
    some { t with queue := [], host := host, accepted := [], handed := [] }
  else none

def Session.fits (t : Session cfg) (data : List UInt8) : Bool :=
  match t.host with
  | none => false
  | some limit => decide (data.length ≤ min limit.toNat (min cfg.maxPayload cfg.txPayloadSize))

def Line.store (data : List UInt8) (line : Line) : Option Line :=
  if line.pending.isNone ∧ line.owed.isNone ∧ !line.awaiting ∧ !line.closed then
    some { line with pending := some data, owed := some data }
  else none

/-- A write returns: what it copied is part of the stream, or is taken back before it was sent. -/
def Line.wrote (data : List UInt8) (ret : Int) (line : Line) : Option Line :=
  match line.owed with
  | none => if ret = 0 then none else some line
  | some copy =>
    if copy ≠ data then none
    else if ret = 0 then some { line with owed := none, written := line.written ++ [data] }
    else if line.pending = some data then some { line with owed := none, pending := none }
    else none

def Owed.cleared (due : Option Owed) : Bool := due.all Owed.excused

/-- Data is the line's packet on the wire, or there was no transport to send it. -/
def Line.transmit (due : Option Owed) (data : List UInt8) (answer : Int) (line : Line) :
    Option Line :=
  if (line.pending = some data ∧ !line.awaiting ∧ !line.closed ∧ line.announced) ∧
      (due = some ⟨⟨ADB_COMMAND_WRTE, line.localId, line.remoteId, data⟩, answer, false⟩ ∨
        (answer ≠ 0 ∧ Owed.cleared due)) then
    if answer = 0 then
      some { line with pending := none, awaiting := true, sent := line.sent ++ [data] }
    else some line
  else none

def Line.announce (due : Option Owed) (line : Line) : Option Line :=
  if !line.closed ∧
      due.map Owed.packet = some ⟨ADB_COMMAND_OKAY, line.localId, line.remoteId, []⟩ then
    some { line with announced := true }
  else none

/-- The router closes a line that has nothing left to deliver, unless the line is lost anyway. -/
def Line.finish (due : Option Owed) (line : Line) : Option Line :=
  if !line.closed ∧
      due.map Owed.packet = some ⟨ADB_COMMAND_CLSE, line.localId, line.remoteId, []⟩ ∧
      line.owed.isNone ∧
      (line.hostClosed ∨ (line.closing ∧ line.pending.isNone ∧ !line.awaiting)) then
    some { line with closed := true }
  else none

def Line.abort (line : Line) : Option Line :=
  if line.owed.isNone then
    some { line with closing := true, pending := none, awaiting := false, failed := true }
  else none

def Session.move (t : Session cfg) (due : Option Owed) :
    Event cfg → Option (Slot cfg × (Line → Option Line))
  | .stored s data => some (s, fun line => if t.fits data then line.store data else none)
  | .write s data ret => some (s, Line.wrote data ret)
  | .wrte s data answer =>
    some (s, fun line => if t.idle then line.transmit due data answer else none)
  | .close s => some (s, fun line => some { line with closing := true })
  | .ready s => some (s, fun line => some { line with awaiting := false })
  | .okay s => some (s, Line.announce due)
  | .clse s => some (s, Line.finish due)
  | .writeFailed s => some (s, Line.abort)
  | .hostClose s => some (s, fun line => some { line with hostClosed := true })
  | _ => none

def Session.act (t : Session cfg) (due : Option Owed) (e : Event cfg) : Option (Session cfg) :=
  match e with
  | .send p answer => t.send p answer
  | .accepted p => t.accept p
  | .allocated s localId remoteId => t.opened s localId remoteId
  | .released s => t.released s
  | .connect limit => t.clear (some limit)
  | .reset => t.clear none
  | .write s data ret =>
    if (t.lines s).isNone ∧ ret ≠ 0 then some t else t.onLine s (Line.wrote data ret)
  | e =>
    match t.move due e with
    | some (s, move) => t.onLine s move
    | none => some t

def Event.pays : Event cfg → Bool
  | .wrte _ _ _ | .okay _ | .clse _ => true
  | _ => false

/-- An OKAY with an id that was drawn for no stream is excused, and a CLSE with the id zero. -/
def Session.owes (t : Session cfg) : Event cfg → Option Owed
  | .send p answer => if p.command = ADB_COMMAND_WRTE then some ⟨p, answer, false⟩ else none
  | .accepted p =>
    if p.command = ADB_COMMAND_OKAY then some ⟨p, 0, t.spare == some p.arg0⟩
    else if p.command = ADB_COMMAND_CLSE then some ⟨p, 0, p.arg0 == 0⟩
    else none
  | _ => none

/-- A drawn id is at hand until a stream or an OKAY gets it, or the packet is dispatched. -/
def Session.spares (t : Session cfg) : Event cfg → Option UInt32
  | .drawn id => some id
  | .accepted _ | .allocated _ _ _ | .dispatched _ => none
  | _ => t.spare

def Session.turn (t : Session cfg) (e : Event cfg) : Session cfg :=
  { t with due := t.owes e, spare := t.spares e }

def Session.step (t : Session cfg) (e : Event cfg) : Option (Session cfg) :=
  if e.pays = true ∨ Owed.cleared t.due = true then (t.turn e).act t.due e else none

section Turn

variable (t : Session cfg) (e : Event cfg)

@[simp] theorem turn_lines : (t.turn e).lines = t.lines := rfl
@[simp] theorem turn_queue : (t.turn e).queue = t.queue := rfl
@[simp] theorem turn_direct : (t.turn e).direct = t.direct := rfl
@[simp] theorem turn_host : (t.turn e).host = t.host := rfl
@[simp] theorem turn_accepted : (t.turn e).accepted = t.accepted := rfl
@[simp] theorem turn_handed : (t.turn e).handed = t.handed := rfl
@[simp] theorem turn_due : (t.turn e).due = t.owes e := rfl
@[simp] theorem turn_fits (data : List UInt8) : (t.turn e).fits data = t.fits data := rfl
@[simp] theorem turn_idle : (t.turn e).idle ↔ t.idle := Iff.rfl

variable {t e}

theorem step_of_act {u : Session cfg} (pays : e.pays = true ∨ Owed.cleared t.due = true)
    (acted : (t.turn e).act t.due e = some u) : t.step e = some u := by
  rw [Session.step, if_pos pays, acted]

theorem act_of_step {u : Session cfg} (allowed : t.step e = some u) :
    (e.pays = true ∨ Owed.cleared t.due = true) ∧ (t.turn e).act t.due e = some u := by
  unfold Session.step at allowed
  split_ifs at allowed with pays
  exact ⟨pays, allowed⟩

end Turn

def Event.writtenOn (s : Slot cfg) : Event cfg → Option (List UInt8)
  | .write s' data ret => if s' = s ∧ ret = 0 then some data else none
  | _ => none

def Event.sentOn (s : Slot cfg) : Event cfg → Option (List UInt8)
  | .wrte s' data answer => if s' = s ∧ answer = 0 then some data else none
  | _ => none

structure Line.Moves (s : Slot cfg) (e : Event cfg) (line line' : Line) : Prop where
  localId : line'.localId = line.localId
  remoteId : line'.remoteId = line.remoteId
  written : line'.written = line.written ++ (e.writtenOn s).toList
  sent : line'.sent = line.sent ++ (e.sentOn s).toList
  failed : e ≠ .writeFailed s → line'.failed = line.failed
  hostClosed : e ≠ .hostClose s → line'.hostClosed = line.hostClosed
  awaiting : line.awaiting = true → e ≠ .ready s → e ≠ .writeFailed s → line'.awaiting = true
  announced : line'.announced = true → e ≠ .okay s → line.announced = true
  closed : line.closed = true → line'.closed = true

theorem Line.Moves.refl (s : Slot cfg) (e : Event cfg) (line : Line)
    (quiet : e.writtenOn s = none) (still : e.sentOn s = none) : Line.Moves s e line line where
  localId := rfl
  remoteId := rfl
  written := by rw [quiet]; exact (List.append_nil _).symm
  sent := by rw [still]; exact (List.append_nil _).symm
  failed := fun _ => rfl
  hostClosed := fun _ => rfl
  awaiting := fun on _ _ => on
  announced := fun on _ => on
  closed := fun on => on

section Inversion

variable {t u : Session cfg} {s : Slot cfg} {move : Line → Option Line}

theorem onLine_cases (moved : t.onLine s move = some u) :
    ∃ line line', t.lines s = some line ∧ move line = some line' ∧
      u = t.setLine s (some line') := by
  unfold Session.onLine at moved
  cases here : t.lines s with
  | none => rw [here] at moved; cases moved
  | some line =>
    rw [here] at moved
    cases next : move line with
    | none => simp only [next] at moved; cases moved
    | some line' =>
      simp only [next, Option.map_some, Option.some.injEq] at moved
      exact ⟨line, line', rfl, next, moved.symm⟩

theorem setLine_self (line : Option Line) : (t.setLine s line).lines s = line := by
  simp [Session.setLine]

theorem setLine_other {s' : Slot cfg} (other : s ≠ s') (line : Option Line) :
    (t.setLine s' line).lines s = t.lines s := by
  simp only [Session.setLine, Function.update_of_ne other]

variable {data : List UInt8} {line line' : Line}

private theorem moves_store (stored : line.store data = some line') :
    line.Moves s (.stored s data) line' := by
  unfold Line.store at stored
  split_ifs at stored
  cases stored
  exact { Line.Moves.refl s (.stored s data) line rfl rfl with }

private theorem moves_wrote {ret : Int} (wrote : line.wrote data ret = some line') :
    line.Moves s (.write s data ret) line' := by
  have still : (Event.write s data ret).sentOn s = none := rfl
  unfold Line.wrote at wrote
  split at wrote
  · split_ifs at wrote with failed
    cases wrote
    exact .refl s _ line (by simp [Event.writtenOn, failed]) still
  · split_ifs at wrote with same ok
    · cases wrote
      have quiet : (Event.write s data ret).writtenOn s = some data := by
        simp [Event.writtenOn, ok]
      exact ⟨rfl, rfl, by rw [quiet]; rfl, (List.append_nil _).symm, fun _ => rfl, fun _ => rfl,
        fun on _ _ => on, fun on _ => on, fun on => on⟩
    · cases wrote
      have quiet : (Event.write s data ret).writtenOn s = none := by simp [Event.writtenOn, ok]
      exact { Line.Moves.refl s (.write s data ret) line quiet still with }

variable {due : Option Owed}

private theorem moves_transmit {answer : Int} (sent : line.transmit due data answer = some line') :
    line.Moves s (.wrte s data answer) line' := by
  have quiet : (Event.wrte s data answer).writtenOn s = none := rfl
  unfold Line.transmit at sent
  split_ifs at sent with allowed ok
  · cases sent
    have taken : (Event.wrte s data answer).sentOn s = some data := by simp [Event.sentOn, ok]
    exact ⟨rfl, rfl, (List.append_nil _).symm, by rw [taken]; rfl, fun _ => rfl, fun _ => rfl,
      fun _ _ _ => rfl, fun on _ => on, fun on => on⟩
  · cases sent
    exact .refl s _ line quiet (by simp [Event.sentOn, ok])

def Event.neutral : Event cfg → Bool
  | .overflow | .drawn _ | .reboot | .alloc _ _ | .dispatched _ => true
  | .write _ _ ret => ret != 0
  | _ => false

inductive Session.Acts (t : Session cfg) (due : Option Owed) : Event cfg → Session cfg → Prop where
  | still (e : Event cfg) (neutral : e.neutral = true) : t.Acts due e t
  | line (e : Event cfg) (s : Slot cfg) (move : Line → Option Line) (line line' : Line)
      (moves : t.move due e = some (s, move)) (here : t.lines s = some line)
      (next : move line = some line') : t.Acts due e (t.setLine s (some line'))
  | passed (p : Packet) (answer : Int) (why : p.command = ADB_COMMAND_WRTE ∧ t.idle ∨
      p.command ≠ ADB_COMMAND_WRTE ∧ answer ≠ 0) : t.Acts due (.send p answer) t
  | direct (p : Packet) (control : p.command ≠ ADB_COMMAND_WRTE) (free : t.direct = none)
      (empty : t.queue = []) :
      t.Acts due (.send p 0) { t with direct := some p, handed := t.handed ++ [p] }
  | front (p : Packet) (rest : List Packet) (control : p.command ≠ ADB_COMMAND_WRTE)
      (free : t.direct = none) (queue : t.queue = p :: rest) :
      t.Acts due (.send p 0) { t with queue := rest, handed := t.handed ++ [p] }
  | queued (p : Packet) (free : t.direct = none) : t.Acts due (.accepted p)
      { t with queue := t.queue ++ [p], accepted := t.accepted ++ [p] }
  | taken (p : Packet) (direct : t.direct = some p) : t.Acts due (.accepted p)
      { t with direct := none, accepted := t.accepted ++ [p] }
  | opened (s : Slot cfg) (localId remoteId : UInt32) (absent : t.lines s = none)
      (direct : t.direct = none) (nonzero : localId ≠ 0) :
      t.Acts due (.allocated s localId remoteId) (t.setLine s (some (.fresh localId remoteId)))
  | released (s : Slot cfg) (line : Line) (here : t.lines s = some line) (owed : line.owed = none) :
      t.Acts due (.released s) (t.setLine s none)
  | clear (e : Event cfg) (host : Option UInt32) (kind : (∃ limit, e = .connect limit ∧
      host = some limit) ∨ e = .reset ∧ host = none) (gone : ∀ s, t.lines s = none)
      (direct : t.direct = none) : t.Acts due e
        { t with queue := [], host := host, accepted := [], handed := [] }

variable {e : Event cfg}

private theorem acts_onLine (moves : t.move due e = some (s, move))
    (moved : t.onLine s move = some u) : t.Acts due e u := by
  obtain ⟨line, line', here, next, rfl⟩ := onLine_cases moved
  exact .line e s move line line' moves here next

private theorem acts_clear {host : Option UInt32}
    (kind : (∃ limit, e = .connect limit ∧ host = some limit) ∨ e = .reset ∧ host = none)
    (cleared : t.clear host = some u) : t.Acts due e u := by
  unfold Session.clear at cleared
  split_ifs at cleared with empty
  cases cleared
  exact .clear e host kind (fun s => Option.isNone_iff_eq_none.mp (empty.1 s)) empty.2

private theorem acts_send {p : Packet} {answer : Int} (sent : t.send p answer = some u) :
    t.Acts due (.send p answer) u := by
  unfold Session.send at sent
  split_ifs at sent with data idle refused
  · cases sent
    exact .passed p answer (Or.inl ⟨data, idle⟩)
  · cases sent
    exact .passed p answer (Or.inr ⟨data, refused⟩)
  · obtain rfl : answer = 0 := not_not.mp refused
    split at sent
    · cases sent
    · cases sent
      exact .direct p data ‹_› ‹_›
    · split_ifs at sent with same
      cases sent
      exact .front p _ data ‹_› (same ▸ ‹_›)

private theorem acts_accept {p : Packet} (accepted : t.accept p = some u) :
    t.Acts due (.accepted p) u := by
  unfold Session.accept at accepted
  split at accepted
  · cases accepted
    exact .queued p ‹_›
  · split_ifs at accepted with same
    cases accepted
    exact .taken p (same ▸ ‹_›)

theorem act_cases (allowed : t.act due e = some u) : t.Acts due e u := by
  cases e with
  | send p answer => exact acts_send allowed
  | accepted p => exact acts_accept allowed
  | allocated s localId remoteId =>
    simp only [Session.act, Session.opened] at allowed
    split_ifs at allowed with fresh
    cases allowed
    exact .opened s localId remoteId (Option.isNone_iff_eq_none.mp fresh.1) fresh.2.2.1 fresh.2.2.2
  | released s =>
    simp only [Session.act, Session.released] at allowed
    split at allowed
    · rename_i line here
      split_ifs at allowed with owed
      cases allowed
      exact .released s line here (Option.isNone_iff_eq_none.mp owed)
    · cases allowed
  | connect limit => exact acts_clear (Or.inl ⟨limit, rfl, rfl⟩) allowed
  | reset => exact acts_clear (Or.inr ⟨rfl, rfl⟩) allowed
  | write s data ret =>
    simp only [Session.act] at allowed
    split_ifs at allowed with absent
    · cases allowed
      exact .still _ (bne_iff_ne.mpr absent.2)
    · exact acts_onLine rfl allowed
  | overflow => cases allowed; exact .still _ rfl
  | drawn id => cases allowed; exact .still _ rfl
  | reboot => cases allowed; exact .still _ rfl
  | alloc size found => cases allowed; exact .still _ rfl
  | dispatched call => cases allowed; exact .still _ rfl
  | _ => exact acts_onLine rfl allowed

theorem act_owed (allowed : t.act due e = some u) : u.due = t.due ∧ u.spare = t.spare := by
  cases act_cases allowed <;> exact ⟨rfl, rfl⟩

theorem step_owed (allowed : t.step e = some u) : u.due = t.owes e ∧ u.spare = t.spares e :=
  act_owed (act_of_step allowed).2

/-- What an allowed event does, but for what it owes and pays. -/
theorem step_cases (allowed : t.step e = some u) : (t.turn e).Acts t.due e u :=
  act_cases (act_of_step allowed).2

private theorem move_moves (moves : t.move due e = some (s, move)) (next : move line = some line') :
    line.Moves s e line' := by
  cases e with
  | stored s' data =>
    cases moves
    split_ifs at next
    exact moves_store next
  | write s' data ret => cases moves; exact moves_wrote next
  | wrte s' data answer =>
    cases moves
    split_ifs at next
    exact moves_transmit next
  | close s' =>
    cases moves; cases next
    exact { Line.Moves.refl s (.close s) line rfl rfl with }
  | ready s' =>
    cases moves; cases next
    exact { Line.Moves.refl s (.ready s) line rfl rfl with
      awaiting := fun _ other => absurd rfl other }
  | okay s' =>
    cases moves
    unfold Line.announce at next
    split_ifs at next
    cases next
    exact { Line.Moves.refl s (.okay s) line rfl rfl with
      announced := fun _ other => absurd rfl other }
  | clse s' =>
    cases moves
    unfold Line.finish at next
    split_ifs at next
    cases next
    exact { Line.Moves.refl s (.clse s) line rfl rfl with closed := fun _ => rfl }
  | writeFailed s' =>
    cases moves
    unfold Line.abort at next
    split_ifs at next
    cases next
    exact { Line.Moves.refl s (.writeFailed s) line rfl rfl with
      failed := fun other => absurd rfl other
      awaiting := fun _ _ other => absurd rfl other }
  | hostClose s' =>
    cases moves; cases next
    exact { Line.Moves.refl s (.hostClose s) line rfl rfl with
      hostClosed := fun other => absurd rfl other }
  | _ => cases moves

private theorem move_elsewhere {s' : Slot cfg} (moves : t.move due e = some (s', move))
    (other : s ≠ s') : e.writtenOn s = none ∧ e.sentOn s = none := by
  cases e with
  | write s'' data ret => cases moves; simp [Event.writtenOn, Event.sentOn, Ne.symm other]
  | wrte s'' data answer => cases moves; simp [Event.writtenOn, Event.sentOn, Ne.symm other]
  | _ => exact ⟨rfl, rfl⟩

private theorem neutral_silent (neutral : e.neutral = true) :
    e.writtenOn s = none ∧ e.sentOn s = none := by
  cases e with
  | write s' data ret =>
    have refused : ret ≠ 0 := bne_iff_ne.mp neutral
    simp [Event.writtenOn, Event.sentOn, refused]
  | _ => first | exact ⟨rfl, rfl⟩ | cases neutral

theorem step_line (allowed : t.step e = some u) (here : t.lines s = some line)
    (alive : e ≠ .released s) : ∃ line', u.lines s = some line' ∧ line.Moves s e line' := by
  cases step_cases allowed with
  | still _ neutral =>
    obtain ⟨quiet, silent⟩ := neutral_silent (s := s) neutral
    exact ⟨line, here, .refl s e line quiet silent⟩
  | line _ s' move line₀ line' moves before next =>
    by_cases same : s = s'
    · subst same
      obtain rfl : line₀ = line := Option.some.inj (before.symm.trans here)
      exact ⟨line', setLine_self _, move_moves moves next⟩
    · obtain ⟨quiet, silent⟩ := move_elsewhere moves same
      exact ⟨line, (setLine_other same _).trans here, .refl s e line quiet silent⟩
  | opened s' localId remoteId absent direct nonzero =>
    have other : s ≠ s' := by
      rintro rfl
      cases absent.symm.trans here
    exact ⟨line, (setLine_other other _).trans here, .refl s _ line rfl rfl⟩
  | released s' gone present owed =>
    have other : s ≠ s' := fun same => alive (by rw [same])
    exact ⟨line, (setLine_other other _).trans here, .refl s _ line rfl rfl⟩
  | clear _ host kind gone direct => cases (gone s).symm.trans here
  | _ => exact ⟨line, here, .refl s _ line rfl rfl⟩

theorem step_absent (allowed : t.step e = some u) (absent : t.lines s = none)
    (other : ∀ localId remoteId, e ≠ .allocated s localId remoteId) : u.lines s = none := by
  cases step_cases allowed with
  | line _ s' move line line' moves here next =>
    refine (setLine_other (fun same => ?_) _).trans absent
    cases (same ▸ absent).symm.trans here
  | opened s' localId remoteId =>
    exact (setLine_other (fun same => other localId remoteId (by rw [same])) _).trans absent
  | released s' line here owed =>
    by_cases same : s = s'
    · rw [same, setLine_self]
    · exact (setLine_other same _).trans absent
  | _ => exact absent

end Inversion

section Invariant

/-- What was written is what was sent and what is pending; a write in progress counts as written. -/
structure Line.Valid (fits : List UInt8 → Bool) (line : Line) : Prop where
  balanced : line.failed = false →
    line.written ++ line.owed.toList = line.sent ++ line.pending.toList
  fits : ∀ data, line.pending = some data → fits data = true
  returned : line.closed = true → line.owed = none

structure Session.Inv (t : Session cfg) : Prop where
  lines : ∀ s line, t.lines s = some line → line.Valid t.fits
  controls : t.accepted ++ t.direct.toList = t.handed ++ t.queue
  single : t.direct.isSome = true → t.queue = []

theorem Session.init_inv : (Session.init cfg).Inv :=
  ⟨fun _ _ absent => (by cases absent), rfl, fun direct => (by cases direct)⟩

variable {t u : Session cfg} {s : Slot cfg} {fits : List UInt8 → Bool} {data : List UInt8}
  {line line' : Line}

private theorem valid_store (short : fits data = true) (valid : line.Valid fits)
    (stored : line.store data = some line') : line'.Valid fits := by
  unfold Line.store at stored
  split_ifs at stored with free
  cases stored
  obtain ⟨pending, owed, -, closed⟩ := free
  rw [Option.isNone_iff_eq_none] at pending owed
  refine ⟨fun sound => ?_, fun _ same => ?_, fun on => ?_⟩
  · have balanced := valid.balanced sound
    rw [pending, owed] at balanced
    simp only [Option.toList_none, List.append_nil] at balanced
    simp only [balanced]
  · cases same
    exact short
  · rw [on] at closed
    cases closed

private theorem valid_wrote {ret : Int} (valid : line.Valid fits)
    (wrote : line.wrote data ret = some line') : line'.Valid fits := by
  unfold Line.wrote at wrote
  split at wrote
  · split_ifs at wrote
    cases wrote
    exact valid
  · rename_i copy owed
    split_ifs at wrote with same ok pending
    · cases wrote
      obtain rfl : copy = data := not_not.mp same
      refine ⟨fun sound => ?_, valid.fits, fun _ => rfl⟩
      have balanced := valid.balanced sound
      rw [owed] at balanced
      simpa using balanced
    · cases wrote
      obtain rfl : copy = data := not_not.mp same
      refine ⟨fun sound => ?_, fun _ none => (by cases none), fun _ => rfl⟩
      have balanced := valid.balanced sound
      rw [owed, pending] at balanced
      simpa using List.append_cancel_right balanced

variable {due : Option Owed}

private theorem valid_transmit {answer : Int} (valid : line.Valid fits)
    (sent : line.transmit due data answer = some line') : line'.Valid fits := by
  unfold Line.transmit at sent
  split_ifs at sent with allowed ok
  · cases sent
    refine ⟨fun sound => ?_, fun _ none => (by cases none), valid.returned⟩
    have balanced := valid.balanced sound
    rw [allowed.1.1] at balanced
    simpa using balanced
  · cases sent
    exact valid

private theorem move_valid {e : Event cfg} {move : Line → Option Line}
    (moves : t.move due e = some (s, move)) (valid : line.Valid t.fits)
    (next : move line = some line') : line'.Valid t.fits := by
  cases e with
  | stored s' data =>
    cases moves
    split_ifs at next with short
    exact valid_store short valid next
  | write s' data ret => cases moves; exact valid_wrote valid next
  | wrte s' data answer =>
    cases moves
    split_ifs at next
    exact valid_transmit valid next
  | close s' => cases moves; cases next; exact ⟨valid.balanced, valid.fits, valid.returned⟩
  | ready s' => cases moves; cases next; exact ⟨valid.balanced, valid.fits, valid.returned⟩
  | okay s' =>
    cases moves
    unfold Line.announce at next
    split_ifs at next
    cases next
    exact ⟨valid.balanced, valid.fits, valid.returned⟩
  | clse s' =>
    cases moves
    unfold Line.finish at next
    split_ifs at next with ready
    cases next
    exact ⟨valid.balanced, valid.fits, fun _ => Option.isNone_iff_eq_none.mp ready.2.2.1⟩
  | writeFailed s' =>
    cases moves
    unfold Line.abort at next
    split_ifs at next
    cases next
    exact ⟨fun sound => (by cases sound), fun _ none => (by cases none), valid.returned⟩
  | hostClose s' => cases moves; cases next; exact ⟨valid.balanced, valid.fits, valid.returned⟩
  | _ => cases moves

private theorem acts_inv {e : Event cfg} (inv : t.Inv) (acts : t.Acts due e u) : u.Inv := by
  cases acts with
  | still _ neutral => exact inv
  | passed p answer why => exact inv
  | line _ s move line line' moves here next =>
    refine ⟨fun s' other present => ?_, inv.controls, inv.single⟩
    by_cases same : s' = s
    · subst same
      rw [setLine_self] at present
      cases present
      exact move_valid moves (inv.lines _ _ here) next
    · rw [setLine_other same] at present
      exact inv.lines s' other present
  | direct p control free empty =>
    have controls := inv.controls
    rw [free, empty, Option.toList_none, List.append_nil, List.append_nil] at controls
    exact ⟨inv.lines, by simp [controls, empty], fun _ => empty⟩
  | front p rest control free queue =>
    have controls := inv.controls
    rw [free, queue, Option.toList_none, List.append_nil] at controls
    exact ⟨inv.lines, by simp [controls, free], fun some => by cases free ▸ some⟩
  | queued p free =>
    have controls := inv.controls
    rw [free, Option.toList_none, List.append_nil] at controls
    exact ⟨inv.lines, by simp [controls, free], fun some => by cases free ▸ some⟩
  | taken p direct =>
    have controls := inv.controls
    have empty := inv.single (by rw [direct]; rfl)
    rw [direct, empty] at controls
    exact ⟨inv.lines, by simpa [empty] using controls, fun none => (by cases none)⟩
  | opened s localId remoteId absent direct nonzero =>
    refine ⟨fun s' line present => ?_, inv.controls, inv.single⟩
    by_cases same : s' = s
    · subst same
      obtain rfl : Line.fresh localId remoteId = line :=
        Option.some.inj ((setLine_self _).symm.trans present)
      exact ⟨fun _ => rfl, fun _ none => (by cases none), fun on => (by cases on)⟩
    · exact inv.lines s' line ((setLine_other same _).symm.trans present)
  | released s line here owed =>
    refine ⟨fun s' line present => ?_, inv.controls, inv.single⟩
    by_cases same : s' = s
    · subst same
      rw [setLine_self] at present
      cases present
    · rw [setLine_other same] at present
      exact inv.lines s' line present
  | clear _ host kind gone direct =>
    refine ⟨fun s line present => ?_, congrArg Option.toList direct, fun _ => rfl⟩
    cases (gone s).symm.trans present

theorem step_inv {e : Event cfg} (inv : t.Inv) (allowed : t.step e = some u) : u.Inv :=
  acts_inv (t := t.turn e) ⟨inv.lines, inv.controls, inv.single⟩ (step_cases allowed)

abbrev Recorded (log : List (Event cfg)) (t : Session cfg) : Prop :=
  accepts Session.step (Session.init cfg) log = some t

theorem accepts_inv {log : List (Event cfg)} (run : Recorded log t) : t.Inv :=
  accepts_invariant (fun _ t => t.Inv) Session.init_inv (fun _ _ _ _ inv => step_inv inv) run

end Invariant

end Webos.Adb
