/- digest: What a shell session prints reaches its stream, in order and before the close. -/

import Webos.Adb.Shell.Interactive
import Webos.Adb.Shell.Ownership

namespace Webos.Adb.Shell

open Webos.Lib.Program

/-- What happens on the stream of a session: a chunk is written, the host acknowledges it, the
service asks for the close. -/
inductive Signal where
  | wrote (data : List UInt8)
  | acknowledged
  | asked
  deriving DecidableEq, Repr

def Signal.chunk : Signal → Option (List UInt8)
  | .wrote data => some data
  | .acknowledged => none
  | .asked => none

def chunks (signals : List Signal) : List (List UInt8) := signals.filterMap Signal.chunk

def written (signals : List Signal) : List UInt8 := (chunks signals).flatten

def Signal.wait (waiting : Bool) : Signal → Bool
  | .wrote _ => true
  | .acknowledged => false
  | .asked => waiting

def outstanding (signals : List Signal) : Bool := signals.foldl Signal.wait false

section Signals

variable (a b : List Signal) (data : List UInt8)

theorem chunks_append : chunks (a ++ b) = chunks a ++ chunks b := List.filterMap_append

@[simp] theorem written_wrote : written (a ++ [.wrote data]) = written a ++ data := by
  simp [written, chunks, Signal.chunk]

@[simp] theorem written_acknowledged : written (a ++ [.acknowledged]) = written a := by
  simp [written, chunks, Signal.chunk]

@[simp] theorem written_asked : written (a ++ [.asked]) = written a := by
  simp [written, chunks, Signal.chunk]

@[simp] theorem chunks_wrote : chunks (a ++ [.wrote data]) = chunks a ++ [data] := by
  rw [chunks_append]
  rfl

@[simp] theorem chunks_acknowledged : chunks (a ++ [.acknowledged]) = chunks a := by
  rw [chunks_append]
  exact List.append_nil _

@[simp] theorem chunks_asked : chunks (a ++ [.asked]) = chunks a := by
  rw [chunks_append]
  exact List.append_nil _

@[simp] theorem outstanding_acknowledged : outstanding (a ++ [.acknowledged]) = false := by
  rw [outstanding, List.foldl_append]
  rfl

end Signals

variable {cfg : Config} {β : Type} {opts : Options cfg} {backend : Backend β} {s : Slot cfg}

def noting : Handler (StreamCall cfg) StreamCall.Reply (Uplink cfg × List Signal)
  | .write stream generation data, r =>
    let reply := Uplink.api (.write stream generation data) r.1
    (reply.1, reply.2, if reply.1 = 0 then r.2 ++ [.wrote data] else r.2)
  | .close stream generation, r =>
    ((), (Uplink.api (.close stream generation) r.1).2, r.2 ++ [.asked])
  | .generation stream, r => (r.1.generation stream, r)
  | .maxPayload _, r => (r.1.room, r)

theorem exec_noting {α : Type} (m : Run cfg β α) (l : Local cfg β) (r : Uplink cfg)
    (signals : List Signal) :
    (m.exec noting l (r, signals)).1 = (m.exec Uplink.api l r).1 ∧
      (m.exec noting l (r, signals)).2.1 = (m.exec Uplink.api l r).2.1 ∧
      (m.exec noting l (r, signals)).2.2.1 = (m.exec Uplink.api l r).2.2 := by
  have alike := run_simulated noting Uplink.api (fun r r' => r.1 = r') (fun c r r' same => by
      subst same
      cases c with
      | write stream generation data => exact ⟨rfl, rfl⟩
      | close stream generation => exact ⟨rfl, rfl⟩
      | generation stream => exact ⟨rfl, rfl⟩
      | maxPayload stream => exact ⟨rfl, rfl⟩)
    (m l) (r, signals) r rfl
  exact ⟨congrArg Prod.fst alike.1, congrArg Prod.snd alike.1, alike.2⟩

/-- A session with the signals of its stream, and all that was put into its output buffer. -/
structure Transcript (cfg : Config) (β : Type) where
  terminal : Terminal cfg β
  signals : List Signal
  printed : List UInt8

section Next

def Delivery.ready (x : Terminal cfg β) : Delivery → Bool
  | .write _ => x.mine.ctx.interactive && (!x.mine.ctx.txInFlight && x.mine.ctx.output.length == 0)
  | .acknowledge => x.mine.ctx.interactive && x.mine.ctx.output.length == 0 &&
      x.mine.ctx.input.length != 0 && !x.mine.ctx.closeRequested

def Delivery.entry (x : Terminal cfg β) : Delivery → Terminal cfg β
  | .write data => ⟨x.mine.set fun c => { c with input := c.input ++ data }, x.uplink⟩
  | .acknowledge =>
    ⟨x.mine.set fun c => { c with txInFlight := false }, { x.uplink with busy := false }⟩

variable (opts backend)

def Terminal.worked (x : Terminal cfg β) (d : Delivery) : Local cfg β :=
  ((processIf opts backend (d.ready x)).exec Uplink.api (d.entry x).mine (d.entry x).uplink).2.1

def Terminal.fresh (x : Terminal cfg β) (d : Delivery) : List UInt8 :=
  (x.worked opts backend d).ctx.output.drop x.mine.ctx.output.length

/-- `Terminal.next` on an uplink that keeps the signals. -/
def Transcript.next (y : Transcript cfg β) (d : Delivery) : Transcript cfg β :=
  let printed := y.printed ++ y.terminal.fresh opts backend d
  match d with
  | .write data =>
    let (ret, mine, uplink, signals) :=
      (writeSession opts backend data).exec noting y.terminal.mine (y.terminal.uplink, y.signals)
    ⟨⟨mine, uplink.settle ret⟩, signals, printed⟩
  | .acknowledge =>
    let (ret, mine, uplink, signals) := (resumeSession opts backend).exec noting y.terminal.mine
      ({ y.terminal.uplink with busy := false }, y.signals ++ [.acknowledged])
    if ret ≠ 0 then ⟨⟨mine, { uplink with closing := true }⟩, signals ++ [.asked], printed⟩
    else ⟨⟨mine, uplink⟩, signals, printed⟩

/-- The host writes while the stream is there and the callback does not fail, and acknowledges
output that was sent. -/
def Delivery.Succeeds (x : Terminal cfg β) : Delivery → Prop
  | .write data => x.uplink.finished = false ∧
      ((writeSession opts backend data).exec Uplink.api x.mine x.uplink).1 = 0
  | .acknowledge => x.uplink.busy = true

instance (x : Terminal cfg β) : (d : Delivery) → Decidable (d.Succeeds opts backend x)
  | .write _ => inferInstanceAs (Decidable (_ ∧ _))
  | .acknowledge => inferInstanceAs (Decidable (_ = _))

def Started (s : Slot cfg) (suffix : List UInt8) (room : Nat) (y : Transcript cfg β) : Prop :=
  ∃ world generation,
    let l : Local cfg β := ⟨{ ShellContext.zero cfg with stream := some s }, world⟩
    (openSession opts backend suffix).exec noting l (⟨room, generation, false, false⟩, []) =
        (0, y.terminal.mine, y.terminal.uplink, y.signals) ∧
      y.printed = (prepareSession opts backend suffix l).2.ctx.output

inductive Dialogue (begun : Transcript cfg β) : List Delivery → Transcript cfg β → Prop where
  | nil : Dialogue begun [] begun
  | snoc {run : List Delivery} {y : Transcript cfg β} {d : Delivery} :
    Dialogue begun run y → d.Succeeds opts backend y.terminal →
      Dialogue begun (run ++ [d]) (y.next opts backend d)

end Next

theorem next_terminal (y : Transcript cfg β) (d : Delivery) :
    (y.next opts backend d).terminal = y.terminal.next opts backend d := by
  cases d with
  | write data =>
    obtain ⟨ret, mine, uplink⟩ := exec_noting (writeSession opts backend data) y.terminal.mine
      y.terminal.uplink y.signals
    simp only [Transcript.next, Terminal.next]
    rw [ret, mine, uplink]
  | acknowledge =>
    obtain ⟨ret, mine, uplink⟩ := exec_noting (resumeSession opts backend) y.terminal.mine
      { y.terminal.uplink with busy := false } (y.signals ++ [.acknowledged])
    simp only [Transcript.next, Terminal.next]
    rw [ret]
    split_ifs
    all_goals rw [mine, uplink]

theorem chunk_append_rest (output : List UInt8) (room : Nat) :
    output.take room ++ output.drop (output.take room).length = output := by
  obtain whole | part := Nat.le_total output.length room
  · rw [List.take_of_length_le whole, List.drop_length, List.append_nil]
  · rw [List.length_take, Nat.min_eq_left part, List.take_append_drop]

section Working

variable {l : Local cfg β} {r : Uplink cfg} {signals : List Signal}

theorem processIf_silent (ready : Bool) (held : l.ctx.stream = some s) :
    chunks ((processIf opts backend ready).exec noting l (r, signals)).2.2.2 = chunks signals := by
  have closes : Routine.Keeps (· = .close (some s) 0) (Mine s) (processIf opts backend ready) :=
    processIf_keeps (P := fun c => c = .close (some s) 0) rfl ready
  apply (closes l held).related noting (fun r r' => chunks r'.2 = chunks r.2)
  · intro r
    rfl
  · intro r r' r'' first second
    exact second.trans first
  · rintro c r rfl
    exact chunks_asked r.2

theorem noting_write {data : List UInt8} (free : r.busy = false) (fits : data.length ≤ r.room) :
    noting (.write (some s) 0 data) (r, signals) =
      (0, { r with busy := true }, signals ++ [.wrote data]) := by
  unfold noting
  dsimp only
  rw [Uplink.api_write free fits, if_pos rfl]

structure Sent (l : Local cfg β) (r : Uplink cfg) (signals : List Signal)
    (out : Int × Local cfg β × Uplink cfg × List Signal) : Prop where
  whole : written out.2.2.2 ++ out.2.1.ctx.output = written signals ++ l.ctx.output
  small : ∀ chunk ∈ chunks out.2.2.2, chunk ∈ chunks signals ∨ chunk.length ≤ r.room
  room : out.2.2.1.room = r.room

theorem queueNextChunk_sent (held : l.ctx.stream = some s) (kind : l.ctx.interactive = true)
    (flight : l.ctx.txInFlight = r.busy) :
    Sent l r signals ((queueNextChunk : Run cfg β Int).exec noting l (r, signals)) := by
  unfold queueNextChunk
  rw [exec_read_bind]
  cases busy : r.busy with
  | true =>
    rw [busy] at flight
    rw [flight, if_pos rfl, exec_pure]
    exact ⟨rfl, fun chunk member => Or.inl member, rfl⟩
  | false =>
    rw [busy] at flight
    rw [flight, if_neg (by decide), kind, if_pos rfl]
    by_cases nothing : l.ctx.output = []
    · unfold queueInteractive
      rw [exec_read_bind, if_pos (List.length_eq_zero_iff.mpr nothing), exec_pure]
      exact ⟨rfl, fun chunk member => Or.inl member, rfl⟩
    · rw [exec_queueInteractive held nothing rfl (noting_write busy (List.length_take_le _ _))]
      refine ⟨?_, ?_, rfl⟩
      · rw [written_wrote, List.append_assoc, chunk_append_rest]
      · intro chunk member
        rw [chunks_wrote, List.mem_append, List.mem_singleton] at member
        refine member.imp_right fun same => ?_
        rw [same, List.length_take]
        omega

theorem openSession_opened {suffix : List UInt8} {ρ : Type}
    {h : Handler (StreamCall cfg) StreamCall.Reply ρ} {r r' : ρ} {l l' : Local cfg β}
    (opened : (openSession opts backend suffix).exec h l r = (0, l', r')) :
    (prepareSession opts backend suffix l).1 = 0 ∧
      (queueNextChunk : Run cfg β Int).exec h (prepareSession opts backend suffix l).2 r =
        (0, l', r') := by
  unfold openSession at opened
  rw [exec_step_bind] at opened
  by_cases refused : (prepareSession opts backend suffix l).1 ≠ 0
  · rw [if_pos refused, exec_pure] at opened
    exact absurd (congrArg Prod.fst opened) refused
  · refine ⟨not_not.mp refused, ?_⟩
    rw [if_neg refused, exec_bind] at opened
    by_cases failed : ((queueNextChunk : Run cfg β Int).exec h
        (prepareSession opts backend suffix l).2 r).1 ≠ 0
    · rw [if_pos failed, exec_update_bind, exec_pure] at opened
      exact absurd (congrArg Prod.fst opened) failed
    · rw [if_neg failed, exec_pure] at opened
      exact opened

end Working

section Interactive

variable {x : Terminal cfg β} {y : Transcript cfg β} {d : Delivery}

theorem Delivery.Succeeds.possible (interactive : x.mine.ctx.interactive = true)
    (succeeds : d.Succeeds opts backend x) : d.Possible x := by
  cases d with
  | acknowledge => exact succeeds
  | write data =>
    obtain ⟨open', succeeds⟩ := succeeds
    refine ⟨open', Nat.not_lt.mp fun long => ?_⟩
    unfold writeSession at succeeds
    rw [exec_read_bind, interactive, if_neg (by decide), if_pos long, exec_pure] at succeeds
    have error : -ENOSPC = 0 := succeeds
    exact absurd error (by decide)

theorem Upright.idle (upright : Upright opts s x) (possible : d.Possible x)
    (may : d.ready x = true) : x.mine.ctx.output = [] ∧ x.mine.ctx.closeRequested = false := by
  cases d with
  | write data =>
    rw [Delivery.ready, Bool.and_eq_true, Bool.and_eq_true, Bool.not_eq_true',
      upright.flight] at may
    obtain ⟨-, free, -⟩ := may
    have live := possible.1
    rw [Uplink.finished, free, Bool.not_false, Bool.and_true, upright.closing] at live
    exact ⟨upright.quiet free, live⟩
  | acknowledge =>
    rw [Delivery.ready, Bool.and_eq_true, Bool.and_eq_true, Bool.and_eq_true, Bool.not_eq_true',
      beq_iff_eq, List.length_eq_zero_iff] at may
    exact ⟨may.1.1.2, may.2⟩

theorem entry_output (x : Terminal cfg β) (d : Delivery) :
    (d.entry x).mine.ctx.output = x.mine.ctx.output := by
  cases d <;> rfl

theorem Upright.processed (upright : Upright opts s x) (possible : d.Possible x) :
    Processed opts backend (d.ready x) (d.entry x).mine (d.entry x).uplink
      ((processIf opts backend (d.ready x)).exec Uplink.api (d.entry x).mine
        (d.entry x).uplink) := by
  cases d with
  | write data =>
    exact processIf_processed _ upright.closing upright.held upright.discarding
      (upright.idle possible)
  | acknowledge =>
    exact processIf_processed _ upright.closing upright.held upright.discarding
      (upright.idle possible)

theorem Upright.worked_output (upright : Upright opts s x) (possible : d.Possible x) :
    (x.worked opts backend d).ctx.output = x.mine.ctx.output ++ x.fresh opts backend d := by
  cases may : d.ready x with
  | true =>
    rw [Terminal.fresh, (upright.idle possible may).1]
    rfl
  | false =>
    have same : x.worked opts backend d = (d.entry x).mine :=
      (upright.processed possible).skipped may
    rw [Terminal.fresh, same, entry_output, List.drop_length, List.append_nil]

def Delivery.noted (signals : List Signal) : Delivery → List Signal
  | .write _ => signals
  | .acknowledge => signals ++ [.acknowledged]

theorem chunks_noted (signals : List Signal) (d : Delivery) :
    chunks (d.noted signals) = chunks signals := by
  cases d with
  | write data => rfl
  | acknowledge => exact chunks_acknowledged signals

structure Midway (opts : Options cfg) (backend : Backend β) (s : Slot cfg) (y : Transcript cfg β)
    (d : Delivery) (mid : Int × Local cfg β × Uplink cfg × List Signal) : Prop where
  ret : mid.1 = 0
  worked : mid.2.1 = y.terminal.worked opts backend d
  held : mid.2.1.ctx.stream = some s
  interactive : mid.2.1.ctx.interactive = true
  flight : mid.2.1.ctx.txInFlight = mid.2.2.1.busy
  room : mid.2.2.1.room = y.terminal.uplink.room
  silent : chunks mid.2.2.2 = chunks y.signals

theorem Upright.midway (upright : Upright opts s y.terminal) (possible : d.Possible y.terminal) :
    Midway opts backend s y d ((processIf opts backend (d.ready y.terminal)).exec noting
      (d.entry y.terminal).mine ((d.entry y.terminal).uplink, d.noted y.signals)) := by
  obtain ⟨ret, mine, uplink⟩ := exec_noting (processIf opts backend (d.ready y.terminal))
    (d.entry y.terminal).mine (d.entry y.terminal).uplink (d.noted y.signals)
  have processed : Processed opts backend (d.ready y.terminal) _ _ _ := upright.processed possible
  have held : (d.entry y.terminal).mine.ctx.stream = some s := by
    cases d <;> exact upright.held
  have interactive : (d.entry y.terminal).mine.ctx.interactive = true := by
    cases d <;> exact upright.interactive
  have flight : (d.entry y.terminal).mine.ctx.txInFlight = (d.entry y.terminal).uplink.busy := by
    cases d with
    | write data => exact upright.flight
    | acknowledge => rfl
  have room : (d.entry y.terminal).uplink.room = y.terminal.uplink.room := by
    cases d <;> rfl
  refine ⟨ret.trans processed.ret, mine, ?_, ?_, ?_, ?_, ?_⟩
  · rw [mine]
    exact processed.stream.trans held
  · rw [mine]
    exact processed.interactive.trans interactive
  · rw [mine, uplink, processed.uplink]
    exact processed.txInFlight.trans flight
  · rw [uplink, processed.uplink]
    exact room
  · rw [processIf_silent _ held, chunks_noted]

theorem Upright.next_eq (upright : Upright opts s y.terminal) (possible : d.Possible y.terminal)
    {mid out : Int × Local cfg β × Uplink cfg × List Signal}
    (working : (processIf opts backend (d.ready y.terminal)).exec noting
      (d.entry y.terminal).mine ((d.entry y.terminal).uplink, d.noted y.signals) = mid)
    (sending : (queueNextChunk : Run cfg β Int).exec noting mid.2.1 mid.2.2 = out) :
    y.next opts backend d =
      ⟨⟨out.2.1, out.2.2.1⟩, out.2.2.2, y.printed ++ y.terminal.fresh opts backend d⟩ := by
  have midway : Midway opts backend s y d mid := working ▸ upright.midway possible
  have queued := queueNextChunk_queued midway.held midway.interactive midway.flight
  have ret : out.1 = 0 := by
    rw [← sending]
    exact (exec_noting queueNextChunk mid.2.1 mid.2.2.1 mid.2.2.2).1.trans queued.ret
  cases d with
  | write data =>
    have ready : (Delivery.write data).ready y.terminal =
        (!y.terminal.mine.ctx.txInFlight && y.terminal.mine.ctx.output.length == 0) := by
      rw [Delivery.ready, upright.interactive, Bool.true_and]
    have outcome : (writeSession opts backend data).exec noting y.terminal.mine
        (y.terminal.uplink, y.signals) = out := by
      rw [ready] at working
      unfold writeSession
      rw [exec_read_bind, upright.interactive, if_neg (by decide),
        if_neg (Nat.not_lt.mpr possible.2), exec_update_bind, exec_bind]
      rw [← sending, ← working]
      rw [← working] at midway
      exact congrArg (fun m : Run cfg β Int => m.exec noting _ _) (if_pos midway.ret)
    unfold Transcript.next
    dsimp only
    rw [outcome, ret]
    rfl
  | acknowledge =>
    have outcome : (resumeSession opts backend).exec noting y.terminal.mine
        ({ y.terminal.uplink with busy := false }, y.signals ++ [.acknowledged]) = out := by
      unfold resumeSession
      rw [exec_update_bind, exec_read_bind, exec_bind]
      rw [← sending, ← working]
      rw [← working] at midway
      exact congrArg (fun m : Run cfg β Int => m.exec noting _ _) (if_neg (not_not.mpr midway.ret))
    unfold Transcript.next
    dsimp only
    rw [outcome, if_neg (not_not.mpr ret)]

structure Faithful (opts : Options cfg) (s : Slot cfg) (y : Transcript cfg β) : Prop where
  upright : Upright opts s y.terminal
  whole : written y.signals ++ y.terminal.mine.ctx.output = y.printed
  small : ∀ chunk ∈ chunks y.signals, chunk.length ≤ y.terminal.uplink.room

theorem Faithful.next (faithful : Faithful opts s y)
    (succeeds : d.Succeeds opts backend y.terminal) : Faithful opts s (y.next opts backend d) := by
  have upright := faithful.upright
  have possible := succeeds.possible upright.interactive
  have delivered : Delivered opts backend s y.terminal d := delivered upright possible
  have room : (y.next opts backend d).terminal.uplink.room = y.terminal.uplink.room := by
    rw [next_terminal]
    exact delivered.room
  obtain ⟨mid, working⟩ : ∃ mid, (processIf opts backend (d.ready y.terminal)).exec noting
    (d.entry y.terminal).mine ((d.entry y.terminal).uplink, d.noted y.signals) = mid := ⟨_, rfl⟩
  obtain ⟨out, sending⟩ : ∃ out,
    (queueNextChunk : Run cfg β Int).exec noting mid.2.1 mid.2.2 = out := ⟨_, rfl⟩
  have midway : Midway opts backend s y d mid := working ▸ upright.midway possible
  have sent : Sent mid.2.1 mid.2.2.1 mid.2.2.2 out :=
    sending ▸ queueNextChunk_sent midway.held midway.interactive midway.flight
  have after := upright.next_eq possible working sending
  refine ⟨by rw [next_terminal]; exact delivered.upright, ?_, ?_⟩
  · have silent : written mid.2.2.2 = written y.signals := congrArg List.flatten midway.silent
    rw [after]
    rw [sent.whole, silent, midway.worked, upright.worked_output possible, ← List.append_assoc,
      faithful.whole]
  · intro chunk member
    rw [room]
    rw [after] at member
    obtain old | short := sent.small chunk member
    · rw [midway.silent] at old
      exact faithful.small chunk old
    · exact midway.room ▸ short

theorem Started.faithful {room : Nat} (started : Started opts backend s [] room y) :
    Faithful opts s y ∧ y.terminal.uplink.room = room := by
  obtain ⟨world, generation, opened, printed⟩ := started
  have begun : Begun opts backend s y.terminal := by
    refine ⟨world, room, generation, ?_⟩
    obtain ⟨ret, mine, uplink⟩ := exec_noting (openSession opts backend [])
      ⟨{ ShellContext.zero cfg with stream := some s }, world⟩ ⟨room, generation, false, false⟩ []
    rw [opened] at ret mine uplink
    exact Prod.ext ret.symm (Prod.ext mine.symm uplink.symm)
  obtain ⟨prepared, queued⟩ := openSession_opened opened
  rw [prepareSession_nil] at prepared queued printed
  split_ifs at prepared queued printed with found
  · have sent : Sent (⟨.prompting opts s, webosShellClearOutput backend
        (backend.malloc world opts.inputSize).2⟩ : Local cfg β)
        ⟨room, generation, false, false⟩ [] _ :=
      queueNextChunk_sent (s := s) rfl rfl rfl
    rw [queued] at sent
    have kept : y.terminal.uplink.room = room := sent.room
    refine ⟨⟨begun.upright.1, ?_, fun chunk member => ?_⟩, kept⟩
    · rw [printed]
      exact sent.whole
    · rw [kept]
      exact (sent.small chunk member).resolve_left List.not_mem_nil
  · have error : -ENOMEM = 0 := prepared
    exact absurd error (by decide)

end Interactive

section OneShot

variable {l : Local cfg β} {r : Uplink cfg} {signals : List Signal} {y : Transcript cfg β}

def ShellContext.due (c : ShellContext cfg) (room : Nat) : List UInt8 :=
  (c.output.drop c.outputOffset).take room

theorem queueOneShot_closes (held : l.ctx.stream = some s) (nothing : l.ctx.due r.room = []) :
    (queueOneShot : Run cfg β Int).exec noting l (r, signals) =
      (0, l, { r with closing := true }, signals ++ [.asked]) := by
  have asked : noting (.maxPayload (some s)) (r, signals) = (r.room, r, signals) := rfl
  have closed : noting (.close (some s) 0) (r, signals) =
    ((), { r with closing := true }, signals ++ [.asked]) := rfl
  have none : ((l.ctx.output.drop l.ctx.outputOffset).take r.room).length = 0 :=
    List.length_eq_zero_iff.mpr nothing
  unfold queueOneShot hangUp
  rw [exec_read_bind, held, exec_bind, exec_ask, asked, if_pos none, exec_bind, exec_read_bind,
    held, exec_ask, closed, exec_pure]

theorem queueOneShot_sends (held : l.ctx.stream = some s) (free : r.busy = false)
    (some' : l.ctx.due r.room ≠ []) :
    (queueOneShot : Run cfg β Int).exec noting l (r, signals) = (0, ⟨{ l.ctx with
        outputOffset := l.ctx.outputOffset + (l.ctx.due r.room).length
        txInFlight := true }, l.world⟩, { r with busy := true },
        signals ++ [.wrote (l.ctx.due r.room)]) := by
  have asked : noting (.maxPayload (some s)) (r, signals) = (r.room, r, signals) := rfl
  have length : ¬((l.ctx.output.drop l.ctx.outputOffset).take r.room).length = 0 := by
    rw [List.length_eq_zero_iff]
    exact some'
  have fits : ((l.ctx.output.drop l.ctx.outputOffset).take r.room).length ≤ r.room := by
    rw [List.length_take]
    omega
  unfold queueOneShot
  rw [exec_read_bind, held, exec_bind, exec_ask, asked, if_neg length, exec_bind, exec_ask,
    noting_write free fits, if_pos rfl, exec_update_bind, exec_pure, Local.set]
  rfl

def Stage (y : Transcript cfg β) : Prop :=
  (y.terminal.uplink.busy = true ∧ y.terminal.uplink.closing = false ∧ .asked ∉ y.signals) ∨
    (y.terminal.uplink.busy = false ∧ y.terminal.mine.ctx.output.length ≤
        y.terminal.mine.ctx.outputOffset ∧
      ∃ before, y.signals = before ++ [.asked] ∧ .asked ∉ before ∧ outstanding before = false)

structure Single (s : Slot cfg) (y : Transcript cfg β) : Prop where
  held : y.terminal.mine.ctx.stream = some s
  oneShot : y.terminal.mine.ctx.interactive = false
  flight : y.terminal.mine.ctx.txInFlight = y.terminal.uplink.busy
  part : written y.signals = y.terminal.mine.ctx.output.take y.terminal.mine.ctx.outputOffset
  printed : y.printed = y.terminal.mine.ctx.output
  small : ∀ chunk ∈ chunks y.signals, chunk.length ≤ y.terminal.uplink.room
  stage : Stage y

def Terminal.unsent (x : Terminal cfg β) : Nat :=
  x.mine.ctx.output.length - x.mine.ctx.outputOffset

structure Advanced (s : Slot cfg) (l : Local cfg β) (r : Uplink cfg)
    (out : Int × Local cfg β × Uplink cfg × List Signal) : Prop where
  ret : out.1 = 0
  single : Single s ⟨⟨out.2.1, out.2.2.1⟩, out.2.2.2, l.ctx.output⟩
  room : out.2.2.1.room = r.room
  less : out.2.2.1.busy = true →
    Terminal.unsent ⟨out.2.1, out.2.2.1⟩ < Terminal.unsent ⟨l, r⟩

theorem queueNextChunk_advanced (held : l.ctx.stream = some s)
    (oneShot : l.ctx.interactive = false) (idle : l.ctx.txInFlight = false)
    (free : r.busy = false) (open' : r.closing = false) (room : 0 < r.room)
    (part : written signals = l.ctx.output.take l.ctx.outputOffset)
    (small : ∀ chunk ∈ chunks signals, chunk.length ≤ r.room) (unasked : .asked ∉ signals)
    (settled : outstanding signals = false) :
    Advanced s l r ((queueNextChunk : Run cfg β Int).exec noting l (r, signals)) := by
  unfold queueNextChunk
  rw [exec_read_bind, idle, if_neg (by decide), oneShot, if_neg (by decide)]
  by_cases nothing : l.ctx.due r.room = []
  · rw [queueOneShot_closes held nothing]
    have all : l.ctx.output.length ≤ l.ctx.outputOffset := by
      rw [ShellContext.due, List.take_eq_nil_iff, List.drop_eq_nil_iff] at nothing
      omega
    refine ⟨rfl, ⟨held, oneShot, idle.trans free.symm, ?_, rfl, ?_, ?_⟩, rfl, ?_⟩
    · exact (written_asked signals).trans part
    · rw [chunks_asked]
      exact small
    · exact Or.inr ⟨free, all, signals, rfl, unasked, settled⟩
    · intro busy
      exact absurd (free.symm.trans busy) Bool.false_ne_true
  · rw [queueOneShot_sends held free nothing]
    have some' : 0 < (l.ctx.due r.room).length := List.length_pos_iff.mpr nothing
    have fits : (l.ctx.due r.room).length ≤ r.room := by
      rw [ShellContext.due, List.length_take]
      omega
    refine ⟨rfl, ⟨held, oneShot, rfl, ?_, rfl, ?_, ?_⟩, rfl, fun _ => ?_⟩
    · rw [written_wrote, part, List.take_add]
      rw [ShellContext.due, List.length_take, ← List.take_eq_take_min]
    · intro chunk member
      rw [chunks_wrote, List.mem_append, List.mem_singleton] at member
      obtain old | rfl := member
      · exact small chunk old
      · exact fits
    · refine Or.inl ⟨rfl, open', ?_⟩
      simp [unasked]
    · have inside : (l.ctx.due r.room).length ≤ l.ctx.output.length - l.ctx.outputOffset := by
        rw [ShellContext.due, List.length_take, List.length_drop]
        omega
      simp only [Terminal.unsent]
      omega

theorem Single.worked_entry (single : Single s y) (d : Delivery) :
    y.terminal.worked opts backend d = (d.entry y.terminal).mine := by
  have idle : d.ready y.terminal = false := by
    cases d with
    | write data => rw [Delivery.ready, single.oneShot, Bool.false_and]
    | acknowledge => rw [Delivery.ready, single.oneShot, Bool.false_and, Bool.false_and,
        Bool.false_and]
  unfold Terminal.worked processIf
  rw [idle, if_neg (by decide), exec_pure]

theorem Single.fresh_nil (single : Single s y) (d : Delivery) :
    y.terminal.fresh opts backend d = [] := by
  rw [Terminal.fresh, single.worked_entry, entry_output, List.drop_length]

theorem Single.write_next (single : Single s y) {data : List UInt8}
    (succeeds : (Delivery.write data).Succeeds opts backend y.terminal) :
    y.next opts backend (.write data) = y := by
  have refuses {ρ : Type} (h : Handler (StreamCall cfg) StreamCall.Reply ρ) (r : ρ) :
      (writeSession opts backend data).exec h y.terminal.mine r =
        (if data.length = 0 then 0 else -ENOTSUP, y.terminal.mine, r) := by
    unfold writeSession
    rw [exec_read_bind, single.oneShot, if_pos (by decide), exec_pure]
  have empty : data.length = 0 := by
    have ret := succeeds.2
    rw [refuses] at ret
    by_contra some'
    rw [if_neg some'] at ret
    have error : -ENOTSUP = 0 := ret
    exact absurd error (by decide)
  unfold Transcript.next
  rw [single.fresh_nil, List.append_nil]
  dsimp only
  rw [refuses, if_pos empty]
  rfl

theorem Single.acknowledge_next (single : Single s y) (busy : y.terminal.uplink.busy = true)
    (room : 0 < y.terminal.uplink.room) :
    Single s (y.next opts backend .acknowledge) ∧
      (y.next opts backend .acknowledge).terminal.uplink.room = y.terminal.uplink.room ∧
      ((y.next opts backend .acknowledge).terminal.uplink.busy = true →
        (y.next opts backend .acknowledge).terminal.unsent < y.terminal.unsent) := by
  obtain ⟨-, open', unasked⟩ : y.terminal.uplink.busy = true ∧
      y.terminal.uplink.closing = false ∧ .asked ∉ y.signals := by
    obtain sending | ⟨free, -⟩ := single.stage
    · exact sending
    · exact absurd (free.symm.trans busy) Bool.false_ne_true
  obtain ⟨out, sending⟩ : ∃ out, (queueNextChunk : Run cfg β Int).exec noting
      (y.terminal.mine.set fun c => { c with txInFlight := false })
      ({ y.terminal.uplink with busy := false }, y.signals ++ [.acknowledged]) = out := ⟨_, rfl⟩
  have advanced : Advanced s (y.terminal.mine.set fun c => { c with txInFlight := false })
      { y.terminal.uplink with busy := false } out := by
    rw [← sending]
    apply queueNextChunk_advanced
    · exact single.held
    · exact single.oneShot
    · rfl
    · rfl
    · exact open'
    · exact room
    · rw [written_acknowledged]
      exact single.part
    · rw [chunks_acknowledged]
      exact single.small
    · simp [unasked]
    · exact outstanding_acknowledged y.signals
  have outcome : (resumeSession opts backend).exec noting y.terminal.mine
      ({ y.terminal.uplink with busy := false }, y.signals ++ [.acknowledged]) = out := by
    rw [← sending]
    unfold resumeSession processIf
    rw [exec_update_bind, exec_read_bind]
    have idle : (y.terminal.mine.set fun c => { c with txInFlight := false }).ctx.interactive =
      false := single.oneShot
    rw [idle, Bool.false_and, Bool.false_and, Bool.false_and, if_neg (by decide), exec_bind,
      exec_pure, if_neg (not_not.mpr rfl)]
  have after : y.next opts backend .acknowledge =
      ⟨⟨out.2.1, out.2.2.1⟩, out.2.2.2, y.terminal.mine.ctx.output⟩ := by
    unfold Transcript.next
    rw [single.fresh_nil, List.append_nil]
    dsimp only
    rw [outcome, single.printed]
    exact if_neg (not_not.mpr advanced.ret)
  rw [after]
  exact ⟨advanced.single, advanced.room, advanced.less⟩

def ShellContext.captured (cfg : Config) (s : Slot cfg) (out : Executed) : ShellContext cfg :=
  { ShellContext.zero cfg with
    stream := some s
    commandRc := out.ret
    output := out.output
    truncated := out.truncated }

theorem prepareSession_command {suffix : List UInt8} (command : suffix ≠ []) (world : β) :
    prepareSession opts backend suffix ⟨{ ShellContext.zero cfg with stream := some s }, world⟩ =
      (0, ⟨.captured cfg s (webosShellExecute backend suffix opts.outputSize world).1,
        (webosShellExecute backend suffix opts.outputSize world).2⟩) := by
  have length : ¬suffix.length = 0 := by
    rw [List.length_eq_zero_iff]
    exact command
  unfold prepareSession
  rw [if_neg length]
  rfl

theorem Started.single {suffix : List UInt8} {room : Nat} (command : suffix ≠ [])
    (positive : 0 < room) (started : Started opts backend s suffix room y) :
    Single s y ∧ y.terminal.uplink.room = room := by
  obtain ⟨world, generation, opened, printed⟩ := started
  obtain ⟨-, queued⟩ := openSession_opened opened
  rw [prepareSession_command command] at queued printed
  generalize webosShellExecute backend suffix opts.outputSize world = out at queued printed
  have advanced : Advanced s ⟨.captured cfg s out.1, out.2⟩ ⟨room, generation, false, false⟩
      ((queueNextChunk : Run cfg β Int).exec noting ⟨.captured cfg s out.1, out.2⟩
        (⟨room, generation, false, false⟩, [])) := by
    apply queueNextChunk_advanced
    · rfl
    · rfl
    · rfl
    · rfl
    · rfl
    · exact positive
    · exact List.take_zero.symm
    · exact List.forall_mem_nil _
    · exact List.not_mem_nil
    · rfl
  rw [queued] at advanced
  have single := advanced.single
  rw [← printed] at single
  exact ⟨single, advanced.room⟩

end OneShot

section Dialogues

variable {begun y : Transcript cfg β} {run : List Delivery} {room : Nat}
  {Inv : Transcript cfg β → Prop}

theorem Dialogue.invariant (talk : Dialogue opts backend begun run y) (start : Inv begun)
    (step : ∀ y d, Inv y → d.Succeeds opts backend y.terminal → Inv (y.next opts backend d)) :
    Inv y := by
  induction talk with
  | nil => exact start
  | snoc before succeeds ih => exact step _ _ ih succeeds

theorem Dialogue.drains (talk : Dialogue opts backend begun run y) (holds : Inv y)
    (load : Transcript cfg β → Nat)
    (step : ∀ y, Inv y → y.terminal.uplink.busy = true → Inv (y.next opts backend .acknowledge) ∧
      ((y.next opts backend .acknowledge).terminal.uplink.busy = true →
        load (y.next opts backend .acknowledge) < load y)) :
    ∃ n z, Dialogue opts backend begun (run ++ List.replicate n .acknowledge) z ∧ Inv z ∧
      z.terminal.uplink.busy = false := by
  induction size : load y using Nat.strong_induction_on generalizing run y with
  | h size ih =>
    subst size
    cases busy : y.terminal.uplink.busy with
    | false =>
      refine ⟨0, y, ?_, holds, busy⟩
      rw [List.replicate_zero, List.append_nil]
      exact talk
    | true =>
      obtain ⟨holds', less⟩ := step y holds busy
      have longer := talk.snoc (d := .acknowledge) busy
      cases busy' : (y.next opts backend .acknowledge).terminal.uplink.busy with
      | false => exact ⟨1, _, longer, holds', busy'⟩
      | true =>
        obtain ⟨n, z, talk', final⟩ := ih _ (less busy') longer holds' rfl
        refine ⟨n + 1, z, ?_, final⟩
        rw [List.replicate_succ, ← List.singleton_append, ← List.append_assoc]
        exact talk'

def Transcript.pending (y : Transcript cfg β) : List UInt8 :=
  if y.terminal.mine.ctx.interactive then y.terminal.mine.ctx.output
  else y.terminal.mine.ctx.output.drop y.terminal.mine.ctx.outputOffset

/-- What was printed was written or waits, chunk by chunk; all of it was written when the stream is
idle, and so before its CLSE; only printing adds to what waits. -/
structure Complete (opts : Options cfg) (backend : Backend β) (suffix : List UInt8) (room : Nat)
    (y : Transcript cfg β) : Prop where
  whole : written y.signals ++ y.pending = y.printed
  small : ∀ chunk ∈ chunks y.signals, chunk.length ≤ room
  quiet : y.terminal.uplink.busy = false → written y.signals = y.printed
  appends : ∀ d : Delivery, d.Succeeds opts backend y.terminal →
    (y.terminal.worked opts backend d).ctx.output =
      y.terminal.mine.ctx.output ++ y.terminal.fresh opts backend d
  last : suffix ≠ [] → ∀ before after, y.signals = before ++ .asked :: after →
    written before = y.printed ∧ outstanding before = false ∧ after = []

theorem Faithful.complete (faithful : Faithful opts s y) (kept : y.terminal.uplink.room = room) :
    Complete opts backend [] room y := by
  refine ⟨?_, ?_, fun free => ?_, fun d succeeds => ?_, fun no => absurd rfl no⟩
  · rw [Transcript.pending, faithful.upright.interactive, if_pos rfl]
    exact faithful.whole
  · rw [← kept]
    exact faithful.small
  · have whole := faithful.whole
    rw [faithful.upright.quiet free, List.append_nil] at whole
    exact whole
  · exact faithful.upright.worked_output (succeeds.possible faithful.upright.interactive)

theorem Single.complete {suffix : List UInt8} (single : Single s y)
    (kept : y.terminal.uplink.room = room) : Complete opts backend suffix room y := by
  have whole : written y.signals ++ y.terminal.mine.ctx.output.drop
      y.terminal.mine.ctx.outputOffset = y.printed := by
    rw [single.part, single.printed, List.take_append_drop]
  refine ⟨?_, ?_, fun free => ?_, fun d _ => ?_, fun _ before after split => ?_⟩
  · rw [Transcript.pending, single.oneShot]
    exact whole
  · rw [← kept]
    exact single.small
  · obtain ⟨busy, -⟩ | ⟨-, all, -⟩ := single.stage
    · exact absurd (free.symm.trans busy) Bool.false_ne_true
    · rw [single.part, single.printed, List.take_of_length_le all]
  · rw [single.worked_entry, entry_output, single.fresh_nil, List.append_nil]
  · obtain ⟨-, -, unasked⟩ | ⟨free, all, front, same, unasked, settled⟩ := single.stage
    · exact absurd (split ▸ by simp) unasked
    · obtain rfl | ⟨middle, last, rfl⟩ := after.eq_nil_or_concat'
      · have same' : before = front := List.append_cancel_right (split.symm.trans same)
        have part := single.part
        rw [same, written_asked, List.take_of_length_le all, ← single.printed] at part
        rw [same']
        exact ⟨part, settled, rfl⟩
      · rw [same, ← List.cons_append, ← List.append_assoc] at split
        have inside := List.append_inj_left' split rfl
        exact absurd (inside ▸ by simp) unasked

/-- Whatever a shell session puts into its buffer is written to its stream in order, in chunks that
the host takes, and a one-shot command asks for the close when all was acknowledged. Acks alone
bring the rest. -/
theorem shell_output_delivered {suffix : List UInt8} (positive : 0 < room)
    (started : Started opts backend s suffix room begun)
    (talk : Dialogue opts backend begun run y) :
    Complete opts backend suffix room y ∧
      ∃ n z, Dialogue opts backend begun (run ++ List.replicate n .acknowledge) z ∧
        Complete opts backend suffix room z ∧ z.terminal.uplink.busy = false := by
  by_cases command : suffix = []
  · subst command
    have step (y : Transcript cfg β) (d : Delivery)
        (inv : Faithful opts s y ∧ y.terminal.uplink.room = room)
        (succeeds : d.Succeeds opts backend y.terminal) :
        Faithful opts s (y.next opts backend d) ∧
          (y.next opts backend d).terminal.uplink.room = room := by
      have upright := inv.1.upright
      refine ⟨inv.1.next succeeds, ?_⟩
      rw [next_terminal, (delivered upright (succeeds.possible upright.interactive)).room]
      exact inv.2
    have holds := talk.invariant started.faithful step
    obtain ⟨n, z, talk', holds', free⟩ := talk.drains holds (fun y => y.terminal.weight opts)
      fun y inv busy => by
        refine ⟨step y .acknowledge inv busy, fun busy' => ?_⟩
        rw [next_terminal] at busy' ⊢
        exact (acknowledge_delivered inv.1.upright).2 (inv.2.symm ▸ positive) busy'
    exact ⟨holds.1.complete holds.2, n, z, talk', holds'.1.complete holds'.2, free⟩
  · have step (y : Transcript cfg β) (inv : Single s y ∧ y.terminal.uplink.room = room)
        (busy : y.terminal.uplink.busy = true) :
        (Single s (y.next opts backend .acknowledge) ∧
          (y.next opts backend .acknowledge).terminal.uplink.room = room) ∧
        ((y.next opts backend .acknowledge).terminal.uplink.busy = true →
          (y.next opts backend .acknowledge).terminal.unsent < y.terminal.unsent) := by
      obtain ⟨single, kept, less⟩ := inv.1.acknowledge_next busy (inv.2.symm ▸ positive)
      exact ⟨⟨single, kept.trans inv.2⟩, less⟩
    have keeps (y : Transcript cfg β) (d : Delivery)
        (inv : Single s y ∧ y.terminal.uplink.room = room)
        (succeeds : d.Succeeds opts backend y.terminal) :
        Single s (y.next opts backend d) ∧ (y.next opts backend d).terminal.uplink.room = room := by
      cases d with
      | write data =>
        rw [inv.1.write_next succeeds]
        exact inv
      | acknowledge => exact (step y inv succeeds).1
    have holds := talk.invariant (started.single command positive) keeps
    obtain ⟨n, z, talk', holds', free⟩ := talk.drains holds (fun y => y.terminal.unsent) step
    exact ⟨holds.1.complete holds.2, n, z, talk', holds'.1.complete holds'.2, free⟩

end Dialogues

def printer (text : List UInt8) : Backend Unit where
  malloc _ _ := (true, ())
  lock _ := (0, ())
  clearOutput _ := ()
  executeCmd _ _ := (0, ())
  getOutput _ := (text, ())

/-- A command with six bytes of output, on a stream that takes four at a time. -/
def printing : Transcript Config.project Unit where
  terminal :=
    ⟨⟨{ ShellContext.captured Config.project firstSlot ⟨0, ascii "up 12s", false⟩ with
      outputOffset := 4, txInFlight := true }, ()⟩, ⟨4, fun _ => 1, true, false⟩⟩
  signals := [.wrote (ascii "up 1")]
  printed := ascii "up 12s"

theorem shell_output_delivered_uptime :
    ∃ y, Dialogue Options.project (printer (ascii "up 12s")) printing
        [.acknowledge, .acknowledge] y ∧
      y.signals =
        [.wrote (ascii "up 1"), .acknowledged, .wrote (ascii "2s"), .acknowledged, .asked] ∧
      Complete Options.project (printer (ascii "up 12s")) (ascii "kernel uptime") 4 y := by
  have started : Started Options.project (printer (ascii "up 12s")) firstSlot
      (ascii "kernel uptime") 4 printing := ⟨(), fun _ => 1, rfl, rfl⟩
  have begins : Dialogue Options.project (printer (ascii "up 12s")) printing [] printing := .nil
  have first := begins.snoc (d := .acknowledge) (by decide +kernel)
  have second := first.snoc (d := .acknowledge) (by decide +kernel)
  exact ⟨_, second, by decide +kernel, (shell_output_delivered (by decide) started second).1⟩

end Webos.Adb.Shell
