/- digest: An interactive session runs the commands that were typed, however they were delivered. -/

import Webos.Adb.Shell.Strokes

namespace Webos.Adb.Shell

open Webos.Lib.Program

variable {cfg : Config} {β : Type} {opts : Options cfg} {backend : Backend β}

/-- The commands that a context has still to run when `later` follows its input. -/
def ShellContext.remaining (c : ShellContext cfg) (later : List UInt8) : List (List UInt8) :=
  if c.closeRequested then [] else c.upcoming (c.input ++ later)

section Steps

variable {l : Local cfg β} {r : Uplink cfg} {s : Slot cfg}

structure Processed (opts : Options cfg) (backend : Backend β) (ready : Bool) (l : Local cfg β)
    (r : Uplink cfg) (out : Int × Local cfg β × Uplink cfg) : Prop where
  ret : out.1 = 0
  stream : out.2.1.ctx.stream = l.ctx.stream
  interactive : out.2.1.ctx.interactive = l.ctx.interactive
  txInFlight : out.2.1.ctx.txInFlight = l.ctx.txInFlight
  short : l.ctx.output.length ≤ opts.outputSize → out.2.1.ctx.output.length ≤ opts.outputSize
  discarding : (l.ctx.discardLine = true → l.ctx.command = []) →
    out.2.1.ctx.discardLine = true → out.2.1.ctx.command = []
  uplink : out.2.2 = { r with closing := out.2.1.ctx.closeRequested }
  read : ready = true → out.2.1.ctx.input.length ≤ l.ctx.input.length - 1
  waiting : ready = true → out.2.1.ctx.input ≠ [] → out.2.1.ctx.output ≠ []
  skipped : ready = false → out.2.1 = l
  ran : (ready = true → roomy opts 0 l.ctx.line (l.ctx.keys l.ctx.input) = true) → ∃ commands,
    out.2.1.world = executed backend commands l.world ∧
    ∀ later, l.ctx.remaining later = commands ++ out.2.1.ctx.remaining later

theorem processIf_processed (ready : Bool) (closing : r.closing = l.ctx.closeRequested)
    (held : l.ctx.stream = some s) (empty : l.ctx.discardLine = true → l.ctx.command = [])
    (idle : ready = true → l.ctx.output = [] ∧ l.ctx.closeRequested = false) :
    Processed opts backend ready l r ((processIf opts backend ready).exec Uplink.api l r) := by
  cases ready with
  | false =>
    refine ⟨rfl, rfl, rfl, rfl, id, id, ?_, (fun no => nomatch no), (fun no => nomatch no),
      fun _ => rfl, fun _ => ⟨[], rfl, fun later => rfl⟩⟩
    exact congrArg (fun closing => { r with closing := closing }) closing
  | true =>
    obtain ⟨quiet, live⟩ := idle rfl
    have looped : Looped opts backend l.ctx.input l r _ :=
      inputLoop_looped l.ctx.input live held empty
    unfold processIf processInteractiveInput
    rw [if_pos rfl, exec_read_bind, exec_bind]
    generalize (inputLoop opts backend l.ctx.input).exec Uplink.api l r = out at looped
    obtain ⟨⟨ret, left⟩, l', r'⟩ := out
    have edited := looped.edited
    refine ⟨looped.ret, edited.stream, edited.interactive, edited.txInFlight, edited.short,
      edited.discarding, ?_, fun _ => ?_, fun _ some' => ?_, (fun no => nomatch no), fun room => ?_⟩
    · have uplink := edited.uplink
      simp only [exec_update_bind, exec_pure, Local.set]
      dsimp only at uplink
      rw [uplink]
      cases l'.ctx.closeRequested with
      | true => rfl
      | false =>
        rw [live] at closing
        rw [if_neg (by decide), ← closing]
    · simp only [exec_update_bind, exec_pure, Local.set]
      split_ifs
      · exact Nat.zero_le _
      · exact looped.read
    · simp only [exec_update_bind, exec_pure, Local.set] at some' ⊢
      split_ifs at some' with closed
      · exact absurd rfl some'
      · exact (looped.waiting some').resolve_left closed
    · obtain ⟨commands, world, upcoming⟩ := looped.ran 0 (by rw [quiet]; exact Nat.le_refl 0)
        (room rfl)
      refine ⟨commands, world, fun later => ?_⟩
      simp only [exec_update_bind, exec_pure, Local.set]
      rw [ShellContext.remaining, live, if_neg (by decide), upcoming later, ShellContext.remaining]
      split_ifs
      all_goals rfl

structure Queued (l : Local cfg β) (r : Uplink cfg) (out : Int × Local cfg β × Uplink cfg) :
    Prop where
  ret : out.1 = 0
  world : out.2.1.world = l.world
  ctx : out.2.1.ctx = { l.ctx with
    output := out.2.1.ctx.output
    txInFlight := out.2.2.busy }
  uplink : out.2.2 = { r with busy := out.2.2.busy }
  shrunk : out.2.1.ctx.output.length ≤ l.ctx.output.length
  idle : out.2.2.busy = false → out.2.1.ctx.output = []
  sent : r.busy = false → l.ctx.output ≠ [] → 0 < r.room →
    out.2.1.ctx.output.length < l.ctx.output.length
  quiet : r.busy = false → l.ctx.output = [] → out.2.2.busy = false
  taken : r.busy = true ∨ l.ctx.output ≠ [] → out.2.2.busy = true

theorem exec_queueInteractive {ρ : Type} {h : Handler (StreamCall cfg) StreamCall.Reply ρ}
    {r r' : ρ} {room : Nat} (held : l.ctx.stream = some s) (some' : l.ctx.output ≠ [])
    (asked : h (.maxPayload (some s)) r = (room, r))
    (taken : h (.write (some s) 0 (l.ctx.output.take room)) r = (0, r')) :
    (queueInteractive : Run cfg β Int).exec h l r = (0, ⟨{ l.ctx with
      output := l.ctx.output.drop (l.ctx.output.take room).length
      txInFlight := true }, l.world⟩, r') := by
  have length : ¬l.ctx.output.length = 0 := by
    rw [List.length_eq_zero_iff]
    exact some'
  unfold queueInteractive
  rw [exec_read_bind, if_neg length, held, exec_bind, exec_ask, asked, exec_bind, exec_ask, taken,
    if_pos rfl, exec_update_bind, exec_pure, Local.set]

theorem queueNextChunk_queued (held : l.ctx.stream = some s) (kind : l.ctx.interactive = true)
    (flight : l.ctx.txInFlight = r.busy) :
    Queued l r ((queueNextChunk : Run cfg β Int).exec Uplink.api l r) := by
  unfold queueNextChunk
  rw [exec_read_bind]
  cases busy : r.busy with
  | true =>
    rw [busy] at flight
    rw [flight, if_pos rfl, exec_pure]
    refine ⟨rfl, rfl, ?_, rfl, Nat.le_refl _, fun no => ?_, fun no => ?_, fun no => ?_,
      fun _ => busy⟩
    · rw [busy, ← flight]
    all_goals exact nomatch busy.symm.trans no
  | false =>
    rw [busy] at flight
    rw [flight, if_neg (by decide), kind, if_pos rfl]
    by_cases nothing : l.ctx.output = []
    · unfold queueInteractive
      rw [exec_read_bind, if_pos (List.length_eq_zero_iff.mpr nothing), exec_pure]
      refine ⟨rfl, rfl, ?_, rfl, Nat.le_refl _, fun _ => nothing, fun _ no => absurd nothing no,
        fun _ _ => busy, ?_⟩
      · rw [busy, ← flight]
      · rintro (no | no)
        · exact nomatch busy.symm.trans no
        · exact absurd nothing no
    · rw [exec_queueInteractive held nothing rfl (Uplink.api_write busy (List.length_take_le _ _))]
      refine ⟨rfl, rfl, rfl, rfl, ?_, (fun no => nomatch no), fun _ _ room => ?_,
        fun _ no => absurd no nothing, fun _ => rfl⟩
      · rw [List.length_drop]
        exact Nat.sub_le _ _
      · have some' := List.length_pos_iff.mpr nothing
        rw [List.length_drop, List.length_take]
        omega

end Steps

structure Terminal (cfg : Config) (β : Type) where
  mine : Local cfg β
  uplink : Uplink cfg

/-- What reaches a session: the payload of a WRTE packet, or the OKAY to its output. -/
inductive Delivery where
  | write (data : List UInt8)
  | acknowledge

def Delivery.typed : Delivery → List UInt8
  | .write data => data
  | .acknowledge => []

variable (opts backend) in
/-- `adb_shell_write` and `adb_shell_tx_ready` of a session, and what the router makes of their
results. -/
def Terminal.next (x : Terminal cfg β) : Delivery → Terminal cfg β
  | .write data =>
    let (ret, mine, uplink) := (writeSession opts backend data).exec Uplink.api x.mine x.uplink
    ⟨mine, uplink.settle ret⟩
  | .acknowledge =>
    let (ret, mine, uplink) :=
      (resumeSession opts backend).exec Uplink.api x.mine { x.uplink with busy := false }
    ⟨mine, if ret ≠ 0 then { uplink with closing := true } else uplink⟩

/-- The host writes while the stream is there and its input fits the buffer, and acknowledges
output that was sent. -/
def Delivery.Possible (x : Terminal cfg β) : Delivery → Prop
  | .write data => x.uplink.finished = false ∧
      data.length ≤ x.mine.ctx.inputCapacity - x.mine.ctx.input.length
  | .acknowledge => x.uplink.busy = true

instance (x : Terminal cfg β) (d : Delivery) : Decidable (d.Possible x) := by
  cases d with
  | write data => exact inferInstanceAs (Decidable (_ ∧ _))
  | acknowledge => exact inferInstanceAs (Decidable (_ = _))

variable (opts) in
/-- The command that the delivery completes finds room for its output. -/
def Delivery.Roomy (x : Terminal cfg β) : Delivery → Prop
  | .write data => x.uplink.busy = false →
      roomy opts 0 x.mine.ctx.line (x.mine.ctx.keys (x.mine.ctx.input ++ data)) = true
  | .acknowledge => x.mine.ctx.output = [] → x.mine.ctx.closeRequested = false →
      roomy opts 0 x.mine.ctx.line (x.mine.ctx.keys x.mine.ctx.input) = true

structure Upright (opts : Options cfg) (s : Slot cfg) (x : Terminal cfg β) : Prop where
  held : x.mine.ctx.stream = some s
  interactive : x.mine.ctx.interactive = true
  flight : x.mine.ctx.txInFlight = x.uplink.busy
  closing : x.uplink.closing = x.mine.ctx.closeRequested
  short : x.mine.ctx.output.length ≤ opts.outputSize
  discarding : x.mine.ctx.discardLine = true → x.mine.ctx.command = []
  quiet : x.uplink.busy = false → x.mine.ctx.output = []
  read : x.uplink.busy = false → x.mine.ctx.closeRequested = false → x.mine.ctx.input = []

section Deliveries

variable {l : Local cfg β} {r : Uplink cfg} {s : Slot cfg}

structure Continued (opts : Options cfg) (backend : Backend β) (s : Slot cfg) (ready : Bool)
    (l : Local cfg β) (r : Uplink cfg) (out : Int × Local cfg β × Uplink cfg) : Prop where
  ret : out.1 = 0
  upright : Upright opts s ⟨out.2.1, out.2.2⟩
  room : out.2.2.room = r.room
  smaller : r.busy = false → 0 < r.room → (ready = true → l.ctx.input ≠ []) → out.2.2.busy = true →
    out.2.1.ctx.output.length + (opts.outputSize + 1) * out.2.1.ctx.input.length <
      l.ctx.output.length + (opts.outputSize + 1) * l.ctx.input.length
  ran : (ready = true → roomy opts 0 l.ctx.line (l.ctx.keys l.ctx.input) = true) → ∃ commands,
    out.2.1.world = executed backend commands l.world ∧
    ∀ later, l.ctx.remaining later = commands ++ out.2.1.ctx.remaining later

theorem continued {ready : Bool} (held : l.ctx.stream = some s) (kind : l.ctx.interactive = true)
    (flight : l.ctx.txInFlight = r.busy) (closing : r.closing = l.ctx.closeRequested)
    (short : l.ctx.output.length ≤ opts.outputSize)
    (empty : l.ctx.discardLine = true → l.ctx.command = [])
    (idle : ready = true → l.ctx.output = [] ∧ l.ctx.closeRequested = false)
    (rest : ready = false → r.busy = false → l.ctx.output = [] → l.ctx.closeRequested = false →
      l.ctx.input = []) :
    Continued opts backend s ready l r ((queueNextChunk : Run cfg β Int).exec Uplink.api
      ((processIf opts backend ready).exec Uplink.api l r).2.1
      ((processIf opts backend ready).exec Uplink.api l r).2.2) := by
  have processed : Processed opts backend ready l r _ :=
    processIf_processed ready closing held empty idle
  generalize (processIf opts backend ready).exec Uplink.api l r = mid at processed
  obtain ⟨ret, m, q⟩ := mid
  have before : q = { r with closing := m.ctx.closeRequested } := processed.uplink
  have busy : q.busy = r.busy := by rw [before]
  have queued : Queued m q _ := queueNextChunk_queued (processed.stream.trans held)
    (processed.interactive.trans kind) (processed.txInFlight.trans (flight.trans busy.symm))
  generalize (queueNextChunk : Run cfg β Int).exec Uplink.api m q = out at queued
  obtain ⟨ret', l', r'⟩ := out
  have uplink : r' = { q with busy := r'.busy } := queued.uplink
  have ctx : l'.ctx = { m.ctx with output := l'.ctx.output, txInFlight := r'.busy } := queued.ctx
  have closed : q.closing = m.ctx.closeRequested := by rw [before]
  have room : q.room = r.room := by rw [before]
  have input : l'.ctx.input = m.ctx.input := by rw [ctx]
  have live : l'.ctx.closeRequested = m.ctx.closeRequested := by rw [ctx]
  -- Only an idle uplink with nothing to send stays idle.
  have still (free : r'.busy = false) : r.busy = false ∧ m.ctx.output = [] := by
    by_contra sending
    rw [not_and_or, Bool.not_eq_false, ← busy] at sending
    exact nomatch free.symm.trans (queued.taken sending)
  refine ⟨queued.ret, ⟨?_, ?_, ?_, ?_, ?_, ?_, queued.idle, fun free going => ?_⟩, ?_, ?_, ?_⟩
  · rw [ctx]
    exact processed.stream.trans held
  · rw [ctx]
    exact processed.interactive.trans kind
  · rw [ctx]
  · rw [uplink, live]
    exact closed
  · exact queued.shrunk.trans (processed.short short)
  · rw [ctx]
    exact processed.discarding empty
  · obtain ⟨free', nothing⟩ := still free
    rw [input]
    cases ready with
    | true =>
      by_contra some'
      exact processed.waiting rfl some' nothing
    | false =>
      have same : m = l := processed.skipped rfl
      rw [live, same] at going
      rw [same] at nothing ⊢
      exact rest rfl free' nothing going
  · rw [uplink]
    exact room
  · intro free some' reads sending
    dsimp only at sending ⊢
    rw [input]
    cases ready with
    | true =>
      obtain ⟨c, left, same⟩ := List.exists_cons_of_ne_nil (reads rfl)
      have less : m.ctx.input.length ≤ l.ctx.input.length - 1 := processed.read rfl
      have full : l'.ctx.output.length ≤ opts.outputSize :=
        queued.shrunk.trans (processed.short short)
      rw [same, List.length_cons, Nat.add_sub_cancel] at less
      rw [same, List.length_cons, Nat.mul_succ]
      have := Nat.mul_le_mul_left (opts.outputSize + 1) less
      omega
    | false =>
      have same : m = l := processed.skipped rfl
      have nonempty : m.ctx.output ≠ [] := by
        intro nothing
        exact nomatch (queued.quiet (busy.trans free) nothing).symm.trans sending
      have less := queued.sent (busy.trans free) nonempty (room ▸ some')
      rw [same] at less ⊢
      exact Nat.add_lt_add_right less _
  · intro fits
    obtain ⟨commands, world, remaining⟩ := processed.ran fits
    refine ⟨commands, queued.world.trans world, fun later => ?_⟩
    rw [remaining later]
    rw [ctx]
    rfl

variable {x : Terminal cfg β}

structure Delivered (opts : Options cfg) (backend : Backend β) (s : Slot cfg) (x : Terminal cfg β)
    (d : Delivery) : Prop where
  upright : Upright opts s (x.next opts backend d)
  room : (x.next opts backend d).uplink.room = x.uplink.room
  ran : d.Roomy opts x → ∃ commands,
    (x.next opts backend d).mine.world = executed backend commands x.mine.world ∧
    ∀ later, x.mine.ctx.remaining (d.typed ++ later) =
      commands ++ (x.next opts backend d).mine.ctx.remaining later

theorem write_delivered (upright : Upright opts s x) {data : List UInt8}
    (possible : (Delivery.write data).Possible x) : Delivered opts backend s x (.write data) := by
  obtain ⟨open', fits⟩ := possible
  let ready := !x.mine.ctx.txInFlight && x.mine.ctx.output.length == 0
  let l := x.mine.set fun c => { c with input := c.input ++ data }
  have free (may : ready = true) : x.uplink.busy = false := by
    rw [Bool.and_eq_true, Bool.not_eq_true'] at may
    rw [← upright.flight]
    exact may.1
  have idle (may : ready = true) : l.ctx.output = [] ∧ l.ctx.closeRequested = false := by
    refine ⟨upright.quiet (free may), ?_⟩
    have live := open'
    rw [Uplink.finished, free may, Bool.not_false, Bool.and_true, upright.closing] at live
    exact live
  have rest (no : ready = false) (free : x.uplink.busy = false) (_ : l.ctx.output = [])
      (_ : l.ctx.closeRequested = false) : l.ctx.input = [] := by
    have may : ready = true := by
      rw [Bool.and_eq_true, upright.flight, free, upright.quiet free]
      exact ⟨rfl, rfl⟩
    exact nomatch may.symm.trans no
  have processed : Processed opts backend ready l x.uplink _ :=
    processIf_processed ready upright.closing upright.held upright.discarding idle
  have work : Continued opts backend s ready l x.uplink _ :=
    continued upright.held upright.interactive upright.flight upright.closing upright.short
      upright.discarding idle rest
  have outcome : (writeSession opts backend data).exec Uplink.api x.mine x.uplink =
      (queueNextChunk : Run cfg β Int).exec Uplink.api
        ((processIf opts backend ready).exec Uplink.api l x.uplink).2.1
        ((processIf opts backend ready).exec Uplink.api l x.uplink).2.2 := by
    unfold writeSession
    rw [exec_read_bind, upright.interactive, if_neg (by decide), if_neg (Nat.not_lt.mpr fits),
      exec_update_bind, exec_bind, if_pos processed.ret]
  have next : x.next opts backend (.write data) =
      ⟨((writeSession opts backend data).exec Uplink.api x.mine x.uplink).2.1,
        ((writeSession opts backend data).exec Uplink.api x.mine x.uplink).2.2⟩ := by
    have ret := work.ret
    rw [← outcome] at ret
    unfold Terminal.next
    dsimp only
    rw [ret]
    rfl
  rw [outcome] at next
  refine ⟨?_, ?_, fun roomy' => ?_⟩
  · rw [next]
    exact work.upright
  · rw [next]
    exact work.room
  · rw [next]
    obtain ⟨commands, world, remaining⟩ := work.ran fun may => roomy' (free may)
    refine ⟨commands, world, fun later => ?_⟩
    rw [← remaining later]
    unfold ShellContext.remaining
    rw [← List.append_assoc]
    rfl

def Terminal.weight (opts : Options cfg) (x : Terminal cfg β) : Nat :=
  x.mine.ctx.output.length + (opts.outputSize + 1) * x.mine.ctx.input.length

theorem acknowledge_delivered (upright : Upright opts s x) :
    Delivered opts backend s x .acknowledge ∧ (0 < x.uplink.room →
      (x.next opts backend .acknowledge).uplink.busy = true →
        (x.next opts backend .acknowledge).weight opts < x.weight opts) := by
  let l := x.mine.set fun c => { c with txInFlight := false }
  let r := { x.uplink with busy := false }
  let ready := l.ctx.interactive && l.ctx.output.length == 0 && l.ctx.input.length != 0 &&
    !l.ctx.closeRequested
  have begins (may : ready = true) :
      l.ctx.output = [] ∧ l.ctx.input ≠ [] ∧ l.ctx.closeRequested = false := by
    rw [Bool.and_eq_true, Bool.and_eq_true, Bool.and_eq_true, Bool.not_eq_true', bne_iff_ne, Ne,
      beq_iff_eq, List.length_eq_zero_iff, List.length_eq_zero_iff] at may
    exact ⟨may.1.1.2, may.1.2, may.2⟩
  have idle (may : ready = true) : l.ctx.output = [] ∧ l.ctx.closeRequested = false :=
    ⟨(begins may).1, (begins may).2.2⟩
  have rest (no : ready = false) (_ : r.busy = false) (nothing : l.ctx.output = [])
      (live : l.ctx.closeRequested = false) : l.ctx.input = [] := by
    by_contra some'
    have may : ready = true := by
      rw [Bool.and_eq_true, Bool.and_eq_true, Bool.and_eq_true, Bool.not_eq_true', bne_iff_ne, Ne,
        beq_iff_eq, List.length_eq_zero_iff, List.length_eq_zero_iff]
      exact ⟨⟨⟨upright.interactive, nothing⟩, some'⟩, live⟩
    exact nomatch may.symm.trans no
  have processed : Processed opts backend ready l r _ :=
    processIf_processed ready upright.closing upright.held upright.discarding idle
  have work : Continued opts backend s ready l r _ :=
    continued upright.held upright.interactive rfl upright.closing upright.short upright.discarding
      idle rest
  have outcome : (resumeSession opts backend).exec Uplink.api x.mine r =
      (queueNextChunk : Run cfg β Int).exec Uplink.api
        ((processIf opts backend ready).exec Uplink.api l r).2.1
        ((processIf opts backend ready).exec Uplink.api l r).2.2 := by
    unfold resumeSession
    rw [exec_update_bind, exec_read_bind, exec_bind]
    exact congrArg (fun m : Run cfg β Int => m.exec Uplink.api _ _)
      (if_neg (not_not.mpr processed.ret))
  have next : x.next opts backend .acknowledge =
      ⟨((resumeSession opts backend).exec Uplink.api x.mine r).2.1,
        ((resumeSession opts backend).exec Uplink.api x.mine r).2.2⟩ := by
    have ret := work.ret
    rw [← outcome] at ret
    unfold Terminal.next
    dsimp only
    rw [if_neg (not_not.mpr ret)]
  rw [outcome] at next
  refine ⟨⟨?_, ?_, fun roomy' => ?_⟩, ?_⟩
  · rw [next]
    exact work.upright
  · rw [next]
    exact work.room
  · rw [next]
    exact work.ran fun may => roomy' (begins may).1 (begins may).2.2
  · rw [next]
    exact fun some' => work.smaller rfl some' fun may => (begins may).2.1

theorem delivered (upright : Upright opts s x) {d : Delivery} (possible : d.Possible x) :
    Delivered opts backend s x d := by
  cases d with
  | write data => exact write_delivered upright possible
  | acknowledge => exact (acknowledge_delivered upright).1

end Deliveries

/-- A session as `adb_shell_open` leaves it on a free uplink. -/
def Begun (opts : Options cfg) (backend : Backend β) (s : Slot cfg) (x : Terminal cfg β) : Prop :=
  ∃ world room generation, (openSession opts backend []).exec Uplink.api
    ⟨{ ShellContext.zero cfg with stream := some s }, world⟩ ⟨room, generation, false, false⟩ =
      (0, x.mine, x.uplink)

inductive Conversation (opts : Options cfg) (backend : Backend β)
    (meets : Terminal cfg β → Delivery → Prop) (begun : Terminal cfg β) :
    List Delivery → Terminal cfg β → Prop where
  | nil : Conversation opts backend meets begun [] begun
  | snoc {run : List Delivery} {x : Terminal cfg β} {d : Delivery} :
    Conversation opts backend meets begun run x → d.Possible x → meets x d →
      Conversation opts backend meets begun (run ++ [d]) (x.next opts backend d)

def keystrokes (run : List Delivery) : List UInt8 := run.flatMap Delivery.typed

section Conversations

variable {s : Slot cfg} {begun x : Terminal cfg β} {run : List Delivery}
  {meets : Terminal cfg β → Delivery → Prop}

def ShellContext.prompting (opts : Options cfg) (s : Slot cfg) : ShellContext cfg :=
  { ShellContext.zero cfg with
    stream := some s
    inputCapacity := opts.inputSize
    interactive := true
    output := opts.prompt.take opts.outputSize }

theorem prepareSession_nil (opts : Options cfg) (backend : Backend β) (s : Slot cfg) (world : β) :
    prepareSession opts backend [] ⟨{ ShellContext.zero cfg with stream := some s }, world⟩ =
      if (backend.malloc world opts.inputSize).1 then
        (0, ⟨.prompting opts s,
          webosShellClearOutput backend (backend.malloc world opts.inputSize).2⟩)
      else (-ENOMEM, ⟨.zero cfg, (backend.malloc world opts.inputSize).2⟩) := by
  unfold prepareSession
  rfl

theorem Begun.upright (opened : Begun opts backend s begun) : Upright opts s begun ∧
    ∀ later, begun.mine.ctx.remaining later = typedCommands cfg.shellCommandSize later := by
  obtain ⟨world, room, generation, opened⟩ := opened
  unfold openSession at opened
  rw [exec_step_bind, prepareSession_nil] at opened
  by_cases found : (backend.malloc world opts.inputSize).1 = true
  · rw [if_pos found, if_neg (not_not.mpr rfl), exec_bind] at opened
    have queued : Queued (⟨.prompting opts s, webosShellClearOutput backend
        (backend.malloc world opts.inputSize).2⟩ : Local cfg β)
        ⟨room, generation, false, false⟩ _ :=
      queueNextChunk_queued (s := s) rfl rfl rfl
    generalize (queueNextChunk : Run cfg β Int).exec Uplink.api _ _ = out at queued opened
    obtain ⟨ret, l, r⟩ := out
    have zero : ret = 0 := queued.ret
    have ctx : l.ctx = { ShellContext.prompting opts s with
      output := l.ctx.output, txInFlight := r.busy } := queued.ctx
    have uplink : r = ⟨room, generation, r.busy, false⟩ := queued.uplink
    have length : l.ctx.output.length ≤ opts.outputSize := by
      refine queued.shrunk.trans ?_
      rw [ShellContext.prompting, List.length_take]
      exact Nat.min_le_left _ _
    have open' : r.closing = false := by rw [uplink]
    rw [zero, if_neg (not_not.mpr rfl)] at opened
    cases opened
    refine ⟨⟨?_, ?_, ?_, ?_, length, ?_, queued.idle, ?_⟩, fun later => ?_⟩
    · rw [ctx]
      rfl
    · rw [ctx]
      rfl
    · rw [ctx]
    · rw [ctx]
      exact open'
    · rw [ctx]
      exact fun _ => rfl
    · intro _ _
      rw [ctx]
      rfl
    · rw [ctx]
      rfl
  · rw [if_neg found] at opened
    cases opened

theorem Conversation.upright (opened : Begun opts backend s begun)
    (talk : Conversation opts backend meets begun run x) :
    Upright opts s x ∧ x.uplink.room = begun.uplink.room := by
  induction talk with
  | nil => exact ⟨opened.upright.1, rfl⟩
  | snoc _ possible _ ih =>
    have done : Delivered opts backend s _ _ := delivered ih.1 possible
    exact ⟨done.upright, done.room.trans ih.2⟩

theorem Upright.settles (upright : Upright opts s x) (room : 0 < x.uplink.room) :
    ∃ n, ((fun x => x.next opts backend .acknowledge)^[n] x).uplink.busy = false := by
  induction weight : x.weight opts using Nat.strong_induction_on generalizing x with
  | h size ih =>
    subst weight
    obtain ⟨done, smaller⟩ : Delivered opts backend s x .acknowledge ∧ _ :=
      acknowledge_delivered upright
    cases busy : (x.next opts backend .acknowledge).uplink.busy with
    | false => exact ⟨1, busy⟩
    | true =>
      obtain ⟨n, free⟩ := ih _ (smaller room busy) done.upright (done.room.symm ▸ room) rfl
      exact ⟨n + 1, free⟩

theorem skipEscapes_nil (state : EscapeState) : skipEscapes state [] = [] := by
  cases state <;> rfl

theorem Upright.remaining (upright : Upright opts s x) (free : x.uplink.busy = false) :
    x.mine.ctx.remaining [] = [] := by
  unfold ShellContext.remaining
  split_ifs with closed
  · rfl
  · rw [upright.read free (by rw [← Bool.not_eq_true]; exact closed), ShellContext.upcoming,
      ShellContext.keys, List.append_nil, skipEscapes_nil]
    cases x.mine.ctx.line <;> rfl

/-- The commands that were typed are run in their order, however they were delivered, as long as
each finds room for its output. -/
theorem typed_commands_executed (opened : Begun opts backend s begun)
    (talk : Conversation opts backend (fun x d => d.Roomy opts x) begun run x) :
    (∃ ran rest, typedCommands cfg.shellCommandSize (keystrokes run) = ran ++ rest ∧
      x.mine.world = executed backend ran begun.mine.world ∧
      (x.uplink.busy = false → rest = [])) ∧
    (0 < begun.uplink.room →
      ∃ n, ((fun x => x.next opts backend .acknowledge)^[n] x).uplink.busy = false) := by
  obtain ⟨upright, room⟩ := talk.upright opened
  refine ⟨?_, fun some' => upright.settles (room.symm ▸ some')⟩
  have ran : ∃ ran, x.mine.world = executed backend ran begun.mine.world ∧
      ∀ later, typedCommands cfg.shellCommandSize (keystrokes run ++ later) =
        ran ++ x.mine.ctx.remaining later := by
    clear upright room
    induction talk with
    | nil => exact ⟨[], rfl, fun later => (opened.upright.2 later).symm⟩
    | snoc before possible roomy' ih =>
      obtain ⟨first, world, typed⟩ := ih
      have done : Delivered opts backend s _ _ :=
        delivered (before.upright opened).1 possible
      obtain ⟨second, world', remaining⟩ := done.ran roomy'
      refine ⟨first ++ second, ?_, fun later => ?_⟩
      · rw [world', world, executed_append]
      · rw [keystrokes, List.flatMap_append, List.flatMap_singleton, List.append_assoc,
          List.append_assoc, ← remaining later]
        exact typed _
  obtain ⟨ran, world, typed⟩ := ran
  refine ⟨ran, x.mine.ctx.remaining [], ?_, world, upright.remaining⟩
  rw [← typed [], List.append_nil]

end Conversations

/-- A dummy shell that prints nothing and remembers the commands it was given. -/
def recorder : Backend (List (List UInt8)) where
  malloc log _ := (true, log)
  lock log := (0, log)
  clearOutput log := log
  executeCmd log command := (0, log ++ [command])
  getOutput log := ([], log)

def Options.small : Options Config.project :=
  { Options.project with
    outputSize := 128
    outputSize_range := by decide }

def prompted (opts : Options Config.project) : Terminal Config.project (List (List UInt8)) where
  mine := ⟨{ ShellContext.prompting opts firstSlot with output := [], txInFlight := true }, []⟩
  uplink := ⟨4096, fun _ => 1, true, false⟩

/-- A command in two packets, with the echo of the first acknowledged in between. -/
theorem typed_commands_executed_uptime : ∃ x run,
    Conversation Options.project recorder (fun x d => d.Roomy Options.project x)
      (prompted .project) run x ∧ x.uplink.busy = false ∧
    ∃ ran rest, typedCommands 256 (keystrokes run) = ran ++ rest ∧
      x.mine.world = executed recorder ran [] ∧ (x.uplink.busy = false → rest = []) := by
  have begun : Begun Options.project recorder firstSlot (prompted .project) :=
    ⟨[], 4096, fun _ => 1, rfl⟩
  have begins : Conversation Options.project recorder (fun x d => d.Roomy Options.project x)
    (prompted .project) [] _ := .nil
  have ready := begins.snoc (d := .acknowledge) rfl fun _ _ => by decide +kernel
  have typing := ready.snoc (d := .write (ascii "kernel up")) (by decide +kernel)
    fun _ => by decide +kernel
  have shown := typing.snoc (d := .acknowledge) (by decide +kernel) fun _ _ => by decide +kernel
  have typed := shown.snoc (d := .write (ascii "time\r")) (by decide +kernel)
    fun _ => by decide +kernel
  have done := typed.snoc (d := .acknowledge) (by decide +kernel) fun _ _ => by decide +kernel
  exact ⟨_, _, done, by decide +kernel, (typed_commands_executed begun done).1⟩

theorem prompted_begun : Begun Options.small recorder firstSlot (prompted .small) :=
  ⟨[], 4096, fun _ => 1, rfl⟩

def firstHalf : List UInt8 := ascii "fs write /STORAGE:/" ++ List.replicate 42 97
def secondHalf : List UInt8 := ascii " " ++ List.replicate 60 98 ++ ascii "\r"

theorem pasted_command_lost : ∃ x y run run',
    Begun Options.small recorder firstSlot (prompted .small) ∧
    Conversation Options.small recorder (fun _ _ => True) (prompted .small) run x ∧
    Conversation Options.small recorder (fun _ _ => True) (prompted .small) run' y ∧
    keystrokes run = keystrokes run' ∧ x.uplink.busy = false ∧ y.uplink.busy = false ∧
    x.mine.world = [] ∧ y.mine.world = typedCommands 256 (keystrokes run') ∧
    y.mine.world ≠ [] := by
  have begins : Conversation Options.small recorder (fun _ _ => True) (prompted .small) [] _ := .nil
  have ready := begins.snoc (d := .acknowledge) rfl trivial
  have pasted := ready.snoc (d := .write (firstHalf ++ secondHalf)) (by decide +kernel) trivial
  have typing := ready.snoc (d := .write firstHalf) (by decide +kernel) trivial
  have shown := typing.snoc (d := .acknowledge) (by decide +kernel) trivial
  have typed := shown.snoc (d := .write secondHalf) (by decide +kernel) trivial
  have pasted' := pasted.snoc (d := .acknowledge) (by decide +kernel) trivial
  have typed' := typed.snoc (d := .acknowledge) (by decide +kernel) trivial
  refine ⟨_, _, _, _, prompted_begun, pasted', typed', ?_⟩
  decide +kernel

end Webos.Adb.Shell
