/- digest: The callbacks of a shell session stay inside the session's buffers. -/

import Webos.Adb.Shell.Interactive
import Webos.Lib.Checked
import Webos.Lib.CheckedProgram

namespace Webos.Adb.Shell

open Webos.Lib.Bytes Webos.Lib.Checked Webos.Lib.Program

variable {cfg : Config} {β ρ : Type}

/-- The lengths of a context are those of data inside its buffers. The input block is as large as
the capacity that `adb_shell_open` asked the heap for. -/
structure Bounded (opts : Options cfg) (c : ShellContext cfg) : Prop where
  command : c.command.length < cfg.shellCommandSize
  output : c.output.length ≤ opts.outputSize
  offset : c.outputOffset ≤ c.output.length
  input : c.input.length ≤ c.inputCapacity
  block : c.inputCapacity ≤ opts.inputSize

instance boundedDecidable (opts : Options cfg) (c : ShellContext cfg) :
    Decidable (Bounded opts c) :=
  decidable_of_iff (c.command.length < cfg.shellCommandSize ∧ c.output.length ≤ opts.outputSize ∧
    c.outputOffset ≤ c.output.length ∧ c.input.length ≤ c.inputCapacity ∧
    c.inputCapacity ≤ opts.inputSize)
    ⟨fun held => ⟨held.1, held.2.1, held.2.2.1, held.2.2.2.1, held.2.2.2.2⟩,
      fun held => ⟨held.command, held.output, held.offset, held.input, held.block⟩⟩

/-- Code of the service with every size difference, store and copy checked. -/
abbrev Check (cfg : Config) (β α : Type) :=
  Attempt (Local cfg β) (StreamCall cfg) StreamCall.Reply α

def Local.trySet (l : Local cfg β) (f : ShellContext cfg → Option (ShellContext cfg)) :
    Option (Local cfg β) :=
  (f l.ctx).map fun ctx => { l with ctx }

section Checked

variable (opts : Options cfg) (backend : Backend β)

/-- `append_output`. What it has no room for sets `truncated`. -/
def appendOutputChecked (data : List UInt8) (c : ShellContext cfg) : Option (ShellContext cfg) := do
  let available ← sub opts.outputSize c.output.length
  let count := min data.length available
  require (c.output.length + count ≤ opts.outputSize)
  let truncated := c.truncated || count != data.length
  require (count < data.length → truncated = true)
  some { c with output := c.output ++ data.take count, truncated := truncated }

/-- `webos_shell_execute` into a buffer with `room` bytes: the text is followed by a terminator. -/
def webosShellExecuteChecked (command : List UInt8) (capacity room : Nat) (b : β) :
    Option (Executed × β) :=
  if capacity = 0 then some (⟨-EINVAL, [], false⟩, b)
  else
    let (ret, b) := backend.lock b
    if ret ≠ 0 then some (⟨ret, [], false⟩, b)
    else do
      let (ret, b) := backend.executeCmd (backend.clearOutput b) command
      let (text, b) := backend.getOutput b
      let most ← sub capacity 1
      let output := text.take most
      require (output.length < room)
      let truncated := output.length != text.length
      require (output.length < text.length → truncated = true)
      some (⟨ret, output, truncated⟩, b)

/-- The command of a line. The capacity is never below two, and the prompt has room behind what
was captured. -/
def executeLineChecked (addPrompt : Bool) (l : Local cfg β) : Option (Local cfg β) :=
  let promptLen := if addPrompt then opts.prompt.length else 0
  if l.ctx.command.length = 0 then some l
  else do
    let available ← sub opts.outputSize l.ctx.output.length
    if available ≤ promptLen + 1 then some (l.set fun c => { c with truncated := true })
    else do
      let capacity ← sub available promptLen
      require (2 ≤ capacity)
      let (out, world) ← webosShellExecuteChecked backend l.ctx.command capacity available l.world
      require (l.ctx.output.length + out.output.length + promptLen ≤ opts.outputSize)
      some
        { ctx := { l.ctx with
            commandRc := out.ret
            output := l.ctx.output ++ out.output
            truncated := l.ctx.truncated || out.truncated }
          world := world }

def executeInteractiveLineChecked (addPrompt : Bool) : Check cfg β Int := do
  Attempt.update fun l => l.trySet (appendOutputChecked opts (ascii "\r\n"))
  let l ← Attempt.read
  -- the terminator of the command
  Attempt.of (require (l.ctx.command.length < cfg.shellCommandSize))
  if l.ctx.command = ascii "exit" then do
    Attempt.update fun l => some (l.set fun c => { c with command := [], closeRequested := true })
    hangUp.whole
    pure 0
  else do
    Attempt.update (executeLineChecked opts backend addPrompt)
    Attempt.update fun l => some (l.set fun c => { c with command := [] })
    if addPrompt then do
      Attempt.update fun l => l.trySet (appendOutputChecked opts opts.prompt)
      pure 0
    else pure 0

def executeRestChecked : Check cfg β Int := do
  let l ← Attempt.read
  if l.ctx.command.length ≠ 0 then executeInteractiveLineChecked opts backend false else pure 0

def handleKeyChecked (value : UInt8) : Key → Check cfg β (Bool × Int)
  | .skipped | .discarded => pure (false, 0)
  | .discardedEnd => do
    Attempt.update fun l => l.trySet fun c =>
      appendOutputChecked opts (ascii "\r\n" ++ opts.prompt) { c with discardLine := false }
    pure (true, 0)
  | .lineEnd => do
    let ret ← executeInteractiveLineChecked opts backend true
    let l ← Attempt.read
    pure (decide (ret ≠ 0) || l.ctx.closeRequested || decide (l.ctx.output.length ≠ 0), ret)
  | .endOfTransmission => do
    let ret ← executeRestChecked opts backend
    Attempt.update fun l => some (l.set fun c => { c with closeRequested := true })
    hangUp.whole
    pure (true, ret)
  | .interrupt => do
    Attempt.update fun l => l.trySet fun c =>
      appendOutputChecked opts (ascii "^C\r\n" ++ opts.prompt) { c with command := [] }
    pure (true, 0)
  | .erase => do
    Attempt.update fun l => l.trySet fun c =>
      if c.command.length ≠ 0 then do
        let left ← sub c.command.length 1
        appendOutputChecked opts [0x08, 0x20, 0x08] { c with command := c.command.take left }
      else some c
    pure (false, 0)
  | .tab => do
    Attempt.update fun l => l.trySet (appendOutputChecked opts [0x07])
    pure (false, 0)
  | .overflow => do
    Attempt.update fun l => l.trySet fun c =>
      appendOutputChecked opts (ascii "\r\nCommand too long")
        { c with command := [], discardLine := true }
    pure (true, 0)
  | .printable => do
    Attempt.update fun l => l.trySet fun c => do
      require (c.command.length < cfg.shellCommandSize)
      appendOutputChecked opts [value] { c with command := c.command ++ [value] }
    pure (false, 0)

def inputPassChecked (value : UInt8) : Check cfg β (Bool × Int) := do
  let inEscape ← Routine.whole (Routine.step fun l =>
    let (taken, c) := escapeFilter value l.ctx
    (taken, { l with ctx := c }))
  if inEscape then pure (false, 0)
  else do
    let inPair ← Routine.whole (Routine.step fun l =>
      let (taken, c) := lineFilter value l.ctx
      (taken, { l with ctx := c }))
    if inPair then pure (false, 0)
    else do
      let l ← Attempt.read
      handleKeyChecked opts backend value (classify value l.ctx)

def endInputChecked (consumed : Nat) : Check cfg β Unit := do
  let l ← Attempt.read
  let left ← Attempt.of (sub l.ctx.input.length consumed)
  Attempt.of (require (consumed + left ≤ l.ctx.inputCapacity))

/-- The loop of `process_interactive_input`, which has consumed some bytes. All the lengths are
within their bounds before every pass. -/
def inputLoopChecked : Nat → List UInt8 → Check cfg β (Int × List UInt8)
  | consumed, [] => do
    endInputChecked consumed
    pure (0, [])
  | consumed, value :: rest => do
    let l ← Attempt.read
    Attempt.of (require (Bounded opts l.ctx))
    Attempt.of (require (consumed < l.ctx.inputCapacity))
    let (stop, ret) ← inputPassChecked opts backend value
    if stop then do
      endInputChecked (consumed + 1)
      pure (ret, rest)
    else inputLoopChecked (consumed + 1) rest

def processInteractiveInputChecked : Check cfg β Int := do
  let l ← Attempt.read
  let (ret, rest) ← inputLoopChecked opts backend 0 l.ctx.input
  Attempt.update fun l => some (l.set fun c =>
    { c with input := if c.closeRequested then [] else rest })
  pure ret

def processIfChecked (ready : Bool) : Check cfg β Int :=
  if ready then processInteractiveInputChecked opts backend else pure 0

/-- The interactive half of `queue_next_chunk`: the rest of the output moves to the front. -/
def queueInteractiveChecked : Check cfg β Int := do
  let l ← Attempt.read
  if l.ctx.output.length = 0 then pure 0
  else do
    let room ← (Routine.ask (StreamCall.maxPayload l.ctx.stream)).whole
    let chunk := l.ctx.output.take room
    let ret ← (Routine.ask (StreamCall.write l.ctx.stream 0 chunk)).whole
    if ret = 0 then do
      let left ← Attempt.of (sub l.ctx.output.length chunk.length)
      Attempt.of (require (chunk.length + left ≤ opts.outputSize))
      Attempt.update fun l => some (l.set fun c =>
        { c with output := c.output.drop chunk.length, txInFlight := true })
      pure ret
    else pure ret

def queueOneShotChecked : Check cfg β Int := do
  let l ← Attempt.read
  let remaining ← Attempt.of (sub l.ctx.output.length l.ctx.outputOffset)
  let room ← (Routine.ask (StreamCall.maxPayload l.ctx.stream)).whole
  let chunk := (l.ctx.output.drop l.ctx.outputOffset).take room
  Attempt.of (require (chunk.length = min remaining room ∧
    l.ctx.outputOffset + chunk.length ≤ opts.outputSize))
  if chunk.length = 0 then do
    hangUp.whole
    pure 0
  else do
    let ret ← (Routine.ask (StreamCall.write l.ctx.stream 0 chunk)).whole
    if ret = 0 then do
      Attempt.update fun l => some (l.set fun c =>
        { c with outputOffset := c.outputOffset + chunk.length, txInFlight := true })
      pure ret
    else pure ret

def queueNextChunkChecked : Check cfg β Int := do
  let l ← Attempt.read
  if l.ctx.txInFlight then pure 0
  else if l.ctx.interactive then queueInteractiveChecked opts
  else queueOneShotChecked opts

def writeSessionChecked (data : List UInt8) : Check cfg β Int := do
  let l ← Attempt.read
  if !l.ctx.interactive then pure (if data.length = 0 then 0 else -ENOTSUP)
  else do
    let free ← Attempt.of (sub l.ctx.inputCapacity l.ctx.input.length)
    if data.length > free then pure (-ENOSPC)
    else do
      Attempt.of (require (l.ctx.input.length + data.length ≤ l.ctx.inputCapacity))
      Attempt.update fun l => some (l.set fun c => { c with input := c.input ++ data })
      let ret ← processIfChecked opts backend (!l.ctx.txInFlight && l.ctx.output.length == 0)
      if ret = 0 then queueNextChunkChecked opts else pure ret

def resumeSessionChecked : Check cfg β Int := do
  Attempt.update fun l => some (l.set fun c => { c with txInFlight := false })
  let l ← Attempt.read
  let ret ← processIfChecked opts backend (l.ctx.interactive && l.ctx.output.length == 0 &&
    l.ctx.input.length != 0 && !l.ctx.closeRequested)
  if ret ≠ 0 then pure ret else queueNextChunkChecked opts

end Checked

/-- A context within its bounds, with `n` bytes of input, and `truncated` where it was set. -/
structure Contained (opts : Options cfg) (flag : Bool) (n : Nat) (c : ShellContext cfg) : Prop where
  bounded : Bounded opts c
  still : c.interactive = true → c.outputOffset = 0
  flagged : flag = true → c.truncated = true
  input : c.input.length = n

section Contained

variable {opts : Options cfg} {flag : Bool} {n : Nat} {c : ShellContext cfg}

theorem appendOutputChecked_eq (data : List UInt8) (short : c.output.length ≤ opts.outputSize) :
    appendOutputChecked opts data c = some (appendOutput opts data c) := by
  have inside : c.output.length + min data.length (opts.outputSize - c.output.length) ≤
      opts.outputSize := by
    omega
  have noted : min data.length (opts.outputSize - c.output.length) < data.length →
      (c.truncated || min data.length (opts.outputSize - c.output.length) != data.length) = true :=
    fun cut => by
      rw [bne_iff_ne.mpr (Nat.ne_of_lt cut), Bool.or_true]
  unfold appendOutputChecked appendOutput
  simp only [Option.bind_eq_bind, sub_of_le short, Option.bind_some, require_of inside,
    require_of noted]

theorem Contained.printed {c' : ShellContext cfg} (held : Contained opts flag n c)
    (printed : Printed opts c c') (grown : c.output.length ≤ c'.output.length)
    (noted : c.truncated = true → c'.truncated = true) : Contained opts flag n c' := by
  have short := printed.short held.bounded.output
  have flagged (on : flag = true) : c'.truncated = true := noted (held.flagged on)
  have offset := held.bounded.offset.trans grown
  rw [printed.same]
  exact ⟨⟨held.bounded.command, short, offset, held.bounded.input, held.bounded.block⟩, held.still,
    flagged, held.input⟩

theorem Contained.append (held : Contained opts flag n c) (data : List UInt8) :
    Contained opts flag n (appendOutput opts data c) := by
  refine held.printed (appendOutput_printed data c) ?_ fun on => ?_
  · rw [appendOutput_output, List.length_append]
    exact Nat.le_add_right _ _
  · unfold appendOutput
    dsimp only
    rw [on, Bool.true_or]

/-- What `Contained` reads of a context apart from the command line. -/
def ShellContext.buffers (c : ShellContext cfg) :=
  (c.output, c.outputOffset, c.interactive, c.truncated, c.input, c.inputCapacity)

theorem Contained.moved {c' : ShellContext cfg} (held : Contained opts flag n c)
    (command : c'.command.length < cfg.shellCommandSize) (same : c'.buffers = c.buffers) :
    Contained opts flag n c' := by
  cases c
  cases c'
  cases same
  exact { held with bounded := { held.bounded with command } }

theorem command_pos (cfg : Config) : ([] : List UInt8).length < cfg.shellCommandSize :=
  Nat.lt_of_lt_of_le (by decide) cfg.shellCommandSize_range.1

end Contained

section Execution

variable {opts : Options cfg} {backend : Backend β} {flag : Bool} {n : Nat}

theorem webosShellExecuteChecked_eq (backend : Backend β) (command : List UInt8)
    {capacity room : Nat}
    (some' : 0 < capacity) (fits : capacity ≤ room) (b : β) :
    webosShellExecuteChecked backend command capacity room b =
      some (webosShellExecute backend command capacity b) := by
  unfold webosShellExecuteChecked webosShellExecute
  dsimp only
  rw [if_neg (Nat.ne_of_gt some'), if_neg (Nat.ne_of_gt some')]
  split_ifs with refused
  · rfl
  · generalize (backend.getOutput
      (backend.executeCmd (backend.clearOutput (backend.lock b).2) command).2).1 = text
    have inside : (text.take (capacity - 1)).length < room := by
      rw [List.length_take]
      omega
    have noted : (text.take (capacity - 1)).length < text.length →
        ((text.take (capacity - 1)).length != text.length) = true :=
      fun cut => bne_iff_ne.mpr (Nat.ne_of_lt cut)
    simp only [Option.bind_eq_bind, sub_of_le (Nat.succ_le_of_lt some'), Option.bind_some,
      require_of inside, require_of noted]

theorem executeLineChecked_eq {l : Local cfg β} (addPrompt : Bool)
    (short : l.ctx.output.length ≤ opts.outputSize) :
    executeLineChecked opts backend addPrompt l = some (executeLine opts backend addPrompt l) := by
  unfold executeLineChecked executeLine
  dsimp only
  generalize (if addPrompt then opts.prompt.length else 0) = promptLen
  split_ifs with empty full
  · rfl
  · simp only [Option.bind_eq_bind, sub_of_le short, Option.bind_some, if_pos full]
  · obtain ⟨capacity, left⟩ : ∃ capacity, opts.outputSize - l.ctx.output.length - promptLen =
        capacity := ⟨_, rfl⟩
    have enough : 2 ≤ capacity := by omega
    have captured := execute_length backend l.ctx.command capacity l.world
    have ran := webosShellExecuteChecked_eq backend l.ctx.command
      (Nat.lt_of_lt_of_le Nat.zero_lt_two enough)
      (left ▸ Nat.sub_le _ _) l.world
    have behind : l.ctx.output.length +
        (webosShellExecute backend l.ctx.command capacity l.world).1.output.length + promptLen ≤
          opts.outputSize := by
      omega
    simp only [Option.bind_eq_bind, sub_of_le short, Option.bind_some, if_neg full, left,
      sub_of_le (show promptLen ≤ opts.outputSize - l.ctx.output.length by omega),
      require_of enough, ran, require_of behind]

theorem Contained.execute {l : Local cfg β} (held : Contained opts flag n l.ctx)
    (addPrompt : Bool) : Contained opts flag n (executeLine opts backend addPrompt l).ctx := by
  have grows : l.ctx.output.length ≤ (executeLine opts backend addPrompt l).ctx.output.length ∧
      (l.ctx.truncated = true → (executeLine opts backend addPrompt l).ctx.truncated = true) := by
    unfold executeLine
    dsimp only
    generalize (if addPrompt then opts.prompt.length else 0) = promptLen
    split_ifs
    · exact ⟨Nat.le_refl _, id⟩
    · exact ⟨Nat.le_refl _, fun _ => rfl⟩
    · refine ⟨?_, fun on => ?_⟩
      · rw [List.length_append]
        exact Nat.le_add_right _ _
      · rw [on, Bool.true_or]
  exact held.printed (executeLine_printed opts backend addPrompt l) grows.1 grows.2

end Execution

section Routines

variable {opts : Options cfg} {backend : Backend β} {flag : Bool} {n : Nat}

abbrev Contains {α : Type} (opts : Options cfg) (flag : Bool) (n : Nat) (pre : Local cfg β → Prop)
    (a : Check cfg β α) (m : Run cfg β α) : Prop :=
  a.Succeeds pre (fun _ l => Contained opts flag n l.ctx) m

abbrev Within (opts : Options cfg) (flag : Bool) (l : Local cfg β) : Prop :=
  ∃ m, Contained opts flag m l.ctx

variable {f : ShellContext cfg → ShellContext cfg}

private theorem trySet_append {l : Local cfg β} {data : List UInt8}
    (held : Contained opts flag n (f l.ctx)) :
    l.trySet (fun c => appendOutputChecked opts data (f c)) =
      some (l.set fun c => appendOutput opts data (f c)) := by
  unfold Local.trySet Local.set
  dsimp only
  rw [appendOutputChecked_eq data held.bounded.output]
  rfl

variable {pre : Local cfg β → Prop}

private theorem append_succeeds {data : List UInt8}
    (moved : ∀ l, pre l → Contained opts flag n (f l.ctx)) :
    Contains opts flag n pre (Attempt.update fun l => l.trySet fun c =>
      appendOutputChecked opts data (f c) : Check cfg β Unit)
      (Routine.update fun l => l.set fun c => appendOutput opts data (f c)) :=
  .update (fun l holds => trySet_append (moved l holds)) fun l holds => (moved l holds).append data

private theorem set_succeeds (moved : ∀ l, pre l → Contained opts flag n (f l.ctx)) :
    Contains opts flag n pre (Attempt.update fun l => some (l.set f) : Check cfg β Unit)
      (Routine.update fun l => l.set f) :=
  .update (fun _ _ => rfl) fun l holds => moved l holds

private theorem hangUp_succeeds :
    Contains opts flag n (fun l => Contained opts flag n l.ctx)
      (hangUp.whole : Check cfg β Unit) hangUp :=
  .whole (.read fun _ holds _ same => ⟨trivial, fun _ => same ▸ holds⟩)

private theorem executeInteractiveLine_succeeds (addPrompt : Bool) :
    Contains opts flag n (fun l => Contained opts flag n l.ctx)
      (executeInteractiveLineChecked opts backend addPrompt)
      (executeInteractiveLine opts backend addPrompt) := by
  have emptied {c : ShellContext cfg} (held : Contained opts flag n c) (closing : Bool) :
      Contained opts flag n { c with command := [], closeRequested := closing } :=
    held.moved (command_pos cfg) rfl
  refine .bind _ (append_succeeds (f := id) fun l held => held) fun _ => .read fun l held =>
    .of (require_of held.bounded.command) (.ite (fun _ => ?_) fun _ => ?_)
  · exact .bind _ (set_succeeds fun t same => emptied (same ▸ held) true) fun _ =>
      .bind _ hangUp_succeeds fun _ => .pure fun t held => held
  · refine .bind (fun _ l => Contained opts flag n l.ctx)
      (.update (fun t same => ?_) fun t same => ?_)
      fun _ => .bind _ (set_succeeds fun t held => emptied held t.ctx.closeRequested) fun _ =>
        .ite (fun _ => ?_) fun _ => ?_
    · exact executeLineChecked_eq addPrompt (same ▸ held.bounded.output)
    · exact Contained.execute (same ▸ held) addPrompt
    · exact .returns (append_succeeds (f := id) fun t held => held)
    · exact .pure fun t held => held

private theorem executeRest_succeeds :
    Contains opts flag n (fun l => Contained opts flag n l.ctx) (executeRestChecked opts backend)
      (executeRest opts backend) :=
  .read fun _ held => .ite (fun _ => (executeInteractiveLine_succeeds false).start held)
    fun _ => .pure fun _ same => same ▸ held

variable {c : ShellContext cfg}

private theorem classify_printable {value : UInt8} (key : classify value c = .printable) :
    c.command.length + 1 < cfg.shellCommandSize := by
  by_contra long
  unfold classify at key
  split_ifs at key
  exact long (Nat.lt_of_not_le ‹_›)

private theorem handleKey_succeeds (value : UInt8) {l : Local cfg β}
    (held : Contained opts flag n l.ctx) :
    Attempt.Succeeds (· = l) (fun _ l => Contained opts flag n l.ctx)
      (handleKeyChecked opts backend value (classify value l.ctx))
      (handleKey opts backend value (classify value l.ctx)) := by
  have given (t : Local cfg β) (same : t = l) : Contained opts flag n t.ctx := same ▸ held
  cases key : classify value l.ctx with
  | skipped => exact .pure given
  | discarded => exact .pure given
  | discardedEnd =>
    refine .returns (append_succeeds fun t same => ?_)
    exact (given t same).moved (given t same).bounded.command rfl
  | lineEnd =>
    exact .bind _ ((executeInteractiveLine_succeeds true).start held) fun ret => .read fun t held =>
      .pure fun u same => same ▸ held
  | endOfTransmission =>
    refine .bind _ (executeRest_succeeds.start held) fun ret =>
      .bind _ (set_succeeds fun t held => ?_)
      fun _ => .bind _ hangUp_succeeds fun _ => .pure fun t held => held
    exact held.moved held.bounded.command rfl
  | interrupt =>
    refine .returns (append_succeeds fun t same => ?_)
    exact (given t same).moved (command_pos cfg) rfl
  | erase =>
    have erased (t : Local cfg β) (same : t = l) :
        Contained opts flag n { t.ctx with command := t.ctx.command.dropLast } := by
      refine (given t same).moved ?_ rfl
      rw [List.length_dropLast]
      exact Nat.lt_of_le_of_lt (Nat.sub_le _ _) (given t same).bounded.command
    refine .returns (.update (fun t same => ?_) fun t same => ?_)
    · unfold Local.trySet Local.set
      dsimp only
      split_ifs with some'
      · simp only [Option.bind_eq_bind, sub_of_le (Nat.pos_of_ne_zero some'), Option.bind_some,
          ← List.dropLast_eq_take, appendOutputChecked_eq _ (erased t same).bounded.output,
          Option.map_some]
      · rfl
    · unfold Local.set
      dsimp only
      split_ifs
      · exact (erased t same).append _
      · exact given t same
  | tab =>
    exact .returns (append_succeeds (f := id) given)
  | overflow =>
    refine .returns (append_succeeds fun t same => ?_)
    exact (given t same).moved (command_pos cfg) rfl
  | printable =>
    have typed (t : Local cfg β) (same : t = l) :
        Contained opts flag n { t.ctx with command := t.ctx.command ++ [value] } := by
      refine (given t same).moved ?_ rfl
      rw [List.length_append]
      exact same ▸ classify_printable key
    refine .returns (.update (fun t same => ?_) fun t same => (typed t same).append [value])
    unfold Local.trySet Local.set
    simp [require_of (given t same).bounded.command,
      appendOutputChecked_eq _ (typed t same).bounded.output]

private theorem Contained.escaped (held : Contained opts flag n c) (value : UInt8) :
    Contained opts flag n (escapeFilter value c).2 := by
  have marked (state : EscapeState) : Contained opts flag n { c with escapeState := state } :=
    held.moved held.bounded.command rfl
  unfold escapeFilter
  cases c.escapeState <;> dsimp only <;> split_ifs <;> first | exact held | exact marked _

private theorem Contained.paired (held : Contained opts flag n c) (value : UInt8) :
    Contained opts flag n (lineFilter value c).2 := by
  unfold lineFilter
  split_ifs
  all_goals exact held.moved held.bounded.command rfl

private theorem inputPass_succeeds (value : UInt8) :
    Contains opts flag n (fun l => Contained opts flag n l.ctx)
      (inputPassChecked opts backend value)
      (inputPass opts backend value) :=
  .bind (fun _ l => Contained opts flag n l.ctx) (.whole (.step fun _ held => held.escaped value))
    fun _ => .ite (fun _ => .pure fun _ held => held) fun _ =>
      .bind (fun _ l => Contained opts flag n l.ctx)
        (.whole (.step fun _ held => held.paired value)) fun _ =>
          .ite (fun _ => .pure fun _ held => held) fun _ =>
            .read fun _ held => handleKey_succeeds value held

private theorem endInput_succeeds {consumed : Nat} (inside : consumed ≤ n) :
    Contains opts flag n (fun l => Contained opts flag n l.ctx)
      (endInputChecked consumed : Check cfg β Unit)
      (pure ()) := by
  show Attempt.Succeeds _ _ _ (Routine.read >>= fun _ => pure ())
  refine .read fun l held => ?_
  have input := held.input
  have fits : consumed + (l.ctx.input.length - consumed) ≤ l.ctx.inputCapacity := by
    have capacity := held.bounded.input
    omega
  exact .of (sub_of_le (by omega)) (.value (require_of fits) fun t same => same ▸ held)

private theorem inputLoop_succeeds (input : List UInt8) {consumed : Nat}
    (whole : consumed + input.length = n) :
    Attempt.Succeeds (fun l : Local cfg β => Contained opts flag n l.ctx)
      (fun out l => Contained opts flag n l.ctx ∧ out.2.length ≤ n)
      (inputLoopChecked opts backend consumed input) (inputLoop opts backend input) := by
  induction input generalizing consumed with
  | nil =>
    exact .bind _ (endInput_succeeds (Nat.le.intro whole)) fun _ =>
      .pure fun l held => ⟨held, Nat.zero_le _⟩
  | cons value rest ih =>
    rw [List.length_cons] at whole
    show Attempt.Succeeds _ _ _ (Routine.read >>= fun _ => inputLoop opts backend (value :: rest))
    refine .read fun l held => .of (require_of held.bounded) (.of (require_of ?_) ?_)
    · have input := held.input
      have capacity := held.bounded.input
      omega
    · refine .bind _ ((inputPass_succeeds value).start held) ?_
      rintro ⟨stop, ret⟩
      refine .ite (fun _ => ?_) fun _ => ih (by omega)
      have shorter : rest.length ≤ n := by omega
      exact .bind _ (endInput_succeeds (by omega)) fun _ => .pure fun l held => ⟨held, shorter⟩

private theorem processInteractiveInput_succeeds :
    Attempt.Succeeds (fun l : Local cfg β => Contained opts flag n l.ctx)
      (fun _ => Within opts flag) (processInteractiveInputChecked opts backend)
      (processInteractiveInput opts backend) := by
  refine .read fun l held => .bind _ ((inputLoop_succeeds l.ctx.input (n := n)
    ((Nat.zero_add _).trans held.input)).start held) ?_
  rintro ⟨ret, rest⟩
  refine .returns (.update (fun _ _ => rfl) fun t held => ?_)
  obtain ⟨held, shorter⟩ := held
  have bounded := held.bounded
  dsimp only at shorter
  refine ⟨_, ⟨⟨bounded.command, bounded.output, bounded.offset, ?_, bounded.block⟩, held.still,
    held.flagged, rfl⟩⟩
  show (if t.ctx.closeRequested then [] else rest).length ≤ t.ctx.inputCapacity
  have input := held.input
  have capacity := bounded.input
  split_ifs
  · exact Nat.zero_le _
  · omega

private theorem processIf_succeeds (ready : Bool) :
    Attempt.Succeeds (Within opts flag) (fun _ => Within opts flag)
      (processIfChecked opts backend ready)
      (processIf opts backend ready) := by
  refine .ite (fun _ => ?_) fun _ => .pure fun l held => held
  refine ⟨fun l held => ?_, fun l held => ?_⟩
  · obtain ⟨m, held⟩ := held
    exact processInteractiveInput_succeeds.same l held
  · obtain ⟨m, held⟩ := held
    exact processInteractiveInput_succeeds.ensures l held

private theorem ask_succeeds (call : StreamCall cfg) :
    Attempt.Succeeds pre (fun _ => pre)
      ((Routine.ask call).whole : Check cfg β (StreamCall.Reply call)) (Routine.ask call) :=
  .whole (.ask fun _ holds _ => holds)

private theorem queueInteractive_succeeds :
    Attempt.Succeeds (fun l : Local cfg β => Contained opts flag n l.ctx ∧ l.ctx.interactive = true)
      (fun _ l => Contained opts flag n l.ctx) (queueInteractiveChecked opts : Check cfg β Int)
      queueInteractive := by
  refine .read fun l held => .ite (fun _ => .pure fun t same => same ▸ held.1) fun _ =>
    .bind _ (ask_succeeds _) fun room => .bind _ (ask_succeeds _) fun ret =>
      .ite (fun _ => ?_) fun _ => .pure fun t same => same ▸ held.1
  obtain ⟨held, kind⟩ := held
  have bounded := held.bounded
  have output := bounded.output
  have shorter : (l.ctx.output.take room).length ≤ l.ctx.output.length := by
    rw [List.length_take]
    exact Nat.min_le_right _ _
  refine .of (sub_of_le shorter) (.of (require_of (by omega)) ?_)
  refine .returns (set_succeeds fun t same => ?_)
  subst same
  refine ⟨⟨bounded.command, ?_, ?_, bounded.input, bounded.block⟩, held.still, held.flagged,
    held.input⟩
  · rw [List.length_drop]
    omega
  · exact Nat.le_trans (Nat.le_of_eq (held.still kind)) (Nat.zero_le _)

private theorem queueOneShot_succeeds :
    Attempt.Succeeds (fun l : Local cfg β => Contained opts flag n l.ctx ∧
      l.ctx.interactive = false)
      (fun _ l => Contained opts flag n l.ctx) (queueOneShotChecked opts : Check cfg β Int)
      queueOneShot := by
  refine .read fun l held => ?_
  obtain ⟨held, kind⟩ := held
  have bounded := held.bounded
  have output := bounded.output
  have offset := bounded.offset
  refine .of (sub_of_le bounded.offset) (.bind _ (ask_succeeds _) fun room => ?_)
  have length : ((l.ctx.output.drop l.ctx.outputOffset).take room).length =
      min (l.ctx.output.length - l.ctx.outputOffset) room := by
    rw [List.length_take, List.length_drop, Nat.min_comm]
  refine .of (require_of ⟨length, by omega⟩) (.ite (fun _ => ?_) fun _ => ?_)
  · exact .returns (hangUp_succeeds.start held)
  · refine .bind _ (ask_succeeds _) fun ret => .ite (fun _ => ?_) fun _ =>
      .pure fun t same => same ▸ held
    refine .returns (set_succeeds fun t same => ?_)
    subst same
    refine ⟨⟨bounded.command, bounded.output, ?_, bounded.input, bounded.block⟩, fun on => ?_,
      held.flagged, held.input⟩
    · show t.ctx.outputOffset + _ ≤ t.ctx.output.length
      omega
    · exact absurd (on.symm.trans kind) (by decide)

private theorem queueNextChunk_succeeds :
    Attempt.Succeeds (Within opts flag) (fun _ => Within opts flag)
      (queueNextChunkChecked opts : Check cfg β Int)
      queueNextChunk := by
  refine .read fun l held => .ite (fun _ => .pure fun t same => same ▸ held) fun _ => ?_
  obtain ⟨m, held⟩ := held
  refine .ite (fun kind => ?_) fun kind => ?_
  · exact (queueInteractive_succeeds.start ⟨held, kind⟩).weaken (fun _ => id) fun _ _ held =>
      ⟨m, held⟩
  · exact (queueOneShot_succeeds.start ⟨held, Bool.eq_false_iff.mpr kind⟩).weaken (fun _ => id)
      fun _ _ held => ⟨m, held⟩

theorem writeSession_succeeds (data : List UInt8) :
    Attempt.Succeeds (Within opts flag) (fun _ => Within opts flag)
      (writeSessionChecked opts backend data)
      (writeSession opts backend data) := by
  refine .read fun l held => .ite (fun _ => .pure fun t same => same ▸ held) fun _ => ?_
  obtain ⟨m, held⟩ := held
  have bounded := held.bounded
  refine .of (sub_of_le bounded.input) (.ite (fun _ => .pure fun t same => ⟨m, same ▸ held⟩)
    fun room => .of (require_of ?_) ?_)
  · have capacity := bounded.input
    omega
  · refine .bind (fun _ => Within opts flag) (.update (fun _ _ => rfl)
      fun t same => ?_) fun _ => .bind _ (processIf_succeeds _) fun ret =>
        .ite (fun _ => queueNextChunk_succeeds) fun _ => .pure fun t held => held
    subst same
    refine ⟨_, ⟨⟨bounded.command, bounded.output, bounded.offset, ?_, bounded.block⟩, held.still,
    held.flagged, rfl⟩⟩
    have capacity := bounded.input
    show (t.ctx.input ++ data).length ≤ t.ctx.inputCapacity
    rw [List.length_append]
    omega

theorem resumeSession_succeeds :
    Attempt.Succeeds (Within opts flag) (fun _ => Within opts flag)
      (resumeSessionChecked opts backend)
      (resumeSession opts backend) := by
  refine .bind (fun _ => Within opts flag) (.update (fun _ _ => rfl) fun l held => ?_)
    fun _ => .read fun l held => .bind _ ((processIf_succeeds _).start held) fun ret =>
      .ite (fun _ => .pure fun t held => held) fun _ => queueNextChunk_succeeds
  obtain ⟨m, held⟩ := held
  exact ⟨m, held.moved held.bounded.command rfl⟩

theorem openSession_contained (suffix : List UInt8) :
    Routine.Ensures
      (fun l : Local cfg β => l.ctx = { ShellContext.zero cfg with stream := l.ctx.stream })
      (fun _ => Within opts false) (openSession opts backend suffix) := by
  have empty : Contained opts false 0 (ShellContext.zero cfg) :=
    ⟨⟨command_pos cfg, Nat.zero_le _, Nat.le_refl _, Nat.le_refl _, Nat.zero_le _⟩, fun _ => rfl,
      fun no => absurd no (by decide), rfl⟩
  refine .bind (fun _ => Within opts false) (.step fun l fresh => ⟨0, ?_⟩) fun ret =>
    .ite (fun _ => .pure fun l held => held) fun _ => .bind _ queueNextChunk_succeeds.ensures
      fun ret => .ite (fun _ => ?_) fun _ => .pure fun l held => held
  · have held : Contained opts false 0 l.ctx := by
      rw [fresh]
      exact empty.moved (command_pos cfg) rfl
    have bounded := held.bounded
    have unread : l.ctx.input = [] := List.length_eq_zero_iff.mp held.input
    have offset : l.ctx.outputOffset = 0 := by rw [fresh]; rfl
    unfold prepareSession
    dsimp only
    split_ifs
    · refine ⟨⟨bounded.command, ?_, ?_, ?_, Nat.le_refl _⟩, fun _ => offset,
        fun no => absurd no (by decide), held.input⟩
      · rw [List.length_take]
        exact Nat.min_le_left _ _
      · rw [offset]
        exact Nat.zero_le _
      · rw [unread]
        exact Nat.zero_le _
    · exact empty
    · refine ⟨⟨bounded.command, execute_length _ _ _ _, ?_, bounded.input, bounded.block⟩,
        held.still, fun no => absurd no (by decide), held.input⟩
      rw [offset]
      exact Nat.zero_le _
  · exact .returns (.update fun l _ => ⟨0, empty⟩)

end Routines

section Visits

variable (opts : Options cfg) (backend : Backend β)
  (h : Handler (StreamCall cfg) StreamCall.Reply ρ)

/-- A callback on a session: the world behind the shell and the router as the rest of the device
has left them since the callback before. -/
structure Visit (β ρ : Type) where
  world : β
  host : ρ
  delivery : Delivery

def Delivery.callback : Delivery → Run cfg β Int
  | .write data => writeSession opts backend data
  | .acknowledge => resumeSession opts backend

def Delivery.checked : Delivery → Check cfg β Int
  | .write data => writeSessionChecked opts backend data
  | .acknowledge => resumeSessionChecked opts backend

def Visit.run (v : Visit β ρ) (c : ShellContext cfg) : Int × Local cfg β × ρ :=
  (v.delivery.callback opts backend).exec h ⟨c, v.world⟩ v.host

def openedSession (stream : Slot cfg) (suffix : List UInt8) (world : β) (host : ρ) :
    ShellContext cfg :=
  ((openSession opts backend suffix).exec h
    ⟨{ ShellContext.zero cfg with stream := some stream }, world⟩ host).2.1.ctx

def sessionAfter : ShellContext cfg → List (Visit β ρ) → ShellContext cfg
  | c, [] => c
  | c, v :: visits => sessionAfter (v.run opts backend h c).2.1.ctx visits

private theorem callback_succeeds (d : Delivery) (flag : Bool) :
    Attempt.Succeeds (Within opts flag) (fun _ => Within opts flag) (d.checked opts backend)
      (d.callback opts backend) := by
  cases d with
  | write data => exact writeSession_succeeds data
  | acknowledge => exact resumeSession_succeeds

private theorem visits_contained {c : ShellContext cfg} {flag : Bool}
    (held : ∃ m, Contained opts flag m c) (visits : List (Visit β ρ)) :
    ∃ m, Contained opts flag m (sessionAfter opts backend h c visits) := by
  induction visits generalizing c with
  | nil => exact held
  | cons v visits ih =>
    exact ih (((callback_succeeds opts backend v.delivery flag).ensures ⟨c, v.world⟩ held).result h
      v.host)

/-- After any callbacks the lengths of a session are within its buffers. In one more callback every
size difference, store and copy is defined, whatever a command prints; and what did not fit a
buffer once is noted for good. -/
theorem shell_buffers_hold (stream : Slot cfg) (suffix : List UInt8) (world : β) (host : ρ)
    (visits : List (Visit β ρ)) :
    let c := sessionAfter opts backend h (openedSession opts backend h stream suffix world
      host) visits
    Bounded opts c ∧ ∀ v : Visit β ρ,
      v.delivery.checked opts backend ⟨c, v.world⟩ =
        (v.delivery.callback opts backend).whole ⟨c, v.world⟩ ∧
      (c.truncated = true → (v.run opts backend h c).2.1.ctx.truncated = true) := by
  intro c
  obtain ⟨m, held⟩ : ∃ m, Contained opts false m c :=
    visits_contained opts backend h ((openSession_contained suffix ⟨_, world⟩ rfl).result h
      host) visits
  refine ⟨held.bounded, fun v => ⟨?_, fun noted => ?_⟩⟩
  · exact (callback_succeeds opts backend v.delivery false).same ⟨c, v.world⟩ ⟨m, held⟩
  · have kept : Contained opts true m c := ⟨held.bounded, held.still, fun _ => noted, held.input⟩
    obtain ⟨k, after⟩ := ((callback_succeeds opts backend v.delivery true).ensures ⟨c, v.world⟩
      ⟨m, kept⟩).result h v.host
    exact after.flagged rfl

end Visits

end Webos.Adb.Shell
