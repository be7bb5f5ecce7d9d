/- digest: What the loop over the input of a session edits, echoes and runs. -/

import Webos.Adb.Router.Uplink
import Webos.Adb.Shell.Editor

namespace Webos.Adb.Shell

open Webos.Lib.Program

variable {cfg : Config} {β : Type} {opts : Options cfg} {backend : Backend β}

/-- The world behind the shell after `webos_shell_execute` on each command in turn. It does not
depend on the room for the output. -/
def executed (backend : Backend β) (commands : List (List UInt8)) (b : β) : β :=
  commands.foldl (fun b command => (webosShellExecute backend command 1 b).2) b

theorem execute_world {command : List UInt8} {capacity : Nat} (some' : 0 < capacity) (b : β) :
    (webosShellExecute backend command capacity b).2 = executed backend [command] b := by
  simp only [executed, List.foldl_cons, List.foldl_nil, webosShellExecute,
    if_neg (Nat.ne_of_gt some'), if_neg Nat.one_ne_zero]
  split_ifs
  · rfl
  · rfl

theorem execute_length (backend : Backend β) (command : List UInt8) (capacity : Nat) (b : β) :
    (webosShellExecute backend command capacity b).1.output.length ≤ capacity := by
  unfold webosShellExecute
  dsimp only
  split_ifs
  · exact Nat.zero_le _
  · exact Nat.zero_le _
  · rw [List.length_take]
    omega

theorem executed_append (first second : List (List UInt8)) (b : β) :
    executed backend (first ++ second) b = executed backend second (executed backend first b) :=
  List.foldl_append

structure Printed (opts : Options cfg) (c c' : ShellContext cfg) : Prop where
  same : c' = { c with
    commandRc := c'.commandRc
    truncated := c'.truncated
    output := c'.output }
  short : c.output.length ≤ opts.outputSize → c'.output.length ≤ opts.outputSize
  kept : c.output ≠ [] → c'.output ≠ []

theorem Printed.refl (c : ShellContext cfg) : Printed opts c c := ⟨rfl, id, id⟩

theorem Printed.trans {a b c : ShellContext cfg} (first : Printed opts a b)
    (second : Printed opts b c) : Printed opts a c := by
  refine ⟨?_, fun short => second.short (first.short short),
    fun some' => second.kept (first.kept some')⟩
  rw [second.same, first.same]

theorem Printed.closeRequested {c c' : ShellContext cfg} (printed : Printed opts c c') :
    c'.closeRequested = c.closeRequested := by
  rw [printed.same]

section Output

variable (data : List UInt8) (c : ShellContext cfg)

theorem appendOutput_output : (appendOutput opts data c).output =
    c.output ++ data.take (opts.outputSize - c.output.length) := by
  unfold appendOutput
  dsimp only
  rw [Nat.min_comm, ← List.take_eq_take_min]

theorem appendOutput_printed : Printed opts c (appendOutput opts data c) := by
  refine ⟨rfl, fun short => ?_, fun some' => ?_⟩
  · rw [appendOutput_output, List.length_append, List.length_take]
    omega
  · exact List.append_ne_nil_of_left_ne_nil some' _

theorem appendOutput_length : (appendOutput opts data c).output.length ≤
    c.output.length + data.length := by
  rw [appendOutput_output, List.length_append, List.length_take]
  omega

theorem appendOutput_ne_nil {data : List UInt8} (some' : data ≠ []) :
    (appendOutput opts data c).output ≠ [] := by
  have size := opts.outputSize_range.1
  have length := List.length_pos_iff.mpr some'
  rw [← List.length_pos_iff, appendOutput_output, List.length_append, List.length_take]
  omega

end Output

section LineEnds

variable {l : Local cfg β} {r : Uplink cfg} {s : Slot cfg}

theorem exec_hangUp (held : l.ctx.stream = some s) : (hangUp : Run cfg β Unit).exec Uplink.api l r =
    ((), l, { r with closing := true }) := by
  unfold hangUp
  rw [exec_read_bind, exec_ask, held]
  rfl

theorem executeLine_printed (opts : Options cfg) (backend : Backend β) (addPrompt : Bool)
    (l : Local cfg β) : Printed opts l.ctx (executeLine opts backend addPrompt l).ctx := by
  unfold executeLine
  dsimp only
  generalize (if addPrompt then opts.prompt.length else 0) = promptLen
  split_ifs with empty full
  · exact .refl _
  · exact ⟨rfl, id, id⟩
  · refine ⟨rfl, fun short => ?_, fun some' => List.append_ne_nil_of_left_ne_nil some' _⟩
    have fits := execute_length backend l.ctx.command
      (opts.outputSize - l.ctx.output.length - promptLen) l.world
    rw [List.length_append]
    omega

theorem executeLine_empty {addPrompt : Bool} (empty : l.ctx.command = []) :
    executeLine opts backend addPrompt l = l := by
  unfold executeLine
  rw [if_pos (List.length_eq_zero_iff.mpr empty)]

theorem executeLine_world {addPrompt : Bool}
    (room : l.ctx.output.length + (if addPrompt then opts.prompt.length else 0) + 2 ≤
      opts.outputSize) (some' : l.ctx.command ≠ []) :
    (executeLine opts backend addPrompt l).world = executed backend [l.ctx.command] l.world := by
  unfold executeLine
  rw [if_neg (by rw [List.length_eq_zero_iff]; exact some'), if_neg (by omega)]
  exact execute_world (by omega) l.world

theorem exec_executeInteractiveLine (opts : Options cfg) (backend : Backend β)
    (held : l.ctx.stream = some s) (addPrompt : Bool) :
    let out := (executeInteractiveLine opts backend addPrompt).exec Uplink.api l r
    ∃ c, Printed opts l.ctx c ∧ c.output ≠ [] ∧ out.1 = 0 ∧ out.2.1.ctx = { c with
        command := []
        closeRequested := l.ctx.closeRequested || decide (l.ctx.command = ascii "exit") } ∧
      out.2.2 = (if l.ctx.command = ascii "exit" then { r with closing := true } else r) ∧
      (commandOf l.ctx.command = [] ∨ l.ctx.output.length + 2 +
          (if addPrompt then opts.prompt.length else 0) + 2 ≤ opts.outputSize →
        out.2.1.world = executed backend (commandOf l.ctx.command) l.world) := by
  have begun : Printed opts l.ctx (appendOutput opts (ascii "\r\n") l.ctx) :=
    appendOutput_printed _ _
  have some' : (appendOutput opts (ascii "\r\n") l.ctx).output ≠ [] :=
    appendOutput_ne_nil _ (by decide)
  have length : (appendOutput opts (ascii "\r\n") l.ctx).output.length ≤ l.ctx.output.length + 2 :=
    appendOutput_length _ _
  unfold executeInteractiveLine
  simp only [exec_update_bind, exec_read_bind, exec_ite]
  by_cases exits : l.ctx.command = ascii "exit"
  · have same : (l.set (appendOutput opts (ascii "\r\n"))).ctx.command = ascii "exit" := exits
    have held' : ((l.set (appendOutput opts (ascii "\r\n"))).set fun c =>
        { c with command := [], closeRequested := true }).ctx.stream = some s := held
    rw [if_pos same, exec_bind, exec_hangUp held', exec_pure, if_pos exits]
    refine ⟨_, begun, some', rfl, ?_, rfl, fun _ => ?_⟩
    · rw [decide_eq_true exits, Bool.or_true]
      rfl
    · rw [commandOf, if_pos (Or.inr exits)]
      rfl
  · have other : ¬(l.set (appendOutput opts (ascii "\r\n"))).ctx.command = ascii "exit" := exits
    rw [if_neg other, if_neg exits]
    have then' := executeLine_printed opts backend addPrompt
      (l.set (appendOutput opts (ascii "\r\n")))
    have printed := begun.trans then'
    have kept := then'.kept some'
    have ran : commandOf l.ctx.command = [] ∨ l.ctx.output.length + 2 +
        (if addPrompt then opts.prompt.length else 0) + 2 ≤ opts.outputSize →
        (executeLine opts backend addPrompt (l.set (appendOutput opts (ascii "\r\n")))).world =
          executed backend (commandOf l.ctx.command) l.world := by
      intro room
      by_cases empty : l.ctx.command = []
      · have empty' : (l.set (appendOutput opts (ascii "\r\n"))).ctx.command = [] := empty
        rw [commandOf, if_pos (Or.inl empty), executeLine_empty empty']
        rfl
      · rw [commandOf, if_neg (not_or.mpr ⟨empty, exits⟩)] at room ⊢
        refine executeLine_world ?_ empty
        rcases room with no | room
        · cases no
        · have : (l.set (appendOutput opts (ascii "\r\n"))).ctx.output.length ≤
            l.ctx.output.length + 2 := length
          omega
    have open' : (executeLine opts backend addPrompt
        (l.set (appendOutput opts (ascii "\r\n")))).ctx.closeRequested = l.ctx.closeRequested :=
      printed.closeRequested
    rw [decide_eq_false exits, Bool.or_false, ← open']
    cases addPrompt with
    | false => exact ⟨_, printed, kept, rfl, rfl, rfl, ran⟩
    | true =>
      exact ⟨appendOutput opts opts.prompt _, printed.trans (appendOutput_printed _ _),
        (appendOutput_printed _ _).kept kept, rfl, rfl, rfl, ran⟩

end LineEnds

structure Edited (opts : Options cfg) (l : Local cfg β) (r : Uplink cfg) (l' : Local cfg β)
    (r' : Uplink cfg) : Prop where
  stream : l'.ctx.stream = l.ctx.stream
  interactive : l'.ctx.interactive = l.ctx.interactive
  txInFlight : l'.ctx.txInFlight = l.ctx.txInFlight
  inputCapacity : l'.ctx.inputCapacity = l.ctx.inputCapacity
  input : l'.ctx.input = l.ctx.input
  short : l.ctx.output.length ≤ opts.outputSize → l'.ctx.output.length ≤ opts.outputSize
  discarding : (l.ctx.discardLine = true → l.ctx.command = []) →
    l'.ctx.discardLine = true → l'.ctx.command = []
  uplink : r' = if l'.ctx.closeRequested then { r with closing := true } else r

/-- One byte of input, of which the editor gets `keys`: what is left, and the commands that it has
run when there was room. -/
structure Takes (keys : ShellContext cfg → List UInt8 → List UInt8) (opts : Options cfg)
    (backend : Backend β) (value : UInt8) (l : Local cfg β) (r : Uplink cfg)
    (out : (Bool × Int) × Local cfg β × Uplink cfg) : Prop where
  ret : out.1.2 = 0
  edited : Edited opts l r out.2.1 out.2.2
  stopped : out.1.1 = true → out.2.1.ctx.closeRequested = true ∨ out.2.1.ctx.output ≠ []
  going : out.1.1 = false → out.2.1.ctx.closeRequested = false
  ran : ∀ echo rest, l.ctx.output.length ≤ echo →
    roomy opts echo l.ctx.line (keys l.ctx (value :: rest)) = true → ∃ commands,
      out.2.1.world = executed backend commands l.world ∧
      (∀ later, edit cfg.shellCommandSize l.ctx.line (keys l.ctx (value :: later)) = commands ++
        if out.2.1.ctx.closeRequested then []
        else edit cfg.shellCommandSize out.2.1.ctx.line (keys out.2.1.ctx later)) ∧
      (out.1.1 = false → ∃ echo', out.2.1.ctx.output.length ≤ echo' ∧
        roomy opts echo' out.2.1.ctx.line (keys out.2.1.ctx rest) = true)

structure Struck (opts : Options cfg) (backend : Backend β) (value : UInt8) (l : Local cfg β)
    (r : Uplink cfg) (out : (Bool × Int) × Local cfg β × Uplink cfg) : Prop
    extends Takes (fun _ => id) opts backend value l r out where
  escapeState : out.2.1.ctx.escapeState = l.ctx.escapeState
  sawCarriageReturn : out.2.1.ctx.sawCarriageReturn = l.ctx.sawCarriageReturn

section Strokes

variable {value : UInt8} {l : Local cfg β} {r : Uplink cfg} {s : Slot cfg}

theorem line_discarding (discarding : l.ctx.discardLine = true) : l.ctx.line = none := by
  rw [ShellContext.line, if_pos discarding]

theorem line_typing (typing : l.ctx.discardLine = false) : l.ctx.line = some l.ctx.command := by
  rw [ShellContext.line, typing]
  rfl

theorem struck_edit {command : List UInt8} {discard : Bool} {c : ShellContext cfg} (stop : Bool)
    (printed : Printed opts { l.ctx with command := command, discardLine := discard } c)
    (live : l.ctx.closeRequested = false)
    (empty : (l.ctx.discardLine = true → l.ctx.command = []) → discard = true → command = [])
    (shown : stop = true → c.output ≠ [])
    (same : ∀ later, edit cfg.shellCommandSize l.ctx.line (value :: later) =
      edit cfg.shellCommandSize (if discard then none else some command) later)
    (room : ∀ echo rest, l.ctx.output.length ≤ echo →
      roomy opts echo l.ctx.line (value :: rest) = true → stop = false →
        ∃ echo', c.output.length ≤ echo' ∧
          roomy opts echo' (if discard then none else some command) rest = true) :
    Struck opts backend value l r ((stop, 0), ⟨c, l.world⟩, r) := by
  have live' : c.closeRequested = false := printed.closeRequested.trans live
  have line : c.line = if discard then none else some command := by
    rw [printed.same]
    rfl
  refine ⟨⟨rfl, ⟨?_, ?_, ?_, ?_, ?_, printed.short, ?_, ?_⟩, fun stopped => Or.inr (shown stopped),
    fun _ => live', fun echo rest bound fits => ⟨[], rfl, fun later => ?_, fun going => ?_⟩⟩,
    ?_, ?_⟩
  iterate 5
    · rw [printed.same]
  · rw [printed.same]
    exact empty
  · rw [live']
    rfl
  · rw [live', line]
    exact same later
  · rw [line]
    exact room echo rest bound fits going
  · rw [printed.same]
  · rw [printed.same]

theorem struck_discarding (live : l.ctx.closeRequested = false)
    (discarding : l.ctx.discardLine = true) (empty : l.ctx.command = []) :
    Struck opts backend value l r
      ((handleKey opts backend value (classify value l.ctx)).exec Uplink.api l r) := by
  have line := line_discarding discarding
  rw [classify_eq, if_pos discarding]
  by_cases ends : stroke value = .lineEnd
  · rw [if_pos ends]
    refine struck_edit true (appendOutput_printed (ascii "\r\n" ++ opts.prompt) _) live
      (fun _ no => nomatch no) (fun _ => appendOutput_ne_nil _ (by simp [ascii])) ?_
      (fun _ _ _ _ no => nomatch no)
    intro later
    rw [line, edit, if_pos ends, empty]
    rfl
  · rw [if_neg ends]
    refine struck_edit false (.refl l.ctx) live (fun before => before) (fun no => nomatch no) ?_ ?_
    · intro later
      rw [line, edit, if_neg ends, discarding]
      rfl
    · intro echo rest bound fits _
      rw [discarding]
      exact ⟨echo, bound, by cases rest <;> rfl⟩

theorem struck_typing (live : l.ctx.closeRequested = false)
    (typing : l.ctx.discardLine = false) (notEnd : stroke value ≠ .lineEnd)
    (notLast : stroke value ≠ .endOfTransmission) :
    Struck opts backend value l r
      ((handleKey opts backend value (classify value l.ctx)).exec Uplink.api l r) := by
  have line := line_typing typing
  have still (command : List UInt8) : l.ctx.discardLine = true → command = [] :=
    fun no => nomatch typing.symm.trans no
  rw [classify_eq, typing]
  cases key : stroke value with
  | lineEnd => exact absurd key notEnd
  | endOfTransmission => exact absurd key notLast
  | interrupt =>
    refine struck_edit true (appendOutput_printed (ascii "^C\r\n" ++ opts.prompt) _) live
      (fun _ => still _) (fun _ => appendOutput_ne_nil _ (by simp [ascii])) ?_
      (fun _ _ _ _ no => nomatch no)
    intro later
    rw [line, edit, key, typing]
    rfl
  | erase =>
    by_cases empty : l.ctx.command = []
    · have idle : (handleKey opts backend value .erase).exec Uplink.api l r =
          ((false, 0), l, r) := by
        unfold handleKey
        rw [exec_update_bind, exec_pure, Local.set, if_neg (by rw [empty]; decide)]
      refine idle ▸ struck_edit false (.refl l.ctx) live (fun before => before)
        (fun no => nomatch no) ?_ ?_
      · intro later
        rw [line, edit, key, typing, empty]
        rfl
      · intro echo rest bound fits _
        rw [line, roomy, key, empty] at fits
        rw [typing, empty]
        exact ⟨echo, bound, fits⟩
    · have some' : l.ctx.command.length ≠ 0 := by
        rw [Ne, List.length_eq_zero_iff]
        exact empty
      have erased : (handleKey opts backend value .erase).exec Uplink.api l r = ((false, 0),
          ⟨appendOutput opts [0x08, 0x20, 0x08] { l.ctx with command := l.ctx.command.dropLast },
            l.world⟩, r) := by
        unfold handleKey
        rw [exec_update_bind, exec_pure, Local.set, if_pos some']
      refine erased ▸ struck_edit false (appendOutput_printed [0x08, 0x20, 0x08] _) live
        (fun _ => still _) (fun no => nomatch no) ?_ ?_
      · intro later
        rw [line, edit, key, typing]
        rfl
      · intro echo rest bound fits _
        rw [line, roomy, key] at fits
        rw [if_neg empty] at fits
        rw [typing]
        exact ⟨echo + 3, (appendOutput_length _ _).trans (Nat.add_le_add_right bound 3), fits⟩
  | tab =>
    refine struck_edit false (appendOutput_printed [0x07] _) live (fun before => before)
      (fun no => nomatch no) ?_ ?_
    · intro later
      rw [line, edit, key, typing]
      rfl
    · intro echo rest bound fits _
      rw [line, roomy, key] at fits
      rw [typing]
      exact ⟨echo + 1, (appendOutput_length _ _).trans (Nat.add_le_add_right bound 1), fits⟩
  | ignored =>
    refine struck_edit false (.refl l.ctx) live (fun before => before) (fun no => nomatch no) ?_ ?_
    · intro later
      rw [line, edit, key, typing]
      rfl
    · intro echo rest bound fits _
      rw [line, roomy, key] at fits
      rw [typing]
      exact ⟨echo, bound, fits⟩
  | character =>
    by_cases full : l.ctx.command.length + 1 ≥ cfg.shellCommandSize
    · rw [if_pos full]
      refine struck_edit true (appendOutput_printed (ascii "\r\nCommand too long") _) live
        (fun _ _ => rfl) (fun _ => appendOutput_ne_nil _ (by decide)) ?_
        (fun _ _ _ _ no => nomatch no)
      intro later
      rw [line, edit, key]
      rw [if_pos full]
      rfl
    · rw [if_neg full]
      refine struck_edit false (appendOutput_printed [value] _) live
        (fun _ => still _) (fun no => nomatch no) ?_ ?_
      · intro later
        rw [line, edit, key, typing]
        rw [if_neg full]
        rfl
      · intro echo rest bound fits _
        rw [line, roomy, key] at fits
        rw [if_neg full] at fits
        rw [typing]
        exact ⟨echo + 1, (appendOutput_length _ _).trans (Nat.add_le_add_right bound 1), fits⟩

theorem struck_end {c : ShellContext cfg} {world : β} (closed : Bool)
    (commands : List (List UInt8)) (printed : Printed opts l.ctx c)
    (typing : l.ctx.discardLine = false) (shown : closed = true ∨ c.output ≠ [])
    (ran : ∀ echo rest, l.ctx.output.length ≤ echo →
      roomy opts echo l.ctx.line (value :: rest) = true → world = executed backend commands l.world)
    (same : ∀ later, edit cfg.shellCommandSize l.ctx.line (value :: later) =
      commands ++ if closed then [] else edit cfg.shellCommandSize (some []) later) :
    Struck opts backend value l r ((true, 0),
      ⟨{ c with command := [], closeRequested := closed }, world⟩,
      if closed then { r with closing := true } else r) := by
  have typing' : c.discardLine = false := by
    rw [printed.same]
    exact typing
  have line : ({ c with command := [], closeRequested := closed } : ShellContext cfg).line =
      some [] := by
    rw [ShellContext.line, typing']
    rfl
  refine ⟨⟨rfl, ⟨?_, ?_, ?_, ?_, ?_, printed.short, fun _ _ => rfl, rfl⟩, fun _ => shown,
    (fun no => nomatch no), fun echo rest bound fits =>
      ⟨commands, ran echo rest bound fits, fun later => ?_, fun no => nomatch no⟩⟩, ?_, ?_⟩
  iterate 5
    · rw [printed.same]
  · rw [line]
    exact same later
  · rw [printed.same]
  · rw [printed.same]

theorem struck_lineEnd (live : l.ctx.closeRequested = false) (typing : l.ctx.discardLine = false)
    (held : l.ctx.stream = some s) (ends : stroke value = .lineEnd) :
    Struck opts backend value l r
      ((handleKey opts backend value .lineEnd).exec Uplink.api l r) := by
  have line := line_typing typing
  obtain ⟨c, printed, some', ret, ctx, after, ran⟩ :=
    exec_executeInteractiveLine (r := r) opts backend held true
  have outcome : (handleKey opts backend value .lineEnd).exec Uplink.api l r = ((true, 0),
      ⟨{ c with command := [], closeRequested := decide (l.ctx.command = ascii "exit") },
        ((executeInteractiveLine opts backend true).exec Uplink.api l r).2.1.world⟩,
      if decide (l.ctx.command = ascii "exit") then { r with closing := true } else r) := by
    unfold handleKey
    rw [exec_bind, exec_read_bind, exec_pure]
    generalize (executeInteractiveLine opts backend true).exec Uplink.api l r = out
      at ret ctx after ran
    obtain ⟨code, ⟨c', world⟩, r'⟩ := out
    subst ret ctx after
    have shown : c.output.length ≠ 0 := by
      rw [Ne, List.length_eq_zero_iff]
      exact some'
    rw [live, Bool.false_or, decide_eq_true shown, Bool.or_true]
    simp
  rw [outcome]
  refine struck_end _ (commandOf l.ctx.command) printed typing (Or.inr some') ?_ ?_
  · intro echo rest bound fits
    rw [line, roomy, ends, Bool.or_eq_true, decide_eq_true_eq, decide_eq_true_eq] at fits
    refine ran (fits.imp id fun room => ?_)
    rw [if_pos rfl]
    omega
  · intro later
    rw [line, edit, ends]
    by_cases exits : l.ctx.command = ascii "exit"
    · rw [if_pos exits, decide_eq_true exits, commandOf, if_pos (Or.inr exits)]
      rfl
    · rw [if_neg exits, decide_eq_false exits]
      rfl

theorem struck_endOfTransmission (typing : l.ctx.discardLine = false)
    (held : l.ctx.stream = some s) (ends : stroke value = .endOfTransmission) :
    Struck opts backend value l r
      ((handleKey opts backend value .endOfTransmission).exec Uplink.api l r) := by
  have line := line_typing typing
  have same (later : List UInt8) : edit cfg.shellCommandSize l.ctx.line (value :: later) =
      commandOf l.ctx.command ++ [] := by
    rw [line, edit, ends, List.append_nil]
  by_cases empty : l.ctx.command = []
  · have outcome : (handleKey opts backend value .endOfTransmission).exec Uplink.api l r =
        ((true, 0), ⟨{ l.ctx with command := [], closeRequested := true }, l.world⟩,
          { r with closing := true }) := by
      unfold handleKey executeRest
      rw [exec_bind, exec_read_bind, if_neg (by rw [empty]; decide), exec_pure, exec_update_bind,
        exec_bind, exec_hangUp (l := l.set fun c => { c with closeRequested := true }) held,
        exec_pure, Local.set, ← empty]
    rw [outcome]
    refine struck_end true (commandOf l.ctx.command) (.refl l.ctx) typing (Or.inl rfl) ?_ same
    intro echo rest bound fits
    rw [commandOf, if_pos (Or.inl empty)]
    rfl
  · obtain ⟨c, printed, some', ret, ctx, after, ran⟩ :=
      exec_executeInteractiveLine (r := r) opts backend held false
    have outcome : (handleKey opts backend value .endOfTransmission).exec Uplink.api l r =
        ((true, 0), ⟨{ c with command := [], closeRequested := true },
          ((executeInteractiveLine opts backend false).exec Uplink.api l r).2.1.world⟩,
          { r with closing := true }) := by
      have some'' : l.ctx.command.length ≠ 0 := by
        rw [Ne, List.length_eq_zero_iff]
        exact empty
      have held' : c.stream = some s := by
        rw [printed.same]
        exact held
      unfold handleKey executeRest
      rw [exec_bind, exec_read_bind, if_pos some'']
      generalize (executeInteractiveLine opts backend false).exec Uplink.api l r = out
        at ret ctx after ran
      obtain ⟨code, ⟨c', world⟩, r'⟩ := out
      subst ret ctx after
      rw [exec_update_bind, exec_bind, exec_hangUp (s := s), exec_pure]
      · split_ifs
        all_goals rfl
      · exact held'
    rw [outcome]
    refine struck_end true (commandOf l.ctx.command) printed typing (Or.inl rfl) ?_ same
    intro echo rest bound fits
    rw [line, roomy, ends, Bool.or_eq_true, decide_eq_true_eq, decide_eq_true_eq] at fits
    refine ran (fits.imp id fun room => ?_)
    rw [if_neg (by decide)]
    omega

theorem struck (live : l.ctx.closeRequested = false) (held : l.ctx.stream = some s)
    (empty : l.ctx.discardLine = true → l.ctx.command = []) : Struck opts backend value l r
      ((handleKey opts backend value (classify value l.ctx)).exec Uplink.api l r) := by
  by_cases discarding : l.ctx.discardLine = true
  · exact struck_discarding live discarding (empty discarding)
  · rw [Bool.not_eq_true] at discarding
    by_cases ends : stroke value = .lineEnd
    · rw [classify_eq, discarding, ends]
      exact struck_lineEnd live discarding held ends
    · by_cases last : stroke value = .endOfTransmission
      · rw [classify_eq, discarding, last]
        exact struck_endOfTransmission discarding held last
      · exact struck_typing live discarding ends last

end Strokes

section Loop

variable {l l' l'' : Local cfg β} {r r' r'' : Uplink cfg} {s : Slot cfg}

theorem Edited.refl (live : l.ctx.closeRequested = false) : Edited opts l r l r := by
  refine ⟨rfl, rfl, rfl, rfl, rfl, id, id, ?_⟩
  rw [live]
  rfl

theorem Edited.trans (first : Edited opts l r l' r') (live : l'.ctx.closeRequested = false)
    (second : Edited opts l' r' l'' r'') : Edited opts l r l'' r'' := by
  have same : r' = r := by
    rw [first.uplink, live]
    rfl
  exact ⟨second.stream.trans first.stream, second.interactive.trans first.interactive,
    second.txInFlight.trans first.txInFlight, second.inputCapacity.trans first.inputCapacity,
    second.input.trans first.input, fun short => second.short (first.short short),
    fun empty => second.discarding (first.discarding empty), same ▸ second.uplink⟩

variable {c : ShellContext cfg}

theorem Filtered.edited (opts : Options cfg) (r : Uplink cfg) (filtered : Filtered l.ctx c)
    (live : l.ctx.closeRequested = false) :
    c.closeRequested = false ∧ c.line = l.ctx.line ∧ c.output = l.ctx.output ∧
      Edited opts l r { l with ctx := c } r := by
  obtain ⟨escapeState, sawCarriageReturn, rfl⟩ := filtered
  refine ⟨live, rfl, rfl, rfl, rfl, rfl, rfl, rfl, id, id, ?_⟩
  rw [live]
  rfl

abbrev Passed (opts : Options cfg) (backend : Backend β) (value : UInt8) (l : Local cfg β)
    (r : Uplink cfg) (out : (Bool × Int) × Local cfg β × Uplink cfg) : Prop :=
  Takes ShellContext.keys opts backend value l r out

theorem passed_filtered {value : UInt8} (live : l.ctx.closeRequested = false)
    (filtered : Filtered l.ctx c) (keys : ∀ rest, l.ctx.keys (value :: rest) = c.keys rest) :
    Passed opts backend value l r ((false, 0), { l with ctx := c }, r) := by
  obtain ⟨live', line, output, edited⟩ := filtered.edited opts r live
  refine ⟨rfl, edited, (fun no => nomatch no), fun _ => live', fun echo rest bound fits =>
    ⟨[], rfl, fun later => ?_, fun _ => ⟨echo, ?_, ?_⟩⟩⟩
  · rw [live', keys later, ← line]
    rfl
  · rw [output]
    exact bound
  · rw [line, ← keys rest]
    exact fits

theorem passed_struck {value : UInt8} (live : l.ctx.closeRequested = false)
    (held : l.ctx.stream = some s) (empty : l.ctx.discardLine = true → l.ctx.command = [])
    (filtered : Filtered l.ctx c)
    (keys : ∀ rest, l.ctx.keys (value :: rest) = value :: c.keys rest) :
    Passed opts backend value l r ((handleKey opts backend value (classify value c)).exec Uplink.api
      { l with ctx := c } r) := by
  obtain ⟨live', line, output, edited⟩ := filtered.edited opts r live
  have struck : Struck opts backend value { l with ctx := c } r _ :=
    struck live' (edited.stream.trans held) (edited.discarding empty)
  generalize (handleKey opts backend value (classify value c)).exec Uplink.api { l with ctx := c } r
    = out at struck
  refine ⟨struck.ret, edited.trans live' struck.edited, struck.stopped, struck.going,
    fun echo rest bound fits => ?_⟩
  have keys' (input : List UInt8) : out.2.1.ctx.keys input = c.keys input := by
    unfold ShellContext.keys
    rw [struck.escapeState, struck.sawCarriageReturn]
  rw [keys rest, ← line] at fits
  rw [← output] at bound
  obtain ⟨commands, world, typed, going⟩ := struck.ran echo (c.keys rest) bound fits
  refine ⟨commands, world, fun later => ?_, fun goes => ?_⟩
  · rw [keys later, ← line, keys' later]
    exact typed (c.keys later)
  · rw [keys' rest]
    exact going goes

theorem inputPass_passed (value : UInt8) (live : l.ctx.closeRequested = false)
    (held : l.ctx.stream = some s) (empty : l.ctx.discardLine = true → l.ctx.command = []) :
    Passed opts backend value l r ((inputPass opts backend value).exec Uplink.api l r) := by
  unfold inputPass
  rw [exec_step_bind]
  cases escape : escapeFilter value l.ctx with
  | mk taken c =>
    cases taken with
    | true =>
      obtain ⟨filtered, keys⟩ := escapeFilter_taken escape
      exact passed_filtered live filtered keys
    | false =>
      obtain ⟨filtered, keys⟩ := escapeFilter_passed escape
      dsimp only
      rw [if_neg (by decide), exec_step_bind]
      cases pair : lineFilter value c with
      | mk taken c' =>
        cases taken with
        | true =>
          obtain ⟨filtered', keys'⟩ := lineFilter_taken pair
          exact passed_filtered live (filtered.trans filtered')
            fun rest => (keys rest).trans (keys' rest)
        | false =>
          obtain ⟨filtered', keys'⟩ := lineFilter_passed pair
          exact passed_struck live held empty (filtered.trans filtered')
            fun rest => (keys rest).trans (keys' rest)

structure Looped (opts : Options cfg) (backend : Backend β) (input : List UInt8) (l : Local cfg β)
    (r : Uplink cfg) (out : (Int × List UInt8) × Local cfg β × Uplink cfg) : Prop where
  ret : out.1.1 = 0
  edited : Edited opts l r out.2.1 out.2.2
  read : out.1.2.length ≤ input.length - 1
  waiting : out.1.2 ≠ [] → out.2.1.ctx.closeRequested = true ∨ out.2.1.ctx.output ≠ []
  ran : ∀ echo, l.ctx.output.length ≤ echo →
    roomy opts echo l.ctx.line (l.ctx.keys input) = true → ∃ commands,
      out.2.1.world = executed backend commands l.world ∧
      ∀ later, l.ctx.upcoming (input ++ later) = commands ++
        if out.2.1.ctx.closeRequested then [] else out.2.1.ctx.upcoming (out.1.2 ++ later)

theorem inputLoop_looped (input : List UInt8) (live : l.ctx.closeRequested = false)
    (held : l.ctx.stream = some s) (empty : l.ctx.discardLine = true → l.ctx.command = []) :
    Looped opts backend input l r ((inputLoop opts backend input).exec Uplink.api l r) := by
  induction input generalizing l r with
  | nil =>
    refine ⟨rfl, .refl live, Nat.le_refl 0, fun no => absurd rfl no,
      fun echo bound fits => ⟨[], rfl, fun later => ?_⟩⟩
    have live' : ((inputLoop opts backend []).exec Uplink.api l r).2.1.ctx.closeRequested = false :=
      live
    rw [live']
    rfl
  | cons value rest ih =>
    have passed : Passed opts backend value l r _ := inputPass_passed value live held empty
    rw [inputLoop, exec_bind]
    generalize (inputPass opts backend value).exec Uplink.api l r = out at passed
    obtain ⟨⟨stop, ret⟩, m, q⟩ := out
    cases stop with
    | true =>
      refine ⟨passed.ret, passed.edited, Nat.le_refl _, fun _ => passed.stopped rfl,
        fun echo bound fits => ?_⟩
      obtain ⟨commands, world, upcoming, -⟩ := passed.ran echo rest bound fits
      exact ⟨commands, world, fun later => upcoming (rest ++ later)⟩
    | false =>
      have live' := passed.going rfl
      have looped := ih (l := m) (r := q) live' (passed.edited.stream.trans held)
        (passed.edited.discarding empty)
      refine ⟨looped.ret, passed.edited.trans live' looped.edited,
        looped.read.trans (Nat.sub_le _ _), looped.waiting, fun echo bound fits => ?_⟩
      obtain ⟨first, world, upcoming, going⟩ := passed.ran echo rest bound fits
      obtain ⟨echo', bound', fits'⟩ := going rfl
      obtain ⟨second, world', upcoming'⟩ := looped.ran echo' bound' fits'
      refine ⟨first ++ second, ?_, fun later => ?_⟩
      · rw [executed_append, ← world]
        exact world'
      · have live'' : m.ctx.closeRequested = false := live'
        rw [List.cons_append, ShellContext.upcoming, upcoming (rest ++ later)]
        rw [live'', List.append_assoc]
        exact congrArg (first ++ ·) (upcoming' later)

end Loop

end Webos.Adb.Shell
