/- digest: Which command lines a sequence of keystrokes types, and what their echo takes. -/

import Webos.Adb.Shell.Service

namespace Webos.Adb.Shell

def skipEscapes : EscapeState → List UInt8 → List UInt8
  | _, [] => []
  | .text, c :: rest =>
    if c = 0x1b then skipEscapes .escape rest else c :: skipEscapes .text rest
  | .escape, c :: rest =>
    if c = '['.toUInt8 ∨ c = 'O'.toUInt8 then skipEscapes .sequence rest
    else if c = 0x1b then skipEscapes .escape rest
    else c :: skipEscapes .text rest
  | .sequence, c :: rest =>
    if 0x40 ≤ c ∧ c ≤ 0x7e then skipEscapes .text rest else skipEscapes .sequence rest

def joinLineEnds : Bool → List UInt8 → List UInt8
  | _, [] => []
  | returned, c :: rest =>
    if c = 0x0a ∧ returned = true then joinLineEnds false rest
    else c :: joinLineEnds (c == 0x0d) rest

inductive Stroke where
  | lineEnd
  | endOfTransmission
  | interrupt
  | erase
  | tab
  | ignored
  | character
  deriving DecidableEq

def stroke (c : UInt8) : Stroke :=
  if isLineEnd c then .lineEnd
  else if c = 0x04 then .endOfTransmission
  else if c = 0x03 then .interrupt
  else if c = 0x08 ∨ c = 0x7f then .erase
  else if c = 0x09 then .tab
  else if c < 0x20 ∨ c > 0x7e then .ignored
  else .character

def commandOf (line : List UInt8) : List (List UInt8) :=
  if line = [] ∨ line = ascii "exit" then [] else [line]

/-- The commands that are typed from a line on; `none` is a line that is too long. -/
def edit (size : Nat) : Option (List UInt8) → List UInt8 → List (List UInt8)
  | _, [] => []
  | none, c :: rest => edit size (if stroke c = .lineEnd then some [] else none) rest
  | some line, c :: rest =>
    match stroke c with
    | .lineEnd =>
      if line = ascii "exit" then [] else commandOf line ++ edit size (some []) rest
    | .endOfTransmission => commandOf line
    | .interrupt => edit size (some []) rest
    | .erase => edit size (some line.dropLast) rest
    | .tab | .ignored => edit size (some line) rest
    | .character => edit size (if line.length + 1 ≥ size then none else some (line ++ [c])) rest

def typedCommands (size : Nat) (input : List UInt8) : List (List UInt8) :=
  edit size (some []) (joinLineEnds false (skipEscapes .text input))

variable {cfg : Config}

/-- Whether the next command finds room in the output buffer behind `echo` bytes: for the rest of
its echo, a line end, the prompt and two bytes of its own. -/
def roomy (opts : Options cfg) : Nat → Option (List UInt8) → List UInt8 → Bool
  | _, _, [] => true
  | _, none, _ => true
  | echo, some line, c :: rest =>
    match stroke c with
    | .lineEnd =>
      commandOf line = [] || decide (echo + 2 + opts.prompt.length + 2 ≤ opts.outputSize)
    | .endOfTransmission => commandOf line = [] || decide (echo + 2 + 2 ≤ opts.outputSize)
    | .interrupt => true
    | .erase => roomy opts (if line = [] then echo else echo + 3) (some line.dropLast) rest
    | .tab => roomy opts (echo + 1) (some line) rest
    | .ignored => roomy opts echo (some line) rest
    | .character =>
      roomy opts (echo + 1)
        (if line.length + 1 ≥ cfg.shellCommandSize then none else some (line ++ [c])) rest

namespace ShellContext

def line (c : ShellContext cfg) : Option (List UInt8) :=
  if c.discardLine then none else some c.command

def keys (c : ShellContext cfg) (input : List UInt8) : List UInt8 :=
  joinLineEnds c.sawCarriageReturn (skipEscapes c.escapeState input)

def upcoming (c : ShellContext cfg) (input : List UInt8) : List (List UInt8) :=
  edit cfg.shellCommandSize c.line (c.keys input)

end ShellContext

section Filters

variable {value : UInt8} {c : ShellContext cfg}

def Filtered (c c' : ShellContext cfg) : Prop :=
  ∃ escapeState sawCarriageReturn,
    c' = { c with escapeState := escapeState, sawCarriageReturn := sawCarriageReturn }

variable {c' : ShellContext cfg}

theorem escapeFilter_taken (taken : escapeFilter value c = (true, c')) :
    Filtered c c' ∧ ∀ rest, c.keys (value :: rest) = c'.keys rest := by
  unfold escapeFilter at taken
  unfold ShellContext.keys
  cases state : c.escapeState with
  | text =>
    rw [state] at taken
    dsimp only at taken
    split_ifs at taken with escape
    · cases taken
      refine ⟨⟨_, _, rfl⟩, fun rest => ?_⟩
      rw [skipEscapes, if_pos escape]
    · cases taken
  | escape =>
    rw [state] at taken
    dsimp only at taken
    split_ifs at taken with begins escape
    · cases taken
      refine ⟨⟨_, _, rfl⟩, fun rest => ?_⟩
      rw [skipEscapes, if_pos begins]
    · cases taken
      refine ⟨⟨_, _, rfl⟩, fun rest => ?_⟩
      rw [skipEscapes, if_neg begins, if_pos escape]
    · cases taken
  | sequence =>
    rw [state] at taken
    cases taken
    split_ifs with ends
    · refine ⟨⟨_, _, rfl⟩, fun rest => ?_⟩
      rw [skipEscapes, if_pos ends]
    · refine ⟨⟨_, _, rfl⟩, fun rest => ?_⟩
      rw [skipEscapes, if_neg ends, state]

theorem escapeFilter_passed (passed : escapeFilter value c = (false, c')) :
    Filtered c c' ∧ ∀ rest, c.keys (value :: rest) =
      joinLineEnds c'.sawCarriageReturn (value :: skipEscapes c'.escapeState rest) := by
  unfold escapeFilter at passed
  unfold ShellContext.keys
  cases state : c.escapeState with
  | text =>
    rw [state] at passed
    dsimp only at passed
    split_ifs at passed with escape
    · cases passed
    · cases passed
      refine ⟨⟨_, _, rfl⟩, fun rest => ?_⟩
      rw [skipEscapes, if_neg escape, state]
  | escape =>
    rw [state] at passed
    dsimp only at passed
    split_ifs at passed with begins escape
    · cases passed
    · cases passed
    · cases passed
      refine ⟨⟨_, _, rfl⟩, fun rest => ?_⟩
      rw [skipEscapes, if_neg begins, if_neg escape]
  | sequence =>
    rw [state] at passed
    cases passed

theorem lineFilter_taken (taken : lineFilter value c = (true, c')) :
    Filtered c c' ∧ ∀ rest, joinLineEnds c.sawCarriageReturn
      (value :: skipEscapes c.escapeState rest) = c'.keys rest := by
  unfold lineFilter at taken
  split_ifs at taken with pair
  · cases taken
    refine ⟨⟨_, _, rfl⟩, fun rest => ?_⟩
    rw [joinLineEnds, if_pos pair]
    rfl
  · cases taken

theorem lineFilter_passed (passed : lineFilter value c = (false, c')) :
    Filtered c c' ∧ ∀ rest, joinLineEnds c.sawCarriageReturn
      (value :: skipEscapes c.escapeState rest) = value :: c'.keys rest := by
  unfold lineFilter at passed
  split_ifs at passed with pair
  · cases passed
  · cases passed
    refine ⟨⟨_, _, rfl⟩, fun rest => ?_⟩
    rw [joinLineEnds, if_neg pair]
    rfl

theorem Filtered.trans {c'' : ShellContext cfg} (first : Filtered c c') (second : Filtered c' c'') :
    Filtered c c'' := by
  obtain ⟨_, _, rfl⟩ := first
  obtain ⟨escapeState, sawCarriageReturn, rfl⟩ := second
  exact ⟨escapeState, sawCarriageReturn, rfl⟩

theorem classify_eq : classify value c =
    if c.discardLine then if stroke value = .lineEnd then .discardedEnd else .discarded
    else match stroke value with
      | .lineEnd => .lineEnd
      | .endOfTransmission => .endOfTransmission
      | .interrupt => .interrupt
      | .erase => .erase
      | .tab => .tab
      | .ignored => .skipped
      | .character => if c.command.length + 1 ≥ cfg.shellCommandSize then .overflow
          else .printable := by
  unfold classify stroke
  split_ifs <;> first | rfl | simp_all

end Filters

end Webos.Adb.Shell
