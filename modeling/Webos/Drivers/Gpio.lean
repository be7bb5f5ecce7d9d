/- digest: The files of a GPIO pin, and what they tell about the pin after any history. -/

import Webos.Adb.Config
import Webos.Lib.CString
import Webos.Lib.Format
import Webos.Lib.Program

namespace Webos.Drivers.Gpio

open Webos.Adb (EINVAL ENODEV ENOMEM ascii)
open Webos.Lib.CString
open Webos.Lib.Format
open Webos.Lib.Program

inductive FileType where
  | value
  | direction
  deriving DecidableEq

inductive Direction where
  | output
  | input
  deriving DecidableEq

structure Dev where
  valueState : Int
  valueSet : Bool
  dirOut : Bool
  dirSet : Bool

def Dev.boot : Dev := ⟨0, false, false, false⟩

structure OpenFile where
  type : FileType
  readEof : Bool

/-- The calls that change the pin: `gpio_pin_configure_dt` and `gpio_pin_set_dt`. -/
inductive PinCall where
  | configure (direction : Direction)
  | set (level : Nat)
  deriving DecidableEq

def webosGpioOpen (type : FileType) (ready allocated : Bool) : Except Int OpenFile :=
  if !ready then .error (-ENODEV)
  else if !allocated then .error (-ENOMEM)
  else .ok ⟨type, false⟩

def fileText (dev : Dev) : FileType → List UInt8
  | .value => if dev.valueSet then decimal dev.valueState ++ ascii "\n" else ascii "?\n"
  | .direction =>
    if dev.dirSet then ascii (if dev.dirOut then "out" else "in") ++ ascii "\n" else ascii "?\n"

def webosGpioRead (dev : Dev) (file : OpenFile) (nbytes : Nat) : Int × List UInt8 × OpenFile :=
  if nbytes = 0 then ( - Adb.EIO, [], file)
  else if file.readEof then (0, [], file)
  else
    let bytes := (fileText dev file.type).take nbytes
    (bytes.length, bytes, { file with readEof := true })

def valueTarget (buf : List UInt8) : Option Nat :=
  let first := buf.getD 0 0
  if first = 49 ∨ first = 1 ∨ first = 111 then some 1
  else if first = 48 ∨ first = 0 then some 0
  else none

def directionTarget (buf : List UInt8) : Option Direction :=
  let first := buf.getD 0 0
  if strncmp (text buf) (ascii "out") 3 = .eq ∨ first = 1 then some .output
  else if strncmp (text buf) (ascii "in") 2 = .eq ∨ first = 0 then some .input
  else none

/-- The result and the device. A write to the value file leaves `dir_set` and `dir_out`, and one to
the direction file sets `dir_out` before it looks at the result of the call. -/
def webosGpioWrite (dev : Dev) (file : OpenFile) (src : List UInt8) :
    Prog PinCall (fun _ => Int) (Int × Dev) :=
  if src.length = 0 then .done ( - Adb.EIO, dev)
  else
    let buf := src.take 15
    match file.type with
    | .value =>
      match valueTarget buf with
      | none => .done (-EINVAL, dev)
      | some target =>
        .call (.configure .output) fun ret =>
          if ret < 0 then .done (ret, dev)
          else .call (.set target) fun ret =>
            if ret < 0 then .done (ret, dev)
            else .done (src.length, { dev with valueState := target, valueSet := true })
    | .direction =>
      match directionTarget buf with
      | none => .done (-EINVAL, dev)
      | some direction =>
        .call (.configure direction) fun ret =>
          let dev := { dev with dirOut := decide (direction = .output) }
          if ret < 0 then .done (ret, dev)
          else .done (src.length, { dev with dirSet := true })

section Pin

/-- The direction that was configured last, of the calls that succeeded, the last one first. -/
def configured (log : List PinCall) : Option Direction :=
  log.findSome? fun
    | .configure direction => some direction
    | .set _ => none

def driven (log : List PinCall) : Option Nat :=
  log.findSome? fun
    | .configure _ => none
    | .set level => some level

/-- A pin whose calls are answered in any way; those that succeed are noted. -/
def pin (answers : PinCall → Int) : Handler PinCall (fun _ => Int) (List PinCall) :=
  fun c log => (answers c, if answers c < 0 then log else c :: log)

end Pin

section Bench

structure Bench where
  dev : Dev
  files : Nat → Option OpenFile
  log : List PinCall

def Bench.boot : Bench := ⟨.boot, fun _ => none, []⟩

inductive Step where
  | openFile (handle : Nat) (type : FileType) (ready allocated : Bool)
  | read (handle nbytes : Nat)
  | write (handle : Nat) (src : List UInt8) (answers : PinCall → Int)
  | close (handle : Nat)

def Bench.setFile (b : Bench) (handle : Nat) (file : Option OpenFile) : Bench :=
  { b with files := fun h => if h = handle then file else b.files h }

/-- A write through an open file: its result, and what it leaves. -/
def Bench.write (b : Bench) (file : OpenFile) (src : List UInt8) (answers : PinCall → Int) :
    Int × Bench :=
  let out := (webosGpioWrite b.dev file src).run (pin answers) b.log
  (out.1.1, { b with dev := out.1.2, log := out.2 })

def Bench.step (b : Bench) : Step → Bench
  | .openFile handle type ready allocated =>
    match b.files handle, webosGpioOpen type ready allocated with
    | none, .ok file => b.setFile handle (some file)
    | _, _ => b
  | .read handle nbytes =>
    match b.files handle with
    | none => b
    | some file => b.setFile handle (some (webosGpioRead b.dev file nbytes).2.2)
  | .write handle src answers =>
    match b.files handle with
    | none => b
    | some file => (b.write file src answers).2
  | .close handle => b.setFile handle none

/-- The states that steps lead to, each of which was `ok` when it was made. -/
inductive Reached (ok : Bench → Step → Prop) : Bench → Prop where
  | boot : Reached ok .boot
  | step {b : Bench} (step : Step) : Reached ok b → ok b step → Reached ok (b.step step)

end Bench

/-- What a client reads that opens a file and takes up to `n` bytes. -/
def reads (dev : Dev) (type : FileType) (n : Nat) : List UInt8 :=
  (webosGpioRead dev ⟨type, false⟩ n).2.1

def directionText : Option Direction → List UInt8
  | none => ascii "?\n"
  | some .output => ascii "out\n"
  | some .input => ascii "in\n"

def valueText : Option Nat → List UInt8
  | none => ascii "?\n"
  | some level => decimal level ++ ascii "\n"

/-- Both files tell what the pin was last told. -/
def Truthful (b : Bench) : Prop :=
  ∀ n, reads b.dev .direction n = (directionText (configured b.log)).take n ∧
    reads b.dev .value n = (valueText (driven b.log)).take n

/-- A write does not touch what the driver does not keep: a level is written only to a pin that the
direction file calls an output, and a change of direction that fails changes nothing. -/
def Kept (b : Bench) : Step → Prop
  | .write handle src answers => ∀ file, b.files handle = some file → src ≠ [] →
    match file.type with
    | .value => valueTarget (src.take 15) ≠ none → 0 ≤ answers (.configure .output) →
        b.dev.dirSet = true ∧ b.dev.dirOut = true
    | .direction => ∀ d, directionTarget (src.take 15) = some d → answers (.configure d) < 0 →
        b.dev.dirSet = true → b.dev.dirOut = decide (d = .output)
  | _ => True

structure Matches (dev : Dev) (log : List PinCall) : Prop where
  direction : configured log =
    if dev.dirSet then some (if dev.dirOut then .output else .input) else none
  value : (driven log).map Int.ofNat = if dev.valueSet then some dev.valueState else none

theorem configured_cons (c : PinCall) (log : List PinCall) : configured (c :: log) =
    match c with
    | .configure d => some d
    | .set _ => configured log := by
  cases c with
  | configure d => rfl
  | set level => rfl

theorem driven_cons (c : PinCall) (log : List PinCall) : driven (c :: log) =
    match c with
    | .configure _ => driven log
    | .set level => some level := by
  cases c with
  | configure d => rfl
  | set level => rfl

theorem reads_eq (dev : Dev) (type : FileType) (n : Nat) :
    reads dev type n = (fileText dev type).take n := by
  unfold reads webosGpioRead
  by_cases none : n = 0
  · simp [none]
  · rw [if_neg none, if_neg (by simp)]

variable {b : Bench}

theorem Matches.truthful (matched : Matches b.dev b.log) : Truthful b := by
  intro n
  rw [reads_eq, reads_eq, matched.direction]
  constructor
  · congr 1
    cases set : b.dev.dirSet with
    | false => simp [fileText, directionText, set]
    | true =>
      cases out : b.dev.dirOut with
      | false =>
        simp only [fileText, set, out]
        decide
      | true =>
        simp only [fileText, set, out]
        decide
  · have value := matched.value
    cases here : driven b.log with
    | none =>
      rw [here] at value
      cases set : b.dev.valueSet with
      | false => simp [fileText, valueText, set]
      | true => simp [set] at value
    | some level =>
      rw [here] at value
      cases set : b.dev.valueSet with
      | false => simp [set] at value
      | true =>
        simp only [set, Option.map_some, if_true, Option.some.injEq] at value
        simp [fileText, valueText, set, ← value]

/-- All that a write can do: fail before the pin is touched, leave an output without a level, drive
a level, or fail to turn the pin or turn it. -/
inductive Written (b : Bench) (file : OpenFile) (src : List UInt8) (answers : PinCall → Int) :
    Int × Bench → Prop where
  | refused {ret : Int} (error : ret < 0) : Written b file src answers (ret, b)
  | undriven {target : Nat} (some' : src ≠ []) (type : file.type = .value)
      (asked : valueTarget (src.take 15) = some target)
      (configures : 0 ≤ answers (.configure .output)) {ret : Int} (error : ret < 0) :
      Written b file src answers (ret, { b with log := .configure .output :: b.log })
  | drove {target : Nat} (some' : src ≠ []) (type : file.type = .value)
      (asked : valueTarget (src.take 15) = some target)
      (configures : 0 ≤ answers (.configure .output)) :
      Written b file src answers (src.length,
        { b with dev := { b.dev with valueState := target, valueSet := true },
                 log := .set target :: .configure .output :: b.log })
  | unturned {d : Direction} (some' : src ≠ []) (type : file.type = .direction)
      (asked : directionTarget (src.take 15) = some d) (error : answers (.configure d) < 0) :
      Written b file src answers (answers (.configure d),
        { b with dev := { b.dev with dirOut := decide (d = .output) } })
  | turned {d : Direction} (some' : src ≠ []) (type : file.type = .direction)
      (asked : directionTarget (src.take 15) = some d) :
      Written b file src answers (src.length,
        { b with dev := { b.dev with dirOut := decide (d = .output), dirSet := true },
                 log := .configure d :: b.log })

theorem write_written (b : Bench) (file : OpenFile) (src : List UInt8) (answers : PinCall → Int) :
    Written b file src answers (b.write file src answers) := by
  unfold Bench.write webosGpioWrite
  by_cases empty : src.length = 0
  · rw [if_pos empty]
    exact .refused (show - Adb.EIO < 0 by decide)
  · have some' : src ≠ [] := fun none => empty (by rw [none]; rfl)
    rw [if_neg empty]
    cases type : file.type with
    | value =>
      dsimp only
      cases asked : valueTarget (src.take 15) with
      | none => exact .refused (show -EINVAL < 0 by decide)
      | some target =>
        dsimp only [Prog.run, pin]
        by_cases configures : answers (.configure .output) < 0
        · rw [if_pos configures, if_pos configures]
          exact .refused configures
        · rw [if_neg configures, if_neg configures]
          dsimp only [Prog.run, pin]
          by_cases sets : answers (.set target) < 0
          · rw [if_pos sets, if_pos sets]
            exact .undriven some' type asked (Int.not_lt.mp configures) sets
          · rw [if_neg sets, if_neg sets]
            exact .drove some' type asked (Int.not_lt.mp configures)
    | direction =>
      dsimp only
      cases asked : directionTarget (src.take 15) with
      | none => exact .refused (show -EINVAL < 0 by decide)
      | some d =>
        dsimp only [Prog.run, pin]
        by_cases fails : answers (.configure d) < 0
        · rw [if_pos fails, if_pos fails]
          exact .unturned some' type asked fails
        · rw [if_neg fails, if_neg fails]
          exact .turned some' type asked

theorem Matches.step (matched : Matches b.dev b.log) (step : Step) (kept : Kept b step) :
    Matches (b.step step).dev (b.step step).log := by
  cases step with
  | openFile handle type ready allocated =>
    simp only [Bench.step]
    split
    all_goals exact matched
  | read handle nbytes =>
    simp only [Bench.step]
    split
    all_goals exact matched
  | close handle => exact matched
  | write handle src answers =>
    simp only [Bench.step]
    split
    · exact matched
    · rename_i file here
      have condition := kept file here
      have direction := matched.direction
      have value := matched.value
      generalize result : b.write file src answers = out
      have written := write_written b file src answers
      rw [result] at written
      cases written with
      | refused error => exact matched
      | undriven some' type asked configures error =>
        rw [type] at condition
        obtain ⟨set, output⟩ := condition some' (by simp [asked]) configures
        exact ⟨by simp [configured_cons, set, output], by simpa [driven_cons] using value⟩
      | drove some' type asked configures =>
        rw [type] at condition
        obtain ⟨set, output⟩ := condition some' (by simp [asked]) configures
        exact ⟨by simp [configured_cons, set, output], by simp [driven_cons]⟩
      | @unturned d some' type asked error =>
        rw [type] at condition
        refine ⟨?_, value⟩
        rw [direction]
        cases set : b.dev.dirSet with
        | false => simp
        | true => simp [condition some' d asked error set]
      | @turned d some' type asked =>
        refine ⟨?_, by simpa [driven_cons] using value⟩
        cases d with
        | output => simp [configured_cons]
        | input => simp [configured_cons]

theorem Reached.matches (reached : Reached Kept b) : Matches b.dev b.log := by
  induction reached with
  | boot => exact ⟨rfl, rfl⟩
  | step step _ kept ih => exact ih.step step kept

theorem reads_of_refused {handle : Nat} {file : OpenFile} {src : List UInt8}
    {answers : PinCall → Int} (here : b.files handle = some file)
    (kept : Kept b (.write handle src answers)) (failed : (b.write file src answers).1 < 0)
    (untouched : (b.write file src answers).2.log = b.log) (type : FileType) (n : Nat) :
    reads (b.write file src answers).2.dev type n = reads b.dev type n := by
  have written := write_written b file src answers
  generalize b.write file src answers = out at written failed untouched ⊢
  cases written with
  | refused error => rfl
  | undriven some' type asked configures error => rfl
  | drove some' type asked configures => exact absurd failed (by simp)
  | @unturned d some' isDirection asked error =>
    have condition := kept file here some'
    rw [isDirection] at condition
    rw [reads_eq, reads_eq]
    cases type with
    | value => rfl
    | direction =>
      cases set : b.dev.dirSet with
      | false => simp [fileText, set]
      | true => simp [fileText, set, condition d asked error set]
  | turned some' type asked => exact absurd failed (by simp)

/-- While writes are kept to what the driver notes, the files of a pin tell what it was last told,
and a write that fails before it has changed the pin leaves what they say. -/
theorem gpio_files_truthful {b : Bench} (reached : Reached Kept b) : Truthful b ∧
    ∀ handle file src answers, b.files handle = some file → Kept b (.write handle src answers) →
      (b.write file src answers).1 < 0 → (b.write file src answers).2.log = b.log →
      ∀ type n, reads (b.write file src answers).2.dev type n = reads b.dev type n :=
  ⟨reached.matches.truthful, fun _ _ _ _ here kept failed untouched type n =>
    reads_of_refused here kept failed untouched type n⟩

def obliging : PinCall → Int := fun _ => 0

def afterWrite (type : FileType) (src : List UInt8) (answers : PinCall → Int) (b : Bench) : Bench :=
  (b.step (.openFile 0 type true true)).step (.write 0 src answers)

theorem gpio_files_truthful_out :
    Truthful (afterWrite .direction (ascii "out") obliging .boot) ∧
      reads (afterWrite .direction (ascii "out") obliging .boot).dev .direction 8 =
        ascii "out\n" := by
  have reached : Reached Kept (afterWrite .direction (ascii "out") obliging .boot) := by
    refine .step _ (.step _ .boot trivial) ?_
    rintro file ⟨⟩ -
    intro d asked fails
    exact absurd fails (by simp [obliging])
  exact ⟨(gpio_files_truthful reached).1, by decide⟩

/-- After a level was driven the direction file still does not know that the pin is an output; and
a failed change of direction is shown as if it had happened. -/
theorem gpio_files_mislead :
    ¬ Truthful (afterWrite .value (ascii "1") obliging .boot) ∧
      ¬ Truthful ((afterWrite .direction (ascii "out") obliging .boot).step
        (.write 0 (ascii "in") fun _ => -5)) := by
  constructor
  · intro truthful
    have direction := (truthful 8).1
    revert direction
    decide
  · intro truthful
    have direction := (truthful 8).1
    revert direction
    decide

end Webos.Drivers.Gpio
