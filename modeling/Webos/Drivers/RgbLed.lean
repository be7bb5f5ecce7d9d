/- digest: The colour file of an LED: how it is read, and the five forms in which it is written. -/

import Mathlib.Data.List.DropRight
import Webos.Adb.Config
import Webos.Lib.CString
import Webos.Lib.Format
import Webos.Lib.Tokens

namespace Webos.Drivers.RgbLed

open Webos.Adb (EINVAL ENODEV ENOMEM ascii)
open Webos.Lib.CString
open Webos.Lib.Format
open Webos.Lib.Tokens

structure Color where
  red : UInt8
  green : UInt8
  blue : UInt8
  deriving DecidableEq

/-- `struct webos_rgbled_dev`, without its names. -/
structure Led where
  chainLength : Nat
  color : Color
  deriving DecidableEq

def LONG_MAX : Nat := 2 ^ 31 - 1

section Parse

def hexNibble (c : UInt8) : Option Nat :=
  if 48 ≤ c ∧ c ≤ 57 then some (c.toNat - 48)
  else
    let c := tolower c
    if 97 ≤ c ∧ c ≤ 102 then some (c.toNat - 97 + 10) else none

def isxdigit (c : UInt8) : Bool :=
  (48 ≤ c && c ≤ 57) || (97 ≤ c && c ≤ 102) || (65 ≤ c && c ≤ 70)

def nibbles (high low : Nat) : UInt8 := UInt8.ofNat ((high <<< 4) ||| low)

/-- The loop of `parse_hex_color` and the check behind it; the string ends with a zero. -/
def sixNibbles (buf : List UInt8) : Option Color := do
  let r ← hexNibble (buf.getD 0 0)
  let r' ← hexNibble (buf.getD 1 0)
  let g ← hexNibble (buf.getD 2 0)
  let g' ← hexNibble (buf.getD 3 0)
  let b ← hexNibble (buf.getD 4 0)
  let b' ← hexNibble (buf.getD 5 0)
  if isxdigit (buf.getD 6 0) then none
  else some ⟨nibbles r r', nibbles g g', nibbles b b'⟩

def hash : UInt8 := 35

def parseHexColor (buf : List UInt8) : Option Color :=
  sixNibbles (if buf.getD 0 0 = hash then buf.drop 1 else buf)

/-- The delimiters that `parse_rgb_color` gives to `strtok_r`. -/
def delimiter (c : UInt8) : Bool := c == 44 || c == 32

/-- One round of `parse_rgb_color`: a value, and the place behind it. -/
def nextValue (s : List UInt8) : Option (Int × List UInt8) :=
  match strtok delimiter s with
  | none => none
  | some (token, rest) =>
    let value := strtol LONG_MAX token
    if value < 0 ∨ value > 255 then none else some (value, rest)

def byte (value : Int) : UInt8 := UInt8.ofNat value.toNat

def parseRgbColor (buf : List UInt8) : Option Color := do
  let (r, rest) ← nextValue buf
  let (g, rest) ← nextValue rest
  let (b, rest) ← nextValue rest
  if (strtok delimiter rest).isSome then none else some ⟨byte r, byte g, byte b⟩

/-- The texts that `parse_color` compares with, and their colours. -/
def names : List (List UInt8 × Color) :=
  [(ascii "off", ⟨0, 0, 0⟩), (ascii "clear", ⟨0, 0, 0⟩), (ascii "0", ⟨0, 0, 0⟩),
    (ascii "red", ⟨255, 0, 0⟩), (ascii "green", ⟨0, 255, 0⟩), (ascii "blue", ⟨0, 0, 255⟩),
    (ascii "white", ⟨255, 255, 255⟩)]

def strip (buf : List UInt8) : List UInt8 := (buf.rdropWhile isspace).dropWhile isspace

/-- `parse_color` behind the loops that strip the text. -/
def parseStripped (buf : List UInt8) : Option Color :=
  match names.find? fun n => strcmp buf n.1 = .eq with
  | some (_, color) => some color
  | none =>
    if buf.getD 0 0 = hash ∨ buf.length = 6 then parseHexColor buf else parseRgbColor buf

def parseColor (buf : List UInt8) : Except Int Color :=
  match parseStripped (strip buf) with
  | some color => .ok color
  | none => .error (-EINVAL)

end Parse

section File

structure OpenFile where
  readEof : Bool

def webosRgbledOpen (ready allocated : Bool) : Except Int OpenFile :=
  if !ready then .error (-ENODEV)
  else if !allocated then .error (-ENOMEM)
  else .ok ⟨false⟩

/-- What `webos_rgbled_read` prints into its buffer. -/
def colorText (color : Color) : List UInt8 :=
  decimal color.red.toNat ++ ascii "," ++ decimal color.green.toNat ++ ascii "," ++
    decimal color.blue.toNat ++ ascii "\n"

/-- The result, the bytes that are copied, and the file. -/
def webosRgbledRead (led : Led) (file : OpenFile) (nbytes : Nat) : Int × List UInt8 × OpenFile :=
  if nbytes = 0 then ( - Adb.EIO, [], file)
  else if file.readEof then (0, [], file)
  else
    let bytes := (colorText led.color).take nbytes
    (bytes.length, bytes, ⟨true⟩)

variable (maxPixels : Nat) (update : List Color → Int)

/-- `led_strip_update_rgb` is `update`. -/
def webosRgbledShow (led : Led) : Int :=
  let ret := update (List.replicate (min led.chainLength maxPixels) led.color)
  if ret < 0 then ret else 0

def storeColor (led : Led) (color : Color) (nbytes : Nat) : Int × Led :=
  let led := { led with color := color }
  let ret := webosRgbledShow maxPixels update led
  (if ret < 0 then ret else nbytes, led)

def storeParsed (led : Led) (nbytes : Nat) : Except Int Color → Int × Led
  | .error ret => (ret, led)
  | .ok color => storeColor maxPixels update led color nbytes

def webosRgbledWrite (led : Led) (src : List UInt8) : Int × Led :=
  if src.length = 0 then ( - Adb.EIO, led)
  else if src.length = 1 ∧ src.getD 0 0 = 0 then
    storeColor maxPixels update led ⟨0, 0, 0⟩ src.length
  else if src.length = 3 ∧ src ≠ ascii "red" ∧ src ≠ ascii "off" then
    storeColor maxPixels update led ⟨src.getD 0 0, src.getD 1 0, src.getD 2 0⟩ src.length
  else storeParsed maxPixels update led src.length (parseColor (text (src.take 31)))

end File

section Values

theorem nextValue_cases (s : List UInt8) : (nextValue s = none ∧
      ∀ token ts, tokens delimiter s = token :: ts → ¬ (0 ≤ strtol LONG_MAX token ∧
        strtol LONG_MAX token ≤ 255)) ∨
    ∃ token rest, nextValue s = some (strtol LONG_MAX token, rest) ∧
      tokens delimiter s = token :: tokens delimiter rest ∧ 0 ≤ strtol LONG_MAX token ∧
        strtol LONG_MAX token ≤ 255 := by
  unfold nextValue
  rcases strtok_cases delimiter s with ⟨gone, empty⟩ | ⟨token, rest, found, split⟩
  · rw [gone, empty]
    exact Or.inl ⟨rfl, fun token ts no => nomatch no⟩
  · rw [found, split]
    dsimp only
    split_ifs with outside
    · refine Or.inl ⟨rfl, fun token' ts same => ?_⟩
      cases same
      omega
    · exact Or.inr ⟨token, rest, rfl, rfl, by omega, by omega⟩

def InRange (token : List UInt8) : Prop :=
  0 ≤ strtol LONG_MAX token ∧ strtol LONG_MAX token ≤ 255

theorem parseRgbColor_eq_some {buf : List UInt8} {color : Color} :
    parseRgbColor buf = some color ↔ ∃ a b c, tokens delimiter buf = [a, b, c] ∧ InRange a ∧
      InRange b ∧ InRange c ∧ color = ⟨byte (strtol LONG_MAX a), byte (strtol LONG_MAX b),
        byte (strtol LONG_MAX c)⟩ := by
  unfold parseRgbColor
  rcases nextValue_cases buf with ⟨gone, out⟩ | ⟨a, rest, first, split, inA⟩
  · rw [gone]
    refine iff_of_false (fun no => nomatch no) ?_
    rintro ⟨a, b, c, split, inRange, -⟩
    exact out a _ split inRange
  · rw [first, split]
    rcases nextValue_cases rest with ⟨gone, out⟩ | ⟨b, rest', second, split', inB⟩
    · simp only [Option.bind_eq_bind, Option.bind_some, gone]
      refine iff_of_false (fun no => nomatch no) ?_
      rintro ⟨a', b, c, same, -, inRange, -⟩
      rw [List.cons.injEq] at same
      exact out b _ same.2 inRange
    · rw [split']
      rcases nextValue_cases rest' with ⟨gone, out⟩ | ⟨c, rest'', third, split'', inC⟩
      · simp only [Option.bind_eq_bind, Option.bind_some, second, gone]
        refine iff_of_false (fun no => nomatch no) ?_
        rintro ⟨a', b', c, same, -, -, inRange, -⟩
        simp only [List.cons.injEq] at same
        exact out c _ same.2.2 inRange
      · simp only [Option.bind_eq_bind, Option.bind_some, second, third]
        rw [split'']
        rcases strtok_cases delimiter rest'' with ⟨gone, empty⟩ | ⟨d, more, found, more'⟩
        · rw [gone, empty]
          constructor
          · intro same
            cases same
            exact ⟨a, b, c, rfl, inA, inB, inC, rfl⟩
          · rintro ⟨a', b', c', same, -, -, -, rfl⟩
            cases same
            rfl
        · rw [found, more']
          refine iff_of_false (fun no => nomatch no) ?_
          rintro ⟨a', b', c', same, -⟩
          cases same

end Values

end Webos.Drivers.RgbLed
