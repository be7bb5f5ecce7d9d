/- digest: The one-shot commands that the shell service lets through. -/

import Webos.Adb.Sync.Path

namespace Webos.Adb.Shell

open Webos.Adb.Sync (isSpace digitValue splitSign)

def safePathChar (value : UInt8) : Bool :=
  ('a'.toUInt8 ≤ value && value ≤ 'z'.toUInt8) || ('A'.toUInt8 ≤ value && value ≤ 'Z'.toUInt8) ||
    ('0'.toUInt8 ≤ value && value ≤ '9'.toUInt8) || value == '/'.toUInt8 || value == ':'.toUInt8 ||
    value == '.'.toUInt8 || value == '_'.toUInt8 || value == '-'.toUInt8

def storage : List UInt8 := ascii "/STORAGE:"

/-- The loop of `safe_path` over the segments. A pass that goes on has consumed a byte, so as many
passes as there are bytes are enough. -/
def segmentsSafe : Nat → List UInt8 → Bool
  | 0, _ => true
  | passes + 1, rest =>
    if rest = [] then true
    else
      let segment := rest.takeWhile (fun c => c != '/'.toUInt8)
      if segment == [] || segment == ascii "." || segment == ascii ".." then false
      else segmentsSafe passes (rest.drop (segment.length + 1))

def segmentsFrom (first : Nat) (path : List UInt8) : Bool :=
  path.all safePathChar && segmentsSafe path.length (path.drop first) &&
    path.getLast? != some '/'.toUInt8

def belowStorage (path : List UInt8) : Bool :=
  decide (path.length > storage.length) && path.take storage.length == storage &&
    path.getD storage.length 0 == '/'.toUInt8

def safePath (path : List UInt8) (storageOnly : Bool) : Bool :=
  if storageOnly then belowStorage path && segmentsFrom (storage.length + 1) path
  else if path == storage then true
  else if belowStorage path then segmentsFrom (storage.length + 1) path
  else if decide (path.length ≥ 4) && path.take 4 == ascii "/dev" &&
      (path.length == 4 || path.getD 4 0 == '/'.toUInt8) then
    segmentsFrom (if path.length = 4 then path.length else 5) path
  else false

/-- `strtoul(text, &end, 10)` with a 32-bit `unsigned long`: the value and the text at `end`. -/
def strtoulDecimal (text : List UInt8) : UInt32 × List UInt8 :=
  let (negative, digits) := splitSign (text.dropWhile isSpace)
  let run := digits.takeWhile (fun c => decide (digitValue c < 10))
  let value := run.foldl (fun n c => n * 10 + digitValue c) 0
  if run = [] then (0, text)
  else if value ≥ 2 ^ 32 then (UInt32.ofNat (2 ^ 32 - 1), digits.drop run.length)
  else (if negative then -UInt32.ofNat value else UInt32.ofNat value, digits.drop run.length)

def skipBlanks (text : List UInt8) : List UInt8 := text.dropWhile (fun c => c == ' '.toUInt8)

def readCommandAllowed (arguments : List UInt8) : Bool :=
  let path := arguments.takeWhile (fun c => c != ' '.toUInt8)
  let separator := arguments.drop path.length
  if separator = [] || !safePath path true then false
  else
    let separator := skipBlanks separator
    if separator = [] then false
    else
      let (count, tail) := strtoulDecimal separator
      if tail.length == separator.length || count == 0 || decide (count > 256) then false
      else
        let tail := skipBlanks tail
        if tail = [] then true
        else
          let (offset, tail) := strtoulDecimal tail
          if decide (offset.toNat > 2 ^ 32 - 1) then false else skipBlanks tail == []

def commandAllowed (command : List UInt8) : Bool :=
  if command == ascii "kernel uptime" || command == ascii "fs ls" then true
  else if (ascii "fs read ").isPrefixOf command then
    readCommandAllowed (command.drop (ascii "fs read ").length)
  else if !(ascii "fs ls ").isPrefixOf command then false
  else safePath (command.drop (ascii "fs ls ").length) false

example : commandAllowed (ascii "fs read /STORAGE:/a 16 0") = true := by decide

end Webos.Adb.Shell
