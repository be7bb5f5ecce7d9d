/- digest: The context of an application, and the paths it may use. -/

import Webos.Adb.Config
import Webos.Lib.CString

namespace Webos.Services.App

open Webos.Adb (ascii)
open Webos.Lib.CString

def WEBOS_APP_MAX_ID : Nat := 48
def WEBOS_APP_MAX_GRANTS : Nat := 8
def WEBOS_ABI_MAX_PATH_BYTES : Nat := 255
def WEBOS_ABI_MAX_IO_BYTES : Nat := 65536

def slash : UInt8 := 47
def dot : UInt8 := 46

inductive InitResult where
  | ok
  | invalid
  | tooLarge
  deriving DecidableEq

def idChar (c : UInt8) : Bool :=
  (97 ≤ c && c ≤ 122) || (48 ≤ c && c ≤ 57) || c == 45 || c == 95

def validComponent : Option (List UInt8) → Bool
  | none => false
  | some value =>
    if value.length = 0 ∨ value.length ≥ WEBOS_APP_MAX_ID then false else value.all idChar

def prefixBoundary (value front : List UInt8) : Bool :=
  let n := front.length
  n > 0 && strncmp value front n == .eq &&
    (value.getD n 0 == 0 || value.getD n 0 == slash || front.getD (n - 1) 0 == slash)

/-- What the first byte of a character says: the start of its code point, and how many bytes
follow. -/
def leadByte (first : UInt8) : Option (Nat × Nat) :=
  if 0xc2 ≤ first ∧ first ≤ 0xdf then some ((first &&& 0x1f).toNat, 1)
  else if 0xe0 ≤ first ∧ first ≤ 0xef then some ((first &&& 0x0f).toNat, 2)
  else if 0xf0 ≤ first ∧ first ≤ 0xf4 then some ((first &&& 0x07).toNat, 3)
  else none

/-- The inner loop of `valid_utf8`: the code point, and the bytes behind the character. -/
def continuationBytes : Nat → Nat → List UInt8 → Option (Nat × List UInt8)
  | 0, codepoint, bytes => some (codepoint, bytes)
  | _ + 1, _, [] => none
  | n + 1, codepoint, next :: bytes =>
    if next &&& 0xc0 ≠ 0x80 then none
    else continuationBytes n ((codepoint <<< 6) ||| (next &&& 0x3f).toNat) bytes

/-- One round of `valid_utf8`: the bytes behind the first character, if that is well formed. -/
def nextChar (first : UInt8) (bytes : List UInt8) : Option (List UInt8) :=
  if first < 0x80 then some bytes
  else
    match leadByte first with
    | none => none
    | some (codepoint, continuation) =>
      if continuation > bytes.length then none
      else
        match continuationBytes continuation codepoint bytes with
        | none => none
        | some (codepoint, rest) =>
          if (codepoint ≥ 0xd800 ∧ codepoint ≤ 0xdfff) ∨ codepoint > 0x10ffff ∨
              (codepoint < 0x800 ∧ first ≥ 0xe0) ∨ (codepoint < 0x10000 ∧ first ≥ 0xf0) then none
          else some rest

/-- The loop of `valid_utf8`; every round takes at least one byte. -/
def validUtf8Rounds : Nat → List UInt8 → Bool
  | _, [] => true
  | 0, _ :: _ => false
  | rounds + 1, first :: bytes =>
    match nextChar first bytes with
    | none => false
    | some rest => validUtf8Rounds rounds rest

def validUtf8 (value : List UInt8) : Bool := validUtf8Rounds value.length value

/-- The loop of `valid_path`, where `before` is the byte in front, if there is one. -/
def scanPath : Option UInt8 → List UInt8 → Bool
  | _, [] => true
  | before, c :: rest =>
    if c < 0x20 ∨ (c = dot ∧ rest.getD 0 0 = dot ∧ (before = none ∨ before = some slash) ∧
        (rest.getD 1 0 = 0 ∨ rest.getD 1 0 = slash)) then false
    else scanPath (some c) rest

def validPath : Option (List UInt8) → Bool
  | none => false
  | some path =>
    if path.getD 0 0 ≠ slash ∨ path.length = 0 ∨ path.length > WEBOS_ABI_MAX_PATH_BYTES ∨
        path.getD (path.length - 1) 0 = slash then false
    else if !validUtf8 path || (strstr path [slash, slash]).isSome then false
    else scanPath none path

structure AppContext where
  id : List UInt8
  version : List UInt8
  storageRoot : List UInt8
  pathGrants : Fin WEBOS_APP_MAX_GRANTS → Option (List UInt8)
  pathGrantCount : Nat
  maxIoBytes : Nat

def storageRootOf (id : List UInt8) : List UInt8 :=
  ascii "/STORAGE:/apps/" ++ id ++ ascii "/data"

def webosAppContextInit (id version : Option (List UInt8)) : InitResult × Option AppContext :=
  match id, version with
  | some id, some version =>
    if !validComponent (some id) || version.length = 0 then (.invalid, none)
    else
      let size := WEBOS_ABI_MAX_PATH_BYTES + 1
      let root := storageRootOf id
      (if root.length ≥ size then .tooLarge else .ok,
        some ⟨id, version, root.take (size - 1), fun _ => none, 0, WEBOS_ABI_MAX_IO_BYTES⟩)
  | _, _ => (.invalid, none)

def AppContext.grant (context : AppContext) (i : Fin WEBOS_APP_MAX_GRANTS) :
    Option (List UInt8) :=
  if i < context.pathGrantCount then context.pathGrants i else none

def webosAppPathAllowed (context : AppContext) (path : Option (List UInt8)) : Bool :=
  match path with
  | none => false
  | some path =>
    validPath (some path) && (prefixBoundary path context.storageRoot ||
        (List.finRange WEBOS_APP_MAX_GRANTS).any fun i =>
          match context.grant i with
          | none => false
          | some grant => prefixBoundary path grant)

end Webos.Services.App
