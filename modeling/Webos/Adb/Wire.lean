/- digest: The 24-byte message header, its checksum and the exact inverse of the encoder. -/

import Mathlib.Algebra.GroupWithZero.Nat
import Webos.Adb.Config
import Webos.Lib.Bytes

namespace Webos.Adb

open Webos.Lib.Bytes

def ADB_COMMAND_CNXN : UInt32 := 0x4e584e43
def ADB_COMMAND_OPEN : UInt32 := 0x4e45504f
def ADB_COMMAND_OKAY : UInt32 := 0x59414b4f
def ADB_COMMAND_CLSE : UInt32 := 0x45534c43
def ADB_COMMAND_WRTE : UInt32 := 0x45545257
def ADB_VERSION : UInt32 := 0x01000000
def ADB_VERSION_NO_CHECKSUM : UInt32 := 0x01000001
def UINT32_MAX : UInt32 := 0xffffffff
def WEBOS_ADB_HEADER_SIZE : Nat := 24

structure Message where
  command : UInt32
  arg0 : UInt32
  arg1 : UInt32
  dataLength : UInt32
  dataCheck : UInt32
  magic : UInt32
  deriving DecidableEq, Repr

structure Packet where
  command : UInt32
  arg0 : UInt32
  arg1 : UInt32
  payload : List UInt8
  deriving DecidableEq, Repr

def adbChecksum (data : List UInt8) : UInt32 :=
  data.foldl (fun sum byte => sum + byte.toUInt32) 0

private theorem checksum_from (data : List UInt8) (start : UInt32) :
    data.foldl (fun sum byte => sum + byte.toUInt32) start = start + adbChecksum data := by
  induction data generalizing start with
  | nil => simp [adbChecksum]
  | cons byte data ih =>
    rw [adbChecksum, List.foldl_cons, List.foldl_cons, ih, ih (0 + byte.toUInt32)]
    simp only [UInt32.zero_add, UInt32.add_assoc]

@[simp] theorem adbChecksum_nil : adbChecksum [] = 0 := rfl

theorem adbChecksum_append (a b : List UInt8) :
    adbChecksum (a ++ b) = adbChecksum a + adbChecksum b := by
  rw [adbChecksum, List.foldl_append, checksum_from b]
  rfl

theorem adbChecksum_toNat (data : List UInt8) :
    (adbChecksum data).toNat = (data.map UInt8.toNat).sum % 2 ^ 32 := by
  induction data with
  | nil => rfl
  | cons x xs ih =>
    have first : (adbChecksum [x]).toNat = x.toNat := by
      simp [adbChecksum]
    have split : adbChecksum (x :: xs) = adbChecksum [x] + adbChecksum xs :=
      adbChecksum_append [x] xs
    rw [split, UInt32.toNat_add, first, ih, List.map_cons, List.sum_cons]
    omega

def headerBytes (m : Message) : List UInt8 :=
  putLe32 m.command ++ (putLe32 m.arg0 ++ (putLe32 m.arg1 ++ (putLe32 m.dataLength ++
    (putLe32 m.dataCheck ++ putLe32 m.magic))))

def encodeMessage (command arg0 arg1 : UInt32) (payload : List UInt8) : List UInt8 :=
  headerBytes ⟨command, arg0, arg1, UInt32.ofNat payload.length, adbChecksum payload,
    command ^^^ UINT32_MAX⟩

/-- The six loads of `decode_header`. -/
def loadMessage (header : List UInt8) : Message where
  command := getLe32 header
  arg0 := getLe32 (header.drop 4)
  arg1 := getLe32 (header.drop 8)
  dataLength := getLe32 (header.drop 12)
  dataCheck := getLe32 (header.drop 16)
  magic := getLe32 (header.drop 20)

@[simp] theorem length_headerBytes (m : Message) : (headerBytes m).length = 24 := rfl

@[simp] theorem length_encodeMessage (command arg0 arg1 : UInt32) (payload : List UInt8) :
    (encodeMessage command arg0 arg1 payload).length = 24 := rfl

private theorem drop_putLe32 (v : UInt32) (n : Nat) (rest : List UInt8) :
    (putLe32 v ++ rest).drop (4 + n) = rest.drop n := by
  rw [← List.drop_drop, List.drop_left' (length_putLe32 v)]

@[simp] theorem loadMessage_headerBytes (m : Message) : loadMessage (headerBytes m) = m := by
  have d8 : (headerBytes m).drop 8 = (headerBytes m).drop (4 + (4 + 0)) := rfl
  have d12 : (headerBytes m).drop 12 = (headerBytes m).drop (4 + (4 + (4 + 0))) := rfl
  have d16 : (headerBytes m).drop 16 = (headerBytes m).drop (4 + (4 + (4 + (4 + 0)))) := rfl
  have d20 : (headerBytes m).drop 20 = (headerBytes m).drop (4 + (4 + (4 + (4 + (4 + 0))))) := rfl
  have d4 : (headerBytes m).drop 4 = (headerBytes m).drop (4 + 0) := rfl
  have last := getLe32_putLe32 m.magic []
  rw [List.append_nil] at last
  simp only [loadMessage, d4, d8, d12, d16, d20]
  simp only [headerBytes, drop_putLe32, List.drop_zero, getLe32_putLe32, last]

end Webos.Adb
