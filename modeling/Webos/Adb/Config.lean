/- digest: Build options with their Kconfig ranges, and the error numbers the router returns. -/

import Mathlib.Data.List.Basic

namespace Webos.Adb

/-- The Kconfig options of `lib/adb`; a value exists only inside the declared ranges. -/
structure Config where
  usb : Bool
  allowNoAuth : Bool
  shell : Bool
  logcat : Bool
  sync : Bool
  reboot : Bool
  maxPayload : Nat
  usbTransferSize : Nat
  txPayloadSize : Nat
  controlQueueDepth : Nat
  controlPayloadSize : Nat
  maxStreams : Nat
  shellCommandSize : Nat
  syncPathMax : Nat
  syncDataMax : Nat
  maxPayload_range : 256 ≤ maxPayload ∧ maxPayload ≤ 16384 := by decide
  usbTransferSize_range : 64 ≤ usbTransferSize ∧ usbTransferSize ≤ 4096 := by decide
  txPayloadSize_range : 64 ≤ txPayloadSize ∧ txPayloadSize ≤ maxPayload := by decide
  controlQueueDepth_range : 2 ≤ controlQueueDepth ∧ controlQueueDepth ≤ 16 := by decide
  controlPayloadSize_range : 104 ≤ controlPayloadSize ∧ controlPayloadSize ≤ 512 := by decide
  maxStreams_range : 1 ≤ maxStreams ∧ maxStreams ≤ 8 := by decide
  shellCommandSize_range : 32 ≤ shellCommandSize ∧ shellCommandSize ≤ 1024 := by decide
  syncPathMax_range : 64 ≤ syncPathMax ∧ syncPathMax ≤ 512 := by decide
  syncDataMax_range : 4096 ≤ syncDataMax ∧ syncDataMax ≤ 65536 := by decide

/-- The options of `app/prj.conf`, with the Kconfig defaults for the sizes. -/
def Config.project : Config where
  usb := true
  allowNoAuth := true
  shell := true
  logcat := true
  sync := true
  reboot := true
  maxPayload := 4096
  usbTransferSize := 512
  txPayloadSize := 512
  controlQueueDepth := 4
  controlPayloadSize := 128
  maxStreams := 2
  shellCommandSize := 256
  syncPathMax := 128
  syncDataMax := 65536

/-- A pointer into the stream table, or into a service's table of contexts. -/
abbrev Slot (cfg : Config) := Fin cfg.maxStreams

theorem Config.project_first : 0 < Config.project.maxStreams := by decide

theorem Config.project_second : 1 < Config.project.maxStreams := by decide

def firstSlot : Slot Config.project := ⟨0, Config.project_first⟩

def secondSlot : Slot Config.project := ⟨1, Config.project_second⟩

theorem Config.depth_pos (cfg : Config) : 0 < cfg.controlQueueDepth := by
  have := cfg.controlQueueDepth_range
  omega

def ENOENT : Int := 2
def EIO : Int := 5
def ENOMEM : Int := 12
def EACCES : Int := 13
def EBUSY : Int := 16
def EEXIST : Int := 17
def ENODEV : Int := 19
def EINVAL : Int := 22
def ENOSPC : Int := 28
def EBADMSG : Int := 77
def ENAMETOOLONG : Int := 91
def ENOBUFS : Int := 105
def ECONNABORTED : Int := 113
def EMSGSIZE : Int := 122
def ENOTSUP : Int := 134

/-- The bytes of a C string literal, without its terminator. -/
def ascii (text : String) : List UInt8 := text.toList.map (fun c => UInt8.ofNat c.toNat)

def flowControlError (ret : Int) : Bool := ret == -ENOSPC || ret == -EBUSY

@[simp] theorem flowControlError_zero : flowControlError 0 = false := rfl

end Webos.Adb
