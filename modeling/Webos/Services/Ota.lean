/- digest: An upload of a firmware image over any flash, and the block flash that buffers. -/

import Mathlib.Data.PNat.Basic
import Webos.Adb.Config

namespace Webos.Services

def ECANCELED : Int := 140
def WEBOS_OTA_REBOOT_DELAY_MS : Nat := 2000

/-- The flash and boot calls of an upload, over the state of the device. -/
structure FlashImg (σ : Type) where
  init : σ → Int × σ
  bufferedWrite : σ → List UInt8 → Bool → Int × σ
  bytesWritten : σ → Nat
  requestUpgrade : σ → Int × σ

structure Ota (σ : Type) where
  flashCtx : σ
  active : Bool
  rebootScheduled : Bool

namespace Ota

variable {σ : Type} (dev : FlashImg σ) (s : Ota σ)

def otaBegin : Int × Ota σ :=
  if s.active then (0, s)
  else
    let (ret, flash) := dev.init s.flashCtx
    if ret ≠ 0 then (ret, { s with flashCtx := flash })
    else (0, { s with flashCtx := flash, active := true })

def otaWrite (data : List UInt8) (final : Bool) : Int × Ota σ :=
  if data.length = 0 then (0, s)
  else if !s.active then (-ECANCELED, s)
  else
    let (ret, flash) := dev.bufferedWrite s.flashCtx data final
    (ret, { s with flashCtx := flash })

def otaFinish : Int × Nat × Ota σ :=
  let written := dev.bytesWritten s.flashCtx
  let (ret, flash) := dev.requestUpgrade s.flashCtx
  (ret, written, { s with
    flashCtx := flash
    active := false
    rebootScheduled := s.rebootScheduled || ret == 0 })

def otaAbort : Ota σ := { s with active := false }

end Ota

inductive FlashCall where
  | init
  | write (data : List UInt8) (flush : Bool)
  | upgrade
  deriving DecidableEq

structure FlashEvent (σ : Type) where
  call : FlashCall
  before : σ
  ret : Int

def FlashEvent.Failed {σ : Type} (e : FlashEvent σ) : Prop := e.ret ≠ 0 ∧ e.call ≠ .upgrade

def FlashImg.logged {σ : Type} (dev : FlashImg σ) : FlashImg (σ × List (FlashEvent σ)) where
  init := fun (d, log) => ((dev.init d).1, (dev.init d).2, log ++ [⟨.init, d, (dev.init d).1⟩])
  bufferedWrite := fun (d, log) data flush =>
    ((dev.bufferedWrite d data flush).1, (dev.bufferedWrite d data flush).2,
      log ++ [⟨.write data flush, d, (dev.bufferedWrite d data flush).1⟩])
  bytesWritten := fun (d, _) => dev.bytesWritten d
  requestUpgrade := fun (d, log) =>
    ((dev.requestUpgrade d).1, (dev.requestUpgrade d).2,
      log ++ [⟨.upgrade, d, (dev.requestUpgrade d).1⟩])

/-- The upgrade slot, and the bytes that wait for a full block. -/
structure Image where
  slot : List UInt8
  buffer : List UInt8

def Image.bufferedWrite (block : ℕ+) (image : Image) (data : List UInt8) (flush : Bool) : Image :=
  let pending := image.buffer ++ data
  let whole := pending.length / block * block
  if flush then ⟨image.slot ++ pending, []⟩
  else ⟨image.slot ++ pending.take whole, pending.drop whole⟩

def Image.holding (block : ℕ+) (data : List UInt8) : Image :=
  ⟨data.take (data.length / block * block), data.drop (data.length / block * block)⟩

theorem Image.bufferedWrite_holding (block : ℕ+) (before data : List UInt8) :
    (Image.holding block before).bufferedWrite block data false =
      Image.holding block (before ++ data) := by
  have whole : before.length / block * block ≤ before.length := Nat.div_mul_le_self _ _
  have size : (before.drop (before.length / block * block) ++ data).length / block * block +
      before.length / block * block = (before ++ data).length / block * block := by
    rw [List.length_append, List.length_drop, List.length_append, ← Nat.add_mul,
      ← Nat.add_mul_div_right _ _ block.pos]
    congr 2
    omega
  have front : (before ++ data).take ((before ++ data).length / block * block) =
      before.take (before.length / block * block) ++
        (before.drop (before.length / block * block) ++ data).take
          ((before.drop (before.length / block * block) ++ data).length / block * block) := by
    rw [← size, Nat.add_comm, List.take_add, List.take_append_of_le_length whole,
      List.drop_append_of_le_length whole]
  have back : (before ++ data).drop ((before ++ data).length / block * block) =
      (before.drop (before.length / block * block) ++ data).drop
        ((before.drop (before.length / block * block) ++ data).length / block * block) := by
    rw [← size, Nat.add_comm, ← List.drop_drop, List.drop_append_of_le_length whole]
  unfold Image.bufferedWrite Image.holding
  rw [front, back]
  rfl

theorem Image.bufferedWrite_flush (block : ℕ+) (before data : List UInt8) :
    (Image.holding block before).bufferedWrite block data true = ⟨before ++ data, []⟩ := by
  unfold Image.bufferedWrite Image.holding
  rw [if_pos rfl, ← List.append_assoc, List.take_append_drop]

theorem Image.holding_complete_iff (block : ℕ+) (data : List UInt8) :
    (Image.holding block data).slot = data ∧ (Image.holding block data).buffer = [] ↔
      (block : ℕ) ∣ data.length := by
  have whole : data.length / block * block ≤ data.length := Nat.div_mul_le_self _ _
  unfold Image.holding
  rw [List.drop_eq_nil_iff]
  constructor
  · rintro ⟨-, full⟩
    exact Dvd.intro_left _ (Nat.le_antisymm whole full)
  · intro divides
    have full := Nat.le_of_eq (Nat.div_mul_cancel divides).symm
    exact ⟨List.take_of_length_le full, full⟩

/-- `flash_img` without failures. -/
def blockFlash (block : ℕ+) : FlashImg Image where
  init := fun _ => (0, ⟨[], []⟩)
  bufferedWrite := fun image data flush => (0, image.bufferedWrite block data flush)
  bytesWritten := fun image => image.slot.length
  requestUpgrade := fun image => (0, image)

end Webos.Services
