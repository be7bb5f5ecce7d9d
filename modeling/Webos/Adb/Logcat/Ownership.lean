/- digest: A logcat callback works on the stream it was called for; its close does not look. -/

import Webos.Adb.Logcat.Service
import Webos.Adb.Router.Callbacks

namespace Webos.Adb.Logcat

open Webos.Lib Webos.Lib.Bytes Webos.Lib.Program Webos.Services

variable {cfg : Config} {μ : Type} {opts : Options} {malloc : μ → Nat → Bool × μ} {s : Slot cfg}
  {inv : Statics cfg μ → Prop}

structure Streaming (s : Slot cfg) (buffer : LogBuffer) (st : Statics cfg μ) : Prop where
  stream : st.logcat.stream = some s
  active : st.logcat.active = true
  buffer : st.buffer = buffer

variable {buffer : LogBuffer}

abbrev Owned (s : Slot cfg) (buffer : LogBuffer) {α : Type} (m : Run cfg μ α) : Prop :=
  Routine.Keeps (StreamCall.Within (· = s)) (Streaming s buffer) m

variable {st : Statics cfg μ}

theorem Streaming.set (streaming : Streaming s buffer st)
    {f : LogcatContext cfg → LogcatContext cfg} (stream : (f st.logcat).stream = st.logcat.stream)
    (active : (f st.logcat).active = st.logcat.active) : Streaming s buffer (st.set f) :=
  ⟨stream.trans streaming.stream, active.trans streaming.active, streaming.buffer⟩

variable {stream : Option (Slot cfg)}

theorem abandonChunk_owned (mine : stream = some s) (generation : UInt32) :
    Owned s buffer (abandonChunk stream generation : Run cfg μ Unit) := by
  refine .read fun st _ => .ite ?_ (.pure ())
  exact .bind (.update fun st streaming => streaming.set rfl rfl) fun _ =>
    .ask (within_close mine generation)

theorem sendChunk_owned (mine : stream = some s) (generation : UInt32) (chunk : List UInt8) :
    Owned s buffer (sendChunk stream generation chunk : Run cfg μ Int) := by
  refine .bind (.ask (within_write mine generation chunk)) fun ret => .ite ?_ (.pure ret)
  exact .bind (abandonChunk_owned mine generation) fun _ => .pure ret

theorem queueNext_owned : Owned s buffer (queueNext : Run cfg μ Int) := by
  refine .read fun st streaming => .ite (.pure 0) (.ite (.ite ?_ (.pure 0)) ?_)
  · exact .bind (.ask (within_close streaming.stream _)) fun _ => .pure 0
  · refine .bind (.ask trivial) fun room => ?_
    refine .bind (.update fun st streaming => streaming.set rfl rfl) fun _ =>
      .read fun later _ => ?_
    exact .ite (sendChunk_owned streaming.stream _ _) (.pure 0)

theorem allocateRing_spec (opts : Options) (malloc : μ → Nat → Bool × μ) (st : Statics cfg μ) :
    (allocateRing opts malloc st).2.logcat.active = st.logcat.active ∧
      (allocateRing opts malloc st).2.buffer = st.buffer ∧
      ((allocateRing opts malloc st).1 = 0 →
        0 < (allocateRing opts malloc st).2.logcat.ring.capacity) := by
  unfold allocateRing
  dsimp only
  split_ifs with none found
  · refine ⟨rfl, rfl, fun _ => ?_⟩
    have range := opts.bufferSize_range
    show 0 < (List.replicate opts.bufferSize (0 : UInt8)).length
    rw [List.length_replicate]
    omega
  · exact ⟨rfl, rfl, fun zero => absurd zero (show -ENOMEM ≠ 0 by decide)⟩
  · exact ⟨rfl, rfl, fun _ => Nat.pos_of_ne_zero none⟩

/-- The ring holds the copy of the log that `copy_log_locked` makes for it. -/
structure Filled (b : LogBuffer) (r : ByteRing) : Prop where
  valid : r.Valid
  bytes : r.bytes = copyLogLocked r.capacity b

theorem load_filled {b : LogBuffer} {c : LogcatContext cfg} (log : b.log.Valid)
    (room : 0 < c.ring.capacity) (head : c.ring.head = 0) :
    Filled b (c.load (copyLogLocked c.ring.capacity b) true).ring := by
  obtain ⟨text, copied⟩ : ∃ text, copyLogLocked c.ring.capacity b = text := ⟨_, rfl⟩
  have short : text.length < c.ring.capacity := by
    rw [← copied, copyLogLocked_eq _ log, List.length_take]
    omega
  have inside : 0 + (text ++ [0]).length ≤ c.ring.buf.length := by
    rw [List.length_append, List.length_singleton]
    exact (Nat.zero_add _).symm ▸ short
  have block : (c.load text true).ring.buf =
      (text ++ [0]) ++ c.ring.buf.drop (text.length + 1) := by
    show memcpy c.ring.buf 0 (text ++ [0]) = _
    rw [memcpy, List.take_zero, List.nil_append, Nat.zero_add, List.length_append,
      List.length_singleton]
  have capacity : (c.load text true).ring.capacity = c.ring.capacity :=
    length_memcpy c.ring.buf 0 (text ++ [0]) inside
  rw [copied]
  refine ⟨⟨capacity ▸ room, ?_, ?_⟩, ?_⟩
  · rw [capacity]
    exact head ▸ room
  · rw [capacity]
    exact short.le
  · have first : min text.length (c.ring.capacity - c.ring.head) = text.length := by omega
    rw [capacity, copied]
    show (c.load text true).ring.oldest text.length = text
    unfold ByteRing.oldest
    rw [capacity]
    show ((c.load text true).ring.buf.drop c.ring.head).take
      (min text.length (c.ring.capacity - c.ring.head)) ++
        (c.load text true).ring.buf.take
          (text.length - min text.length (c.ring.capacity - c.ring.head)) = text
    rw [first, head, Nat.sub_self, block, List.drop_zero, List.take_zero, List.append_nil,
      List.append_assoc, List.take_left]

/-- What the part of `adb_logcat_open` under its lock does: it refuses, or it begins a session
where there was none. -/
inductive Started (s : Slot cfg) (st : Statics cfg μ) : Int × Statics cfg μ → Prop where
  | busy (active : st.logcat.active = true) : Started s st (-EBUSY, st)
  | refused {ret : Int} {st' : Statics cfg μ} (idle : st.logcat.active = false) (failed : ret ≠ 0)
    (inactive : st'.logcat.active = false) (log : st'.buffer = st.buffer) : Started s st (ret, st')
  | drains {st' : Statics cfg μ} (idle : st.logcat.active = false)
    (streaming : Streaming s st'.buffer st') (drain : st'.logcat.drain = true)
    (log : st'.buffer = st.buffer ∨ st'.buffer = logBufferClear st.buffer) : Started s st (0, st')
  | follows {st' : Statics cfg μ} (idle : st.logcat.active = false)
    (streaming : Streaming s st'.buffer st') (drain : st'.logcat.drain = false)
    (free : st.buffer.listener = none)
    (log : st'.buffer = { st.buffer with listener := some .live })
    (ring : st.buffer.log.Valid → Filled st.buffer st'.logcat.ring) : Started s st (0, st')

theorem fillRing_started {clear drain : Bool} {st' : Statics cfg μ}
    (idle : st.logcat.active = false) (stream : st'.logcat.stream = some s)
    (inactive : st'.logcat.active = false) (log : st'.buffer = st.buffer)
    (room : 0 < st'.logcat.ring.capacity) (head : st'.logcat.ring.head = 0)
    (drains : st'.logcat.drain = drain) (cleared : clear = true → drain = true) :
    Started s st (fillRing clear drain st') := by
  unfold fillRing
  split_ifs with clears ends
  · exact .drains idle ⟨stream, rfl, rfl⟩ (drains.trans (cleared clears)) (.inr (by rw [log]))
  · exact .drains idle ⟨stream, rfl, rfl⟩ (drains.trans ends) (.inl log)
  · unfold logBufferSnapshotAndSetListener
    split_ifs with tiny taken
    · exact absurd tiny room.ne'
    · exact .refused idle (show -EBUSY ≠ 0 by decide) inactive log
    · refine .follows idle ⟨stream, rfl, rfl⟩ (drains.trans (Bool.not_eq_true _ ▸ ends)) ?_ ?_ ?_
      · rw [log] at taken
        simpa using taken
      · dsimp only
        rw [log]
      · intro valid
        exact log ▸ load_filled (log ▸ valid) room head

theorem startSession_meets (suffix : List UInt8) (st : Statics cfg μ) :
    (startSession opts malloc s suffix st).Meets (StreamCall.Within (· = s)) (Started s st) := by
  by_cases active : st.logcat.active = true
  · show Prog.Meets _ _ ((ite _ _ _ : Run cfg μ Int) st)
    rw [if_pos active]
    exact .busy active
  · have idle := Bool.not_eq_true _ ▸ active
    have kept := allocateRing_spec opts malloc st
    show Prog.Meets _ _ ((ite _ _ _ : Run cfg μ Int) st)
    rw [if_neg active]
    show Prog.Meets _ _ ((ite _ _ _ : Run cfg μ Int) (allocateRing opts malloc st).2)
    generalize allocateRing opts malloc st = out at kept
    obtain ⟨same, log, room⟩ := kept
    split_ifs with failed
    · exact .refused idle failed (same.trans idle) log
    · refine ⟨trivial, fun generation => ?_⟩
      refine fillRing_started idle rfl (same.trans idle) log (room (not_not.mp failed)) rfl rfl ?_
      intro clears
      rw [clears, Bool.true_or]

/-- What an `open` callback may do to a session that was there before it, and to the listener. -/
structure Begun (s : Slot cfg) (st : Statics cfg μ) (ret : Int) (st' : Statics cfg μ) : Prop where
  busy : st.logcat.active = true → ret ≠ 0 ∧ st' = st
  session : st'.logcat.active = true → st.logcat.active = true ∨ st'.logcat.stream = some s
  listener : st'.buffer.listener = st.buffer.listener ∨
    st.buffer.listener = none ∧ st'.logcat.active = true

theorem Begun.refused {ret : Int} (failed : ret ≠ 0) : Begun s st ret st :=
  ⟨fun _ => ⟨failed, rfl⟩, .inl, .inl rfl⟩

theorem Begun.of_idle {ret : Int} {st' : Statics cfg μ} (idle : st.logcat.active = false)
    (stream : st'.logcat.active = true → st'.logcat.stream = some s)
    (listener : st'.buffer.listener = st.buffer.listener ∨
      st.buffer.listener = none ∧ st'.logcat.active = true) : Begun s st ret st' := by
  refine ⟨fun busy => ?_, fun active => .inr (stream active), listener⟩
  rw [idle] at busy
  cases busy

theorem Started.listener {out : Int × Statics cfg μ} (started : Started s st out)
    (begun : out.1 = 0) : st.logcat.active = false ∧ Streaming s out.2.buffer out.2 ∧
      (out.2.buffer.listener = st.buffer.listener ∨ st.buffer.listener = none) := by
  cases started with
  | busy => exact absurd begun (show -EBUSY ≠ 0 by decide)
  | refused _ failed => exact absurd begun failed
  | drains idle streaming _ log =>
    refine ⟨idle, streaming, .inl ?_⟩
    rcases log with same | cleared
    · rw [same]
    · rw [cleared]
      rfl
  | follows idle streaming _ free => exact ⟨idle, streaming, .inr free⟩

theorem Started.begun {out : Int × Statics cfg μ} (started : Started s st out)
    (failed : out.1 ≠ 0) : Begun s st out.1 out.2 := by
  cases started with
  | busy => exact .refused failed
  | refused idle _ inactive log =>
    refine .of_idle idle (fun active => ?_) (.inl (by rw [log]))
    rw [inactive] at active
    cases active
  | drains => exact absurd rfl failed
  | follows => exact absurd rfl failed

theorem adbLogcatOpen_meets (opts : Options) (malloc : μ → Nat → Bool × μ) (st : Statics cfg μ)
    (s : Slot cfg) (suffix : List UInt8) :
    (adbLogcatOpen opts malloc st s suffix).Meets (StreamCall.Within (· = s))
      (fun out => Begun s st out.1 out.2) := by
  unfold adbLogcatOpen openSession
  split_ifs
  · exact Begun.refused (show -EINVAL ≠ 0 by decide)
  · refine (startSession_meets suffix st).bind fun out started => ?_
    obtain ⟨ret, st'⟩ := out
    dsimp only at started ⊢
    split_ifs with ok
    · obtain ⟨idle, streaming, listener⟩ := started.listener ok
      refine (queueNext_owned st' streaming).mono (fun _ allowed => allowed) fun out kept => ?_
      refine .of_idle idle (fun _ => kept.stream) ?_
      rw [kept.buffer, kept.active]
      exact listener.imp id (fun free => ⟨free, rfl⟩)
    · exact started.begun ok

theorem adbLogcatWrite_meets (st : Statics cfg μ) (s : Slot cfg) (data : List UInt8) :
    (adbLogcatWrite st s data).Meets (StreamCall.Within (· = s)) (fun out => out.2 = st) := rfl

structure Resumed (st st' : Statics cfg μ) : Prop where
  stream : st'.logcat.stream = st.logcat.stream
  active : st'.logcat.active = st.logcat.active
  buffer : st'.buffer = st.buffer

theorem adbLogcatTxReady_meets (st : Statics cfg μ) (s : Slot cfg) :
    (adbLogcatTxReady st s).Meets (StreamCall.Within (· = s)) (fun out => Resumed st out.2) := by
  show Prog.Meets _ _ ((ite _ _ _ : Run cfg μ Unit) st)
  split_ifs with current
  · simp only [Bool.and_eq_true, beq_iff_eq] at current
    have streaming : Streaming s st.buffer (st.set fun c => { c with sending := false }) :=
      ⟨current.2, current.1, rfl⟩
    refine (queueNext_owned _ streaming).bind fun out kept => ?_
    exact ⟨kept.stream.trans current.2.symm, kept.active.trans current.1.symm, kept.buffer⟩
  · exact ⟨rfl, rfl, rfl⟩

end Webos.Adb.Logcat
