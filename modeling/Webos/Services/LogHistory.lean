/- digest: What the retained log keeps of all that was ever logged, and who received the rest. -/

import Webos.Services.Http.Handlers
import Webos.Services.LogBuffer

namespace Webos.Services

open Webos.Adb (ascii)
open Webos.Lib

/-- The Kconfig option of the log buffer. -/
structure LogOptions where
  bufferSize : Nat
  bufferSize_range : 1024 ≤ bufferSize ∧ bufferSize ≤ 65536 := by decide

def LogOptions.boot (opts : LogOptions) : LogBuffer := .boot (.zeroed opts.bufferSize)

theorem LogOptions.valid_boot (opts : LogOptions) : opts.boot.log.Valid :=
  ByteRing.valid_zeroed (by
    have range := opts.bufferSize_range
    omega)

theorem LogOptions.capacity_boot (opts : LogOptions) : opts.boot.log.capacity = opts.bufferSize :=
  List.length_replicate

section Actions

inductive LogAction where
  | put (msg : List UInt8)
  | clear
  | listen (listener : LogListener)
  | unlisten (listener : LogListener)

def LogAction.run (b : LogBuffer) : LogAction → LogBuffer
  | .put msg => (logBufferPut msg b).2
  | .clear => logBufferClear b
  | .listen listener => (logBufferSetListener listener b).2
  | .unlisten listener => logBufferClearListener listener b

def LogAction.text : LogAction → List UInt8
  | .put msg => msg
  | .clear => []
  | .listen _ => []
  | .unlisten _ => []

def logged (history : List LogAction) : List UInt8 := history.flatMap LogAction.text

def runHistory (history : List LogAction) (b : LogBuffer) : LogBuffer :=
  history.foldl LogAction.run b

structure Kept (opts : LogOptions) (text : List UInt8) (b : LogBuffer) : Prop where
  valid : b.log.Valid
  size : b.log.capacity = opts.bufferSize
  tail : b.log.bytes <:+ text

variable {opts : LogOptions} {text : List UInt8} {b : LogBuffer}

theorem kept_boot (opts : LogOptions) : Kept opts [] opts.boot where
  valid := opts.valid_boot
  size := opts.capacity_boot
  tail := by
    rw [LogOptions.boot, LogBuffer.boot, ByteRing.bytes_zeroed]

theorem Kept.put (kept : Kept opts text b) (msg : List UInt8) :
    Kept opts (text ++ msg) (logBufferPut msg b).2 where
  valid := put_valid msg kept.valid
  size := by
    rw [put_capacity msg kept.valid, kept.size]
  tail := by
    rw [put_bytes msg kept.valid]
    obtain ⟨before, whole⟩ := kept.tail
    refine List.IsSuffix.trans (List.drop_suffix _ _) ⟨before, ?_⟩
    rw [← whole, List.append_assoc]

theorem Kept.clear (kept : Kept opts text b) : Kept opts text (logBufferClear b) where
  valid := ByteRing.valid_clear kept.valid
  size := kept.size
  tail := by
    rw [logBufferClear, ByteRing.bytes_clear]
    exact List.nil_suffix

theorem Kept.same {b' : LogBuffer} (kept : Kept opts text b) (log : b'.log = b.log) :
    Kept opts text b' := ⟨log ▸ kept.valid, log ▸ kept.size, log ▸ kept.tail⟩

theorem Kept.action (kept : Kept opts text b) (action : LogAction) :
    Kept opts (text ++ action.text) (action.run b) := by
  cases action with
  | put msg => exact kept.put msg
  | clear =>
    rw [LogAction.text, List.append_nil]
    exact kept.clear
  | listen listener =>
    rw [LogAction.text, List.append_nil]
    refine kept.same ?_
    rw [LogAction.run, logBufferSetListener]
    split_ifs <;> rfl
  | unlisten listener =>
    rw [LogAction.text, List.append_nil]
    refine kept.same ?_
    rw [LogAction.run, logBufferClearListener]
    split_ifs <;> rfl

theorem Kept.history (kept : Kept opts text b) (history : List LogAction) :
    Kept opts (text ++ logged history) (runHistory history b) := by
  induction history generalizing text b with
  | nil =>
    rw [logged, List.flatMap_nil, List.append_nil]
    exact kept
  | cons action history ih =>
    have after := ih (kept.action action)
    rw [List.append_assoc] at after
    exact after

end Actions

section Handover

/-- What a listener receives from puts one after the other, each with its delivery. -/
def receivedBy (listener : LogListener) : List (List UInt8) → LogBuffer → List UInt8
  | [], _ => []
  | msg :: later, b =>
    let (owed, b') := logBufferPut msg b
    (match owed with
      | some (target, data) => if target = listener then data else []
      | none => []) ++ receivedBy listener later b'

/-- The snapshot is the end of the log at that time, and what came later is all that did. -/
def Contiguous (old : List UInt8) (later : List (List UInt8)) (snapshot delivered : List UInt8) :
    Prop := (∃ before, old = before ++ snapshot) ∧ delivered = later.flatten

variable {opts : LogOptions} {text : List UInt8} {b : LogBuffer} {listener : LogListener}

theorem receivedBy_listening {later : List (List UInt8)} (kept : Kept opts text b)
    (listening : b.listener = some listener)
    (short : ∀ msg ∈ later, msg.length ≤ opts.bufferSize) :
    receivedBy listener later b = later.flatten := by
  induction later generalizing text b with
  | nil => rfl
  | cons msg later ih =>
    rw [List.forall_mem_cons] at short
    have behind := ih (kept.put msg) ((put_listener msg).trans listening) short.2
    rw [receivedBy, List.flatten_cons]
    simp only []
    rw [behind, logBufferPut]
    congr 1
    split_ifs with empty
    · exact (List.length_eq_zero_iff.mp empty).symm
    · rw [listening]
      show (if listener = listener then b.log.kept msg else []) = msg
      rw [if_pos rfl, ByteRing.kept_eq, kept.size, rtake_of_length_le short.1]

/-- A snapshot that has room for the whole log, and the deliveries of puts that fit the log, are
one piece of what was logged. -/
theorem snapshot_then_live (opts : LogOptions) (history : List LogAction)
    (listener : LogListener) (dstLen : Nat) (later : List (List UInt8))
    (taken : (logBufferSnapshotAndSetListener listener dstLen (runHistory history opts.boot)).1 = 0)
    (room : (runHistory history opts.boot).log.len ≤ dstLen - 1)
    (short : ∀ msg ∈ later, msg.length ≤ opts.bufferSize) :
    let (_, snapshot, b) :=
      logBufferSnapshotAndSetListener listener dstLen (runHistory history opts.boot)
    Contiguous (logged history) later snapshot (receivedBy listener later b) := by
  have kept := (kept_boot opts).history history
  rw [List.nil_append] at kept
  generalize runHistory history opts.boot = b at taken room kept
  rw [logBufferSnapshotAndSetListener] at taken ⊢
  split_ifs at taken with none busy
  · exact absurd taken (show ¬-Adb.EINVAL = 0 by decide)
  · exact absurd taken (show ¬-Adb.EBUSY = 0 by decide)
  · rw [if_neg none, if_neg busy]
    refine ⟨?_, ?_⟩
    · rw [copyLogLocked_whole kept.valid room]
      obtain ⟨before, whole⟩ := kept.tail
      exact ⟨before, whole.symm⟩
    · refine receivedBy_listening (kept.same ?_) rfl short
      rfl

def LogOptions.smallest : LogOptions := ⟨1024, by decide⟩

theorem snapshot_then_live_hello :
    let (ret, snapshot, b) := logBufferSnapshotAndSetListener .live 512
      (runHistory [.put (ascii "hello ")] LogOptions.smallest.boot)
    ret = 0 ∧ Contiguous (ascii "hello ") [ascii "world"] snapshot
      (receivedBy .live [ascii "world"] b) :=
  ⟨rfl, snapshot_then_live LogOptions.smallest [.put (ascii "hello ")] .live 512 [ascii "world"]
    (by decide +kernel) (by decide +kernel) (by decide)⟩

theorem snapshot_after_put {msg : List UInt8} {dstLen : Nat} (listener : LogListener)
    (fits : msg.length ≤ opts.bufferSize) (room : dstLen ≠ 0) :
    ∃ b, logBufferSnapshotAndSetListener listener dstLen (runHistory [.put msg] opts.boot) =
      (0, msg.take (dstLen - 1), b) := by
  have listening : (runHistory [.put msg] opts.boot).listener = none := put_listener msg
  have bytes := put_bytes msg opts.valid_boot
  have none : opts.boot.log.bytes = [] := ByteRing.bytes_zeroed _
  rw [none, opts.capacity_boot, List.nil_append, rtake_of_length_le fits] at bytes
  have copied := copyLogLocked_eq dstLen (put_valid msg opts.valid_boot)
  rw [bytes] at copied
  refine ⟨{ runHistory [.put msg] opts.boot with listener := some listener }, ?_⟩
  rw [logBufferSnapshotAndSetListener, if_neg room, listening, if_neg (by decide)]
  show (0, copyLogLocked dstLen (logBufferPut msg opts.boot).2, _) = _
  rw [copied]

/-- The snapshot of a log that is longer than the ring lacks the newest bytes. -/
theorem snapshot_lacks_newest :
    let history := [.put (List.replicate 600 65 ++ [66])]
    ∃ snapshot b, logBufferSnapshotAndSetListener .live 512
        (runHistory history LogOptions.smallest.boot) = (0, snapshot, b) ∧
      ¬Contiguous (logged history) [] snapshot (receivedBy .live [] b) := by
  intro history
  have fits :
    (List.replicate 600 (65 : UInt8) ++ [66]).length ≤ LogOptions.smallest.bufferSize := by
    rw [List.length_append, List.length_replicate]
    decide
  obtain ⟨b, taken⟩ := snapshot_after_put .live fits (show 512 ≠ 0 by decide)
  refine ⟨_, b, taken, ?_⟩
  rintro ⟨⟨before, whole⟩, -⟩
  have text : logged history = List.replicate 600 65 ++ [66] := List.append_nil _
  rw [text, List.take_append_of_le_length (by rw [List.length_replicate]; decide),
    List.take_replicate] at whole
  have last := congrArg List.getLast? whole
  rw [List.getLast?_concat, List.getLast?_append_of_ne_nil _ (by decide), List.getLast?_replicate]
    at last
  exact absurd last (by decide)

end Handover

section Clearing

open Webos.Services.Http (WEBOS_HTTP_BODY_MAX)

/-- What has left the log: old bytes that a put had no room for, or what a request cleared, with
the messages it had read. -/
inductive Departure where
  | evicted (bytes : List UInt8)
  | cleared (messages bytes : List UInt8)
  deriving DecidableEq

def Departure.bytes : Departure → List UInt8
  | .evicted bytes => bytes
  | .cleared _ bytes => bytes

/-- The log, the messages of a request between its read and its clear, and what has left the
log so far. -/
structure Requests where
  buffer : LogBuffer
  pending : Option (List UInt8)
  departed : List Departure

/-- The atomic steps of puts and of POST /log requests with the clear key. -/
inductive RequestStep where
  | put (msg : List UInt8)
  | read
  | clear

def Requests.boot (opts : LogOptions) : Requests := ⟨opts.boot, none, []⟩

def Requests.step (s : Requests) : RequestStep → Requests
  | .put msg =>
    let whole := s.buffer.log.bytes ++ msg
    { s with
      buffer := (logBufferPut msg s.buffer).2
      departed := s.departed ++ [.evicted (whole.take (whole.length - s.buffer.log.capacity))] }
  | .read =>
    match s.pending with
    | none => { s with pending := some (logBufferRead WEBOS_HTTP_BODY_MAX s.buffer) }
    | some _ => s
  | .clear =>
    match s.pending with
    | none => s
    | some messages =>
      { buffer := logBufferClear s.buffer
        pending := none
        departed := s.departed ++ [.cleared messages s.buffer.log.bytes] }

def RequestStep.text : RequestStep → List UInt8
  | .put msg => msg
  | .read => []
  | .clear => []

/-- A put comes between requests and fits the log, and a read has room for all of the log. -/
def RequestStep.Undisturbed (s : Requests) : RequestStep → Prop
  | .put msg => s.pending = none ∧ msg.length ≤ s.buffer.log.capacity
  | .read => s.buffer.log.len ≤ WEBOS_HTTP_BODY_MAX - 1
  | .clear => True

def Requests.Undisturbed : Requests → List RequestStep → Prop
  | _, [] => True
  | s, step :: steps => step.Undisturbed s ∧ (s.step step).Undisturbed steps

def Requests.run (s : Requests) (steps : List RequestStep) : Requests := steps.foldl Requests.step s

/-- A callback of `log_handler` leaves the log as it is, or it is the read and the clear of a
request and answers with the messages that were read. -/
theorem logHandler_steps (callback : Http.Callback) (s : Http.Log) (departed : List Departure) :
    let out := Http.logHandler callback s
    let cleared := (Requests.mk s.log none departed).run [.read, .clear]
    out.state.log = s.log ∨
      out.state.log = cleared.buffer ∧ ∃ messages,
        cleared.departed = departed ++ [.cleared messages s.log.log.bytes] ∧
        out.response = some (Http.respond s.response .ok
          (Http.logMessages (s.escaped.appendJsonString messages).2.text)).1 := by
  unfold Http.logHandler
  split
  · exact .inl rfl
  · exact .inl rfl
  · exact .inl rfl
  · dsimp only
    split_ifs
    · exact .inr ⟨rfl, _, rfl, rfl⟩
    · exact .inl rfl

/-- Every byte ever logged has left the log in one way, or is still in it. -/
def Requests.Accounted (s : Requests) (text : List UInt8) : Prop :=
  text = s.departed.flatMap Departure.bytes ++ s.buffer.log.bytes

/-- No request has cleared other bytes than those it had read. -/
def Requests.Returned (s : Requests) : Prop :=
  ∀ messages bytes, .cleared messages bytes ∈ s.departed → bytes = messages

structure Requests.Sound (opts : LogOptions) (text : List UInt8) (s : Requests) : Prop where
  kept : Kept opts text s.buffer
  accounted : s.Accounted text
  returned : s.Returned
  pending : ∀ messages, s.pending = some messages → messages = s.buffer.log.bytes

variable {opts : LogOptions} {text : List UInt8} {s : Requests}

theorem Requests.sound_boot (opts : LogOptions) : (Requests.boot opts).Sound opts [] where
  kept := kept_boot opts
  accounted := by
    show [] = [] ++ (ByteRing.zeroed opts.bufferSize).bytes
    rw [ByteRing.bytes_zeroed]
    rfl
  returned := by
    intro messages bytes no
    cases no
  pending := by
    intro messages no
    cases no

theorem Requests.Sound.step (sound : s.Sound opts text) {step : RequestStep}
    (undisturbed : step.Undisturbed s) : (s.step step).Sound opts (text ++ step.text) := by
  cases step with
  | put msg =>
    refine ⟨sound.kept.put msg, ?_, ?_, ?_⟩
    · have accounted : text = _ := sound.accounted
      show text ++ msg = List.flatMap _ (s.departed ++ [_]) ++
        (logBufferPut msg s.buffer).2.log.bytes
      rw [put_bytes msg sound.kept.valid, List.flatMap_append, List.flatMap_singleton,
        Departure.bytes, List.rtake, List.append_assoc, List.take_append_drop, ← List.append_assoc,
        ← accounted]
    · intro messages bytes member
      rcases List.mem_append.mp member with old | new
      · exact sound.returned messages bytes old
      · cases List.mem_singleton.mp new
    · intro messages pending
      have none : s.pending = none := undisturbed.1
      rw [show (s.step (.put msg)).pending = s.pending from rfl, none] at pending
      cases pending
  | read =>
    rw [RequestStep.text, List.append_nil, Requests.step]
    split
    · refine ⟨sound.kept, sound.accounted, sound.returned, ?_⟩
      rintro messages ⟨⟩
      exact copyLogLocked_whole sound.kept.valid undisturbed
    · exact sound
  | clear =>
    rw [RequestStep.text, List.append_nil, Requests.step]
    split
    · exact sound
    · rename_i messages read
      refine ⟨sound.kept.clear, ?_, ?_, ?_⟩
      · have accounted : text = _ := sound.accounted
        show text = List.flatMap _ (s.departed ++ [_]) ++ (logBufferClear s.buffer).log.bytes
        rw [logBufferClear, ByteRing.bytes_clear, List.flatMap_append, List.flatMap_singleton,
          Departure.bytes, List.append_nil]
        exact accounted
      · intro messages' bytes member
        rcases List.mem_append.mp member with old | new
        · exact sound.returned messages' bytes old
        · cases List.mem_singleton.mp new
          exact (sound.pending messages read).symm
      · intro messages' no
        cases no

theorem Requests.Sound.run (sound : s.Sound opts text) {steps : List RequestStep}
    (undisturbed : s.Undisturbed steps) :
    (s.run steps).Sound opts (text ++ steps.flatMap RequestStep.text) := by
  induction steps generalizing s text with
  | nil =>
    rw [List.flatMap_nil, List.append_nil]
    exact sound
  | cons step steps ih =>
    have after := ih (sound.step undisturbed.1) undisturbed.2
    rw [List.append_assoc] at after
    exact after

/-- In every run in which requests are not disturbed, each byte is in the messages of one request,
still in the log, or evicted as the oldest by a put. -/
theorem log_requests_lose_nothing (opts : LogOptions) (steps : List RequestStep)
    (undisturbed : (Requests.boot opts).Undisturbed steps) :
    ((Requests.boot opts).run steps).Accounted (steps.flatMap RequestStep.text) ∧
      ((Requests.boot opts).run steps).Returned :=
  have sound := (Requests.sound_boot opts).run undisturbed
  ⟨sound.accounted, sound.returned⟩

theorem log_hello_short : (((Requests.boot .smallest).step (.put (ascii "hello"))).buffer.log.len) ≤
    WEBOS_HTTP_BODY_MAX - 1 := by decide +kernel

theorem log_requests_lose_nothing_hello :
    ((Requests.boot .smallest).run [.put (ascii "hello"), .read, .clear]).Accounted
        (ascii "hello") ∧
      ((Requests.boot .smallest).run [.put (ascii "hello"), .read, .clear]).Returned :=
  log_requests_lose_nothing .smallest [.put (ascii "hello"), .read, .clear]
    ⟨⟨rfl, by decide +kernel⟩, log_hello_short, trivial, trivial⟩

/-- A put between the read and the clear of a request is lost with what the request had read. -/
theorem log_request_clears_unread :
    ¬((Requests.boot .smallest).run [.put (ascii "a"), .read, .put (ascii "b"),
      .clear]).Returned := by
  intro returned
  have same := returned (ascii "a") (ascii "ab") (by decide +kernel)
  exact absurd same (by decide)

end Clearing

end Webos.Services
