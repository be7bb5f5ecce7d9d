/- digest: A stream as its service sees it while the receiver dispatches. -/

import Webos.Adb.Router.Callbacks

namespace Webos.Adb

open Webos.Lib.Bytes Webos.Lib.Program

/-- A stream as its service sees it: its transmit slot is free or busy until the host answers. -/
structure Uplink (cfg : Config) where
  room : Nat
  generation : Option (Slot cfg) → UInt32
  busy : Bool
  closing : Bool

namespace Uplink

variable {cfg : Config}

def current (r : Uplink cfg) (stream : Option (Slot cfg)) (generation : UInt32) : Bool :=
  stream.isSome && (generation == 0 || r.generation stream == generation)

@[simp] theorem current_zero (r : Uplink cfg) (s : Slot cfg) : r.current (some s) 0 = true := rfl

/-- The calls of a service, one stream at a time. -/
def api : Handler (StreamCall cfg) StreamCall.Reply (Uplink cfg)
  | .write stream generation data, r =>
    if !r.current stream generation then (-EINVAL, r)
    else if data.length > r.room then (-EMSGSIZE, r)
    else if r.busy then (-EBUSY, r)
    else (0, { r with busy := true })
  | .close stream generation, r =>
    ((), if r.current stream generation then { r with closing := true } else r)
  | .generation stream, r => (r.generation stream, r)
  | .maxPayload _, r => (r.room, r)

theorem api_write {r : Uplink cfg} {s : Slot cfg} {data : List UInt8} (free : r.busy = false)
    (fits : data.length ≤ r.room) :
    api (.write (some s) 0 data) r = (0, { r with busy := true }) := by
  unfold api
  dsimp only
  rw [current_zero, if_neg (by decide), if_neg (Nat.not_lt.mpr fits), free]
  rfl

def finished (r : Uplink cfg) : Bool := r.closing && !r.busy

def settle (r : Uplink cfg) (ret : Int) : Uplink cfg :=
  if ret ≠ 0 then { r with busy := false, closing := true } else r

end Uplink

variable {cfg : Config} {σ π : Type} {env : Env cfg σ π} {w v : World cfg σ π} {s : Slot cfg}

def World.uplink (w : World cfg σ π) (s : Slot cfg) : Uplink cfg where
  room := webosAdbStreamMaxPayload w
  generation stream := webosAdbStreamGeneration stream w
  busy := (w.streams s).txPending || (w.streams s).awaitingAck
  closing := (w.streams s).closePending

@[simp] theorem uplink_room : (w.uplink s).room = webosAdbStreamMaxPayload w := rfl
@[simp] theorem uplink_busy :
    (w.uplink s).busy = ((w.streams s).txPending || (w.streams s).awaitingAck) := rfl
@[simp] theorem uplink_closing : (w.uplink s).closing = (w.streams s).closePending := rfl

theorem uplink_congr (payload : v.negotiatedPayload = w.negotiatedPayload)
    (generation : ∀ t, (v.streams t).generation = (w.streams t).generation)
    (busy : (v.uplink s).busy = (w.uplink s).busy)
    (closing : (v.uplink s).closing = (w.uplink s).closing) : v.uplink s = w.uplink s := by
  rw [uplink_busy, uplink_busy] at busy
  rw [uplink_closing, uplink_closing] at closing
  unfold World.uplink webosAdbStreamMaxPayload
  rw [payload, busy, closing, Uplink.mk.injEq]
  refine ⟨rfl, ?_, rfl, rfl⟩
  funext stream
  cases stream with
  | none => rfl
  | some t => exact generation t

theorem Posted.uplink (posted : Posted w v) : v.uplink s = w.uplink s := by
  refine uplink_congr posted.negotiatedPayload (fun t => ?_) ?_ ?_
  · rw [posted.streams]
  · rw [uplink_busy, posted.streams, uplink_busy]
  · rw [uplink_closing, posted.streams, uplink_closing]

theorem uplink_setStream (w : World cfg σ π) (s : Slot cfg) (st : Stream)
    (same : st.generation = (w.streams s).generation) : (w.setStream s st).uplink s =
      { w.uplink s with busy := st.txPending || st.awaitingAck, closing := st.closePending } := by
  unfold World.uplink
  rw [setStream_streams, Function.update_self, Uplink.mk.injEq]
  refine ⟨rfl, ?_, rfl, rfl⟩
  funext stream
  cases stream with
  | none => rfl
  | some t =>
    simp only [webosAdbStreamGeneration, setStream_streams]
    by_cases mine : t = s
    · subst mine
      rw [Function.update_self, same]
    · rw [Function.update_of_ne mine]

section Api

theorem current_uplink (used : (w.streams s).used = true) (generation : UInt32) :
    (w.uplink s).current (some s) generation =
      !(!(w.streams s).used || (generation != 0 && (w.streams s).generation != generation)) := by
  rw [used, Uplink.current, Option.isSome_some, Bool.not_true, Bool.false_or, Bool.true_and,
    Bool.not_and]
  unfold bne
  rw [Bool.not_not, Bool.not_not]
  rfl

variable (env)

theorem streamWrite_uplink (generation : UInt32) (data : List UInt8)
    (used : (w.streams s).used = true) (dispatching : w.dispatching = true) :
    (streamWriteLocked env (some s) generation data w).1 =
        (Uplink.api (.write (some s) generation data) (w.uplink s)).1 ∧
      (streamWriteLocked env (some s) generation data w).2.uplink s =
        (Uplink.api (.write (some s) generation data) (w.uplink s)).2 := by
  unfold streamWriteLocked storeWrite Uplink.api
  dsimp only
  rw [current_uplink used, Bool.not_not, dispatching, uplink_room, uplink_busy]
  rw [if_pos rfl]
  split_ifs with stale long busy
  · exact ⟨rfl, rfl⟩
  · exact ⟨rfl, rfl⟩
  · exact ⟨rfl, rfl⟩
  · have stored : (w.store s data).uplink s = { w.uplink s with busy := true } :=
      uplink_setStream w s { w.streams s with
        txData := memcpy (w.streams s).txData 0 data
        txLen := data.length
        txPending := true } rfl
    exact ⟨rfl, stored⟩

theorem streamClose_uplink (generation : UInt32) (used : (w.streams s).used = true)
    (dispatching : w.dispatching = true) :
    (streamCloseLocked env (some s) generation w).uplink s =
      (Uplink.api (.close (some s) generation) (w.uplink s)).2 := by
  have named : ((w.streams s).used && (generation == 0 || (w.streams s).generation == generation))
      = (w.uplink s).current (some s) generation := by
    rw [used]
    rfl
  unfold streamCloseLocked Uplink.api
  dsimp only
  rw [named]
  split_ifs with mine on
  · exact uplink_setStream w s { w.streams s with closePending := true } rfl
  · exact absurd dispatching on
  · rfl

theorem api_uplink (request : StreamCall cfg) (within : request.Within (· = s))
    (used : (w.streams s).used = true) (dispatching : w.dispatching = true) :
    (streamApi env request w).1 = (Uplink.api request (w.uplink s)).1 ∧
      (streamApi env request w).2.uplink s = (Uplink.api request (w.uplink s)).2 := by
  cases request with
  | write stream generation data =>
    cases stream with
    | none => exact ⟨rfl, rfl⟩
    | some t =>
      cases (within : t = s)
      exact streamWrite_uplink env generation data used dispatching
  | close stream generation =>
    cases stream with
    | none => exact ⟨rfl, rfl⟩
    | some t =>
      cases (within : t = s)
      exact ⟨rfl, streamClose_uplink env generation used dispatching⟩
  | generation stream => exact ⟨rfl, rfl⟩
  | maxPayload stream => exact ⟨rfl, rfl⟩

theorem callback_uplink {α : Type} {program : Callback cfg σ α} {Q : α × σ → Prop}
    (meets : program.Meets (StreamCall.Within (· = s)) Q) (used : (w.streams s).used = true)
    (dispatching : w.dispatching = true) :
    (callback env program w).1 = (program.run Uplink.api (w.uplink s)).1.1 ∧
      (callback env program w).2.services = (program.run Uplink.api (w.uplink s)).1.2 ∧
      (callback env program w).2.uplink s = (program.run Uplink.api (w.uplink s)).2 := by
  have ran := meets.simulated (streamApi env) Uplink.api
    (fun w r => w.uplink s = r ∧ (w.streams s).used = true ∧ w.dispatching = true)
    (fun request w r within sim => by
      obtain ⟨rfl, used, dispatching⟩ := sim
      obtain ⟨reply, after⟩ := api_uplink env request within used dispatching
      have prepared := api_prepared env request within dispatching
      exact ⟨reply, after, (prepared.filled s).same.used.trans used,
        prepared.dispatching.trans dispatching⟩)
    w (w.uplink s) ⟨rfl, used, dispatching⟩
  obtain ⟨result, same, -, -⟩ := ran
  refine ⟨congrArg Prod.fst result, congrArg Prod.snd result, ?_⟩
  exact same

end Api

/-- What a message leaves of a stream: its uplink and the service, or nothing after a close. -/
def Rests (s : Slot cfg) (r : Uplink cfg) (services : σ) (v : World cfg σ π) : Prop :=
  ((v.streams s).used = true ∧ v.uplink s = r ∧ v.services = services) ∨
    (r.finished = true ∧ (v.streams s).used = false)

section Handlers

variable (env)

theorem release_unused (w : World cfg σ π) (s : Slot cfg) (used : (w.streams s).used = true) :
    ((releaseStream env s w).streams s).used = false := by
  unfold releaseStream
  rw [if_neg (by simp [used])]
  simp only [note_streams, setStream_streams, Function.update_self]
  rfl

theorem flushClose_uplink (used : (w.streams s).used = true) :
    Rests s (w.uplink s) w.services (flushClose env s w).2 := by
  have posted := (postedPosts env).sendCloseFor s w
  unfold flushClose
  dsimp only
  split_ifs with due failed
  · left
    rw [posted.streams]
    exact ⟨used, posted.uplink, posted.services⟩
  · right
    rw [Bool.and_assoc, ← Bool.not_or] at due
    refine ⟨due, release_unused env _ s ?_⟩
    rw [posted.streams]
    exact used
  · exact Or.inl ⟨used, rfl, rfl⟩

theorem flushStream_uplink (used : (w.streams s).used = true) :
    Rests s (w.uplink s) w.services (flushStream env s w).2 := by
  have posted := (postedPosts env).sendPacketRaw ADB_COMMAND_WRTE (w.streams s).localId
    (w.streams s).remoteId (w.streams s).txBytes w
  unfold flushStream
  dsimp only
  generalize sent : sendPacketRaw env ADB_COMMAND_WRTE (w.streams s).localId
    (w.streams s).remoteId (w.streams s).txBytes w = out at posted ⊢
  obtain ⟨ret, v⟩ := out
  split_ifs with due queued failed
  · exact Or.inl ⟨used, rfl, rfl⟩
  · left
    rw [note_streams, posted.streams]
    exact ⟨used, posted.uplink, posted.services⟩
  · rw [Bool.and_eq_true] at due
    have uplink : ((v.note (.wrte s (w.streams s).txBytes ret)).setStream s
        { w.streams s with txPending := false, awaitingAck := true }).uplink s = w.uplink s := by
      rw [uplink_setStream _ _ _ (by rw [note_streams, posted.streams])]
      have same : (v.note (.wrte s (w.streams s).txBytes ret)).uplink s = w.uplink s :=
        posted.uplink
      rw [same]
      unfold World.uplink
      rw [due.1]
      rfl
    have flushed := flushClose_uplink env
      (w := (v.note (.wrte s (w.streams s).txBytes ret)).setStream s
        { w.streams s with txPending := false, awaitingAck := true }) (s := s) (by
        rw [setStream_streams, Function.update_self]
        exact used)
    rw [uplink, setStream_services, note_services, posted.services] at flushed
    exact flushed
  · exact flushClose_uplink env used

theorem handleWrite_uplink {write : σ → Slot cfg → List UInt8 → Callback cfg σ Int}
    {Q : Int × σ → Prop}
    (found : findStream w w.rx.message.arg1 w.rx.message.arg0 = some s)
    (served : (w.streams s).ops.bind (fun kind => (env.ops kind).writeOp) = some write)
    (meets : (write w.services s (w.rx.payload.getD [])).Meets (StreamCall.Within (· = s)) Q)
    (dispatching : w.dispatching = true) :
    let out := (write w.services s (w.rx.payload.getD [])).run Uplink.api (w.uplink s)
    Rests s (out.2.settle out.1.1) out.1.2 (handleWrite env w).2 := by
  have used := find_used found
  obtain ⟨result, services, uplink⟩ := callback_uplink env meets used dispatching
  have used' : ((callback env (write w.services s (w.rx.payload.getD [])) w).2.streams s).used =
      true := ((callback_prepared env meets dispatching).filled s).same.used.trans used
  unfold handleWrite
  rw [found]
  dsimp only
  rw [served]
  dsimp only
  rw [← result, ← services, ← uplink]
  generalize callback env (write w.services s (w.rx.payload.getD [])) w = out at used' ⊢
  obtain ⟨ret, v⟩ := out
  unfold Uplink.settle
  dsimp only
  split_ifs with failed ready
  · have uplink : ((v.setStream s { v.streams s with
        closePending := true, txPending := false, awaitingAck := false }).note
        (.writeFailed s)).uplink s = { v.uplink s with busy := false, closing := true } :=
      uplink_setStream v s _ rfl
    have flushed := flushStream_uplink env (w := (v.setStream s { v.streams s with
        closePending := true, txPending := false, awaitingAck := false }).note (.writeFailed s))
      (s := s) (by
        rw [note_streams, setStream_streams, Function.update_self]
        exact used')
    rw [uplink] at flushed
    exact flushed
  · have posted := (postedPosts env).sendReadyFor s v
    have flushed := flushStream_uplink env (w := (sendReadyFor env s v).2) (s := s) (by
      rw [posted.streams]
      exact used')
    rw [posted.uplink, posted.services] at flushed
    exact flushed
  · have posted := (postedPosts env).sendReadyFor s v
    left
    rw [posted.streams]
    exact ⟨used', posted.uplink, posted.services⟩

theorem handleReady_uplink {txReady : σ → Slot cfg → Callback cfg σ Unit} {Q : Unit × σ → Prop}
    (found : findStream w w.rx.message.arg1 w.rx.message.arg0 = some s)
    (served : (w.streams s).ops.bind (fun kind => (env.ops kind).txReadyOp) = some txReady)
    (meets : (txReady w.services s).Meets (StreamCall.Within (· = s)) Q)
    (dispatching : w.dispatching = true) (awaiting : (w.streams s).awaitingAck = true)
    (sent : (w.streams s).txPending = false) :
    let out := (txReady w.services s).run Uplink.api { w.uplink s with busy := false }
    Rests s out.2 out.1.2 (handleReady env w).2 := by
  have used := find_used found
  have freed : ((w.note (.ready s)).acknowledge s).uplink s =
      { w.uplink s with busy := false } := by
    have uplink := uplink_setStream (w.note (.ready s)) s
      { w.streams s with awaitingAck := false } rfl
    unfold World.acknowledge
    rw [note_streams, uplink, sent]
    rfl
  have same : (((w.note (.ready s)).acknowledge s).streams s).ops = (w.streams s).ops := by
    unfold World.acknowledge
    rw [setStream_streams, Function.update_self, note_streams]
  have used' : (((w.note (.ready s)).acknowledge s).streams s).used = true := by
    unfold World.acknowledge
    rw [setStream_streams, Function.update_self, note_streams]
    exact used
  have dispatching' : ((w.note (.ready s)).acknowledge s).dispatching = true := dispatching
  have statics : ((w.note (.ready s)).acknowledge s).services = w.services := rfl
  obtain ⟨-, services, uplink⟩ := callback_uplink env meets used' dispatching'
  rw [freed] at services uplink
  have used'' : ((callback env (txReady w.services s)
      ((w.note (.ready s)).acknowledge s)).2.streams s).used = true :=
    ((callback_prepared env meets dispatching').filled s).same.used.trans used'
  have flushed := flushStream_uplink env used''
  rw [services, uplink] at flushed
  unfold handleReady
  rw [found]
  dsimp only
  rw [if_neg (by rw [note_streams, awaiting]; decide)]
  unfold notifyReady
  rw [same, served, statics]
  dsimp only
  rw [if_pos used'']
  exact flushed

end Handlers

end Webos.Adb
