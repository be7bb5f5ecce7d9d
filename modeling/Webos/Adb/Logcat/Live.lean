/- digest: Puts, their late deliveries and logcat sessions: what reaches a session that follows. -/

import Webos.Adb.Logcat.Ownership
import Webos.Services.LogHistory

namespace Webos.Adb.Logcat

open Webos.Lib Webos.Lib.Program Webos.Services

variable {cfg : Config} {μ ρ : Type}

/-- How bytes leave the ring of a session: in a chunk for the stream, or as the oldest ones when
new bytes do not fit. -/
inductive Leaving where
  | sent (chunk : List UInt8)
  | dropped (oldest : List UInt8)
  deriving DecidableEq

def Leaving.bytes : Leaving → List UInt8
  | .sent chunk => chunk
  | .dropped oldest => oldest

/-- A session that follows the log: the copy of the log that was due to it, what was appended since,
and what has left its ring. -/
structure Following where
  snapshot : List UInt8
  appended : List UInt8
  gone : List Leaving
  deriving DecidableEq

/-- The statics, the router as the service sees it, the deliveries that puts still owe, and whether
a close is between its two locks. -/
structure Live (cfg : Config) (μ ρ : Type) where
  statics : Statics cfg μ
  router : ρ
  owed : List (LogListener × List UInt8)
  closing : Bool
  session : Option Following

inductive LiveStep (cfg : Config) where
  | append (msg : List UInt8)
  | deliver (index : Nat)
  | start (stream : Slot cfg) (suffix : List UInt8)
  | deactivate
  | deregister
  | capture (room : Nat)
  | ready (stream : Slot cfg)
  | abandon (generation : UInt32)
  | clear
  | listen (id : Nat)
  | unlisten (id : Nat)

/-- `adb_logcat_close` under `logcat_lock`. -/
def deactivateSession (st : Statics cfg μ) : Statics cfg μ :=
  st.set fun c =>
    { c with
      active := false
      sending := false
      stream := none
      streamGeneration := 0
      ring := c.ring.clear }

/-- `adb_logcat_close` behind that lock. -/
def deregisterListener (st : Statics cfg μ) : Statics cfg μ :=
  { st with buffer := logBufferClearListener .live st.buffer }

def outstanding (owed : List (LogListener × List UInt8)) : List UInt8 :=
  owed.flatMap fun d => if d.1 = .live then d.2 else []

/-- The oldest bytes, for which there is no room once `data` has come. -/
def overflow (data : List UInt8) (r : ByteRing) : List UInt8 :=
  (r.bytes ++ data).take (r.len + data.length - r.capacity)

section Machine

variable (opts : Options) (malloc : μ → Nat → Bool × μ)
  (api : Handler (StreamCall cfg) StreamCall.Reply ρ)

def Live.step (s : Live cfg μ ρ) : LiveStep cfg → Live cfg μ ρ
  | .append msg =>
    let (owed, buffer) := logBufferPut msg s.statics.buffer
    { s with
      statics := { s.statics with buffer }
      owed := s.owed ++ owed.toList
      session := s.session.map fun f =>
        { f with appended := f.appended ++ s.statics.buffer.log.kept msg } }
  | .deliver index =>
    match s.owed[index]? with
    | none => s
    | some (.foreign _, _) => { s with owed := s.owed.eraseIdx index }
    | some (.live, data) =>
      { s with
        statics := liveLogListener data s.statics
        owed := s.owed.eraseIdx index
        session := s.session.map fun f =>
          { f with gone := f.gone ++ [.dropped (overflow data s.statics.logcat.ring)] } }
  | .start stream suffix =>
    if s.closing then s
    else
      let (ret, statics, router) :=
        (startSession opts malloc stream suffix).exec api s.statics s.router
      { s with
        statics
        router
        session :=
          if ret ≠ 0 then s.session
          else if statics.logcat.drain then none
          else some ⟨logBufferRead statics.logcat.ring.capacity s.statics.buffer, [], []⟩ }
  | .deactivate =>
    { s with statics := deactivateSession s.statics, closing := true, session := none }
  | .deregister =>
    if s.closing then { s with statics := deregisterListener s.statics, closing := false } else s
  | .capture room =>
    if s.statics.logcat.active && !s.statics.logcat.sending && s.statics.logcat.ring.len != 0 then
      let statics := s.statics.set (LogcatContext.capture room)
      { s with
        statics
        session := s.session.map fun f =>
          { f with gone := f.gone ++ [.sent statics.logcat.txChunk] } }
    else s
  | .ready stream =>
    if s.statics.logcat.active && s.statics.logcat.stream == some stream then
      { s with statics := s.statics.set fun c => { c with sending := false } }
    else s
  | .abandon generation =>
    if s.statics.logcat.current generation then
      { s with statics := s.statics.set fun c => { c with sending := false } }
    else s
  | .clear => { s with statics := { s.statics with buffer := logBufferClear s.statics.buffer } }
  | .listen id =>
    { s with statics :=
      { s.statics with buffer := (logBufferSetListener (.foreign id) s.statics.buffer).2 } }
  | .unlisten id =>
    { s with statics :=
      { s.statics with buffer := logBufferClearListener (.foreign id) s.statics.buffer } }

def Live.run (s : Live cfg μ ρ) (steps : List (LiveStep cfg)) : Live cfg μ ρ :=
  steps.foldl (fun s step => s.step opts malloc api step) s

/-- A delivery to the service does not overtake that of an earlier put, and a session does not begin
while one is owed. -/
def LiveStep.Timely (s : Live cfg μ ρ) : LiveStep cfg → Prop
  | .deliver index =>
    (∃ data, s.owed[index]? = some (.live, data)) → ∀ d ∈ s.owed.take index, d.1 ≠ .live
  | .start _ _ => s.statics.logcat.active = false → ∀ d ∈ s.owed, d.1 ≠ .live
  | _ => True

def Live.Timely : Live cfg μ ρ → List (LiveStep cfg) → Prop
  | _, [] => True
  | s, step :: steps => step.Timely s ∧ Live.Timely (s.step opts malloc api step) steps

def Live.boot (log : LogOptions) (heap : μ) (router : ρ) : Live cfg μ ρ where
  statics := ⟨⟨none, ⟨[], 0, 0⟩, 0, false, false, false, []⟩, log.boot, heap⟩
  router := router
  owed := []
  closing := false
  session := none

end Machine

/-- Each session that follows the log is known, and the copy of the log with what was appended since
is, in this order, what has left its ring, what is in the ring and what is owed to it. -/
structure Live.Faithful (s : Live cfg μ ρ) : Prop where
  known : s.session = none → s.statics.logcat.active = true → s.statics.logcat.drain = true
  whole : ∀ f, s.session = some f → f.snapshot ++ f.appended =
    f.gone.flatMap Leaving.bytes ++ (s.statics.logcat.ring.bytes ++ outstanding s.owed)

structure Live.Follows (s : Live cfg μ ρ) : Prop where
  active : s.statics.logcat.active = true
  drain : s.statics.logcat.drain = false
  listener : s.statics.buffer.listener = some .live
  opened : s.closing = false
  ring : s.statics.logcat.ring.Valid

structure Live.Ordered (s : Live cfg μ ρ) : Prop where
  faithful : s.Faithful
  log : s.statics.buffer.log.Valid
  follows : ∀ f, s.session = some f → s.Follows

section Owed

variable {owed : List (LogListener × List UInt8)} {d : LogListener × List UInt8}

theorem outstanding_none (none : ∀ d ∈ owed, d.1 ≠ .live) : outstanding owed = [] := by
  rw [outstanding, List.flatMap_eq_nil_iff]
  intro d member
  exact if_neg (none d member)

theorem outstanding_erase {index : Nat} (found : owed[index]? = some d)
    (first : d.1 = .live → ∀ d ∈ owed.take index, d.1 ≠ .live) :
    outstanding owed =
      (if d.1 = .live then d.2 else []) ++ outstanding (owed.eraseIdx index) := by
  obtain ⟨below, rfl⟩ := List.getElem?_eq_some_iff.mp found
  have split : owed = owed.take index ++ owed[index] :: owed.drop (index + 1) := by
    rw [← List.drop_eq_getElem_cons below, List.take_append_drop]
  have whole : outstanding owed = outstanding (owed.take index) ++
      ((if owed[index].1 = .live then owed[index].2 else []) ++
        outstanding (owed.drop (index + 1))) := by
    conv_lhs => rw [split, outstanding, List.flatMap_append, List.flatMap_cons]
    rfl
  have rest : outstanding (owed.eraseIdx index) =
      outstanding (owed.take index) ++ outstanding (owed.drop (index + 1)) := by
    rw [List.eraseIdx_eq_take_drop_succ, outstanding, List.flatMap_append]
    rfl
  rw [whole, rest]
  by_cases live : owed[index].1 = .live
  · rw [outstanding_none (first live), List.nil_append, List.nil_append]
  · rw [if_neg live, List.nil_append, List.nil_append]

theorem outstanding_put {msg : List UInt8} {b : LogBuffer} (listening : b.listener = some .live) :
    outstanding (owed ++ (logBufferPut msg b).1.toList) = outstanding owed ++ b.log.kept msg := by
  rw [outstanding, List.flatMap_append]
  congr 1
  rw [logBufferPut]
  split_ifs with empty
  · rw [List.length_eq_zero_iff.mp empty, ByteRing.kept_eq, List.rtake_nil]
    rfl
  · rw [listening]
    exact List.append_nil _

end Owed

section Ring

variable {r : ByteRing} {data : List UInt8}

theorem overflow_push (valid : r.Valid) :
    overflow data r ++ (r.push data).bytes = r.bytes ++ data := by
  rw [ByteRing.bytes_push valid, overflow, List.rtake, List.length_append,
    ByteRing.length_bytes valid,
    List.take_append_drop]

theorem capture_bytes {c : LogcatContext cfg} (valid : c.ring.Valid) (room : Nat) :
    (c.capture room).txChunk ++ (c.capture room).ring.bytes = c.ring.bytes := by
  have stored : min c.ring.len room ≤ c.ring.len := Nat.min_le_left _ _
  show c.ring.oldest (min c.ring.len room) ++ (c.ring.pop (min c.ring.len room)).bytes = _
  rw [ByteRing.oldest_eq_take valid stored, ByteRing.bytes_pop valid stored, List.take_append_drop]

end Ring

section Runs

variable {opts : Options} {malloc : μ → Nat → Bool × μ}
  {api : Handler (StreamCall cfg) StreamCall.Reply ρ} {s : Live cfg μ ρ}

theorem Live.ordered_boot (log : LogOptions) (heap : μ) (router : ρ) :
    (Live.boot log heap router : Live cfg μ ρ).Ordered := by
  refine ⟨⟨fun _ no => ?_, fun f no => ?_⟩, log.valid_boot, fun f no => ?_⟩ <;> cases no

/-- What the order of delivery depends on apart from the log. -/
def Live.pending (s : Live cfg μ ρ) :=
  let c := s.statics.logcat
  (s.owed, s.session, s.closing, c.active, c.drain, c.ring)

theorem Live.Ordered.other {s' : Live cfg μ ρ} (ordered : s.Ordered)
    (same : s'.pending = s.pending) (log : s'.statics.buffer.log.Valid)
    (listener : s.statics.buffer.listener = some .live →
      s'.statics.buffer.listener = some .live) : s'.Ordered := by
  simp only [Live.pending, Prod.mk.injEq] at same
  obtain ⟨owed, session, closing, active, drain, ring⟩ := same
  refine ⟨⟨?_, ?_⟩, log, ?_⟩
  · rw [session, active, drain]
    exact ordered.faithful.known
  · rw [session, ring, owed]
    exact ordered.faithful.whole
  · intro f following
    have follows := ordered.follows f (session ▸ following)
    exact ⟨active.trans follows.active, drain.trans follows.drain, listener follows.listener,
      closing.trans follows.opened, ring ▸ follows.ring⟩

theorem Live.Ordered.append (ordered : s.Ordered) (msg : List UInt8) :
    (s.step opts malloc api (.append msg)).Ordered := by
  have session : (s.step opts malloc api (.append msg)).session = s.session.map fun f =>
      { f with appended := f.appended ++ s.statics.buffer.log.kept msg } := rfl
  refine ⟨⟨fun none => ?_, fun f' following => ?_⟩, put_valid msg ordered.log,
    fun f' following => ?_⟩
  · rw [session, Option.map_eq_none_iff] at none
    exact ordered.faithful.known none
  · rw [session, Option.map_eq_some_iff] at following
    obtain ⟨f, before, rfl⟩ := following
    have follows := ordered.follows f before
    show f.snapshot ++ (f.appended ++ _) = f.gone.flatMap Leaving.bytes ++
      (s.statics.logcat.ring.bytes ++ outstanding (s.owed ++ (logBufferPut msg _).1.toList))
    rw [outstanding_put follows.listener, ← List.append_assoc, ordered.faithful.whole f before]
    simp only [List.append_assoc]
  · rw [session, Option.map_eq_some_iff] at following
    obtain ⟨f, before, rfl⟩ := following
    have follows := ordered.follows f before
    exact ⟨follows.active, follows.drain, (put_listener msg).trans follows.listener, follows.opened,
      follows.ring⟩

theorem liveLogListener_frame (data : List UInt8) (st : Statics cfg μ) :
    (liveLogListener data st).logcat.active = st.logcat.active ∧
      (liveLogListener data st).logcat.drain = st.logcat.drain ∧
      (liveLogListener data st).buffer = st.buffer := by
  rw [liveLogListener]
  split_ifs <;> exact ⟨rfl, rfl, rfl⟩

theorem Live.Follows.delivered (follows : s.Follows) (data : List UInt8) :
    (liveLogListener data s.statics).logcat.ring = s.statics.logcat.ring.push data := by
  rw [liveLogListener, follows.active, follows.drain]
  rfl

theorem Live.Ordered.deliver (ordered : s.Ordered) {index : Nat}
    (timely : (LiveStep.deliver index).Timely s) :
    (s.step opts malloc api (.deliver index)).Ordered := by
  rw [Live.step]
  split
  · exact ordered
  · rename_i id data found
    refine ⟨⟨ordered.faithful.known, fun f following => ?_⟩, ordered.log, fun f following => ?_⟩
    · have owed := outstanding_erase found fun live => by cases live
      rw [ordered.faithful.whole f following, owed]
      rfl
    · have follows := ordered.follows f following
      exact { follows with }
  · rename_i data found
    obtain ⟨active, drain, buffer⟩ := liveLogListener_frame data s.statics
    refine ⟨⟨fun none => ?_, fun f' following => ?_⟩, ?_, fun f' following => ?_⟩
    · rw [Option.map_eq_none_iff] at none
      show (liveLogListener data s.statics).logcat.active = true → _
      rw [active]
      exact fun begun => drain.trans (ordered.faithful.known none begun)
    · rw [Option.map_eq_some_iff] at following
      obtain ⟨f, before, rfl⟩ := following
      have follows := ordered.follows f before
      have owed := outstanding_erase found fun _ => timely ⟨data, found⟩
      rw [if_pos rfl] at owed
      have whole := ordered.faithful.whole f before
      rw [owed, ← List.append_assoc s.statics.logcat.ring.bytes,
        ← overflow_push follows.ring] at whole
      rw [follows.delivered data, List.flatMap_append, List.flatMap_singleton]
      simpa only [Leaving.bytes, List.append_assoc] using whole
    · show (liveLogListener data s.statics).buffer.log.Valid
      rw [buffer]
      exact ordered.log
    · rw [Option.map_eq_some_iff] at following
      obtain ⟨f, before, rfl⟩ := following
      have follows := ordered.follows f before
      refine ⟨active.trans follows.active, drain.trans follows.drain, ?_, follows.opened, ?_⟩
      · show (liveLogListener data s.statics).buffer.listener = _
        rw [buffer]
        exact follows.listener
      · show (liveLogListener data s.statics).logcat.ring.Valid
        rw [follows.delivered data]
        exact ByteRing.valid_push follows.ring data

theorem Live.Ordered.start (ordered : s.Ordered) {stream : Slot cfg} {suffix : List UInt8}
    (timely : (LiveStep.start stream suffix).Timely s) :
    (s.step opts malloc api (.start stream suffix)).Ordered := by
  have quiet (idle : s.statics.logcat.active = false) : s.session = none := by
    cases known : s.session with
    | none => rfl
    | some f => cases idle.symm.trans (ordered.follows f known).active
  rw [Live.step]
  split_ifs with closing
  · exact ordered
  · have started : Started stream s.statics
        (((startSession opts malloc stream suffix).exec api s.statics s.router).1,
          ((startSession opts malloc stream suffix).exec api s.statics s.router).2.1) :=
      (startSession_meets suffix s.statics).result api s.router
    generalize (startSession opts malloc stream suffix).exec api s.statics s.router = out at started
    obtain ⟨ret, st', router⟩ := out
    dsimp only at started ⊢
    cases started with
    | busy active =>
      rw [if_pos (show -EBUSY ≠ 0 by decide)]
      exact ordered.other rfl ordered.log id
    | refused idle failed inactive log =>
      rw [if_pos failed, quiet idle]
      refine ⟨⟨fun _ active => ?_, fun f no => ?_⟩, log ▸ ordered.log, fun f no => ?_⟩
      · cases inactive.symm.trans active
      all_goals cases no
    | drains idle streaming drain log =>
      rw [if_neg (not_not.mpr rfl), if_pos drain]
      refine ⟨⟨fun _ _ => drain, fun f no => ?_⟩, ?_, fun f no => ?_⟩
      · cases no
      · rcases log with same | cleared
        · exact same ▸ ordered.log
        · exact cleared ▸ ByteRing.valid_clear ordered.log
      · cases no
    | follows idle streaming drain free log ring =>
      have filled := ring ordered.log
      rw [if_neg (not_not.mpr rfl), if_neg (Bool.not_eq_true _ ▸ drain)]
      refine ⟨⟨fun no => ?_, ?_⟩, ?_, ?_⟩
      · cases no
      · rintro f ⟨⟩
        show logBufferRead _ _ ++ [] = [] ++ (st'.logcat.ring.bytes ++ outstanding s.owed)
        rw [outstanding_none (timely idle), filled.bytes]
        rfl
      · exact log ▸ ordered.log
      · rintro f ⟨⟩
        refine ⟨streaming.active, drain, ?_, Bool.not_eq_true _ ▸ closing, filled.valid⟩
        show st'.buffer.listener = _
        rw [log]

theorem Live.Ordered.capture (ordered : s.Ordered) (room : Nat) :
    (s.step opts malloc api (.capture room)).Ordered := by
  rw [Live.step]
  split_ifs
  · refine ⟨⟨fun none => ?_, fun f' following => ?_⟩, ordered.log, fun f' following => ?_⟩
    · rw [Option.map_eq_none_iff] at none
      exact ordered.faithful.known none
    · rw [Option.map_eq_some_iff] at following
      obtain ⟨f, before, rfl⟩ := following
      have whole := ordered.faithful.whole f before
      rw [← capture_bytes (ordered.follows f before).ring room] at whole
      rw [List.flatMap_append, List.flatMap_singleton, Statics.set]
      simpa only [Leaving.bytes, List.append_assoc] using whole
    · rw [Option.map_eq_some_iff] at following
      obtain ⟨f, before, rfl⟩ := following
      have follows := ordered.follows f before
      exact ⟨follows.active, follows.drain, follows.listener, follows.opened,
        ByteRing.valid_pop follows.ring⟩
  · exact ordered

theorem Live.Ordered.step (ordered : s.Ordered) {step : LiveStep cfg} (timely : step.Timely s) :
    (s.step opts malloc api step).Ordered := by
  cases step with
  | append msg => exact ordered.append msg
  | deliver index => exact ordered.deliver timely
  | start stream suffix => exact ordered.start timely
  | deactivate =>
    refine ⟨⟨fun _ no => ?_, fun f no => ?_⟩, ordered.log, fun f no => ?_⟩ <;> cases no
  | deregister =>
    rw [Live.step]
    split_ifs with closing
    · refine ⟨⟨ordered.faithful.known, ordered.faithful.whole⟩, ?_, fun f following => ?_⟩
      · show (logBufferClearListener .live s.statics.buffer).log.Valid
        rw [logBufferClearListener]
        split_ifs <;> exact ordered.log
      · cases closing.symm.trans (ordered.follows f following).opened
    · exact ordered
  | capture room => exact ordered.capture room
  | ready stream =>
    rw [Live.step]
    split_ifs
    · exact ordered.other rfl ordered.log id
    · exact ordered
  | abandon generation =>
    rw [Live.step]
    split_ifs
    · exact ordered.other rfl ordered.log id
    · exact ordered
  | clear =>
    exact ordered.other rfl (ByteRing.valid_clear ordered.log) id
  | listen id =>
    refine ordered.other rfl ?_ fun listening => ?_
    · show (logBufferSetListener (.foreign id) s.statics.buffer).2.log.Valid
      rw [logBufferSetListener]
      split_ifs <;> exact ordered.log
    · show (logBufferSetListener (.foreign id) s.statics.buffer).2.listener = _
      rw [logBufferSetListener, listening]
      exact listening
  | unlisten id =>
    refine ordered.other rfl ?_ fun listening => ?_
    · show (logBufferClearListener (.foreign id) s.statics.buffer).log.Valid
      rw [logBufferClearListener]
      split_ifs <;> exact ordered.log
    · show (logBufferClearListener (.foreign id) s.statics.buffer).listener = _
      rw [logBufferClearListener, listening, if_neg (by simp)]
      exact listening

theorem Live.Ordered.run (ordered : s.Ordered) {steps : List (LiveStep cfg)}
    (timely : s.Timely opts malloc api steps) : (s.run opts malloc api steps).Ordered := by
  induction steps generalizing s with
  | nil => exact ordered
  | cons step steps ih => exact ih (ordered.step timely.1) timely.2

/-- In every timely run each byte appended during a session reaches its ring once and in order,
behind the copy of the log, and no other byte does. -/
theorem live_log_in_order (opts : Options) (malloc : μ → Nat → Bool × μ)
    (api : Handler (StreamCall cfg) StreamCall.Reply ρ) (log : LogOptions) (heap : μ) (router : ρ)
    (steps : List (LiveStep cfg))
    (timely : (Live.boot log heap router).Timely opts malloc api steps) :
    ((Live.boot log heap router).run opts malloc api steps).Faithful :=
  ((Live.ordered_boot log heap router).run timely).faithful

def acceptingApi : Handler (StreamCall Config.project) StreamCall.Reply Unit
  | .write _ _ _, _ => (0, ())
  | .close _ _, _ => ((), ())
  | .generation _, _ => (1, ())
  | .maxPayload _, _ => (1, ())

def Live.project (steps : List (LiveStep Config.project)) : Live Config.project Unit Unit :=
  (Live.boot .smallest () ()).run ⟨512, by decide⟩ (fun _ _ => (true, ())) acceptingApi steps

theorem timely_first (s : Live cfg μ ρ) : (LiveStep.deliver 0).Timely s := by
  intro _ d no
  cases no

/-- Two puts overlap, and their deliveries come in order. -/
theorem live_log_in_order_overlap :
    (Live.project [.start firstSlot (ascii "logcat"), .append (ascii "a"), .append (ascii "b"),
      .deliver 0, .capture 1, .deliver 0]).Faithful := by
  refine live_log_in_order ⟨512, by decide⟩ (fun _ _ => (true, ())) acceptingApi .smallest () () _
    ⟨fun _ d no => ?_, trivial, trivial, timely_first _, trivial, timely_first _, trivial⟩
  cases no

/-- The service after two puts that append in one order and deliver in the other. -/
def overtaken : Live Config.project Unit Unit :=
  Live.project [.start firstSlot (ascii "logcat"), .append (ascii "a"), .append (ascii "b"),
    .deliver 1, .deliver 0]

theorem live_log_out_of_order : ¬overtaken.Faithful := by
  intro faithful
  have whole := faithful.whole ⟨[], ascii "ab", [.dropped [], .dropped []]⟩ (by decide +kernel)
  revert whole
  decide +kernel

end Runs

end Webos.Adb.Logcat
