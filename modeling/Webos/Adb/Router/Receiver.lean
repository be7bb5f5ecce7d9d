/- digest: The incremental receiver depends on the received bytes and not on their buffers. -/

import Webos.Adb.Router.Frame
import Webos.Lib.Fragment

namespace Webos.Adb

open Webos.Lib.Bytes Webos.Lib.Fragment

variable {cfg : Config} {σ π : Type} (env : Env cfg σ π)

/-- The receiver between two bytes: inside a header, or inside a payload whose header was
accepted and whose block is allocated. -/
inductive Rx.Valid (cfg : Config) (rx : Rx) : Prop where
  | header (size : rx.header.length = WEBOS_ADB_HEADER_SIZE)
      (room : rx.headerUsed < WEBOS_ADB_HEADER_SIZE) (absent : rx.payload = none)
      (start : rx.payloadUsed = 0) (sum : rx.payloadChecksum = 0)
  | payload (block : List UInt8) (full : rx.headerUsed = WEBOS_ADB_HEADER_SIZE)
      (accepted : validateMessage cfg rx.message = 0) (present : rx.payload = some block)
      (size : block.length = rx.message.dataLength.toNat)
      (room : rx.payloadUsed < rx.message.dataLength.toNat)
      (sum : rx.payloadChecksum = adbChecksum (block.take rx.payloadUsed))

theorem Rx.zero_valid (cfg : Config) : Rx.zero.Valid cfg :=
  .header rfl (by decide) rfl rfl rfl

theorem fillHeader_append (rx : Rx) (a b : List UInt8) (inside : rx.headerUsed ≤ rx.header.length) :
    (rx.fillHeader a).fillHeader b = rx.fillHeader (a ++ b) := by
  simp only [Rx.fillHeader, memcpy_append _ _ a b inside, List.length_append, Nat.add_assoc]

theorem fillPayload_append (rx : Rx) (a b block : List UInt8) (present : rx.payload = some block)
    (inside : rx.payloadUsed ≤ block.length) :
    (rx.fillPayload a).fillPayload b = rx.fillPayload (a ++ b) := by
  simp only [Rx.fillPayload, present, Option.getD_some, memcpy_append _ _ a b inside,
    List.length_append, Nat.add_assoc, adbChecksum_append, UInt32.add_assoc]

theorem fillPayload_nil (rx : Rx) (block : List UInt8) (present : rx.payload = some block) :
    rx.fillPayload [] = rx := by
  simp only [Rx.fillPayload, present, Option.getD_some, memcpy_nil, adbChecksum_nil,
    UInt32.add_zero, List.length_nil, Nat.add_zero]
  rw [← present]

variable (data : List UInt8) (w : World cfg σ π)

theorem finishMessage_rest :
    finishMessage env data w =
      ((finishMessage env [] w).1, data, (finishMessage env [] w).2.2) := rfl

theorem finishHeader_rest :
    finishHeader env data w = ((finishHeader env [] w).1, data, (finishHeader env [] w).2.2) := by
  unfold finishHeader
  dsimp only
  split_ifs
  · rfl
  · exact finishMessage_rest env data _
  · rfl

theorem finishMessage_rx : (finishMessage env data w).2.2.rx = Rx.zero := rfl

theorem finishHeader_cases (full : w.rx.headerUsed = WEBOS_ADB_HEADER_SIZE)
    (start : w.rx.payloadUsed = 0) (sum : w.rx.payloadChecksum = 0) :
    (finishHeader env data w).2.2.rx = Rx.zero ∨
      (finishHeader env data w).1 = none ∧ (finishHeader env data w).2.2.rx.Valid cfg ∧
        (finishHeader env data w).2.2.rx.headerUsed = WEBOS_ADB_HEADER_SIZE := by
  unfold finishHeader
  dsimp only
  split_ifs with refused empty
  · exact Or.inl rfl
  · exact Or.inl (finishMessage_rx env data _)
  · refine Or.inr ⟨rfl, ?_⟩
    revert refused empty
    unfold decodeHeader
    dsimp only
    split_ifs with stop found
    · intro refused empty
      rcases stop with bad | none
      · exact absurd bad refused
      · exact absurd none empty
    · intro _ empty
      rw [not_or, not_not] at stop
      have positive : 0 < (loadMessage w.rx.header).dataLength.toNat :=
        Nat.pos_of_ne_zero fun zero => stop.2 (UInt32.toNat.inj zero)
      exact ⟨.payload _ full stop.1 rfl (by simp) (by simpa only [note_rx, start] using positive)
        (by simp only [note_rx, start, sum, List.take_zero, adbChecksum_nil]), full⟩
    · intro refused
      exact absurd (show -ENOMEM ≠ 0 by decide) refused

section Passes

variable {w : World cfg σ π}

private theorem headerPhase_skip (data : List UInt8)
    (full : w.rx.headerUsed = WEBOS_ADB_HEADER_SIZE) :
    headerPhase env data w = (none, data, w) := by
  rw [headerPhase, if_neg (by omega)]

theorem payloadPhase_skip (data : List UInt8) (partway : w.rx.headerUsed ≠ WEBOS_ADB_HEADER_SIZE) :
    payloadPhase env data w = (none, data, w) := by
  rw [payloadPhase, if_neg fun both => partway both.1]

private theorem payloadPhase_nil (block : List UInt8) (present : w.rx.payload = some block)
    (room : w.rx.payloadUsed < w.rx.message.dataLength.toNat) :
    payloadPhase env [] w = (none, [], w) := by
  unfold payloadPhase
  simp only [List.length_nil, Nat.zero_min, List.take_nil, List.drop_nil,
    fillPayload_nil w.rx block present, Nat.ne_of_lt room, ↓reduceIte, ite_self]

variable (x : UInt8) (xs : List UInt8)

private theorem headerPhase_more (size : w.rx.header.length = WEBOS_ADB_HEADER_SIZE)
    (room : w.rx.headerUsed + 1 < WEBOS_ADB_HEADER_SIZE) :
    headerPhase env (x :: xs) w = headerPhase env xs { w with rx := w.rx.fillHeader [x] } := by
  have count : min (xs.length + 1) (WEBOS_ADB_HEADER_SIZE - w.rx.headerUsed) =
      min xs.length (WEBOS_ADB_HEADER_SIZE - (w.rx.headerUsed + 1)) + 1 := by omega
  have used : (w.rx.fillHeader [x]).headerUsed = w.rx.headerUsed + 1 := rfl
  unfold headerPhase
  rw [if_pos (by omega), if_pos (show (w.rx.fillHeader [x]).headerUsed < _ from room)]
  simp only [List.length_cons, used, count, List.take_succ_cons, List.drop_succ_cons,
    fillHeader_append w.rx [x] _ (by omega), List.cons_append, List.nil_append]

private theorem headerPhase_last (last : w.rx.headerUsed + 1 = WEBOS_ADB_HEADER_SIZE) :
    headerPhase env (x :: xs) w = finishHeader env xs { w with rx := w.rx.fillHeader [x] } := by
  have count : min (xs.length + 1) (WEBOS_ADB_HEADER_SIZE - w.rx.headerUsed) = 1 := by omega
  have used : (w.rx.fillHeader [x]).headerUsed = WEBOS_ADB_HEADER_SIZE := last
  unfold headerPhase
  rw [if_pos (by omega)]
  simp [count, used]

private theorem payloadPhase_more (block : List UInt8)
    (full : w.rx.headerUsed = WEBOS_ADB_HEADER_SIZE) (present : w.rx.payload = some block)
    (size : block.length = w.rx.message.dataLength.toNat)
    (room : w.rx.payloadUsed + 1 < w.rx.message.dataLength.toNat) :
    payloadPhase env (x :: xs) w = payloadPhase env xs { w with rx := w.rx.fillPayload [x] } := by
  have count : min (xs.length + 1) (w.rx.message.dataLength.toNat - w.rx.payloadUsed) =
      min xs.length (w.rx.message.dataLength.toNat - (w.rx.payloadUsed + 1)) + 1 := by omega
  have positive : w.rx.message.dataLength > 0 := by
    exact Nat.lt_of_le_of_lt (Nat.zero_le _) room
  have used : (w.rx.fillPayload [x]).payloadUsed = w.rx.payloadUsed + 1 := rfl
  have message : (w.rx.fillPayload [x]).message = w.rx.message := rfl
  have header : (w.rx.fillPayload [x]).headerUsed = WEBOS_ADB_HEADER_SIZE := full
  unfold payloadPhase
  simp only [full, header, positive, and_self, ↓reduceIte, List.length_cons, used, message, count,
    List.take_succ_cons, List.drop_succ_cons, fillPayload_append w.rx [x] _ block present
      (by omega),
    List.cons_append, List.nil_append]

private theorem payloadPhase_last (full : w.rx.headerUsed = WEBOS_ADB_HEADER_SIZE)
    (last : w.rx.payloadUsed + 1 = w.rx.message.dataLength.toNat) :
    payloadPhase env (x :: xs) w = finishMessage env xs { w with rx := w.rx.fillPayload [x] } := by
  have count : min (xs.length + 1) (w.rx.message.dataLength.toNat - w.rx.payloadUsed) = 1 := by
    omega
  have positive : w.rx.message.dataLength > 0 := by
    rw [gt_iff_lt, UInt32.lt_iff_toNat_lt]
    exact last ▸ Nat.succ_pos _
  have used : (w.rx.fillPayload [x]).payloadUsed = w.rx.message.dataLength.toNat := last
  have message : (w.rx.fillPayload [x]).message = w.rx.message := rfl
  unfold payloadPhase
  rw [if_pos ⟨full, positive⟩]
  simp [count, used, message]

private theorem receivePass_full (data : List UInt8)
    (full : w.rx.headerUsed = WEBOS_ADB_HEADER_SIZE) :
    receivePass env data w = payloadPhase env data w := by
  rw [receivePass, headerPhase_skip env data full]

private theorem receivePass_last (last : w.rx.headerUsed + 1 = WEBOS_ADB_HEADER_SIZE)
    (xs : List UInt8) :
    receivePass env (x :: xs) w =
      if (finishHeader env [] { w with rx := w.rx.fillHeader [x] }).1.isSome then
        ((finishHeader env [] { w with rx := w.rx.fillHeader [x] }).1, xs,
          (finishHeader env [] { w with rx := w.rx.fillHeader [x] }).2.2)
      else payloadPhase env xs (finishHeader env [] { w with rx := w.rx.fillHeader [x] }).2.2 := by
  rw [receivePass, headerPhase_last env x xs last, finishHeader_rest env]
  cases (finishHeader env [] { w with rx := w.rx.fillHeader [x] }).1 <;> rfl

theorem payloadPhase_idle (valid : w.rx.Valid cfg) : payloadPhase env [] w = (none, [], w) := by
  cases valid with
  | header size room absent start sum => exact payloadPhase_skip env [] (Nat.ne_of_lt room)
  | payload block full accepted present size room sum =>
    exact payloadPhase_nil env block present room

private theorem receivePass_idle (valid : w.rx.Valid cfg) :
    receivePass env [] w = (none, [], w) := by
  have same : w.rx.fillHeader [] = w.rx := by
    simp [Rx.fillHeader, memcpy_nil]
  have idle : headerPhase env [] w = (none, [], w) := by
    unfold headerPhase
    simp only [List.length_nil, Nat.zero_min, List.take_nil, List.drop_nil, same]
    split_ifs with room full
    · rfl
    · omega
    · rfl
  rw [receivePass, idle]
  exact payloadPhase_idle env valid

private theorem fillPayload_valid (block : List UInt8) {rx : Rx}
    (full : rx.headerUsed = WEBOS_ADB_HEADER_SIZE) (accepted : validateMessage cfg rx.message = 0)
    (present : rx.payload = some block) (size : block.length = rx.message.dataLength.toNat)
    (room : rx.payloadUsed + 1 < rx.message.dataLength.toNat)
    (sum : rx.payloadChecksum = adbChecksum (block.take rx.payloadUsed)) :
    (rx.fillPayload [x]).Valid cfg := by
  refine .payload (memcpy block rx.payloadUsed [x]) full accepted ?_ ?_ room ?_
  · simp [Rx.fillPayload, present]
  · rw [length_memcpy _ _ _ (by simp only [List.length_cons, List.length_nil]; omega), size]
    rfl
  · have prefixed := take_memcpy block rx.payloadUsed [x] (by omega)
    simp only [Rx.fillPayload, prefixed, adbChecksum_append, sum]

private theorem receivePass_step (valid : w.rx.Valid cfg) :
    ∃ v : World cfg σ π, v.rx.Valid cfg ∧
      ((∀ xs, receivePass env (x :: xs) w = receivePass env xs v) ∨
        ∃ e, ∀ xs, receivePass env (x :: xs) w = (e, xs, v)) := by
  cases valid with
  | header size room absent start sum =>
    by_cases more : w.rx.headerUsed + 1 < WEBOS_ADB_HEADER_SIZE
    · refine ⟨{ w with rx := w.rx.fillHeader [x] }, ?_, .inl fun xs => ?_⟩
      · have length := length_memcpy w.rx.header w.rx.headerUsed [x]
          (by simp only [List.length_cons, List.length_nil]; omega)
        exact .header (length.trans size) more absent start sum
      · rw [receivePass, headerPhase_more env x xs size more, receivePass]
    · have last : w.rx.headerUsed + 1 = WEBOS_ADB_HEADER_SIZE := by omega
      have split := receivePass_last env x last
      have cases := finishHeader_cases env [] { w with rx := w.rx.fillHeader [x] } last start sum
      generalize finishHeader env [] { w with rx := w.rx.fillHeader [x] } = outcome at split cases
      obtain ⟨e, rest, v⟩ := outcome
      rcases cases with reset | ⟨running, next, full⟩
      · refine ⟨v, reset ▸ Rx.zero_valid cfg, .inr ⟨e, fun xs => ?_⟩⟩
        rw [split xs]
        cases e with
        | none => exact payloadPhase_skip env xs (by rw [reset]; decide)
        | some ret => rfl
      · refine ⟨v, next, .inl fun xs => ?_⟩
        cases running
        rw [split xs]
        exact (receivePass_full env xs full).symm
  | payload block full accepted present size room sum =>
    by_cases more : w.rx.payloadUsed + 1 < w.rx.message.dataLength.toNat
    · refine ⟨{ w with rx := w.rx.fillPayload [x] },
        fillPayload_valid x block full accepted present size more sum, .inl fun xs => ?_⟩
      rw [receivePass_full env _ full, payloadPhase_more env x xs block full present size more]
      exact (receivePass_full env (w := { w with rx := w.rx.fillPayload [x] }) xs full).symm
    · refine ⟨(finishMessage env [] { w with rx := w.rx.fillPayload [x] }).2.2,
        Rx.zero_valid cfg, .inr ⟨(finishMessage env [] { w with rx := w.rx.fillPayload [x] }).1,
          fun xs => ?_⟩⟩
      rw [receivePass_full env _ full, payloadPhase_last env x xs full (by omega)]
      exact finishMessage_rest env xs _

end Passes

theorem receivePass_bytewise :
    Bytewise (receivePass env) (fun w : World cfg σ π => w.rx.Valid cfg) :=
  ⟨fun _ valid => receivePass_idle env valid, fun x _ valid => receivePass_step env x valid⟩

private theorem receiveLoop_eq_loop (n : Nat) (data : List UInt8) (w : World cfg σ π) :
    receiveLoop env n data w =
      ((loop (receivePass env) n data w).1.getD 0, (loop (receivePass env) n data w).2) := by
  induction n generalizing data w with
  | zero => rfl
  | succ n ih =>
    unfold receiveLoop loop
    split_ifs
    · rfl
    · rcases receivePass env data w with ⟨_ | ret, rest, v⟩
      · exact ih rest v
      · rfl

theorem protocolReceiveUnlocked_eq_feed :
    protocolReceiveUnlocked env data w =
      ((feed (receivePass env) data w).1.getD 0, (feed (receivePass env) data w).2) :=
  receiveLoop_eq_loop env data.length data w

structure Grows (w v : World cfg σ π) : Prop where
  dispatching : v.dispatching = w.dispatching
  log : w.log <+: v.log

theorem Grows.refl : Grows w w := ⟨rfl, List.prefix_rfl⟩

theorem Grows.trans {w v u : World cfg σ π} (first : Grows w v) (second : Grows v u) :
    Grows w u :=
  ⟨second.dispatching.trans first.dispatching, first.log.trans second.log⟩

theorem grows_dispatchMessage (dispatching : w.dispatching = true) :
    Grows w (dispatchMessage env w).2 := by
  obtain ⟨v, keeps, eq⟩ := dispatchMessage_eq env w dispatching
  obtain ⟨new, grown, -⟩ := keeps.log
  rw [eq]
  exact ⟨keeps.dispatching, by
    rw [note_log, grown, List.append_assoc]
    exact List.prefix_append _ _⟩

theorem growsReceives : Receives env (fun w v => w.dispatching = true → Grows w v) where
  refl w _ := .refl w
  trans _ _ _ first second on := (first on).trans (second ((first on).dispatching.trans on))
  receiver _ _ _ := ⟨rfl, List.prefix_rfl⟩
  allocated _ _ _ := ⟨rfl, List.prefix_append _ _⟩
  dispatchMessage := grows_dispatchMessage env

theorem grows_feed (dispatching : w.dispatching = true) :
    Grows w (feed (receivePass env) data w).2 := by
  have loop := (growsReceives env).receiveLoop data w data.length dispatching
  rwa [receiveLoop_eq_loop] at loop

section Buffers

def World.enter (w : World cfg σ π) : World cfg σ π := { w with dispatching := true }

def World.leave (w : World cfg σ π) : World cfg σ π := { w with dispatching := false }

def deliver (buffers : List (List UInt8)) (w : World cfg σ π) : World cfg σ π :=
  buffers.foldl (fun w data => (webosAdbProtocolReceive env data w).2) w

variable {w : World cfg σ π}

theorem enter_leave (inside : w.dispatching = true) : w.leave.enter = w := by
  cases w
  cases inside
  rfl

theorem leave_enter (outside : w.dispatching = false) : w.enter.leave = w := by
  cases w
  cases outside
  rfl

theorem receive_eq_feed (data : List UInt8) (w : World cfg σ π) :
    webosAdbProtocolReceive env data w = ((feed (receivePass env) data w.enter).1.getD 0,
        (feed (receivePass env) data w.enter).2.leave) := by
  have unlocked := protocolReceiveUnlocked_eq_feed env data w.enter
  exact congrArg (fun out : Int × World cfg σ π => (out.1, out.2.leave)) unlocked

theorem feed_dispatching (data : List UInt8) (w : World cfg σ π) :
    (feed (receivePass env) data w.enter).2.dispatching = true :=
  (grows_feed env data w.enter rfl).dispatching

variable (buffers : List (List UInt8))

theorem prefix_deliver (w : World cfg σ π) : w.log <+: (deliver env buffers w).log := by
  induction buffers generalizing w with
  | nil => exact List.prefix_rfl
  | cons b buffers ih =>
    have first : w.log <+: (webosAdbProtocolReceive env b w).2.log := by
      rw [receive_eq_feed]
      exact (grows_feed env b w.enter rfl).log
    exact first.trans (ih _)

theorem deliver_outside (outside : w.dispatching = false) :
    (deliver env buffers w).dispatching = false := by
  induction buffers generalizing w with
  | nil => exact outside
  | cons b buffers ih => exact ih (w := (webosAdbProtocolReceive env b w).2) rfl

theorem deliver_feed (valid : w.rx.Valid cfg) :
    (feed (receivePass env) buffers.flatten w.enter).2.log <+: (deliver env buffers w).log ∧
      ((feed (receivePass env) buffers.flatten w.enter).1 = none →
        (deliver env buffers w).enter = (feed (receivePass env) buffers.flatten w.enter).2) := by
  induction buffers generalizing w with
  | nil => exact ⟨List.prefix_rfl, fun _ => rfl⟩
  | cons b buffers ih =>
    have inside := feed_dispatching env b w
    have next := feed_valid (receivePass_bytewise env) b (w := w.enter) valid
    have step : deliver env (b :: buffers) w =
        deliver env buffers (feed (receivePass env) b w.enter).2.leave := by
      simp [deliver, receive_eq_feed]
    rw [step, List.flatten_cons, feed_append (receivePass_bytewise env) b _ (w := w.enter) valid]
    rcases first : feed (receivePass env) b w.enter with ⟨_ | ret, u⟩
    · rw [first] at inside next
      have rest := ih (w := u.leave) next
      rwa [enter_leave inside] at rest
    · exact ⟨prefix_deliver env buffers u.leave, fun running => by cases running⟩

theorem deliver_split (before after : List (List UInt8)) (head rest : List UInt8)
    {v : World cfg σ π} (valid : w.rx.Valid cfg)
    (running : feed (receivePass env) (before.flatten ++ head) w.enter = (none, v)) :
    deliver env (before ++ (head ++ rest) :: after) w = deliver env (rest :: after) v.leave := by
  induction before generalizing w with
  | nil =>
    have inside : v.dispatching = true := by
      have flag := feed_dispatching env head w
      simp only [List.flatten_nil, List.nil_append] at running
      rwa [running] at flag
    simp only [List.flatten_nil, List.nil_append] at running
    have joined := feed_append (receivePass_bytewise env) head rest (w := w.enter) valid
    rw [running] at joined
    simp [deliver, receive_eq_feed, joined, enter_leave inside]
  | cons b before ih =>
    have inside := feed_dispatching env b w
    have next := feed_valid (receivePass_bytewise env) b (w := w.enter) valid
    rw [List.flatten_cons, List.append_assoc,
      feed_append (receivePass_bytewise env) b _ (w := w.enter) valid] at running
    rcases first : feed (receivePass env) b w.enter with ⟨_ | ret, u⟩
    · rw [first] at running inside next
      have rest := ih (w := u.leave) next (by rwa [enter_leave inside])
      have step : (webosAdbProtocolReceive env b w).2 = u.leave := by rw [receive_eq_feed, first]
      simp only [deliver, List.cons_append, List.foldl_cons, step] at rest ⊢
      exact rest
    · rw [first] at running
      cases running

end Buffers

end Webos.Adb
