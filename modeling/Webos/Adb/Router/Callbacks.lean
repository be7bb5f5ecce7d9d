/- digest: While the receiver dispatches, a service only fills slots and asks for closes. -/

import Webos.Adb.Router.Rules

namespace Webos.Adb

open Webos.Lib.Bytes Webos.Lib.Program

variable {cfg : Config} {σ π : Type} {env : Env cfg σ π} {own : Slot cfg → Prop}

def Event.noted : Event cfg → Bool
  | .stored _ _ | .write _ _ _ | .close _ => true
  | _ => false

/-- What a service may do to a slot during a dispatch: fill its free transmit slot and ask for its
close. -/
structure Stream.Filled (limit : Nat) (a b : Stream) : Prop where
  same : a.Same b
  awaitingAck : b.awaitingAck = a.awaitingAck
  closing : a.closePending = true → b.closePending = true
  pending : a.txPending = true → b.txPending = true ∧ b.txLen = a.txLen ∧ b.txData = a.txData
  fits : b.txPending = true → a.txPending = true ∨ b.txLen ≤ limit

theorem Stream.Filled.refl (limit : Nat) (st : Stream) : st.Filled limit st :=
  ⟨⟨rfl, rfl, rfl, rfl, rfl⟩, rfl, fun closing => closing, fun pending => ⟨pending, rfl, rfl⟩,
    fun pending => .inl pending⟩

theorem Stream.Filled.trans {limit : Nat} {a b c : Stream} (first : a.Filled limit b)
    (second : b.Filled limit c) : a.Filled limit c := by
  refine ⟨⟨second.same.used.trans first.same.used, second.same.localId.trans first.same.localId,
    second.same.remoteId.trans first.same.remoteId,
    second.same.generation.trans first.same.generation, second.same.ops.trans first.same.ops⟩,
    second.awaitingAck.trans first.awaitingAck, fun closing =>
      second.closing (first.closing closing),
    fun pending => ?_, fun pending => ?_⟩
  · obtain ⟨still, length, data⟩ := first.pending pending
    obtain ⟨still', length', data'⟩ := second.pending still
    exact ⟨still', length'.trans length, data'.trans data⟩
  · rcases second.fits pending with before | short
    · obtain ⟨-, length, -⟩ := second.pending before
      exact (first.fits before).imp id (fun short => length ▸ short)
    · exact .inr short

/-- The effect of a service callback during a dispatch on all but the service statics. -/
structure Prepared (own : Slot cfg → Prop) (w v : World cfg σ π) : Prop where
  rx : v.rx = w.rx
  control : v.control = w.control
  nextLocalId : v.nextLocalId = w.nextLocalId
  nextStreamGeneration : v.nextStreamGeneration = w.nextStreamGeneration
  negotiatedPayload : v.negotiatedPayload = w.negotiatedPayload
  online : v.online = w.online
  dispatching : v.dispatching = w.dispatching
  platform : v.platform = w.platform
  filled : ∀ s, (w.streams s).Filled (webosAdbStreamMaxPayload w) (v.streams s)
  others : ∀ s, ¬ own s → v.streams s = w.streams s
  log : ∃ new, v.log = w.log ++ new ∧ ∀ e ∈ new, e.noted = true

theorem Prepared.refl (own : Slot cfg → Prop) (w : World cfg σ π) : Prepared own w w :=
  ⟨rfl, rfl, rfl, rfl, rfl, rfl, rfl, rfl, fun _ => .refl _ _, fun _ _ => rfl, [],
    (List.append_nil _).symm, fun _ member => nomatch member⟩

variable {w : World cfg σ π}

theorem Prepared.maxPayload {v : World cfg σ π} (prepared : Prepared own w v) :
    webosAdbStreamMaxPayload v = webosAdbStreamMaxPayload w := by
  unfold webosAdbStreamMaxPayload
  rw [prepared.negotiatedPayload]

theorem Prepared.trans {v u : World cfg σ π} (first : Prepared own w v)
    (second : Prepared own v u) :
    Prepared own w u := by
  obtain ⟨new, grown, noted⟩ := first.log
  obtain ⟨later, grown', noted'⟩ := second.log
  refine ⟨second.rx.trans first.rx, second.control.trans first.control,
    second.nextLocalId.trans first.nextLocalId,
    second.nextStreamGeneration.trans first.nextStreamGeneration,
    second.negotiatedPayload.trans first.negotiatedPayload, second.online.trans first.online,
    second.dispatching.trans first.dispatching, second.platform.trans first.platform,
    fun s => (first.filled s).trans (first.maxPayload ▸ second.filled s),
    fun s other => (second.others s other).trans (first.others s other), new ++ later, ?_, ?_⟩
  · rw [grown', grown, List.append_assoc]
  · intro e member
    rcases List.mem_append.mp member with old | recent
    · exact noted e old
    · exact noted' e recent

def StreamCall.Within (own : Slot cfg → Prop) : StreamCall cfg → Prop
  | .write (some s) _ _ | .close (some s) _ => own s
  | _ => True

variable {s : Slot cfg} {stream : Option (Slot cfg)}

theorem within_write (mine : stream = some s) (generation : UInt32) (data : List UInt8) :
    (StreamCall.write stream generation data).Within (· = s) := by
  subst mine
  rfl

theorem within_close (mine : stream = some s) (generation : UInt32) :
    (StreamCall.close stream generation).Within (· = s) := by
  subst mine
  rfl

theorem prepared_set {st : Stream} {e : Event cfg} (mine : own s)
    (filled : (w.streams s).Filled (webosAdbStreamMaxPayload w) st) (noted : e.noted = true) :
    Prepared own w ((w.setStream s st).note e) := by
  refine ⟨rfl, rfl, rfl, rfl, rfl, rfl, rfl, rfl, fun t => ?_, fun t other => ?_, [e], rfl, ?_⟩
  · by_cases same : t = s
    · subst same
      rw [note_streams, setStream_streams, Function.update_self]
      exact filled
    · rw [note_streams, setStream_streams, Function.update_of_ne same]
      exact .refl _ _
  · rw [note_streams, setStream_streams, Function.update_of_ne]
    rintro rfl
    exact other mine
  · intro e' member
    rw [List.mem_singleton.mp member]
    exact noted

theorem prepared_note (own : Slot cfg → Prop) (w : World cfg σ π) {e : Event cfg}
    (noted : e.noted = true) : Prepared own w (w.note e) :=
  ⟨rfl, rfl, rfl, rfl, rfl, rfl, rfl, rfl, fun _ => .refl _ _, fun _ _ => rfl, [e], rfl,
    fun _ member => List.mem_singleton.mp member ▸ noted⟩

theorem streamWrite_prepared (env : Env cfg σ π) (generation : UInt32) (data : List UInt8)
    (mine : own s) (dispatching : w.dispatching = true) :
    Prepared own w (streamWriteLocked env (some s) generation data w).2 := by
  have noted (ret : Int) (v : World cfg σ π) : Prepared own v (v.note (.write s data ret)) :=
    prepared_note own v rfl
  unfold streamWriteLocked storeWrite
  dsimp only
  split_ifs with refused long busy
  · exact noted _ w
  · exact noted _ w
  · exact noted _ w
  · simp only [Bool.or_eq_true, not_or, Bool.not_eq_true] at busy
    have stored : Prepared own w (w.store s data) := by
      refine prepared_set mine ⟨⟨rfl, rfl, rfl, rfl, rfl⟩, rfl, id, ?_, ?_⟩ rfl
      · intro pending
        rw [busy.1] at pending
        cases pending
      · exact fun _ => .inr (Nat.le_of_not_gt long)
    exact stored.trans (noted _ _)

theorem streamClose_prepared (env : Env cfg σ π) (generation : UInt32) (mine : own s)
    (dispatching : w.dispatching = true) :
    Prepared own w (streamCloseLocked env (some s) generation w) := by
  unfold streamCloseLocked
  simp only [note_dispatching, setStream_dispatching, dispatching, ↓reduceIte]
  split_ifs with current
  · refine prepared_set mine ⟨⟨rfl, rfl, rfl, rfl, rfl⟩, rfl, fun _ => rfl, ?_, ?_⟩ rfl
    · exact fun pending => ⟨pending, rfl, rfl⟩
    · exact fun pending => .inl pending
  · exact .refl own w

theorem api_prepared (env : Env cfg σ π) (request : StreamCall cfg) (within : request.Within own)
    (dispatching : w.dispatching = true) : Prepared own w (streamApi env request w).2 := by
  cases request with
  | write stream generation data =>
    cases stream with
    | none => exact .refl own w
    | some s => exact streamWrite_prepared env generation data within dispatching
  | close stream generation =>
    cases stream with
    | none => exact .refl own w
    | some s => exact streamClose_prepared env generation within dispatching
  | generation stream => exact .refl own w
  | maxPayload stream => exact .refl own w

variable {α : Type}

/-- A callback that only names slots of its own prepares those and leaves everything else alone. -/
theorem callback_prepared (env : Env cfg σ π) {program : Callback cfg σ α} {Q : α × σ → Prop}
    (meets : program.Meets (StreamCall.Within own) Q) (dispatching : w.dispatching = true) :
    Prepared own w (callback env program w).2 := by
  have ran := meets.related (streamApi env)
    (fun w v => w.dispatching = true → Prepared own w v) (fun w _ => .refl own w)
    (fun w v u first second on => (first on).trans (second ((first on).dispatching.trans on)))
    (fun request w within on => api_prepared env request within on) w dispatching
  exact ran.trans ⟨rfl, rfl, rfl, rfl, rfl, rfl, rfl, rfl, fun _ => .refl _ _, fun _ _ => rfl, [],
    (List.append_nil _).symm, fun _ member => nomatch member⟩

theorem callback_result (env : Env cfg σ π) {program : Callback cfg σ α} {P : StreamCall cfg → Prop}
    {Q : α × σ → Prop} (meets : program.Meets P Q) (w : World cfg σ π) :
    Q ((callback env program w).1, (callback env program w).2.services) :=
  meets.result (streamApi env) w

theorem meets_anywhere (program : Callback cfg σ α) :
    program.Meets (StreamCall.Within (fun _ => True)) (fun _ => True) := by
  induction program with
  | done a => trivial
  | call request next ih =>
    cases request with
    | write stream generation data => cases stream <;> trivial
    | close stream generation => cases stream <;> trivial
    | generation stream => trivial
    | maxPayload stream => trivial

theorem callback_anywhere (env : Env cfg σ π) (program : Callback cfg σ α)
    (dispatching : w.dispatching = true) : Prepared (fun _ => True) w (callback env program w).2 :=
  callback_prepared env (meets_anywhere program) dispatching

end Webos.Adb
