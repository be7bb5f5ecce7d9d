/- digest: A service that claims and frees contexts keeps them in step with its slots. -/

import Webos.Adb.Router.Callbacks
import Webos.Adb.Router.Gate
import Webos.Lib.Owners

namespace Webos.Adb

open Webos.Lib.Owners Webos.Lib.Program

variable {cfg : Config} {σ π ι : Type} {env : Env cfg σ π} {kind : ServiceKind}
  {own : σ → ι → Option (Slot cfg)}

/-- A property of the service statics and of the slots that every effect of the router on these
upholds. -/
structure Upholds (env : Env cfg σ π) (J : World cfg σ π → Prop) : Prop where
  still : ∀ {w v}, J w → v.services = w.services → v.streams = w.streams → J v
  mark : ∀ {w s st}, (w.streams s).Same st → J w → J (w.setStream s st)
  release : ∀ {w s}, J w → J (releaseStream env s w)
  opened : ∀ {w v s remoteId kind} suffix, w.dispatching = true →
    allocateStream remoteId kind w = (some s, v) → J w →
    J (settleOpen env s (callback env ((env.ops kind).openOp v.services s suffix) v))
  wrote : ∀ {w kind write} s data, w.dispatching = true → (env.ops kind).writeOp = some write →
    J w → J (callback env (write w.services s data) w).2
  readied : ∀ {w kind txReady} s, w.dispatching = true → (env.ops kind).txReadyOp = some txReady →
    J w → J (callback env (txReady w.services s) w).2

namespace Upholds

variable {J : World cfg σ π → Prop} (rule : Upholds env J)

include rule

theorem sends : Sends env (fun w v => J w → J v) where
  refl _ := id
  trans _ _ _ first second := second ∘ first
  note _ _ _ holds := rule.still holds rfl rfl
  control _ _ holds := rule.still holds rfl rfl
  transmit _ _ _ _ _ _ _ holds := rule.still holds rfl rfl
  mark _ _ _ same holds := rule.mark same holds
  release _ _ holds := rule.release holds

theorem handles : Handles env (fun w v => J w → J v) where
  toSends := rule.sends
  takeId _ _ holds := rule.still holds rfl rfl
  reboot w _ holds := by
    unfold webosAdbRebootRequest
    dsimp only
    split_ifs
    all_goals exact rule.still holds rfl rfl
  opened _ _ _ _ _ suffix _ dispatching allocated holds :=
    rule.opened suffix dispatching allocated holds
  wrote _ s _ _ data dispatching _ _ found holds := rule.wrote s data dispatching found holds
  readied _ s _ _ dispatching _ _ found holds := rule.readied s dispatching found holds

theorem connect {w : World cfg σ π} (holds : J w) : J (handleConnect env w).2 := by
  have closed : J (closeAllStreams env { w with online := false }) :=
    rule.sends.closeAllStreams _ (rule.still holds rfl rfl)
  have restarted : J (restartSession env w) := rule.still closed rfl rfl
  exact rule.sends.connect (fun _ => restarted) (fun _ held => rule.still held rfl rfl) holds

theorem reset {w : World cfg σ π} (holds : J w) : J (protocolResetUnlocked env w) := by
  have closed : J (closeAllStreams env (resetRx w)) :=
    rule.sends.closeAllStreams _ (rule.still holds rfl rfl)
  exact rule.still closed rfl rfl

theorem enters : Enters env (fun w v => J w → J v) where
  toHandles := rule.handles
  receiver _ _ holds := rule.still holds rfl rfl
  allocated _ _ holds := rule.still holds rfl rfl
  connect _ _ holds := rule.connect holds
  dispatched _ _ holds := rule.still holds rfl rfl
  dispatching _ _ holds := rule.still holds rfl rfl
  reset _ holds := rule.reset holds

end Upholds

def Claimed [DecidableEq ι] (own : σ → ι → Option (Slot cfg)) (st : σ) (s : Slot cfg)
    (out : Int × σ) : Prop :=
  if out.1 = 0 then ∃ i, own st i = none ∧ own out.2 = Function.update (own st) i (some s)
  else own out.2 = own st

def Freed [DecidableEq ι] (own : σ → ι → Option (Slot cfg)) (st : σ) (s : Slot cfg)
    (st' : σ) : Prop :=
  (∀ i, own st i ≠ some s) ∧ own st' = own st ∨
    ∃ i, own st i = some s ∧ own st' = Function.update (own st) i none

/-- The service `kind` has a table of contexts, of which `own` says whose they are; the other
services do not touch it. -/
structure Tabled [DecidableEq ι] (env : Env cfg σ π) (kind : ServiceKind)
    (own : σ → ι → Option (Slot cfg)) : Prop where
  opened : ∀ st s suffix, ((env.ops kind).openOp st s suffix).Meets (fun _ => True)
    (Claimed own st s)
  openedBy : ∀ other, other ≠ kind → ∀ st s suffix,
    ((env.ops other).openOp st s suffix).Meets (fun _ => True) (fun out => own out.2 = own st)
  wrote : ∀ other write, (env.ops other).writeOp = some write → ∀ st s data,
    (write st s data).Meets (fun _ => True) (fun out => own out.2 = own st)
  readied : ∀ other txReady, (env.ops other).txReadyOp = some txReady → ∀ st s,
    (txReady st s).Meets (fun _ => True) (fun out => own out.2 = own st)
  closed : ∃ close, (env.ops kind).closeOp = some close ∧ ∀ st s, Freed own st s (close st s)
  closedBy : ∀ other, other ≠ kind → ∀ close, (env.ops other).closeOp = some close → ∀ st s,
    own (close st s) = own st

section Tables

variable {C : Type} [DecidableEq ι] (stream : C → Option (Slot cfg)) (zero : C)

def Opened (before : ι → C) (s : Slot cfg) (ret : Int) (after : ι → C) : Prop :=
  ret ≠ 0 ∧ after = before ∨ ∃ i c, stream (before i) = none ∧
    after = Function.update before i c ∧ if ret = 0 then stream c = some s else c = zero

def Worked (before after : ι → C) : Prop :=
  after = before ∨ ∃ i c, stream c = stream (before i) ∧ after = Function.update before i c

def Closed (before : ι → C) (s : Slot cfg) (after : ι → C) : Prop :=
  (∀ i, stream (before i) ≠ some s) ∧ after = before ∨
    ∃ i, stream (before i) = some s ∧ after = Function.update before i zero

variable {stream zero} {before after : ι → C} (contexts : σ → ι → C) {st st' : σ} {s : Slot cfg}
  {ret : Int}

theorem stream_update (before : ι → C) (i : ι) (c : C) :
    (fun j => stream (Function.update before i c j)) =
      Function.update (fun j => stream (before j)) i (stream c) := by
  funext j
  by_cases here : j = i
  · subst here
    rw [Function.update_self, Function.update_self]
  · rw [Function.update_of_ne here, Function.update_of_ne here]

theorem Opened.claimed (opened : Opened stream zero (contexts st) s ret (contexts st'))
    (blank : stream zero = none) :
    Claimed (fun st i => stream (contexts st i)) st s (ret, st') := by
  unfold Claimed
  dsimp only
  rcases opened with ⟨refused, same⟩ | ⟨i, c, free, changed, outcome⟩
  · rw [if_neg refused, same]
  · rw [changed, stream_update]
    split_ifs with ok
    · rw [if_pos ok] at outcome
      exact ⟨i, free, by rw [outcome]⟩
    · rw [if_neg ok] at outcome
      rw [outcome, blank, ← free]
      exact Function.update_eq_self i _

theorem Worked.owners (worked : Worked stream before after) :
    (fun i => stream (after i)) = fun i => stream (before i) := by
  rcases worked with rfl | ⟨i, c, same, rfl⟩
  · rfl
  · rw [stream_update, same]
    exact Function.update_eq_self i _

theorem Closed.freed (closed : Closed stream zero (contexts st) s (contexts st'))
    (blank : stream zero = none) : Freed (fun st i => stream (contexts st i)) st s st' := by
  rcases closed with ⟨absent, same⟩ | ⟨i, held, changed⟩
  · refine .inl ⟨absent, ?_⟩
    dsimp only
    rw [same]
  · refine .inr ⟨i, held, ?_⟩
    dsimp only
    rw [changed, stream_update, blank]

theorem Opened.absent (opened : Opened stream zero before s ret after) (refused : ret ≠ 0)
    (blank : stream zero = none) (absent : ∀ i, stream (before i) ≠ some s) (i : ι) :
    stream (after i) ≠ some s := by
  rcases opened with ⟨-, rfl⟩ | ⟨j, c, -, rfl, outcome⟩
  · exact absent i
  · rw [if_neg refused] at outcome
    by_cases here : i = j
    · subst here
      rw [Function.update_self, outcome, blank]
      nofun
    · rw [Function.update_of_ne here]
      exact absent i

theorem Opened.spares (opened : Opened stream zero before s ret after) {i : ι} {t : Slot cfg}
    (held : stream (before i) = some t) : after i = before i := by
  rcases opened with ⟨-, rfl⟩ | ⟨j, c, free, rfl, -⟩
  · rfl
  · rw [Function.update_of_ne]
    rintro rfl
    exact nomatch free.symm.trans held

theorem Closed.absent (closed : Closed stream zero before s after)
    (absent : ∀ i, stream (before i) ≠ some s) : after = before := by
  rcases closed with ⟨-, same⟩ | ⟨i, held, -⟩
  · exact same
  · exact absurd held (absent i)

end Tables

def Live (kind : ServiceKind) (w : World cfg σ π) (s : Slot cfg) : Prop :=
  (w.streams s).used = true ∧ (w.streams s).ops = some kind

/-- The contexts of the service `kind` are those of its slots, one for each. -/
def InStep (kind : ServiceKind) (own : σ → ι → Option (Slot cfg)) (w : World cfg σ π) : Prop :=
  Matched (own w.services) (Live kind w)

variable {w v : World cfg σ π}

theorem live_same (same : ∀ s, (w.streams s).Same (v.streams s)) (s : Slot cfg) :
    Live kind v s ↔ Live kind w s := by
  unfold Live
  rw [(same s).used, (same s).ops]

theorem InStep.keep (inStep : InStep kind own w) (owners : own v.services = own w.services)
    (same : ∀ s, (w.streams s).Same (v.streams s)) : InStep kind own v := by
  unfold InStep
  rw [owners]
  exact inStep.congr (live_same same)

theorem InStep.still (inStep : InStep kind own w) (services : v.services = w.services)
    (streams : v.streams = w.streams) : InStep kind own v :=
  inStep.keep (by rw [services]) (fun _ => streams ▸ .refl _)

variable {s : Slot cfg}

theorem setStream_same {st : Stream} (same : (w.streams s).Same st) (t : Slot cfg) :
    (w.streams t).Same ((w.setStream s st).streams t) := by
  by_cases here : t = s
  · subst here
    rw [setStream_streams, Function.update_self]
    exact same
  · rw [setStream_streams, Function.update_of_ne here]
    exact .refl _

theorem InStep.mark {st : Stream} (inStep : InStep kind own w) (same : (w.streams s).Same st) :
    InStep kind own (w.setStream s st) :=
  inStep.keep rfl (setStream_same same)

theorem live_release (env : Env cfg σ π) (used : (w.streams s).used = true) (t : Slot cfg) :
    Live kind (releaseStream env s w) t ↔ Live kind w t ∧ t ≠ s := by
  unfold Live
  rw [releaseStream_streams, if_pos used]
  by_cases here : t = s
  · subst here
    simp [Stream.zero]
  · simp [here]

theorem releaseStream_services (env : Env cfg σ π) (used : (w.streams s).used = true) :
    (releaseStream env s w).services =
      match (w.streams s).ops.bind (fun kind => (env.ops kind).closeOp) with
      | none => w.services
      | some close => close w.services s := by
  unfold releaseStream
  rw [if_neg (by simp [used])]
  rfl

theorem InStep.called (inStep : InStep kind own w) (env : Env cfg σ π) {α : Type}
    {program : Callback cfg σ α} {st : σ}
    (meets : program.Meets (fun _ => True) (fun out => own out.2 = own st))
    (same : own st = own w.services) (dispatching : w.dispatching = true) :
    InStep kind own (callback env program w).2 :=
  inStep.keep ((callback_result env meets w).trans same)
    (fun s => ((callback_anywhere env program dispatching).filled s).same)

theorem live_allocate (kind : ServiceKind) {k : ServiceKind} {remoteId : UInt32}
    (allocated : allocateStream remoteId k w = (some s, v)) (t : Slot cfg) :
    Live kind v t ↔ t = s ∧ k = kind ∨ Live kind w t := by
  obtain ⟨free, shape⟩ := allocateStream_some allocated
  unfold Live
  rw [shape, note_streams]
  by_cases here : t = s
  · subst here
    simp [free]
  · simp [here]

theorem Upholds.of_services {P : σ → Prop} (opened : ∀ kind st s suffix, P st →
      ((env.ops kind).openOp st s suffix).Meets (fun _ => True) (fun out => P out.2))
    (wrote : ∀ kind write, (env.ops kind).writeOp = some write → ∀ st s data, P st →
      (write st s data).Meets (fun _ => True) (fun out => P out.2))
    (readied : ∀ kind txReady, (env.ops kind).txReadyOp = some txReady → ∀ st s, P st →
      (txReady st s).Meets (fun _ => True) (fun out => P out.2))
    (closed : ∀ kind close, (env.ops kind).closeOp = some close → ∀ st s, P st → P (close st s)) :
    Upholds env (fun w => P w.services) := by
  have released {w : World cfg σ π} {s : Slot cfg} (holds : P w.services) :
      P (releaseStream env s w).services := by
    by_cases used : (w.streams s).used = true
    · rw [releaseStream_services env used]
      cases served : (w.streams s).ops with
      | none => exact holds
      | some k =>
        split
        · exact holds
        · rename_i close found
          exact closed k close found w.services s holds
    · unfold releaseStream
      rw [if_pos (by simpa using used)]
      exact holds
  refine ⟨fun holds services _ => services ▸ holds, fun _ holds => holds, released, ?_, ?_, ?_⟩
  · intro w v s remoteId kind suffix _ allocated holds
    obtain ⟨-, shape⟩ := allocateStream_some allocated
    have services : v.services = w.services := by rw [shape]; rfl
    have kept := callback_result env (opened kind v.services s suffix (services ▸ holds)) v
    unfold settleOpen
    split_ifs
    · exact released kept
    · exact kept
  · intro w kind write s data _ found holds
    exact callback_result env (wrote kind write found w.services s data holds) w
  · intro w kind txReady s _ found holds
    exact callback_result env (readied kind txReady found w.services s holds) w

section Rules

variable [DecidableEq ι] (tabled : Tabled env kind own)

include tabled

variable {w : World cfg σ π} {s : Slot cfg}

theorem Tabled.release_other (used : (w.streams s).used = true)
    (other : (w.streams s).ops ≠ some kind) :
    own (releaseStream env s w).services = own w.services := by
  rw [releaseStream_services env used]
  cases served : (w.streams s).ops with
  | none => rfl
  | some k =>
    have different : k ≠ kind := by
      rintro rfl
      exact other served
    split
    · rfl
    · rename_i close found
      exact tabled.closedBy k different close found w.services s

theorem Tabled.release_own (live : Live kind w s) :
    Freed own w.services s (releaseStream env s w).services := by
  obtain ⟨close, found, freed⟩ := tabled.closed
  rw [releaseStream_services env live.1, live.2, Option.bind_some, found]
  exact freed w.services s

theorem Tabled.release (inStep : InStep kind own w) : InStep kind own (releaseStream env s w) := by
  by_cases used : (w.streams s).used = true
  · by_cases served : (w.streams s).ops = some kind
    · rcases tabled.release_own ⟨used, served⟩ with ⟨absent, -⟩ | ⟨i, held, owners⟩
      · obtain ⟨i, held⟩ := inStep.complete s ⟨used, served⟩
        exact absurd held (absent i)
      · unfold InStep
        rw [owners]
        exact inStep.free held (live_release env used)
    · unfold InStep
      rw [tabled.release_other used served]
      refine inStep.congr fun t => (live_release env used t).trans (and_iff_left_of_imp ?_)
      rintro live rfl
      exact served live.2
  · refine inStep.still ?_ ?_
    · unfold releaseStream
      rw [if_pos (by simp [used])]
    · rw [releaseStream_streams, if_neg used]

theorem Tabled.refused (live : Live kind w s) (absent : ∀ i, own w.services i ≠ some s) :
    own (releaseStream env s w).services = own w.services := by
  rcases tabled.release_own live with ⟨-, owners⟩ | ⟨i, held, -⟩
  · exact owners
  · exact absurd held (absent i)

theorem Tabled.opens {v : World cfg σ π} {remoteId : UInt32} {k : ServiceKind} {suffix : List UInt8}
    (dispatching : w.dispatching = true) (allocated : allocateStream remoteId k w = (some s, v))
    (inStep : InStep kind own w) :
    InStep kind own
      (settleOpen env s (callback env ((env.ops k).openOp v.services s suffix) v)) := by
  have taken := live_allocate kind allocated
  obtain ⟨free, shape⟩ := allocateStream_some allocated
  have services : v.services = w.services := by rw [shape]; rfl
  have on : v.dispatching = true := by rw [shape]; exact dispatching
  have fresh : ¬ Live kind w s := fun live => nomatch free.symm.trans live.1
  by_cases served : k = kind
  · subst served
    have claimed := callback_result env (tabled.opened v.services s suffix) v
    have prepared := callback_anywhere env ((env.ops k).openOp v.services s suffix) on
    generalize callback env ((env.ops k).openOp v.services s suffix) v = out at claimed prepared
    obtain ⟨ret, u⟩ := out
    have same (t : Slot cfg) : Live k u t ↔ t = s ∨ Live k w t := by
      rw [Live, (prepared.filled t).same.used, (prepared.filled t).same.ops]
      exact (taken t).trans (by simp)
    unfold settleOpen
    unfold Claimed at claimed
    rw [services] at claimed
    split_ifs with refused
    · rw [if_neg refused] at claimed
      have live : Live k u s := (same s).mpr (.inl rfl)
      unfold InStep
      rw [tabled.refused live (fun i => claimed ▸ inStep.absent fresh i), claimed]
      refine inStep.congr fun t => (live_release env live.1 t).trans ?_
      rw [same t]
      refine ⟨fun ⟨either, other⟩ => either.resolve_left other, fun old => ⟨.inr old, ?_⟩⟩
      rintro rfl
      exact fresh old
    · rw [if_pos (not_not.mp refused)] at claimed
      obtain ⟨i, unclaimed, owners⟩ := claimed
      unfold InStep
      rw [owners]
      exact inStep.claim unclaimed fresh same
  · have kept : InStep kind own v := by
      unfold InStep
      rw [services]
      exact inStep.congr fun t => (taken t).trans (by simp [served])
    have called := kept.called env (tabled.openedBy k served v.services s suffix) rfl on
    unfold settleOpen
    split_ifs
    · exact tabled.release called
    · exact called

theorem Tabled.upholds : Upholds env (InStep kind own) where
  still inStep services streams := inStep.still services streams
  mark same inStep := inStep.mark same
  release inStep := tabled.release inStep
  opened _ dispatching allocated inStep := tabled.opens dispatching allocated inStep
  wrote s data dispatching found inStep :=
    inStep.called env (tabled.wrote _ _ found _ s data) rfl dispatching
  readied s dispatching found inStep :=
    inStep.called env (tabled.readied _ _ found _ s) rfl dispatching

end Rules

end Webos.Adb
