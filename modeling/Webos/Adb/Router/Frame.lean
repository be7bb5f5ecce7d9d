/- digest: No handler touches the receiver or the dispatching flag. -/

import Webos.Adb.Router.Rules

namespace Webos.Adb

open Webos.Lib.Bytes Webos.Lib.Program Webos.Lib.RingQueue

variable {cfg : Config} {σ π : Type} (env : Env cfg σ π)

/-- What only the receive loop and the reset may change is unchanged, and the record grows by
events of the handlers. -/
structure Keeps (w w' : World cfg σ π) : Prop where
  rx : w'.rx = w.rx
  dispatching : w'.dispatching = w.dispatching
  log : ∃ new, w'.log = w.log ++ new ∧ ∀ e ∈ new, e.framing = false

theorem Keeps.still {w w' : World cfg σ π} (rx : w'.rx = w.rx)
    (dispatching : w'.dispatching = w.dispatching) (log : w'.log = w.log) : Keeps w w' :=
  ⟨rx, dispatching, [], by simp [log]⟩

theorem Keeps.noted {w w' : World cfg σ π} (e : Event cfg) (rx : w'.rx = w.rx)
    (dispatching : w'.dispatching = w.dispatching) (log : w'.log = w.log ++ [e])
    (handler : e.framing = false) : Keeps w w' :=
  ⟨rx, dispatching, [e], log, by simp [handler]⟩

variable (w : World cfg σ π)

theorem Keeps.refl : Keeps w w := .still rfl rfl rfl

theorem Keeps.trans {w v u : World cfg σ π} (first : Keeps w v) (second : Keeps v u) :
    Keeps w u := by
  obtain ⟨new, grown, quiet⟩ := first.log
  obtain ⟨later, grown', quiet'⟩ := second.log
  refine ⟨second.rx.trans first.rx, second.dispatching.trans first.dispatching,
    new ++ later, ?_, ?_⟩
  · rw [grown', grown, List.append_assoc]
  · intro e member
    rcases List.mem_append.mp member with old | recent
    · exact quiet e old
    · exact quiet' e recent

theorem Keeps.after {w v u : World cfg σ π} (second : Keeps v u) (first : Keeps w v) :
    Keeps w u :=
  first.trans second

private theorem framing_of_quiet {e : Event cfg} (quiet : e.quiet = true) : e.framing = false := by
  cases e <;> first | rfl | cases quiet

theorem keepsSends : Sends env Keeps where
  refl := Keeps.refl
  trans _ _ _ := Keeps.trans
  note _ e quiet := .noted e rfl rfl rfl (framing_of_quiet quiet)
  control _ _ := .still rfl rfl rfl
  transmit _ _ _ _ _ _ _ := .still rfl rfl rfl
  mark _ _ _ _ := .still rfl rfl rfl
  release w s := by
    unfold releaseStream
    dsimp only
    split_ifs
    · exact .refl w
    · exact .noted _ rfl rfl rfl rfl

theorem keeps_callback {α : Type} (program : Callback cfg σ α) (w : World cfg σ π) :
    Keeps w (callback env program w).2 :=
  (keepsSends env).callback program w fun _ _ => .still rfl rfl rfl

theorem keepsHandles : Handles env Keeps where
  toSends := keepsSends env
  takeId _ _ := .noted _ rfl rfl rfl rfl
  reboot v _ := by
    unfold webosAdbRebootRequest
    dsimp only
    split_ifs
    · exact .still rfl rfl rfl
    · exact .noted _ rfl rfl rfl rfl
  opened w v s remoteId kind suffix _ _ allocated := by
    have opening : Keeps w v := by
      rw [(allocateStream_some allocated).2]
      exact ⟨rfl, rfl, [.drawn w.nextLocalId, .allocated s w.nextLocalId remoteId],
        List.append_assoc _ _ _, by simp [Event.framing]⟩
    have called := opening.trans (keeps_callback env ((env.ops kind).openOp v.services s suffix) v)
    unfold settleOpen
    split_ifs
    · exact called.trans ((keepsSends env).release _ s)
    · exact called
  wrote w _ _ _ _ _ _ _ _ := keeps_callback env _ w
  readied w _ _ _ _ _ _ _ := keeps_callback env _ w

theorem keeps_restartSession : Keeps w (restartSession env w) := by
  have closed : Keeps w (closeAllStreams env { w with online := false }) :=
    ((keepsSends env).closeAllStreams _).after (.still rfl rfl rfl)
  exact closed.trans (.noted _ rfl rfl rfl rfl)

theorem keeps_handleConnect : Keeps w (handleConnect env w).2 :=
  (keepsSends env).connect (keeps_restartSession env w) fun _ => .noted _ rfl rfl rfl rfl

theorem keeps_routeMessage (dispatching : w.dispatching = true) :
    Keeps w (routeMessage env w).2 := by
  unfold routeMessage
  split_ifs
  · exact keeps_handleConnect env w
  · exact (keepsHandles env).handleOpen w dispatching
  · exact (keepsHandles env).handleWrite w dispatching
  · exact (keepsHandles env).handleReady w dispatching
  · exact (keepsSends env).handleClose w
  · exact .refl w

theorem dispatchMessage_eq (dispatching : w.dispatching = true) : ∃ v, Keeps w v ∧
    (dispatchMessage env w).2 = v.note (.dispatched ⟨w.rx.message.command, w.rx.message.arg0,
      w.rx.message.arg1, w.rx.payload.getD [], checksumPasses w.rx,
      (dispatchMessage env w).1⟩) := by
  refine ⟨(if checksumPasses w.rx then routeMessage env w else (-EBADMSG, w)).2, ?_, rfl⟩
  split_ifs
  · exact keeps_routeMessage env w dispatching
  · exact .refl w

end Webos.Adb
