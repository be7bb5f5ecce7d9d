/- digest: A shell callback works on the context and on the stream it was called for. -/

import Webos.Adb.Router.Contexts
import Webos.Adb.Shell.Service

namespace Webos.Adb.Shell

open Webos.Lib.Program

variable {cfg : Config} {β : Type} {opts : Options cfg} {backend : Backend β} {s : Slot cfg}

def Mine (s : Slot cfg) (l : Local cfg β) : Prop := l.ctx.stream = some s

abbrev Owned (s : Slot cfg) {α : Type} (m : Run cfg β α) : Prop :=
  Routine.Keeps (StreamCall.Within (· = s)) (Mine s) m

theorem executeLine_mine (addPrompt : Bool) (l : Local cfg β) (mine : Mine s l) :
    Mine s (executeLine opts backend addPrompt l) := by
  unfold executeLine
  dsimp only
  generalize (if addPrompt = true then opts.prompt.length else 0) = promptLen
  split_ifs
  all_goals exact mine

theorem escapeFilter_stream (value : UInt8) (c : ShellContext cfg) :
    (escapeFilter value c).2.stream = c.stream := by
  unfold escapeFilter
  cases c.escapeState with
  | text => dsimp only; split_ifs <;> rfl
  | escape => dsimp only; split_ifs <;> rfl
  | sequence => dsimp only; split_ifs <;> rfl

theorem lineFilter_stream (value : UInt8) (c : ShellContext cfg) :
    (lineFilter value c).2.stream = c.stream := by
  unfold lineFilter
  split_ifs <;> rfl

section Closing

variable {P : StreamCall cfg → Prop} (closes : P (.close (some s) 0))

include closes

theorem hangUp_keeps : Routine.Keeps P (Mine s) (hangUp : Run cfg β Unit) := by
  refine .read fun l mine => .ask ?_
  rw [mine]
  exact closes

theorem executeInteractiveLine_keeps (addPrompt : Bool) :
    Routine.Keeps P (Mine s) (executeInteractiveLine opts backend addPrompt) := by
  refine .bind (.update fun _ mine => mine) fun _ => .read fun l _ => .ite ?_ ?_
  · exact .bind (.update fun _ mine => mine) fun _ => .bind (hangUp_keeps closes) fun _ => .pure 0
  · refine .bind (.update fun l mine => executeLine_mine addPrompt l mine) fun _ => ?_
    refine .bind (.update fun _ mine => mine) fun _ => .ite ?_ (.pure 0)
    exact .bind (.update fun _ mine => mine) fun _ => .pure 0

theorem executeRest_keeps : Routine.Keeps P (Mine s) (executeRest opts backend) :=
  .read fun _ _ => .ite (executeInteractiveLine_keeps closes false) (.pure 0)

theorem handleKey_keeps (value : UInt8) (key : Key) :
    Routine.Keeps P (Mine s) (handleKey opts backend value key) := by
  cases key with
  | skipped => exact .pure _
  | discarded => exact .pure _
  | discardedEnd => exact .bind (.update fun _ mine => mine) fun _ => .pure _
  | lineEnd =>
    exact .bind (executeInteractiveLine_keeps closes true) fun ret => .read fun l _ => .pure _
  | endOfTransmission =>
    refine .bind (executeRest_keeps closes) fun ret => ?_
    exact .bind (.update fun _ mine => mine) fun _ => .bind (hangUp_keeps closes) fun _ => .pure _
  | interrupt => exact .bind (.update fun _ mine => mine) fun _ => .pure _
  | erase =>
    refine .bind (.update fun l mine => ?_) fun _ => .pure _
    show (ite _ _ _ : ShellContext cfg).stream = some s
    split_ifs
    all_goals exact mine
  | tab => exact .bind (.update fun _ mine => mine) fun _ => .pure _
  | overflow => exact .bind (.update fun _ mine => mine) fun _ => .pure _
  | printable => exact .bind (.update fun _ mine => mine) fun _ => .pure _

theorem inputPass_keeps (value : UInt8) :
    Routine.Keeps P (Mine s) (inputPass opts backend value) := by
  refine .bind (.step fun l mine => (escapeFilter_stream value l.ctx).trans mine) fun inEscape => ?_
  refine .ite (.pure _) (.bind (.step fun l mine => ?_) fun inPair => .ite (.pure _) ?_)
  · exact (lineFilter_stream value l.ctx).trans mine
  · exact .read fun l _ => handleKey_keeps closes value _

theorem inputLoop_keeps (input : List UInt8) :
    Routine.Keeps P (Mine s) (inputLoop opts backend input) := by
  induction input with
  | nil => exact .pure _
  | cons value rest ih =>
    refine .bind (inputPass_keeps closes value) fun out => ?_
    exact .ite (.pure _) ih

theorem processInteractiveInput_keeps :
    Routine.Keeps P (Mine s) (processInteractiveInput opts backend) := by
  refine .read fun l _ => .bind (inputLoop_keeps closes l.ctx.input) fun out => ?_
  exact .bind (.update fun _ mine => mine) fun _ => .pure _

theorem processIf_keeps (ready : Bool) : Routine.Keeps P (Mine s) (processIf opts backend ready) :=
  .ite (processInteractiveInput_keeps closes) (.pure 0)

end Closing

theorem hangUp_owned : Owned s (hangUp : Run cfg β Unit) :=
  hangUp_keeps (within_close rfl 0)

theorem processIf_owned (ready : Bool) : Owned s (processIf opts backend ready) :=
  processIf_keeps (within_close rfl 0) ready

theorem queueInteractive_owned : Owned s (queueInteractive : Run cfg β Int) := by
  refine .read fun l mine => .ite (.pure 0) (.bind (.ask trivial) fun room => ?_)
  refine .bind (.ask (within_write mine 0 _)) fun ret => .ite (.bind ?_ fun _ => .pure ret)
    (.pure ret)
  exact .update fun _ mine => mine

theorem queueOneShot_owned : Owned s (queueOneShot : Run cfg β Int) := by
  refine .read fun l mine => .bind (.ask trivial) fun room => .ite ?_ ?_
  · exact .bind hangUp_owned fun _ => .pure 0
  · refine .bind (.ask (within_write mine 0 _)) fun ret => .ite ?_ (.pure ret)
    exact .bind (.update fun _ mine => mine) fun _ => .pure ret

theorem queueNextChunk_owned : Owned s (queueNextChunk : Run cfg β Int) :=
  .read fun _ _ => .ite (.pure 0) (.ite queueInteractive_owned queueOneShot_owned)

theorem writeSession_owned (data : List UInt8) : Owned s (writeSession opts backend data) := by
  refine .read fun l _ => .ite (.pure _) (.ite (.pure _) ?_)
  refine .bind (.update fun _ mine => mine) fun _ => .bind (processIf_owned _) fun ret => ?_
  exact .ite queueNextChunk_owned (.pure ret)

theorem resumeSession_owned : Owned s (resumeSession opts backend) := by
  refine .bind (.update fun _ mine => mine) fun _ => .read fun l _ => ?_
  exact .bind (processIf_owned _) fun ret => .ite (.pure ret) queueNextChunk_owned

theorem prepareSession_mine (opts : Options cfg) (backend : Backend β) (suffix : List UInt8)
    {l : Local cfg β} (mine : Mine s l) :
    (prepareSession opts backend suffix l).1 = 0 ∧ Mine s (prepareSession opts backend suffix l).2 ∨
      (prepareSession opts backend suffix l).1 = -ENOMEM ∧
        (prepareSession opts backend suffix l).2.ctx = ShellContext.zero cfg := by
  unfold prepareSession
  dsimp only
  split_ifs
  · exact .inl ⟨rfl, mine⟩
  · exact .inr ⟨rfl, rfl⟩
  · exact .inl ⟨rfl, mine⟩

theorem openSession_meets (suffix : List UInt8) {l : Local cfg β} (mine : Mine s l) :
    (openSession opts backend suffix l).Meets (StreamCall.Within (· = s))
      (fun out => if out.1 = 0 then Mine s out.2 else out.2.ctx = ShellContext.zero cfg) := by
  have prepared := prepareSession_mine opts backend suffix mine
  show Prog.Meets _ _ ((ite _ _ _ : Run cfg β Int) (prepareSession opts backend suffix l).2)
  generalize prepareSession opts backend suffix l = out at prepared
  obtain ⟨ret, l⟩ := out
  dsimp only at prepared ⊢
  rcases prepared with ⟨rfl, mine⟩ | ⟨rfl, blank⟩
  · refine (queueNextChunk_owned l mine).bind fun out mine => ?_
    obtain ⟨ret, l⟩ := out
    dsimp only
    by_cases refused : ret ≠ 0
    · rw [if_pos refused]
      show if ret = 0 then _ else _
      rw [if_neg refused]
      rfl
    · rw [if_neg refused]
      show if ret = 0 then _ else _
      rw [if_pos (not_not.mp refused)]
      exact mine
  · exact blank

section Callbacks

variable {st : Statics cfg opts β} {i : Fin opts.maxStreams} {stream : Option (Slot cfg)}

theorem findContext_some (found : findContext st stream = some i) :
    (st.contexts i).stream = stream := by
  have test := List.find?_some found
  simpa using test

theorem findContext_none (missing : findContext st stream = none) (i : Fin opts.maxStreams) :
    (st.contexts i).stream ≠ stream := by
  have test := List.find?_eq_none.mp missing i (List.mem_finRange i)
  simpa using test

theorem adbShellOpen_meets (backend : Backend β) (st : Statics cfg opts β) (s : Slot cfg)
    (suffix : List UInt8) : (adbShellOpen backend st s suffix).Meets (StreamCall.Within (· = s))
      (fun out => Opened ShellContext.stream (ShellContext.zero cfg) st.contexts s out.1
        out.2.contexts) := by
  unfold adbShellOpen allocateContext
  split_ifs
  · exact .inl ⟨show -EINVAL ≠ 0 by decide, rfl⟩
  · exact .inl ⟨show -EACCES ≠ 0 by decide, rfl⟩
  · cases free : findContext st none with
    | none => exact .inl ⟨show -EBUSY ≠ 0 by decide, rfl⟩
    | some i =>
      have mine : Mine s (⟨{ ShellContext.zero cfg with stream := some s },
        st.world⟩ : Local cfg β) :=
        rfl
      refine (openSession_meets suffix mine).bind fun out outcome => .inr ?_
      refine ⟨i, out.2.ctx, findContext_some free, rfl, ?_⟩
      split_ifs at outcome ⊢
      all_goals exact outcome

theorem adbShellWrite_meets (backend : Backend β) (st : Statics cfg opts β) (s : Slot cfg)
    (data : List UInt8) : (adbShellWrite backend st s data).Meets (StreamCall.Within (· = s))
      (fun out => Worked ShellContext.stream st.contexts out.2.contexts) := by
  unfold adbShellWrite
  cases found : findContext st (some s) with
  | none => exact .inl rfl
  | some i =>
    have mine : Mine s (st.enter i) := findContext_some found
    refine (writeSession_owned data _ mine).bind fun out kept => .inr ?_
    exact ⟨i, out.2.ctx, kept.trans mine.symm, rfl⟩

theorem adbShellTxReady_meets (backend : Backend β) (st : Statics cfg opts β) (s : Slot cfg) :
    (adbShellTxReady backend st s).Meets (StreamCall.Within (· = s))
      (fun out => Worked ShellContext.stream st.contexts out.2.contexts) := by
  unfold adbShellTxReady
  cases found : findContext st (some s) with
  | none => exact .inl rfl
  | some i =>
    have mine : Mine s (st.enter i) := findContext_some found
    refine (resumeSession_owned _ mine).bind fun out kept => ?_
    have worked : Worked ShellContext.stream st.contexts (st.leave i out.2).contexts :=
      .inr ⟨i, out.2.ctx, kept.trans mine.symm, rfl⟩
    split_ifs
    · exact ⟨rfl, fun _ => worked⟩
    · exact worked

theorem adbShellClose_closed (backend : Backend β) (st : Statics cfg opts β) (s : Slot cfg) :
    Closed ShellContext.stream (ShellContext.zero cfg) st.contexts s
      (adbShellClose backend st s).contexts := by
  unfold adbShellClose
  cases found : findContext st (some s) with
  | none => exact .inl ⟨findContext_none found, rfl⟩
  | some i => exact .inr ⟨i, findContext_some found, rfl⟩

end Callbacks

end Webos.Adb.Shell
