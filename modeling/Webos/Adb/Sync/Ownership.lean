/- digest: A sync callback works on the context and on the stream it was called for. -/

import Webos.Adb.Router.Contexts
import Webos.Adb.Sync.Replies

namespace Webos.Adb.Sync

open Webos.Lib.Files Webos.Lib.Program

variable {cfg : Config} {φ : Type} {fs : FileSystem Path (Slot cfg) UInt8 φ} {i s : Slot cfg}
variable {P : StreamCall cfg → Prop} {stream : Option (Slot cfg)}

/-- On a context of `stream` the routine makes calls of `P` only and leaves it with this stream. -/
abbrev Talks (P : StreamCall cfg → Prop) (stream : Option (Slot cfg)) {α : Type}
    (m : Run cfg φ α) : Prop :=
  Routine.Keeps P (fun l => l.ctx.stream = stream) m

theorem goTo_talks (state : SyncState) : Talks P stream (goTo state : Run cfg φ Unit) :=
  .update fun _ mine => mine

theorem beginData_talks (value : UInt32) (next data : SyncState) :
    Talks P stream (beginData value next data : Run cfg φ Unit) := .update fun _ mine => mine

theorem hangUp_talks (closes : P (.close stream 0)) : Talks P stream (hangUp : Run cfg φ Unit) :=
  .read fun _ mine => .ask (by rw [mine]; exact closes)

section Writes

variable (writes : ∀ response, P (.write stream 0 response))

include writes

theorem respond_talks (response : List UInt8) : Talks P stream (respond response : Run cfg φ Int) :=
  .read fun _ mine => .ask (by rw [mine]; exact writes response)

theorem sendStat_talks : Talks P stream (sendStat fs) := by
  refine .bind (.step fun l mine => (findEntry_stream fs l).trans mine) fun entry => ?_
  exact .bind (goTo_talks _) fun _ => respond_talks writes _

theorem failTransfer_talks (reason : List UInt8) (drainState : SyncState) :
    Talks P stream (failTransfer fs i reason drainState) := by
  refine .bind (.update fun l mine => (cleanupPartial_stream fs i l).trans mine) fun _ => ?_
  refine .bind (respond_talks writes _) fun ret => .ite (.pure ret) ?_
  exact .bind (goTo_talks _) fun _ => .pure 0

theorem startSend_talks : Talks P stream (startSend fs i) := by
  refine .bind (.step fun l mine => (prepareSend_parse fs i l).stream.trans mine) fun refused => ?_
  cases refused with
  | none => exact .pure 0
  | some reason => exact failTransfer_talks writes reason _

theorem finishSend_talks : Talks P stream (finishSend fs i) := by
  refine .bind (.step fun l mine => (replaceDestination_parse fs i l).stream.trans mine)
    fun ret => .ite (failTransfer_talks writes _ _) ?_
  refine .bind (respond_talks writes _) fun ret => .ite ?_ (.pure ret)
  exact .bind (goTo_talks _) fun _ => .pure ret

theorem specPass_talks (data : List UInt8) : Talks P stream (specPass fs i data) := by
  refine .read fun l _ => .bind (.update fun _ mine => mine) fun _ => .ite (.ite ?_ ?_) (.pure _)
  · exact .bind (sendStat_talks writes) fun ret => .pure _
  · exact .bind (startSend_talks writes) fun ret => .pure _

theorem storeData_talks (chunk : List UInt8) (left : Nat) :
    Talks P stream (storeData fs i chunk left) := by
  refine .bind (.step fun _ mine => mine) fun written => .bind (.update fun _ mine => mine)
    fun _ => ?_
  refine .ite ?_ (.ite ?_ (.pure 0))
  · exact .bind (failTransfer_talks writes _ _) fun ret => .ite (.pure _) (.pure _)
  · exact .bind (goTo_talks _) fun _ => .pure 0

theorem dataPass_talks (data : List UInt8) : Talks P stream (dataPass fs i data) :=
  .read fun _ _ => .bind (storeData_talks writes _ _) fun _ => .pure _

end Writes

abbrev Owned (s : Slot cfg) {α : Type} (m : Run cfg φ α) : Prop :=
  Talks (StreamCall.Within (· = s)) (some s) m

variable (id : UInt32)

theorem owned_writes (response : List UInt8) :
    StreamCall.Within (· = s) (.write (some s) 0 response : StreamCall cfg) :=
  within_write rfl 0 response

theorem hangUp_owned : Owned s (hangUp : Run cfg φ Unit) := hangUp_talks (within_close rfl 0)

theorem processRequest_owned (value : UInt32) :
    Owned s (processRequest id value : Run cfg φ Int) := by
  refine .ite (.bind hangUp_owned fun _ => .pure 0) (.ite ?_ ?_)
  · exact .bind (.update fun _ mine => mine) fun _ => .pure 0
  · refine .bind (respond_talks owned_writes _) fun ret => .ite (.pure _) ?_
    exact .bind (.update fun _ mine => mine) fun _ => .bind hangUp_owned fun _ => .pure 0

theorem processDrain_owned (value : UInt32) : Owned s (processDrain id value : Run cfg φ Int) := by
  refine .ite (.bind (goTo_talks _) fun _ => .pure 0) (.ite ?_ ?_)
  · exact .bind hangUp_owned fun _ => .pure 0
  · exact .bind (beginData_talks _ _ _) fun _ => .pure 0

theorem processRecord_owned (value : UInt32) : Owned s (processRecord fs i id value) := by
  refine .ite (finishSend_talks owned_writes) (.ite ?_ ?_)
  · exact .bind (failTransfer_talks owned_writes _ _) fun ret => .bind hangUp_owned fun _ =>
      .pure ret
  · exact .bind (beginData_talks _ _ _) fun _ => .pure 0

theorem processHeader_owned : Owned s (processHeader fs i) := by
  refine .read fun l _ => .bind (.update fun _ mine => mine) fun _ => ?_
  unfold processIn
  split
  · exact processRequest_owned _ _
  · exact processDrain_owned _ _
  · exact processRecord_owned _ _

variable (data : List UInt8)

theorem headerPass_owned : Owned s (headerPass fs i data) := by
  refine .read fun l _ => .bind (.update fun _ mine => mine) fun _ => .ite ?_ (.pure _)
  exact .bind processHeader_owned fun ret => .pure _

theorem drainPass_owned : Owned s (drainPass data : Run cfg φ _) := by
  refine .read fun l _ => .bind (.update fun _ mine => mine) fun _ => .ite (.ite ?_ ?_) (.pure _)
  · exact .bind hangUp_owned fun _ => .pure _
  · exact .bind (goTo_talks _) fun _ => .pure _

theorem syncPass_owned : Owned s (syncPass fs i data) := by
  refine .read fun l _ => ?_
  split
  iterate 3
    · exact headerPass_owned data
  iterate 2
    · exact specPass_talks owned_writes data
  · exact dataPass_talks owned_writes data
  · exact drainPass_owned data
  · exact .ite (.pure _) (drainPass_owned data)

theorem syncLoop_owned (passes : Nat) (data : List UInt8) :
    Owned s (syncLoop fs i passes data) := by
  induction passes generalizing data with
  | zero => exact .pure 0
  | succ passes ih =>
    refine .ite (.pure 0) (.bind (syncPass_owned data) fun out => ?_)
    obtain ⟨exit, rest⟩ := out
    cases exit with
    | none => exact ih rest
    | some ret => exact .pure ret

section Callbacks

variable {st : Statics cfg φ}

theorem syncOpen_meets (st : Statics cfg φ) (s : Slot cfg) (suffix : List UInt8) :
    (syncOpen st s suffix).Meets (StreamCall.Within (· = s))
      (fun out => Opened SyncContext.stream (SyncContext.zero cfg) st.contexts s out.1
        out.2.contexts) := by
  unfold syncOpen
  split_ifs
  · exact .inl ⟨show -EINVAL ≠ 0 by decide, rfl⟩
  · cases free : st.first fun c => c.stream.isNone with
    | none => exact .inl ⟨show -ENOSPC ≠ 0 by decide, rfl⟩
    | some i =>
      have test := List.find?_some free
      exact .inr ⟨i, _, by simpa using test, rfl, rfl⟩

theorem syncWrite_meets (fs : FileSystem Path (Slot cfg) UInt8 φ) (st : Statics cfg φ)
    (s : Slot cfg) (data : List UInt8) :
    (syncWrite fs st s data).Meets (StreamCall.Within (· = s))
      (fun out => Worked SyncContext.stream st.contexts out.2.contexts) := by
  unfold syncWrite
  cases found : findContext st s with
  | none => exact .inl rfl
  | some i =>
    have mine : (st.enter i).ctx.stream = some s := findContext_stream found
    refine (syncLoop_owned (data.length + 1) data _ mine).bind fun out kept => .inr ?_
    exact ⟨i, out.2.ctx, kept.trans mine.symm, rfl⟩

theorem syncClose_closed (fs : FileSystem Path (Slot cfg) UInt8 φ) (st : Statics cfg φ)
    (s : Slot cfg) : Closed SyncContext.stream (SyncContext.zero cfg) st.contexts s
      (syncClose fs st s).contexts := by
  unfold syncClose
  cases found : findContext st s with
  | none =>
    refine .inl ⟨fun i => ?_, rfl⟩
    have test := List.find?_eq_none.mp found i (List.mem_finRange i)
    simpa using test
  | some i => exact .inr ⟨i, findContext_stream found, rfl⟩

end Callbacks

end Webos.Adb.Sync
